import Rszigbee.Moves
import Rszigbee.System

/-! The stored records against the device table.
Every handler decides for itself whether to write what it changed through to the store. -/
namespace Rszigbee

/-- What is on record about a device. -/
structure Facts where
  nwk : Nwk
  kind : DeviceKind
  powerSource : PowerSource
  basic : BasicInfo
  endpoints : List EndpointInfo

def Entry.facts (e : Entry) : Facts where
  nwk := e.info.nwk
  kind := e.info.kind
  powerSource := e.info.powerSource
  basic := e.info.basic
  endpoints := e.info.endpoints

def PersistedDevice.facts (d : PersistedDevice) : Facts where
  nwk := d.nwk
  kind := d.kind
  powerSource := d.powerSource
  basic := d.basic
  endpoints := d.endpoints

@[simp] theorem facts_persistedFromEntry (e : Entry) : (persistedFromEntry e).facts = e.facts := rfl

/-- Every stored record is kept under its own address. -/
def Store.Keyed (store : Store) : Prop := ∀ i d, store.devices.lookup i = some d → d.ieee = i

namespace View

variable {E : Engine}

section Agreement

def factsOf (v : View E) (i : Ieee) : Option Facts := (v.devices.get i).map Entry.facts

/-- The store has a record of exactly the devices in the table other than the coordinator, with
the facts in the table. -/
def Agreed (v : View E) : Prop := ∀ i,
  (v.stored.lookup i).map PersistedDevice.facts = if i = v.coordinator then none else v.factsOf i

/-- What the agreement is about. -/
def records (v : View E) : Ieee × (Ieee → Option Facts) × Table Ieee PersistedDevice :=
  (v.coordinator,v.factsOf,v.stored)

theorem agreed_congr {v v' : View E} (h : v'.records = v.records) : v'.Agreed ↔ v.Agreed := by
  simp only [records,Prod.mk.injEq] at h
  obtain ⟨hcoordinator,hfacts,hstored⟩ := h
  rw [Agreed,Agreed,hcoordinator,hfacts,hstored]

theorem factsOf_modify (v : View E) (ieee : Ieee) {f : Entry → Entry}
    (h : ∀ e, (f e).facts = e.facts) : (v.modify ieee f).factsOf = v.factsOf := by
  funext i
  exact Inventory.map_get_modify _ _ _ h

theorem records_path {allowed : Ieee → Mark → Prop} {v v' : View E} (h : Path allowed v v') :
    v'.records = v.records := by
  refine h.invariant (P := fun w => w.records = v.records) (fun w w' hlast ih => ?_) rfl
  rw [← ih]
  cases hlast with
  | @mark ieee m _ =>
    rw [records,factsOf_modify w ieee fun e => by cases m <;> rfl]
    rfl
  | @assess ieee e _ a evidence =>
    have hwrite : (w.modify ieee a.write).records = w.records := by
      have hsame : (w.modify ieee a.write).factsOf = w.factsOf := factsOf_modify w ieee fun _ => rfl
      rw [records,hsame]
      rfl
    rw [assess]
    split
    · exact hwrite
    · exact hwrite
  | note _ => rfl

/-- Nothing about any other device differs. -/
structure Only (a : Ieee) (v v' : View E) : Prop where
  coordinator : v'.coordinator = v.coordinator
  table : ∀ i, i ≠ a → v'.factsOf i = v.factsOf i
  stored : ∀ i, i ≠ a → v'.stored.lookup i = v.stored.lookup i

namespace Only

variable {a : Ieee}

theorem of_records {v v' : View E} (h : v'.records = v.records) : Only a v v' := by
  simp only [records,Prod.mk.injEq] at h
  obtain ⟨hcoordinator,hfacts,hstored⟩ := h
  exact ⟨hcoordinator,fun i _ => by rw [hfacts],fun i _ => by rw [hstored]⟩

theorem trans {v w x : View E} (h : Only a v w) (h' : Only a w x) : Only a v x where
  coordinator := h'.coordinator.trans h.coordinator
  table i hi := (h'.table i hi).trans (h.table i hi)
  stored i hi := (h'.stored i hi).trans (h.stored i hi)

theorem modify (v : View E) (f : Entry → Entry) : Only a v (v.modify a f) where
  coordinator := rfl
  table i hi := by
    rw [factsOf,View.modify,Inventory.modify_get,if_neg hi,factsOf]
  stored _ _ := rfl

theorem readdress (v : View E) (nwk : Nwk) : Only a v (v.readdress a nwk) where
  coordinator := readdress_coordinator _ _ _
  table i hi := by
    rw [factsOf,readdress_get,if_neg hi,factsOf]
  stored i _ := by
    rw [readdress_stored]

theorem arrive (v : View E) (nwk : Nwk) (wall : SystemTime) : Only a v (v.arrive a nwk wall) := by
  rw [View.arrive]
  split
  · exact (readdress v nwk).trans (of_records rfl)
  · refine ⟨rfl,fun i hi => ?_,fun _ _ => rfl⟩
    have hget := Inventory.insert_get v.devices i (newEntry a nwk wall)
    rw [if_neg (by exact hi)] at hget
    rw [factsOf,factsOf,← hget]
    rfl

theorem persist {v : View E} (h : v.devices.Sound) (answer : WriteAnswer) :
    Only a v (v.persist a answer) where
  coordinator := persist_coordinator _ _ _
  table i _ := by
    rw [factsOf,persist_devices,factsOf]
  stored i hi := by
    rw [View.persist]
    split
    · rfl
    · rename_i e he
      split
      · rw [Table.lookup_insert_eq,h.keyed a e he,if_neg hi]
      · rfl

end Only

/-- What is stored of a device in the table is what the table says. -/
def Wrote (v : View E) (a : Ieee) : Prop :=
  (v.stored.lookup a).map PersistedDevice.facts = v.factsOf a

theorem wrote_persist {v : View E} (h : v.devices.Sound) {a : Ieee} (hknown : (v.factsOf a).isSome = true) :
    (v.persist a .done).Wrote a := by
  rw [Wrote,factsOf,persist_devices,View.persist]
  cases hg : v.devices.get a with
  | none => simp [factsOf,hg] at hknown
  | some e =>
    have hkey := h.keyed a e hg
    simp only [WriteAnswer.effective,if_true,hkey,Table.lookup_insert_eq,Option.map_some,
      facts_persistedFromEntry]

/-- Writing one device through keeps the agreement unless the device is the coordinator. -/
theorem agreed_iff_of_wrote {a : Ieee} {v v' : View E} (h : v.Agreed) (honly : Only a v v')
    (hknown : (v'.factsOf a).isSome = true) (hwrote : v'.Wrote a) :
    v'.Agreed ↔ a ≠ v.coordinator := by
  constructor
  · rintro h' rfl
    have hnone := h' v.coordinator
    rw [honly.coordinator,if_pos rfl,hwrote] at hnone
    simp [hnone] at hknown
  · intro hne i
    rw [honly.coordinator]
    by_cases hi : i = a
    · rw [hi,if_neg hne]
      exact hwrote
    · rw [honly.stored i hi,honly.table i hi]
      exact h i

theorem agreed_expel {v : View E} (h : v.Agreed) (a : Ieee) : (v.expel a .done).Agreed := by
  intro i
  have hget := Inventory.remove_get v.devices a i
  have hlook := Table.lookup_erase_eq v.stored a i
  have hstored : (v.expel a .done).stored = v.stored.erase a := rfl
  have hdevices : (v.expel a .done).devices = (v.devices.remove a).1 := rfl
  have hcoordinator : (v.expel a .done).coordinator = v.coordinator := rfl
  rw [hcoordinator,hstored,hlook,factsOf,hdevices,hget]
  by_cases hi : i = a
  · rw [if_pos hi,if_pos hi]
    simp
  · rw [if_neg hi,if_neg hi]
    exact h i

/-- Moving a device in the table only keeps the agreement unless it really moved. -/
theorem agreed_readdress {v : View E} (h : v.Agreed) (a : Ieee) (nwk : Nwk) :
    (v.readdress a nwk).Agreed ↔
      (a ≠ v.coordinator → ∀ n, v.devices.nwkOf a = some n → n = nwk) := by
  have honly := Only.readdress (a := a) v nwk
  have hthis : (v.readdress a nwk).factsOf a = (v.factsOf a).map fun f => { f with nwk := nwk } := by
    rw [factsOf,readdress_get,if_pos rfl,factsOf,Option.map_map,Option.map_map]
    rfl
  have hnwk : v.devices.nwkOf a = (v.factsOf a).map Facts.nwk := by
    rw [Inventory.nwkOf,factsOf,Option.map_map]
    rfl
  constructor
  · intro h' hne n hn
    have hold := h a
    have hnew := h' a
    rw [readdress_coordinator,readdress_stored,if_neg hne,hthis] at hnew
    rw [if_neg hne,hnew] at hold
    rw [hnwk] at hn
    obtain ⟨f,hf,rfl⟩ := Option.map_eq_some_iff.mp hn
    rw [hf,Option.map_some,Option.some.injEq] at hold
    exact (congrArg Facts.nwk hold).symm
  · intro hmoved i
    rw [readdress_coordinator,readdress_stored]
    by_cases hi : i = a
    · subst hi
      have hold := h i
      by_cases hc : i = v.coordinator
      · rw [if_pos hc] at hold ⊢
        exact hold
      · rw [if_neg hc] at hold ⊢
        rw [hold,hthis]
        cases hf : v.factsOf i with
        | none => rfl
        | some f =>
          have hn := hmoved hc f.nwk (by rw [hnwk,hf]; rfl)
          rw [Option.map_some,← hn]
    · rw [honly.table i hi]
      exact h i

/-- What an interview's update keeps, from `v` on: a known device stays known and written
through, and for an unknown one nothing happens. -/
structure Through (a : Ieee) (v w : View E) : Prop where
  sound : w.devices.Sound
  only : Only a v w
  known : (v.devices.get a).isSome = true → (w.factsOf a).isSome = true
  unknown : v.devices.get a = none → w.devices.get a = none ∧ w.records = v.records

/-- An edit that is written down keeps it, and leaves a known device's record right. -/
theorem Through.edit {a : Ieee} {v w : View E} (h : Through a v w) {g : Entry → Entry}
    (hg : Edit g) : Through a v ((w.modify a g).persist a .done) ∧
      ((v.devices.get a).isSome = true → ((w.modify a g).persist a .done).Wrote a) := by
  have hsound : (w.modify a g).devices.Sound := sound_modify h.sound a hg.ieee hg.nwk
  have hmodified : (v.devices.get a).isSome = true →
      ((w.modify a g).factsOf a).isSome = true := by
    intro hknown
    have hold := h.known hknown
    rw [factsOf,View.modify,Inventory.modify_get,if_pos rfl]
    simpa [factsOf] using hold
  refine ⟨⟨(persist_devices _ _ _).symm ▸ hsound,?_,?_,?_⟩,?_⟩
  · exact (h.only.trans (Only.modify w g)).trans (Only.persist hsound .done)
  · intro hknown
    rw [factsOf,persist_devices]
    exact hmodified hknown
  · intro hunknown
    obtain ⟨hgone,hsame⟩ := h.unknown hunknown
    have hmodify : w.modify a g = w := by
      rw [View.modify,Inventory.modify,hgone]
    have hpersist : w.persist a .done = w := by
      rw [View.persist,hgone]
    rw [hmodify,hpersist]
    exact ⟨hgone,hsame⟩
  · intro hknown
    exact wrote_persist hsound (hmodified hknown)

theorem Through.rewrites {a : Ieee} {v w v' : View E}
    (hw : Through a v w ∧ ((v.devices.get a).isSome = true → w.Wrote a))
    (hrewrites : Rewrites (fun answer => answer = .done) a w v') :
    Through a v v' ∧ ((v.devices.get a).isSome = true → v'.Wrote a) := by
  refine Rewrites.invariant (P := fun u => Through a v u ∧
    ((v.devices.get a).isSome = true → u.Wrote a)) hrewrites (fun u u' hlast hu => ?_) hw
  obtain ⟨hthrough,hwrote⟩ := hu
  cases hlast with
  | @edit g hg answer hdone =>
    subst hdone
    exact hthrough.edit hg
  | note _ =>
    refine ⟨⟨hthrough.sound,hthrough.only.trans (.of_records rfl),hthrough.known,?_⟩,hwrote⟩
    exact hthrough.unknown

/-- What an interview's update comes to, store operations succeeding. -/
theorem agreed_update {a : Ieee} {f : Entry → Entry} {v v' : View E} (hsound : v.devices.Sound)
    (h : v.Agreed) (hf : Edit f)
    (hrewrites : Rewrites (fun answer => answer = .done) a ((v.modify a f).persist a .done) v') :
    v'.Agreed ↔ (a = v.coordinator → v.devices.get a = none) := by
  have hfirst : Through a v v := by
    refine ⟨hsound,.of_records rfl,fun hknown => ?_,fun hunknown => ⟨hunknown,rfl⟩⟩
    simpa [factsOf] using hknown
  obtain ⟨hthrough,hwrote⟩ := Through.rewrites (hfirst.edit hf) hrewrites
  cases hg : v.devices.get a with
  | none =>
    rw [agreed_congr (hthrough.unknown hg).2]
    simp [h]
  | some e =>
    have hknown : (v.devices.get a).isSome = true := by
      rw [hg]
      rfl
    rw [agreed_iff_of_wrote h hthrough.only (hthrough.known hknown) (hwrote hknown)]
    simp

end Agreement

end View

namespace Task

open View

variable {E : Engine}

theorem keyed_persist {v : View E} (h : ∀ i d, v.stored.lookup i = some d → d.ieee = i)
    (ieee : Ieee) (answer : WriteAnswer) :
    ∀ i d, (v.persist ieee answer).stored.lookup i = some d → d.ieee = i := by
  intro i d hd
  rw [View.persist] at hd
  split at hd
  · exact h i d hd
  · split at hd
    · rw [Table.lookup_insert_eq] at hd
      split at hd
      · rename_i hi
        cases hd
        exact hi.symm
      · exact h i d hd
    · exact h i d hd

/-- Records go on being stored under their own addresses. -/
theorem keyed_step (t : Task E) (i : Input E) (h : t.store.Keyed) : (t.step i).store.Keyed := by
  by_cases hstopped : t.stopped = true
  · rw [step_stopped hstopped]
    exact h
  · have hmove := move (by simpa using hstopped) i
    show ∀ j d, (t.step i).view.stored.lookup j = some d → d.ieee = j
    generalize (t.step i).view = v at hmove
    have hpath {allowed : Ieee → Mark → Prop} {w w' : View E} (h : Path allowed w w') :
        w'.stored = w.stored := congrArg (fun r => r.2.2) (records_path h)
    cases hmove with
    | aside _ h' =>
      rw [hpath h']
      exact h
    | @joined ieee nwk origin env a w _ h' =>
      have harrive : (t.view.arrive a nwk (env 0).wall).stored = t.store.devices := by
        rw [arrive]
        split
        · exact readdress_stored _ _ _
        · rfl
      have hinvite : ((w.persist a (env 0).upsertDevice).invite a).stored =
          (w.persist a (env 0).upsertDevice).stored := by
        rw [invite]
        split <;> rfl
      rw [hinvite]
      refine keyed_persist ?_ _ _
      rw [hpath h',harrive]
      exact h
    | @left _ _ _ env a _ =>
      intro j d hd
      rw [expel,View.note] at hd
      split at hd
      · rw [Table.lookup_erase_eq] at hd
        split at hd
        · cases hd
        · exact h j d hd
      · exact h j d hd
    | frame _ h' =>
      rw [hpath h',readdress_stored]
      exact h
    | interview _ => exact h
    | @update ieee _ _ f _ _ _ hrewrites =>
      refine hrewrites.invariant (P := fun w => ∀ j d, w.stored.lookup j = some d → d.ieee = j)
        (fun w w' hlast hw => ?_) (keyed_persist (v := t.view.modify ieee f) h _ _)
      cases hlast with
      | @edit g _ _ _ => exact keyed_persist (v := w.modify ieee g) hw _ _
      | note _ => exact hw

/-- The store's writes of device records succeed. -/
def Writes : Input E → Prop
  | .request _ env | .event _ _ env => ∀ k, (env k).upsertDevice = .done ∧ (env k).deleteDevice = .done
  | _ => True

/-- No frame moves a device other than the coordinator, nobody joins as the coordinator, and
the coordinator is not interviewed. -/
def KeepsRecords (t : Task E) : Input E → Prop
  | .event (.deviceJoined ieee nwk) _ _ => t.stopped = false →
    (ieee <|> t.devices.resolve nwk) ≠ some t.coordinator
  | .event (.zcl rx) _ _ => t.stopped = false → ∀ a, t.senderOf rx = some a → a ≠ t.coordinator →
    ∀ n, t.devices.nwkOf a = some n → n = rx.nwk
  | .request (.interviewUpdate _ (.step _)) _ => True
  | .request (.interviewUpdate ieee _) _ => t.stopped = false → ieee = t.coordinator →
    t.devices.get ieee = none
  | _ => True

theorem keepsRecords_of_stopped {t : Task E} (h : t.stopped = true) (i : Input E) :
    t.KeepsRecords i := by
  unfold KeepsRecords
  split <;> simp [h]

theorem keepsRecords_of_subject {t : Task E} {i : Input E} (h : t.subject i = none) :
    t.KeepsRecords i := by
  unfold KeepsRecords
  split
  · intro _ ha
    have hnone : (none : Option Ieee) = some t.coordinator := h.symm.trans ha
    simp at hnone
  · intro _ a ha
    have hnone : (none : Option Ieee) = some a := h.symm.trans ha
    simp at hnone
  · trivial
  · rename_i ieee update env hupdate
    have hsome : t.subject (.request (.interviewUpdate ieee update) env) = some ieee := by
      cases update with
      | step step => exact (hupdate step rfl).elim
      | _ => rfl
    rw [h] at hsome
    simp at hsome
  · trivial

theorem known_arrive (v : View E) (a : Ieee) (nwk : Nwk) (wall : SystemTime) :
    ((v.arrive a nwk wall).factsOf a).isSome = true := by
  rw [arrive]
  by_cases hknown : (v.devices.get a).isSome = true
  · have hget := readdress_get v a nwk a
    rw [if_pos hknown,factsOf,View.note,hget,if_pos rfl]
    simpa using hknown
  · have hget : (v.devices.insert (newEntry a nwk wall)).get a = some (newEntry a nwk wall) :=
      (Inventory.insert_get _ _ _).trans (if_pos rfl)
    rw [if_neg hknown,factsOf,View.enrol,View.note,hget]
    rfl

/-- A device that joins is written down, the coordinator too. -/
theorem agreed_joined {allowed : Ieee → Mark → Prop} {t : Task E} {a : Ieee} {nwk : Nwk}
    {wall : SystemTime} {w : View E} (hsound : t.devices.Sound) (h : t.view.Agreed)
    (hpath : Path allowed (t.view.arrive a nwk wall) w) :
    ((w.persist a .done).invite a).Agreed ↔ a ≠ t.view.coordinator := by
  have hsound' : w.devices.Sound := sound_path hpath (sound_arrive (v := t.view) hsound _ _ _)
  have honly : Only a t.view w := (Only.arrive _ _ _).trans (.of_records (records_path hpath))
  have hknown : (w.factsOf a).isSome = true := by
    have hfacts : w.factsOf = (t.view.arrive a nwk wall).factsOf :=
      congrArg (fun r => r.2.1) (records_path hpath)
    rw [hfacts]
    exact known_arrive _ _ _ _
  have hinvite : ((w.persist a .done).invite a).records = (w.persist a .done).records := by
    rw [invite]
    split <;> rfl
  rw [agreed_congr hinvite]
  refine agreed_iff_of_wrote h (honly.trans (.persist hsound' _)) ?_ (wrote_persist hsound' hknown)
  rw [factsOf,persist_devices]
  exact hknown

/-- While writes succeed, a turn keeps records and table in agreement exactly when it is not
one of the three kinds that do not write through, or write what should not be stored. -/
theorem agreed_step {t : Task E} (i : Input E) (hwrites : Writes i) (hsound : t.devices.Sound)
    (h : t.view.Agreed) : (t.step i).view.Agreed ↔ t.KeepsRecords i := by
  by_cases hstopped : t.stopped = true
  · rw [step_stopped hstopped]
    exact iff_of_true h (keepsRecords_of_stopped hstopped i)
  · have hrun : t.stopped = false := by simpa using hstopped
    have hmove := move hrun i
    generalize (t.step i).view = v at hmove
    cases hmove with
    | aside hi hpath =>
      rw [agreed_congr (records_path hpath)]
      exact iff_of_true h (keepsRecords_of_subject hi)
    | @joined ieee nwk origin env a w ha hpath =>
      obtain ⟨hupsert,-⟩ := hwrites 0
      rw [hupsert,agreed_joined hsound h hpath]
      constructor
      · intro hne _ he
        exact hne (Option.some.inj (ha.symm.trans he))
      · intro hne he
        exact hne hrun (ha.trans (congrArg some he))
    | @left ieee nwk origin env a ha =>
      obtain ⟨-,hdelete⟩ := hwrites 0
      rw [hdelete]
      exact iff_of_true (agreed_expel h a) trivial
    | @frame rx origin env a v ha hpath =>
      rw [agreed_congr (records_path hpath),agreed_readdress h a rx.nwk]
      exact (running_iff (P := fun b => b ≠ t.coordinator → ∀ n,
        t.devices.nwkOf b = some n → n = rx.nwk) hrun ha).symm
    | interview hknown => exact iff_of_true h trivial
    | @update ieee update env f v hu hf hrewrites =>
      have hdone : ∀ k, (env k).upsertDevice = .done := fun k => (hwrites k).1
      rw [hdone 0] at hrewrites
      have hrewrites' : Rewrites (fun answer => answer = .done) ieee
          ((t.view.modify ieee f).persist ieee .done) v := by
        refine hrewrites.mono fun answer hanswer => ?_
        obtain ⟨k,rfl⟩ := hanswer
        exact hdone k
      rw [agreed_update hsound h hf hrewrites']
      cases update with
      | step step => simp [subject] at hu
      | _ =>
        constructor
        · intro hgone _ he
          exact hgone he
        · intro hgone he
          exact hgone hrun he

section Start

variable {config : TaskConfig E} (env : Env)

/-- What is restored is what is stored. -/
theorem restored_get (h : config.store.Keyed)
    (hdevices : config.devices = config.store.devices.entries.map Sigma.snd) (i : Ieee) :
    (Inventory.new.restore config.devices).get i =
      (config.store.devices.lookup i).map entryFromPersisted := by
  have hkeys : config.devices.map PersistedDevice.ieee = config.store.devices.keys := by
    rw [hdevices,List.map_map]
    refine List.map_congr_left fun entry hentry => ?_
    exact h entry.1 entry.2 (Table.lookup_eq_some.mpr hentry)
  cases hd : config.store.devices.lookup i with
  | none =>
    have hnot : i ∉ config.devices.map PersistedDevice.ieee := by
      rw [hkeys]
      exact AList.lookup_eq_none.mp hd
    exact Inventory.restore_get_of_not_mem _ _ _ hnot
  | some d =>
    have hnodup : (config.devices.map PersistedDevice.ieee).Nodup := by
      rw [hkeys]
      exact config.store.devices.nodupKeys
    have hmem : d ∈ config.devices := by
      rw [hdevices]
      exact List.mem_map_of_mem (f := Sigma.snd) (Table.lookup_eq_some.mp hd)
    have hget := Inventory.restore_get config.devices .new hnodup hmem
    rw [h i d hd] at hget
    exact hget

/-- A start restores what is stored; the coordinator alone must not have been. -/
theorem agreed_start (h : config.store.Keyed)
    (hdevices : config.devices = config.store.devices.entries.map Sigma.snd) :
    (start config env).view.Agreed ↔ config.store.devices.lookup config.coordinator = none := by
  have hcoordinator : (start config env).view.coordinator = config.coordinator :=
    coordinator_start config env
  have hstored : (start config env).view.stored = config.store.devices := stored_start config env
  have hother (i : Ieee) (hi : i ≠ config.coordinator) :
      (start config env).view.factsOf i =
        (config.store.devices.lookup i).map PersistedDevice.facts := by
    have hget : (start config env).devices.get i = (Inventory.new.restore config.devices).get i := by
      rw [devices_start]
      split
      · rfl
      · rw [Inventory.insert_get]
        exact if_neg hi
    have hview : (start config env).view.devices = (start config env).devices := rfl
    rw [factsOf,hview,hget,restored_get h hdevices,Option.map_map]
    rfl
  constructor
  · intro hagreed
    have hnone := hagreed config.coordinator
    rw [hcoordinator,hstored,if_pos rfl] at hnone
    simpa using hnone
  · intro hnone i
    rw [hcoordinator,hstored]
    by_cases hi : i = config.coordinator
    · rw [if_pos hi,hi,hnone]
      rfl
    · rw [if_neg hi,hother i hi]

end Start

/-- The store has a record of exactly the devices in the table other than the coordinator, and
each agrees with the table on network address, kind, power source, basic information and
endpoints. -/
def RecordsAgree (t : Task E) : Prop := ∀ i,
  (t.store.devices.lookup i).map PersistedDevice.facts =
    if i = t.coordinator then none else (t.devices.get i).map Entry.facts

end Task

namespace System

open View

variable {E : Engine}

def RecordsAgree : System E → Prop
  | off _ => True
  | on t => t.RecordsAgree

def Writes : SystemInput E → Prop
  | .task i => Task.Writes i
  | _ => True

/-- The coordinator of a start has no stored record, and no turn loses or adds one. -/
def KeepsRecords : System E → SystemInput E → Prop
  | off store, .start builder answers => ∀ config, builder.start store answers = .ok config →
    store.devices.lookup config.coordinator = none
  | on t, .task i => t.KeepsRecords i
  | _, _ => True

/-- The device table is in order, and records are stored under their own addresses. -/
def Ordered : System E → Prop
  | off store => store.Keyed
  | on t => t.devices.Sound ∧ t.store.Keyed

theorem ordered_step (s : System E) (i : SystemInput E) (h : s.Ordered) : (s.step i).Ordered := by
  cases s with
  | off store =>
    cases i with
    | start builder answers =>
      cases hconfig : builder.start store answers with
      | error e =>
        rw [step,hconfig]
        exact h
      | ok config =>
        obtain ⟨rfl,-⟩ := ZigbeeBuilder.start_ok hconfig
        rw [step,hconfig]
        refine ⟨Task.inventory_sound_start _ _,?_⟩
        rw [Store.Keyed,Task.stored_start]
        exact h
    | task i => exact h
    | crash => exact h
  | on t =>
    cases i with
    | start builder answers => exact h
    | task i => exact ⟨Task.inventory_sound_step t i h.1,Task.keyed_step t i h.2⟩
    | crash => exact h.2

theorem recordsAgree_step (s : System E) (i : SystemInput E) (hwrites : Writes i) (hordered : s.Ordered)
    (h : s.RecordsAgree) : (s.step i).RecordsAgree ↔ s.KeepsRecords i := by
  cases s with
  | off store =>
    cases i with
    | start builder answers =>
      rw [step,KeepsRecords]
      cases hconfig : builder.start store answers with
      | error e => exact iff_of_true trivial nofun
      | ok config =>
        obtain ⟨rfl,hdevices,-⟩ := ZigbeeBuilder.start_ok hconfig
        have hagreed : (Task.start config answers.startup).view.Agreed ↔ _ :=
          Task.agreed_start answers.startup hordered hdevices
        refine Iff.trans hagreed ⟨fun hnone config' hconfig' => ?_,fun hnone => hnone config rfl⟩
        obtain rfl := Except.ok.inj hconfig'
        exact hnone
    | task i => exact iff_of_true trivial trivial
    | crash => exact iff_of_true trivial trivial
  | on t =>
    cases i with
    | start builder answers => exact iff_of_true h trivial
    | task i => exact Task.agreed_step i hwrites hordered.1 h
    | crash => exact iff_of_true trivial trivial

/-- As long as writes succeed, the records of a runtime agree with its device table throughout
its life exactly when no turn and no start is one of those that do not keep them. -/
theorem records_agree_iff {store : Store} (hkeyed : store.Keyed) {is : List (SystemInput E)}
    (hwrites : ∀ i ∈ is, Writes i) :
    (∀ pre, pre <+: is → (Runs.run step (off store) pre).RecordsAgree) ↔
      Runs.Meets step KeepsRecords (off store) is :=
  Runs.always_iff_meets_of step (fun s i _ => ordered_step s i) recordsAgree_step
    (show (off store : System E).Ordered from hkeyed) trivial is hwrites

section Moved

/-- A coordinator with a network is started on. -/
def startsBare : SystemInput Engine.bare := .start {
    network := { panId := none, extendedPanId := none, channel := 11, networkKey := none, onMismatch := .form }
    backup := none
    reachability := silencePolicy defaultSilenceLimit
    interviewOnJoin := false
    registry := () } { adapterStart := .ok .formed, coordinatorIeee := .ok ⟨0xc0⟩ }

theorem step_startsBare : (off Store.new).step startsBare = on Task.fresh := rfl

/-- A frame of device `a` from its new short address. -/
def hears (ieee : Ieee) (nwk : Nwk) : Input Engine.bare :=
  .event (.zcl {
    ieee := some ieee
    nwk := nwk
    endpoint := ⟨1⟩
    destinationEndpoint := ⟨1⟩
    cluster := ⟨0x0006⟩
    group := none
    wasBroadcast := false
    linkQuality := none
    frame := [] }) none fun _ => {}

/-- A device joins and is heard from where it joined. -/
def settled : List (SystemInput Engine.bare) :=
  [startsBare,.task (Task.joins ⟨0xa⟩ ⟨0x1001⟩),.task (hears ⟨0xa⟩ ⟨0x1001⟩)]

theorem settled_records_agree : Runs.Meets step KeepsRecords (off Store.new) settled ∧
    ∀ pre, pre <+: settled → (Runs.run step (off Store.new) pre).RecordsAgree := by
  have hkeyed : Store.new.Keyed := fun i d hd => by simp [Store.new] at hd
  have hwrites : ∀ i ∈ settled, Writes i := by
    intro i hi
    simp only [settled,List.mem_cons,List.not_mem_nil,or_false] at hi
    rcases hi with rfl | rfl | rfl
    · trivial
    · exact fun _ => ⟨rfl,rfl⟩
    · exact fun _ => ⟨rfl,rfl⟩
  have hkeeps : Runs.Meets step KeepsRecords (off Store.new) settled := by
    refine ⟨fun _ _ => rfl,?_,?_,trivial⟩
    · rw [step_startsBare]
      intro _ ha
      rw [Task.fresh_eq] at ha
      revert ha
      decide
    · rw [step_startsBare]
      intro _ a ha _ n hn
      obtain rfl : (⟨0xa⟩ : Ieee) = a := Option.some.inj ha
      have hnwk : (Task.step Task.fresh (Task.joins ⟨0xa⟩ ⟨0x1001⟩)).devices.nwkOf ⟨0xa⟩ =
          some ⟨0x1001⟩ := by
        rw [Task.fresh_eq]
        rfl
      exact Option.some.inj (hn.symm.trans hnwk)
  exact ⟨hkeeps,(records_agree_iff hkeyed hwrites).mpr hkeeps⟩

/-- A device joins and is heard from at another address. -/
def moved : List (SystemInput Engine.bare) :=
  [startsBare,.task (Task.joins ⟨0xa⟩ ⟨0x1001⟩),.task (hears ⟨0xa⟩ ⟨0x1002⟩)]

/-- Its record keeps the old address. -/
theorem moved_record_is_stale : ¬ ∀ is : List (SystemInput Engine.bare), (∀ i ∈ is, Writes i) →
    ∀ pre, pre <+: is → (Runs.run step (off Store.new) pre).RecordsAgree := by
  intro h
  have hwrites : ∀ i ∈ moved, Writes i := by
    intro i hi
    simp only [moved,List.mem_cons,List.not_mem_nil,or_false] at hi
    rcases hi with rfl | rfl | rfl
    · trivial
    · exact fun _ => ⟨rfl,rfl⟩
    · exact fun _ => ⟨rfl,rfl⟩
  have hagree := h moved hwrites moved List.prefix_rfl
  have hrun : Runs.run step (off Store.new) moved = on (Runs.run Task.step Task.fresh
      [Task.joins ⟨0xa⟩ ⟨0x1001⟩,hears ⟨0xa⟩ ⟨0x1002⟩]) := by
    rw [moved,Runs.run_cons,step_startsBare]
    rfl
  rw [hrun] at hagree
  have hat := congrArg (Option.map Facts.nwk) (hagree ⟨0xa⟩)
  rw [Task.fresh_eq] at hat
  revert hat
  decide

end Moved

end System
end Rszigbee
