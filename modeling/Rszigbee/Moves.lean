import Rszigbee.Changes
import Rszigbee.Turns

/-! One turn of the loop, seen from the device table: either nothing on record changes, or a
device arrives, leaves, is heard from, is interviewed or is rewritten by its interview. -/
namespace Rszigbee

namespace Inventory

/-- Every stored record becomes an entry, in order. -/
def restore (inv : Inventory) (stored : List PersistedDevice) : Inventory :=
  stored.foldl (fun devices s => devices.insert (entryFromPersisted s)) inv

/-- The table a start restores. -/
def restored (store : Store) : Inventory := new.restore (store.devices.entries.map Sigma.snd)

variable (inv : Inventory) (i j : Ieee)

theorem restore_get_of_not_mem (stored : List PersistedDevice) (inv : Inventory) (i : Ieee)
    (h : i ∉ stored.map PersistedDevice.ieee) : (inv.restore stored).get i = inv.get i := by
  induction stored generalizing inv with
  | nil => rfl
  | cons s stored ih =>
    rw [List.map_cons,List.mem_cons,not_or] at h
    have hne : i ≠ (entryFromPersisted s).info.ieee := h.1
    rw [restore,List.foldl_cons,← restore,ih _ h.2,insert_get,if_neg hne]

theorem restore_isSome (stored : List PersistedDevice) (inv : Inventory) (i : Ieee) :
    ((inv.restore stored).get i).isSome = true ↔
      (inv.get i).isSome = true ∨ i ∈ stored.map PersistedDevice.ieee := by
  induction stored generalizing inv with
  | nil => simp [restore]
  | cons s stored ih =>
    have hieee : (entryFromPersisted s).info.ieee = s.ieee := rfl
    rw [restore,List.foldl_cons,← restore,ih,insert_get,hieee,List.map_cons,List.mem_cons]
    by_cases hi : i = s.ieee
    · simp [hi]
    · simp [hi]

/-- What holds of every restored entry, and of those there were, holds of all. -/
theorem restore_each {P : Entry → Prop} (hstored : ∀ s, P (entryFromPersisted s))
    (stored : List PersistedDevice) (inv : Inventory) (h : ∀ i e, inv.get i = some e → P e) :
    ∀ i e, (inv.restore stored).get i = some e → P e := by
  induction stored generalizing inv with
  | nil => exact h
  | cons s stored ih =>
    refine ih _ fun i e he => ?_
    rw [insert_get] at he
    split at he
    · cases he
      exact hstored s
    · exact h i e he

/-- With one record for each device, each device is restored from its own. -/
theorem restore_get (stored : List PersistedDevice) (inv : Inventory)
    (h : (stored.map PersistedDevice.ieee).Nodup) {s : PersistedDevice} (hs : s ∈ stored) :
    (inv.restore stored).get s.ieee = some (entryFromPersisted s) := by
  induction stored generalizing inv with
  | nil => simp at hs
  | cons s' stored ih =>
    obtain ⟨hnot,hrest⟩ := List.nodup_cons.mp h
    rw [restore,List.foldl_cons,← restore]
    rcases List.mem_cons.mp hs with rfl | hs
    · rw [restore_get_of_not_mem _ _ _ hnot,insert_get]
      exact if_pos rfl
    · exact ih _ hrest hs

end Inventory

/-- A change of an entry that leaves its addresses and what is known of its reachability. -/
structure Edit (f : Entry → Entry) : Prop where
  ieee : ∀ e, (f e).info.ieee = e.info.ieee
  nwk : ∀ e, (f e).info.nwk = e.info.nwk
  reachability : ∀ e, ∃ sleepy, (f e).reachability = { e.reachability with isSleepy := sleepy }

namespace View

variable {E : Engine}

/-- One change made for an interview: an edit that is written through, or a neutral event. -/
inductive Rewrite (answers : WriteAnswer → Prop) (ieee : Ieee) : View E → View E → Prop
  | edit (v : View E) {f : Entry → Entry} (hf : Edit f) {answer : WriteAnswer}
      (h : answers answer) : Rewrite answers ieee v ((v.modify ieee f).persist ieee answer)
  | note (v : View E) {event : Event E} (h : event.isNeutral = true) :
    Rewrite answers ieee v (v.note event)

abbrev Rewrites (answers : WriteAnswer → Prop) (ieee : Ieee) : View E → View E → Prop :=
  Relation.ReflTransGen (Rewrite answers ieee)

theorem Rewrites.invariant {answers : WriteAnswer → Prop} {ieee : Ieee} {P : View E → Prop}
    {v v' : View E} (h : Rewrites answers ieee v v')
    (hstep : ∀ w w', Rewrite answers ieee w w' → P w → P w') (hv : P v) : P v' := by
  induction h with
  | refl => exact hv
  | tail _ hlast ih => exact hstep _ _ hlast ih

theorem Rewrites.mono {answers more : WriteAnswer → Prop} {ieee : Ieee} {v v' : View E}
    (h : Rewrites answers ieee v v') (hmore : ∀ answer, answers answer → more answer) :
    Rewrites more ieee v v' := by
  have hstep (w w' : View E) (hw : Rewrite answers ieee w w') : Rewrite more ieee w w' := by
    cases hw with
    | edit hf ha => exact .edit w hf (hmore _ ha)
    | note hn => exact .note w hn
  exact Relation.ReflTransGen.mono hstep _ _ h

theorem persist_note (v : View E) (event : Event E) (ieee : Ieee) (answer : WriteAnswer) :
    (v.note event).persist ieee answer = (v.persist ieee answer).note event := by
  rw [persist,persist]
  have hdevices : (v.note event).devices = v.devices := rfl
  rw [hdevices]
  split
  · rfl
  · split <;> rfl

@[simp] theorem persist_devices (v : View E) (ieee : Ieee) (answer : WriteAnswer) :
    (v.persist ieee answer).devices = v.devices := by
  rw [persist]
  split
  · rfl
  · split <;> rfl

@[simp] theorem persist_events (v : View E) (ieee : Ieee) (answer : WriteAnswer) :
    (v.persist ieee answer).events = v.events := by
  rw [persist]
  split
  · rfl
  · split <;> rfl

@[simp] theorem persist_interviews (v : View E) (ieee : Ieee) (answer : WriteAnswer) :
    (v.persist ieee answer).interviews = v.interviews := by
  rw [persist]
  split
  · rfl
  · split <;> rfl

@[simp] theorem persist_coordinator (v : View E) (ieee : Ieee) (answer : WriteAnswer) :
    (v.persist ieee answer).coordinator = v.coordinator := by
  rw [persist]
  split
  · rfl
  · split <;> rfl

@[simp] theorem persist_interviewOnJoin (v : View E) (ieee : Ieee) (answer : WriteAnswer) :
    (v.persist ieee answer).interviewOnJoin = v.interviewOnJoin := by
  rw [persist]
  split
  · rfl
  · split <;> rfl

@[simp] theorem readdress_get (v : View E) (ieee : Ieee) (nwk : Nwk) (i : Ieee) :
    (v.readdress ieee nwk).devices.get i = if i = ieee then
      (v.devices.get ieee).map fun e => { e with info := { e.info with nwk := nwk } }
    else v.devices.get i := by
  rw [readdress]
  by_cases hsame : v.devices.nwkOf ieee = none ∨ v.devices.nwkOf ieee = some nwk
  · rw [Inventory.setNwk_unchanged _ _ _ hsame]
    by_cases hi : i = ieee
    · rw [if_pos hi,hi]
      cases hg : v.devices.get ieee with
      | none => rfl
      | some e =>
        have hn : e.info.nwk = nwk := by simpa [Inventory.nwkOf,hg] using hsame
        rw [Option.map_some,← hn]
    · rw [if_neg hi]
  · rw [not_or] at hsame
    obtain ⟨p,hp⟩ := Option.ne_none_iff_exists'.mp hsame.1
    obtain ⟨e,hg,he⟩ := Inventory.nwkOf_eq_some.mp hp
    have hm : p ≠ nwk := fun hm => hsame.2 (hm ▸ hp)
    have hget := Inventory.setNwk_get v.devices ieee hg (he ▸ hm) i
    rw [Inventory.setNwk_changed _ _ hg he hm] at hget ⊢
    rw [hg]
    exact hget

@[simp] theorem readdress_stored (v : View E) (ieee : Ieee) (nwk : Nwk) :
    (v.readdress ieee nwk).stored = v.stored := by
  rw [readdress]
  generalize v.devices.setNwk ieee nwk = moved
  obtain ⟨devices,previous⟩ := moved
  cases previous <;> rfl

@[simp] theorem readdress_coordinator (v : View E) (ieee : Ieee) (nwk : Nwk) :
    (v.readdress ieee nwk).coordinator = v.coordinator := by
  rw [readdress]
  generalize v.devices.setNwk ieee nwk = moved
  obtain ⟨devices,previous⟩ := moved
  cases previous <;> rfl

section Sound

theorem sound_modify {v : View E} (h : v.devices.Sound) (ieee : Ieee) {f : Entry → Entry}
    (hieee : ∀ e, (f e).info.ieee = e.info.ieee) (hnwk : ∀ e, (f e).info.nwk = e.info.nwk) :
    (v.modify ieee f).devices.Sound where
  keyed i e he := by
    rw [modify,Inventory.modify_get] at he
    split at he
    · rename_i hi
      obtain ⟨e',he',rfl⟩ := Option.map_eq_some_iff.mp he
      rw [hieee,hi]
      exact h.keyed ieee e' he'
    · exact h.keyed i e he
  indexed n i hn := by
    rw [modify,Inventory.modify_resolve] at hn
    exact (Inventory.map_get_modify _ _ _ hnwk).trans (h.indexed n i hn)

theorem sound_path {allowed : Ieee → Mark → Prop} {v v' : View E} (hpath : Path allowed v v')
    (h : v.devices.Sound) : v'.devices.Sound := by
  refine hpath.invariant (P := fun w => w.devices.Sound) (fun w w' hlast hw => ?_) h
  cases hlast with
  | @mark ieee m _ =>
    refine sound_modify hw ieee ?_ ?_
    · intro e
      cases m <;> rfl
    · intro e
      cases m <;> rfl
  | @assess ieee e _ a evidence =>
    have hwrite : (w.modify ieee a.write).devices.Sound :=
      sound_modify hw ieee (fun _ => rfl) fun _ => rfl
    rw [assess]
    split
    · exact hwrite
    · exact hwrite
  | note _ => exact hw

theorem sound_rewrites {answers : WriteAnswer → Prop} {ieee : Ieee} {v v' : View E}
    (hrewrites : Rewrites answers ieee v v') (h : v.devices.Sound) : v'.devices.Sound := by
  refine hrewrites.invariant (P := fun w => w.devices.Sound) (fun w w' hlast hw => ?_) h
  cases hlast with
  | edit hf _ =>
    rw [persist_devices]
    exact sound_modify hw ieee hf.ieee hf.nwk
  | note _ => exact hw

theorem readdress_devices (v : View E) (ieee : Ieee) (nwk : Nwk) :
    (v.readdress ieee nwk).devices = (v.devices.setNwk ieee nwk).1 := by
  rw [readdress]
  generalize v.devices.setNwk ieee nwk = moved
  obtain ⟨devices,previous⟩ := moved
  cases previous <;> rfl

theorem sound_readdress {v : View E} (h : v.devices.Sound) (ieee : Ieee) (nwk : Nwk) :
    (v.readdress ieee nwk).devices.Sound := by
  rw [readdress_devices]
  exact h.setNwk ieee nwk

theorem sound_arrive {v : View E} (h : v.devices.Sound) (ieee : Ieee) (nwk : Nwk)
    (wall : SystemTime) : (v.arrive ieee nwk wall).devices.Sound := by
  rw [arrive]
  split
  · exact sound_readdress h ieee nwk
  · exact h.insert _

@[simp] theorem invite_devices (v : View E) (ieee : Ieee) :
    (v.invite ieee).devices = v.devices := by
  rw [invite]
  split <;> rfl

end Sound

end View

namespace Task

open View

variable {E : Engine}

section Records

theorem view_persist (t : Task E) (ieee : Ieee) (env : Env) :
    (t.persist ieee env).view = t.view.persist ieee env.upsertDevice := by
  rw [Task.persist,View.persist]
  have hdevices : t.view.devices = t.devices := rfl
  rw [hdevices]
  cases t.devices.get ieee with
  | none => rfl
  | some entry =>
    dsimp only [Store.upsertDevice]
    split <;> rfl

theorem view_readdress (t : Task E) (ieee : Ieee) (nwk : Nwk) :
    (t.readdress ieee nwk).view = t.view.readdress ieee nwk := by
  rw [Task.readdress,View.readdress]
  have hdevices : t.view.devices = t.devices := rfl
  rw [hdevices]
  generalize t.devices.setNwk ieee nwk = moved
  obtain ⟨devices,previous⟩ := moved
  cases previous <;> rfl

/-- The device a join, a leave or a frame is about, or whose interview asks for something. -/
def subject (t : Task E) : Input E → Option Ieee
  | .event (.deviceJoined ieee nwk) _ _ => ieee <|> t.devices.resolve nwk
  | .event (.deviceLeft ieee nwk) _ _ => ieee <|> nwk.bind t.devices.resolve
  | .event (.zcl rx) _ _ => t.senderOf rx
  | .request (.interview ieee) _ => if (t.devices.get ieee).isSome then some ieee else none
  | .request (.interviewUpdate _ (.step _)) _ => none
  | .request (.interviewUpdate ieee _) _ => some ieee
  | _ => none

/-- What an input lets the runtime note about a device. -/
inductive Marks (t : Task E) : Input E → Ieee → Mark → Prop
  | command {ieee : Ieee} {command : DeviceCommand E} {env : ℕ → Env}
      {result : Except TxFailure Unit}
      (hsent : commandTx { t with requests := t.requests ++ [.command ieee command] } ieee
        command ≠ none)
      (hresult : commandEvidence (env 0).sendZcl = some result) :
    Marks t (.request (.command ieee command) env) ieee (.transmitted (env 0).now result)
  | probe {env : ℕ → Env} {k : ℕ} {ieee : Ieee} {time : Instant} {attempts : UInt8}
      {recover : Bool}
      (hdue : (t.dueChecks (env 1).now)[k]? = some (ieee,.probe time attempts recover)) :
    Marks t (.tick env) ieee (.probed (env (k+2)).now (probeResult (env (k+2)).sendZcl))
  | zdo {cluster : ZdoClusterId} {nwk : Nwk} {payload : Bytes} {origin : Option ℕ}
      {env : ℕ → Env} {ieee : Ieee} (h : t.devices.resolve nwk = some ieee) :
    Marks t (.event (.zdo cluster nwk payload) origin env) ieee (.heard (env 0).wall)

/-- What a received frame or an announcement lets the runtime note. -/
inductive Heard (ieee : Ieee) : Ieee → Mark → Prop
  | heard (seen : SystemTime) : Heard ieee ieee (.heard seen)
  | link (quality : Option UInt8) : Heard ieee ieee (.link quality)

/-- What one turn does to the device table, the stored records, the events and the
interviews. -/
inductive Move (t : Task E) : Input E → View E → Prop
  | aside {i : Input E} {v : View E} (hi : t.subject i = none) (h : Path (t.Marks i) t.view v) :
    Move t i v
  | joined {ieee : Option Ieee} {nwk : Nwk} {origin : Option ℕ} {env : ℕ → Env} {a : Ieee}
      {v : View E} (ha : (ieee <|> t.devices.resolve nwk) = some a)
      (h : Path (Heard a) (t.view.arrive a nwk (env 0).wall) v) :
    Move t (.event (.deviceJoined ieee nwk) origin env)
      ((v.persist a (env 0).upsertDevice).invite a)
  | left {ieee : Option Ieee} {nwk : Option Nwk} {origin : Option ℕ} {env : ℕ → Env} {a : Ieee}
      (ha : (ieee <|> nwk.bind t.devices.resolve) = some a) :
    Move t (.event (.deviceLeft ieee nwk) origin env) (t.view.expel a (env 0).deleteDevice)
  | frame {rx : ZclRx} {origin : Option ℕ} {env : ℕ → Env} {a : Ieee} {v : View E}
      (ha : t.senderOf rx = some a) (h : Path (Heard a) (t.view.readdress a rx.nwk) v) :
    Move t (.event (.zcl rx) origin env) v
  | interview {ieee : Ieee} {env : ℕ → Env} (h : (t.devices.get ieee).isSome = true) :
    Move t (.request (.interview ieee) env) (t.view.spawn ieee (some t.requests.length))
  | update {ieee : Ieee} {update : InterviewUpdate} {env : ℕ → Env} {f : Entry → Entry}
      {v : View E} (hu : t.subject (.request (.interviewUpdate ieee update) env) = some ieee)
      (hf : Edit f) (h : Rewrites (fun answer => ∃ k, (env k).upsertDevice = answer) ieee
        ((t.view.modify ieee f).persist ieee (env 0).upsertDevice) v) :
    Move t (.request (.interviewUpdate ieee update) env) v

theorem path_permitJoin {allowed : Ieee → Mark → Prop} (t : Task E) (duration : Duration)
    (via : Option Ieee) (env : Env) :
    Path allowed t.view (t.permitJoin duration via env).1.view := by
  rw [Task.permitJoin]
  split
  · exact .refl
  · split
    · exact .refl
    · exact t.path_emit rfl

theorem path_shutdown {allowed : Ieee → Mark → Prop} (t : Task E) (env : Env) :
    Path allowed t.view (t.shutdown env).view := by
  have hview : (t.shutdown env).view = (t.emit .stopping).view := by
    have hdrained := (alters_drainPending (t.emit .stopping)).trans
      (alters_refreshFrameCounter _ env)
    exact hdrained.keeps restsOn_view (by decide)
  rw [hview]
  exact t.path_emit rfl

theorem view_tick (t : Task E) (env : ℕ → Env) : (t.tick env).view =
    (runChecks (t.dueChecks (env 1).now) (t.expirePendingZdo (env 0).now)
      fun k => env (k+2)).view := by
  have hdevices : (t.expirePendingZdo (env 0).now).devices = t.devices :=
    t.alters_expirePendingZdo (env 0).now .devices (by decide)
  have hdue : (t.expirePendingZdo (env 0).now).dueChecks (env 1).now = t.dueChecks (env 1).now := by
    rw [dueChecks,dueChecks,hdevices]
  rw [Task.tick,(alters_refreshFrameCounter _ _).keeps restsOn_view (by decide),hdue]

theorem path_tick (t : Task E) (env : ℕ → Env) :
    Path (t.Marks (.tick env)) t.view (t.tick env).view := by
  rw [view_tick,← (t.alters_expirePendingZdo (env 0).now).keeps restsOn_view (by decide)]
  exact path_runChecks _ _ _ fun k ieee time attempts recover hk => .probe hk

theorem path_onZdo (t : Task E) (cluster : ZdoClusterId) (nwk : Nwk) (payload : Bytes)
    (origin : Option ℕ) (env : ℕ → Env) :
    Path (t.Marks (.event (.zdo cluster nwk payload) origin env)) t.view
      (t.onZdo cluster nwk payload (env 0)).view := by
  have hdone := (t.alters_completeZdo cluster nwk payload).keeps restsOn_view (by decide)
  have hdevices : (t.completeZdo cluster nwk payload).devices = t.devices :=
    congrArg View.devices hdone
  rw [onZdo]
  rw [hdevices]
  refine .trans ?_ (path_emit _ rfl)
  rw [← hdone]
  cases hr : t.devices.resolve nwk with
  | none => exact .refl
  | some ieee => exact path_touch _ _ _ (.zdo hr)

theorem metadata_edit (power : PowerSource) (sleepy : Bool) : Edit fun e => { e with
    info := { e.info with powerSource := power }
    reachability := { e.reachability with isSleepy := sleepy } } where
  ieee _ := rfl
  nwk _ := rfl
  reachability _ := ⟨sleepy,rfl⟩

theorem rewrites_applyDefinitionMetadata {answers : WriteAnswer → Prop} (t : Task E) (ieee : Ieee)
    (env : Env) (h : answers env.upsertDevice) :
    Rewrites answers ieee t.view (t.applyDefinitionMetadata ieee env).view := by
  rw [applyDefinitionMetadata]
  split
  · exact .refl
  · rename_i power sleepy _
    cases hg : t.devices.get ieee with
    | none =>
      have hnone : (t.persist ieee env).view = t.view := by
        rw [Task.persist,hg]
      dsimp only
      rw [hnone]
    | some entry =>
      dsimp only
      split
      · exact .refl
      · rw [view_persist]
        exact .single (.edit t.view (metadata_edit power sleepy) h)

/-- An interview's update is an edit that is written through, and what follows from it. -/
theorem update_cases (t : Task E) (ieee : Ieee) {update : InterviewUpdate} (env : ℕ → Env)
    (h : ∀ step, update ≠ .step step) : ∃ f, Edit f ∧
      Rewrites (fun answer => ∃ k, (env k).upsertDevice = answer) ieee
        ((t.view.modify ieee f).persist ieee (env 0).upsertDevice)
        (t.applyInterviewUpdate ieee update env).view := by
  cases update with
  | step step => exact absurd rfl (h step)
  | started =>
    refine ⟨fun e => { e with info := { e.info with interview := .inProgress } },
      ⟨fun _ => rfl,fun _ => rfl,fun e => ⟨e.reachability.isSleepy,rfl⟩⟩,?_⟩
    rw [applyInterviewUpdate.eq_def]
    dsimp only
    rw [view_persist]
    show Rewrites _ ieee _ (((t.view.modify ieee _).note (.interviewStarted ieee)).persist ieee _)
    rw [persist_note]
    exact .single (.note _ rfl)
  | nodeDescriptor kind power sleepy =>
    refine ⟨fun e => { e with
      info := { e.info with kind := kind, powerSource := power }
      reachability := { e.reachability with isSleepy := sleepy } },
      ⟨fun _ => rfl,fun _ => rfl,fun _ => ⟨sleepy,rfl⟩⟩,?_⟩
    rw [applyInterviewUpdate.eq_def]
    dsimp only
    rw [view_persist]
    exact .refl
  | finished outcome =>
    refine ⟨finishInterview outcome,
      ⟨fun _ => rfl,fun _ => rfl,fun e => ⟨e.reachability.isSleepy,rfl⟩⟩,?_⟩
    rw [applyInterviewUpdate.eq_def]
    dsimp only
    let u := ((t.modifyDevice ieee (finishInterview outcome)).persist ieee (env 0)).emit
      (.interviewFinished ieee outcome.state)
    let w := u.emit (.definitionResolved ieee ((u.resolve ieee).map E.model) .bundled)
    have hu : Rewrites (fun answer => ∃ k, (env k).upsertDevice = answer) ieee
        ((t.view.modify ieee (finishInterview outcome)).persist ieee (env 0).upsertDevice)
        w.view := by
      have hfirst : ((t.modifyDevice ieee (finishInterview outcome)).persist ieee (env 0)).view =
          (t.view.modify ieee (finishInterview outcome)).persist ieee (env 0).upsertDevice :=
        view_persist _ _ _
      rw [← hfirst]
      have hnote : Rewrite (fun answer => ∃ k, (env k).upsertDevice = answer) ieee
          ((t.modifyDevice ieee (finishInterview outcome)).persist ieee (env 0)).view u.view :=
        .note _ rfl
      exact (Relation.ReflTransGen.single hnote).tail (.note u.view rfl)
    split
    · rw [(alters_executeConfigurePlan _ _ _).keeps restsOn_view (by decide)]
      have hmeta : Rewrites (fun answer => ∃ k, (env k).upsertDevice = answer) ieee
          (w.registerCustomClusters ieee).view
          ((w.registerCustomClusters ieee).applyDefinitionMetadata ieee (env 1)).view :=
        rewrites_applyDefinitionMetadata _ _ _ ⟨1,rfl⟩
      rw [(alters_registerCustomClusters _ _).keeps restsOn_view (by decide)] at hmeta
      exact hu.trans hmeta
    · exact hu

end Records

section Turns

theorem view_invite (t : Task E) (a : Ieee) :
    (if t.interviewOnJoin ∧ (t.devices.get a).any (·.info.interview ≠ .successful) then
      t.spawnInterview a none else t).view = t.view.invite a := by
  rw [invite]
  have hdevices : t.view.devices = t.devices := rfl
  have hjoin : t.view.interviewOnJoin = t.interviewOnJoin := rfl
  rw [hdevices,hjoin]
  split <;> rfl

theorem move_joined (t : Task E) (ieee : Option Ieee) (nwk : Nwk) (origin : Option ℕ)
    (env : ℕ → Env) : t.Move (.event (.deviceJoined ieee nwk) origin env)
      (t.onJoined ieee nwk (env 0)).view := by
  rw [onJoined]
  cases ha : ieee <|> t.devices.resolve nwk with
  | none => exact .aside ha .refl
  | some a =>
    dsimp only
    have hu : (if (t.devices.get a).isSome then (t.readdress a nwk).emit (.deviceAnnounced a)
        else { t with devices := t.devices.insert (newEntry a nwk (env 0).wall) }.emit
          (.deviceJoined a nwk)).view = t.view.arrive a nwk (env 0).wall := by
      rw [arrive]
      have hdevices : t.view.devices = t.devices := rfl
      rw [hdevices,← view_readdress]
      split <;> rfl
    generalize (if (t.devices.get a).isSome then (t.readdress a nwk).emit (.deviceAnnounced a)
      else { t with devices := t.devices.insert (newEntry a nwk (env 0).wall) }.emit
        (.deviceJoined a nwk)) = u at hu ⊢
    rw [view_invite,view_persist]
    refine .joined ha ?_
    rw [← hu]
    exact path_touch _ _ _ (.heard _)

theorem move_left (t : Task E) (ieee : Option Ieee) (nwk : Option Nwk) (origin : Option ℕ)
    (env : ℕ → Env) : t.Move (.event (.deviceLeft ieee nwk) origin env)
      (t.onLeft ieee nwk (env 0)).view := by
  rw [onLeft]
  cases ha : ieee <|> nwk.bind t.devices.resolve with
  | none => exact .aside ha .refl
  | some a =>
    have hmove : t.Move (.event (.deviceLeft ieee nwk) origin env)
        (t.view.expel a (env 0).deleteDevice) := .left ha
    convert hmove using 1
    dsimp only [Store.deleteDevice,expel]
    split <;> rfl

theorem move_frame (t : Task E) (rx : ZclRx) (origin : Option ℕ) (env : ℕ → Env) :
    t.Move (.event (.zcl rx) origin env) (t.onZcl rx origin (env 0)).view := by
  rw [onZcl]
  cases ha : t.senderOf rx with
  | none => exact .aside ha .refl
  | some a =>
    refine .frame ha ?_
    dsimp only
    let u := (t.readdress a rx.nwk).modifyDevice a (Mark.link rx.linkQuality).write
    have hlink : Path (Heard a) (t.view.readdress a rx.nwk) u.view := by
      rw [← view_readdress]
      exact path_mark _ (.link _)
    refine hlink.trans ?_
    split
    · rename_i frame answer _
      have hread : (completeRead u a rx frame answer origin).view = u.view :=
        (alters_settleZcl _ _ _ _).keeps restsOn_view (by decide)
      rw [← hread]
      exact path_touch _ _ _ (.heard _)
    · exact path_reportZcl _ _ (.heard _)

/-- What must hold of the device an input is about, while the loop runs. -/
theorem running_iff {t : Task E} (hrun : t.stopped = false) {o : Option Ieee} {a : Ieee}
    (ha : o = some a) {P : Ieee → Prop} :
    (t.stopped = false → ∀ b, o = some b → P b) ↔ P a := by
  constructor
  · intro h
    exact h hrun a ha
  · intro h _ b hb
    obtain rfl := Option.some.inj (ha.symm.trans hb)
    exact h

theorem move_request (t : Task E) (request : Request E) (env : ℕ → Env) :
    t.Move (.request request env) ({ t with
      requests := t.requests ++ [request] }.handleRequest request t.requests.length env).view := by
  let u : Task E := { t with requests := t.requests ++ [request] }
  have hquiet (r : Request E) (he : request = r) (hs : t.subject (.request r env) = none)
      (hview : (u.handleRequest r t.requests.length env).view = t.view) :
      t.Move (.request request env) (u.handleRequest request t.requests.length env).view := by
    rw [he,hview]
    exact .aside hs .refl
  cases request with
  | permitJoin duration via =>
    have hpath : Path (t.Marks (.request (.permitJoin duration via) env)) t.view
        (u.permitJoin duration via (env 0)).1.view := u.path_permitJoin duration via (env 0)
    exact .aside rfl hpath
  | command ieee command =>
    have hpath : Path (t.Marks (.request (.command ieee command) env)) t.view
        (u.runCommand ieee command t.requests.length (env 0)).1.view :=
      u.path_runCommand ieee command _ (env 0) fun result hsent hresult => .command hsent hresult
    exact .aside rfl hpath
  | zclRead ieee endpoint cluster attributes =>
    exact hquiet _ rfl rfl ((u.alters_zclRead _ _ _ _ _ _).keeps restsOn_view (by decide))
  | zdo ieee cluster build =>
    exact hquiet _ rfl rfl ((u.alters_sendZdo _ _ _ _ _).keeps restsOn_view (by decide))
  | stop =>
    have hpath : Path (t.Marks (.request .stop env)) t.view (u.shutdown (env 0)).view :=
      u.path_shutdown (env 0)
    exact .aside rfl hpath
  | interview ieee =>
    simp only [handleRequest]
    split
    · rename_i h
      exact .interview h
    · rename_i h
      exact .aside (if_neg h) .refl
  | configure ieee =>
    refine hquiet _ rfl rfl ?_
    simp only [handleRequest]
    split
    · exact (u.alters_executeConfigurePlan ieee env).keeps restsOn_view (by decide)
    · rfl
  | interviewUpdate ieee update =>
    by_cases hstep : ∃ step, update = .step step
    · obtain ⟨step,rfl⟩ := hstep
      exact .aside rfl (u.path_emit rfl)
    · obtain ⟨f,hf,hrewrites⟩ := u.update_cases ieee env fun step he => hstep ⟨step,he⟩
      refine .update ?_ hf hrewrites
      cases update with
      | step step => exact absurd ⟨step,rfl⟩ hstep
      | _ => rfl
  | _ => exact hquiet _ rfl rfl rfl

/-- The device table, the records and the events after a turn. -/
theorem move {t : Task E} (h : t.stopped = false) (i : Input E) : t.Move i (t.step i).view := by
  cases i with
  | request request env =>
    have hstep : t.step (.request request env) = { t with
        requests := t.requests ++ [request] }.handleRequest request t.requests.length env := by
      simp [step,h]
    rw [hstep]
    exact t.move_request request env
  | event event origin env =>
    have hstep : t.step (.event event origin env) = t.handleAdapterEvent event origin env := by
      simp [step,h]
    rw [hstep]
    cases event with
    | deviceJoined ieee nwk => exact t.move_joined ieee nwk origin env
    | deviceLeft ieee nwk => exact t.move_left ieee nwk origin env
    | zcl rx => exact t.move_frame rx origin env
    | zdo cluster nwk payload => exact .aside rfl (t.path_onZdo cluster nwk payload origin env)
    | disconnected reason => exact .aside rfl (t.path_emit rfl)
  | tick env =>
    have hstep : t.step (.tick env) = t.tick env := by
      simp [step,h]
    rw [hstep]
    exact .aside rfl (t.path_tick env)
  | abandon reply =>
    have hstep : (t.step (.abandon reply)).view = t.view := by
      simp only [step,h]
      rfl
    rw [hstep]
    exact .aside rfl .refl
  | handlesDropped env =>
    have hstep : t.step (.handlesDropped env) = t.shutdown (env 0) := by
      simp [step,h]
    rw [hstep]
    exact .aside rfl (t.path_shutdown (env 0))
  | adapterClosed env =>
    have hstep : t.step (.adapterClosed env) = t.shutdown (env 0) := by
      simp [step,h]
    rw [hstep]
    exact .aside rfl (t.path_shutdown (env 0))

/-- The device table stays in order. -/
theorem inventory_sound_step (t : Task E) (i : Input E) (h : t.devices.Sound) :
    (t.step i).devices.Sound := by
  by_cases hstopped : t.stopped = true
  · rw [step_stopped hstopped]
    exact h
  · have hmove := move (by simpa using hstopped) i
    show (t.step i).view.devices.Sound
    generalize (t.step i).view = v at hmove
    cases hmove with
    | aside _ hpath => exact sound_path hpath h
    | @joined ieee nwk origin env a w _ hpath =>
      rw [invite_devices,persist_devices]
      exact sound_path hpath (sound_arrive (v := t.view) h a nwk _)
    | @left _ _ _ _ a _ => exact h.remove a
    | @frame rx _ _ a _ _ hpath => exact sound_path hpath (sound_readdress (v := t.view) h a rx.nwk)
    | interview _ => exact h
    | @update ieee _ _ f _ _ hf hrewrites =>
      refine sound_rewrites hrewrites ?_
      rw [persist_devices]
      exact sound_modify (v := t.view) h ieee hf.ieee hf.nwk

end Turns

section Start

/-- The coordinator as it is entered when no record of it was stored. -/
def coordinatorEntry (ieee : Ieee) (wall : SystemTime) : Entry :=
  let entry := newEntry ieee .coordinator wall
  { entry with
    info := { entry.info with kind := .coordinator, powerSource := .mains }
    reachability := { entry.reachability with isSleepy := false } }

theorem view_start (config : TaskConfig E) (env : Env) : (start config env).view =
    (((Task.new config).registerCoordinator env).emit (.started config.outcome)).view := by
  let t := (Task.new config).registerCoordinator env
  let ieees := t.devices.all.map fun e => e.info.ieee
  have hregistered := (Alters.foldl (fun t ieee => alters_registerCustomClusters t ieee) ieees
    t).trans (alters_persistNetworkIfNeeded _ env)
  exact congrArg (fun v => v.note (.started config.outcome))
    (hregistered.keeps restsOn_view (by decide))

/-- A started table holds what was stored, and the coordinator. -/
theorem devices_start (config : TaskConfig E) (env : Env) : (start config env).devices =
    if ((Inventory.new.restore config.devices).get config.coordinator).isSome then
      Inventory.new.restore config.devices
    else (Inventory.new.restore config.devices).insert
      (coordinatorEntry config.coordinator env.wall) := by
  have hdevices : (start config env).devices =
      (registerCoordinator (Task.new config) env).devices :=
    congrArg View.devices (view_start config env)
  have hrestored : (Task.new config).devices = Inventory.new.restore config.devices := rfl
  have hcoordinator : (Task.new config).coordinator = config.coordinator := rfl
  rw [hdevices,registerCoordinator,hrestored,hcoordinator]
  split <;> rfl

/-- What holds of every restored entry and of the coordinator's holds of a started table. -/
theorem each_start {P : Entry → Prop} {config : TaskConfig E} {env : Env}
    (hstored : ∀ s, P (entryFromPersisted s)) (hcoordinator : ∀ ieee wall, P (coordinatorEntry ieee wall)) :
    ∀ i e, (start config env).devices.get i = some e → P e := by
  have hnew : ∀ i e, (Inventory.new.restore config.devices).get i = some e → P e :=
    Inventory.restore_each hstored _ _ fun i e he => by simp [Inventory.new,Inventory.get] at he
  intro i e he
  rw [devices_start] at he
  split at he
  · exact hnew i e he
  · rw [Inventory.insert_get] at he
    split at he
    · cases he
      exact hcoordinator _ _
    · exact hnew i e he

theorem inventory_sound_start (config : TaskConfig E) (env : Env) :
    (start config env).devices.Sound := by
  have hrestored (stored : List PersistedDevice) (inv : Inventory) (h : inv.Sound) :
      (inv.restore stored).Sound := by
    induction stored generalizing inv with
    | nil => exact h
    | cons s stored ih => exact ih _ (h.insert _)
  rw [devices_start]
  split
  · exact hrestored _ _ .new
  · exact (hrestored _ _ .new).insert _

theorem stored_start (config : TaskConfig E) (env : Env) :
    (start config env).store.devices = config.store.devices := by
  have hstored : (start config env).store.devices =
      (registerCoordinator (Task.new config) env).store.devices :=
    congrArg View.stored (view_start config env)
  rw [hstored,registerCoordinator]
  split <;> rfl

theorem coordinator_start (config : TaskConfig E) (env : Env) :
    (start config env).coordinator = config.coordinator := by
  have hcoordinator : (start config env).coordinator =
      (registerCoordinator (Task.new config) env).coordinator :=
    congrArg View.coordinator (view_start config env)
  rw [hcoordinator,registerCoordinator]
  split <;> rfl

end Start

end Task
end Rszigbee
