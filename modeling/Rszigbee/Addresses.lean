import Rszigbee.Moves

/-! Which device a short address belongs to.
Zigbee hands addresses on, and a device that joins or moves is taken at its word; the table
stays unambiguous exactly as long as nobody takes an address another record still has. -/
namespace Rszigbee

namespace Inventory

/-- No two devices have one short address, and each device's own address resolves to it. -/
structure Exclusive (inv : Inventory) : Prop where
  distinct : ∀ i j n, inv.nwkOf i = some n → inv.nwkOf j = some n → i = j
  complete : ∀ i n, inv.nwkOf i = some n → inv.resolve n = some i

/-- No other device has the address on record. -/
def FreeFor (inv : Inventory) (i : Ieee) (n : Nwk) : Prop := ∀ j, inv.nwkOf j = some n → j = i

namespace Exclusive

/-- In a sound table the index settles whether addresses are distinct. -/
theorem of_complete {inv : Inventory} (h : ∀ i n, inv.nwkOf i = some n → inv.resolve n = some i) :
    inv.Exclusive where
  distinct i j n hi hj := Option.some.inj ((h i n hi).symm.trans (h j n hj))
  complete := h

theorem congr {inv inv' : Inventory} (hnwk : inv'.nwkOf = inv.nwkOf)
    (hresolve : inv'.resolve = inv.resolve) : inv'.Exclusive ↔ inv.Exclusive := by
  constructor
  · intro h
    have hc := h.complete
    rw [hnwk,hresolve] at hc
    exact of_complete hc
  · intro h
    have hc := h.complete
    rw [← hnwk,← hresolve] at hc
    exact of_complete hc

theorem new : Inventory.new.Exclusive := of_complete fun i n h => by
  simp [Inventory.new,nwkOf,get] at h

theorem nwkOf_insert (inv : Inventory) (e : Entry) (j : Ieee) : (inv.insert e).nwkOf j =
    if j = e.info.ieee then some e.info.nwk else inv.nwkOf j := by
  rw [nwkOf,insert_get]
  by_cases hj : j = e.info.ieee
  · rw [if_pos hj,if_pos hj]
    rfl
  · rw [if_neg hj,if_neg hj,nwkOf]

/-- An insertion keeps the table exclusive exactly when the address is free. -/
theorem insert_iff {inv : Inventory} (h : inv.Exclusive) (e : Entry) :
    (inv.insert e).Exclusive ↔ inv.FreeFor e.info.ieee e.info.nwk := by
  constructor
  · intro h' j hj
    by_contra hne
    have hthis := nwkOf_insert inv e e.info.ieee
    have hother := nwkOf_insert inv e j
    rw [if_pos rfl] at hthis
    rw [if_neg hne,hj] at hother
    exact hne (h'.distinct j e.info.ieee e.info.nwk hother hthis)
  · intro hfree
    refine of_complete fun i n hi => ?_
    rw [nwkOf_insert] at hi
    rw [insert_resolve]
    by_cases he : i = e.info.ieee
    · rw [if_pos he] at hi
      rw [if_pos (Option.some.inj hi).symm,he]
    · rw [if_neg he] at hi
      have hn : n ≠ e.info.nwk := fun hn => he (hfree i (hn ▸ hi))
      have hold : inv.nwkOf e.info.ieee ≠ some n := fun hold => he (h.distinct i _ n hi hold)
      rw [if_neg hn,if_neg hold]
      exact h.complete i n hi

theorem nwkOf_setNwk {inv : Inventory} {i : Ieee} {m p : Nwk} (hp : inv.nwkOf i = some p)
    (hm : p ≠ m) (j : Ieee) :
    (inv.setNwk i m).1.nwkOf j = if j = i then some m else inv.nwkOf j := by
  obtain ⟨e,hg,he⟩ := nwkOf_eq_some.mp hp
  rw [nwkOf,setNwk_get inv i hg (he ▸ hm)]
  by_cases hj : j = i
  · rw [if_pos hj,if_pos hj]
    rfl
  · rw [if_neg hj,if_neg hj,nwkOf]

/-- Moving a known device keeps the table exclusive exactly when the address is free. -/
theorem setNwk_iff {inv : Inventory} (h : inv.Exclusive) (i : Ieee) (m : Nwk) :
    (inv.setNwk i m).1.Exclusive ↔ ((inv.get i).isSome = true → inv.FreeFor i m) := by
  cases hp : inv.nwkOf i with
  | none =>
    have hnone : inv.get i = none := by simpa [nwkOf] using hp
    rw [setNwk_unchanged inv i m (Or.inl hp),hnone]
    simp [h]
  | some p =>
    obtain ⟨e,hg,-⟩ := nwkOf_eq_some.mp hp
    have hknown : (inv.get i).isSome = true := by
      rw [hg]
      rfl
    by_cases hm : p = m
    · rw [setNwk_unchanged inv i m (Or.inr (hm ▸ hp))]
      exact iff_of_true h fun _ j hj => h.distinct j i m hj (hm ▸ hp)
    · constructor
      · intro h' _ j hj
        by_contra hne
        have hthis := nwkOf_setNwk hp hm i
        have hother := nwkOf_setNwk hp hm j
        rw [if_pos rfl] at hthis
        rw [if_neg hne,hj] at hother
        exact hne (h'.distinct j i m hother hthis)
      · intro hfree
        refine of_complete fun j n hj => ?_
        rw [nwkOf_setNwk hp hm] at hj
        rw [setNwk_resolve inv i n hp hm]
        by_cases he : j = i
        · rw [if_pos he] at hj
          rw [if_pos (Option.some.inj hj).symm,he]
        · rw [if_neg he] at hj
          have hn : n ≠ m := fun hn => he (hfree hknown j (hn ▸ hj))
          have hold : n ≠ p := fun hold => he (h.distinct j i n hj (hold ▸ hp))
          rw [if_neg hn,if_neg hold]
          exact h.complete j n hj

theorem remove {inv : Inventory} (h : inv.Exclusive) (i : Ieee) : (inv.remove i).1.Exclusive := by
  refine of_complete fun j n hj => ?_
  rw [nwkOf,remove_get] at hj
  by_cases he : j = i
  · rw [if_pos he] at hj
    simp at hj
  · rw [if_neg he] at hj
    have hold : inv.nwkOf i ≠ some n := fun hold => he (h.distinct j i n hj hold)
    rw [remove_resolve,if_neg hold]
    exact h.complete j n hj

/-- Records that claim different addresses are restored into an exclusive table. -/
theorem restore {claims : List PersistedDevice}
    (hapart : ∀ s ∈ claims, ∀ s' ∈ claims, s.nwk = s'.nwk → s.ieee = s'.ieee)
    (stored : List PersistedDevice) (hsub : ∀ s ∈ stored, s ∈ claims) (inv : Inventory)
    (h : inv.Exclusive)
    (hinv : ∀ i n, inv.nwkOf i = some n → ∃ s ∈ claims, s.ieee = i ∧ s.nwk = n) :
    (inv.restore stored).Exclusive ∧ ∀ i n, (inv.restore stored).nwkOf i = some n →
      ∃ s ∈ claims, s.ieee = i ∧ s.nwk = n := by
  induction stored generalizing inv with
  | nil => exact ⟨h,hinv⟩
  | cons s stored ih =>
    rw [Inventory.restore,List.foldl_cons,← Inventory.restore]
    have hs : s ∈ claims := hsub s (by simp)
    refine ih (fun s' hs' => hsub s' (by simp [hs'])) _ ?_ ?_
    · rw [insert_iff h]
      intro j hj
      obtain ⟨s',hs',rfl,hn⟩ := hinv j _ hj
      exact hapart s' hs' s hs hn
    · intro i n hi
      rw [nwkOf_insert] at hi
      by_cases he : i = (entryFromPersisted s).info.ieee
      · rw [if_pos he] at hi
        exact ⟨s,hs,he.symm,Option.some.inj hi⟩
      · rw [if_neg he] at hi
        exact hinv i n hi

end Exclusive

end Inventory

namespace View

variable {E : Engine}

/-- Both directions of the address index. -/
def addresses (v : View E) : (Ieee → Option Nwk) × (Nwk → Option Ieee) :=
  (v.devices.nwkOf,v.devices.resolve)

theorem exclusive_congr {v v' : View E} (h : v'.addresses = v.addresses) :
    v'.devices.Exclusive ↔ v.devices.Exclusive :=
  Inventory.Exclusive.congr (congrArg Prod.fst h) (congrArg Prod.snd h)

theorem addresses_modify (v : View E) (ieee : Ieee) {f : Entry → Entry}
    (h : ∀ e, (f e).info.nwk = e.info.nwk) : (v.modify ieee f).addresses = v.addresses := by
  have hnwk : (v.modify ieee f).devices.nwkOf = v.devices.nwkOf := by
    funext device
    exact Inventory.map_get_modify _ _ _ h
  have hresolve : (v.modify ieee f).devices.resolve = v.devices.resolve := by
    funext n
    exact Inventory.modify_resolve _ _ _ _
  rw [addresses,hnwk,hresolve,addresses]

theorem addresses_persist (v : View E) (ieee : Ieee) (answer : WriteAnswer) :
    (v.persist ieee answer).addresses = v.addresses := by
  rw [addresses,persist_devices,addresses]

theorem addresses_aside {allowed : Ieee → Mark → Prop} {v v' : View E} (h : Aside allowed v v') :
    v'.addresses = v.addresses := by
  cases h with
  | @mark ieee m h =>
    refine addresses_modify v ieee fun e => ?_
    cases m <;> rfl
  | @assess ieee e he a evidence =>
    have hwrite : (v.modify ieee a.write).addresses = v.addresses :=
      addresses_modify v ieee fun _ => rfl
    rw [assess]
    split
    · exact hwrite
    · exact hwrite
  | note hn => rfl

theorem addresses_path {allowed : Ieee → Mark → Prop} {v v' : View E} (h : Path allowed v v') :
    v'.addresses = v.addresses :=
  h.invariant (P := fun w => w.addresses = v.addresses)
    (fun _ _ hlast ih => (addresses_aside hlast).trans ih) rfl

theorem addresses_rewrites {answers : WriteAnswer → Prop} {ieee : Ieee} {v v' : View E}
    (h : Rewrites answers ieee v v') : v'.addresses = v.addresses := by
  refine h.invariant (P := fun w => w.addresses = v.addresses) (fun w w' hlast ih => ?_) rfl
  cases hlast with
  | edit hf _ =>
    rw [addresses_persist,addresses_modify w ieee hf.nwk]
    exact ih
  | note hn => exact ih

theorem addresses_invite (v : View E) (ieee : Ieee) : (v.invite ieee).addresses = v.addresses := by
  rw [invite]
  split <;> rfl

end View

namespace Task

open View

variable {E : Engine}

/-- A device that joins, or whose frame comes from a new address, takes an address no other
record has. -/
def AddressFree (t : Task E) : Input E → Prop
  | .event (.deviceJoined ieee nwk) _ _ => t.stopped = false →
    ∀ a, (ieee <|> t.devices.resolve nwk) = some a → t.devices.FreeFor a nwk
  | .event (.zcl rx) _ _ => t.stopped = false →
    ∀ a, t.senderOf rx = some a → (t.devices.get a).isSome = true → t.devices.FreeFor a rx.nwk
  | _ => True

theorem addressFree_of_subject {t : Task E} {i : Input E} (h : t.subject i = none) :
    t.AddressFree i := by
  unfold AddressFree
  split
  · intro _ a ha
    have hnone : (none : Option Ieee) = some a := h.symm.trans ha
    simp at hnone
  · intro _ a ha
    have hnone : (none : Option Ieee) = some a := h.symm.trans ha
    simp at hnone
  · trivial

theorem exclusive_arrive {v : View E} (h : v.devices.Exclusive) (a : Ieee) (nwk : Nwk)
    (wall : SystemTime) : (v.arrive a nwk wall).devices.Exclusive ↔ v.devices.FreeFor a nwk := by
  rw [arrive]
  by_cases hknown : (v.devices.get a).isSome = true
  · rw [if_pos hknown]
    have hmoved := Inventory.Exclusive.setNwk_iff h a nwk
    rw [← readdress_devices] at hmoved
    refine hmoved.trans ⟨fun hfree => hfree hknown,fun hfree _ => hfree⟩
  · rw [if_neg hknown]
    exact Inventory.Exclusive.insert_iff h (newEntry a nwk wall)

theorem exclusive_step {t : Task E} (i : Input E) (h : t.devices.Exclusive) :
    (t.step i).devices.Exclusive ↔ t.AddressFree i := by
  by_cases hstopped : t.stopped = true
  · rw [step_stopped hstopped]
    refine iff_of_true h ?_
    unfold AddressFree
    split <;> simp [hstopped]
  · have hrun : t.stopped = false := by simpa using hstopped
    have hmove := move hrun i
    show (t.step i).view.devices.Exclusive ↔ _
    generalize (t.step i).view = v at hmove
    have hsame (hv : v.addresses = t.view.addresses) : v.devices.Exclusive :=
      (exclusive_congr hv).mpr h
    cases hmove with
    | aside hi hpath => exact iff_of_true (hsame (addresses_path hpath)) (addressFree_of_subject hi)
    | @joined ieee nwk origin env a w ha hpath =>
      have hend : ((w.persist a (env 0).upsertDevice).invite a).addresses =
          (t.view.arrive a nwk (env 0).wall).addresses := by
        rw [addresses_invite,addresses_persist,addresses_path hpath]
      rw [exclusive_congr hend,exclusive_arrive (v := t.view) h]
      exact (running_iff (P := fun b => t.devices.FreeFor b nwk) hrun ha).symm
    | left ha => exact iff_of_true (h.remove _) trivial
    | @frame rx origin env a v ha hpath =>
      have hmoved := Inventory.Exclusive.setNwk_iff h a rx.nwk
      rw [exclusive_congr (addresses_path hpath),readdress_devices]
      exact hmoved.trans (running_iff (P := fun b =>
        (t.devices.get b).isSome = true → t.devices.FreeFor b rx.nwk) hrun ha).symm
    | interview hknown => exact iff_of_true h trivial
    | @update ieee update env f v hu hf hrewrites =>
      refine iff_of_true (hsame ?_) trivial
      rw [addresses_rewrites hrewrites,addresses_persist,addresses_modify _ _ hf.nwk]

/-- The stored records claim different addresses, and none claims the coordinator's unless
the coordinator itself is among them. -/
def RestoresApart (config : TaskConfig E) : Prop :=
  (∀ s ∈ config.devices, ∀ s' ∈ config.devices, s.nwk = s'.nwk → s.ieee = s'.ieee) ∧
  (config.coordinator ∉ config.devices.map PersistedDevice.ieee →
    ∀ s ∈ config.devices, s.nwk ≠ .coordinator)

theorem exclusive_start (config : TaskConfig E) (env : Env) (h : RestoresApart config) :
    (start config env).devices.Exclusive := by
  obtain ⟨hapart,hcoordinator⟩ := h
  obtain ⟨hrestored,hclaims⟩ := Inventory.Exclusive.restore hapart config.devices
    (fun _ hs => hs) .new .new fun i n hi => by simp [Inventory.new,Inventory.nwkOf,Inventory.get] at hi
  rw [devices_start]
  split
  · exact hrestored
  · rename_i hunknown
    rw [Inventory.Exclusive.insert_iff hrestored]
    intro j hj
    obtain ⟨s,hs,-,hn⟩ := hclaims j _ hj
    refine absurd hn (hcoordinator (fun hmem => hunknown ?_) s hs)
    exact (Inventory.restore_isSome _ _ _).mpr (Or.inr hmem)

/-- With one record for each device, a started table tells what was stored. -/
theorem nwkOf_start (config : TaskConfig E) (env : Env)
    (h : (config.devices.map PersistedDevice.ieee).Nodup) {s : PersistedDevice}
    (hs : s ∈ config.devices) : (start config env).devices.nwkOf s.ieee = some s.nwk := by
  have hrestored := Inventory.restore_get config.devices .new h hs
  have hmem : s.ieee ∈ config.devices.map PersistedDevice.ieee := List.mem_map_of_mem hs
  rw [devices_start]
  split
  · rw [Inventory.nwkOf,hrestored]
    rfl
  · rename_i hunknown
    have hne : s.ieee ≠ config.coordinator := fun he =>
      hunknown ((Inventory.restore_isSome _ _ _).mpr (Or.inr (he ▸ hmem)))
    have hieee : (coordinatorEntry config.coordinator env.wall).info.ieee = config.coordinator := rfl
    rw [Inventory.nwkOf,Inventory.insert_get,hieee,if_neg hne,hrestored]
    rfl

theorem nwkOf_coordinator_start (config : TaskConfig E) (env : Env)
    (h : config.coordinator ∉ config.devices.map PersistedDevice.ieee) :
    (start config env).devices.nwkOf config.coordinator = some .coordinator := by
  have hunknown : ¬ ((Inventory.new.restore config.devices).get config.coordinator).isSome = true := by
    rw [Inventory.restore_isSome]
    simp [h,Inventory.new,Inventory.get]
  have hieee : (coordinatorEntry config.coordinator env.wall).info.ieee = config.coordinator := rfl
  rw [devices_start,if_neg hunknown,Inventory.nwkOf,Inventory.insert_get,hieee,if_pos rfl]
  rfl

theorem restoresApart_of_exclusive (config : TaskConfig E) (env : Env)
    (hone : (config.devices.map PersistedDevice.ieee).Nodup)
    (h : (start config env).devices.Exclusive) : RestoresApart config := by
  constructor
  · intro s hs s' hs' hn
    have hthis := nwkOf_start config env hone hs
    have hother := nwkOf_start config env hone hs'
    exact h.distinct _ _ _ hthis (hn ▸ hother)
  · intro hnot s hs hn
    have hthis := nwkOf_start config env hone hs
    have hcoordinator := nwkOf_coordinator_start config env hnot
    have he := h.distinct _ _ _ (hn ▸ hthis) hcoordinator
    exact hnot (he ▸ List.mem_map_of_mem hs)

/-- Throughout a run no two devices have one address and every device's address resolves to
it, if the stored records are apart and nobody takes an address that is in use; where the
store has one record for each device, only then. -/
theorem exclusive_runs (config : TaskConfig E) (env : Env) (is : List (Input E)) :
    (RestoresApart config ∧ Runs.Meets step AddressFree (start config env) is →
      ∀ pre, pre <+: is → (Runs.run step (start config env) pre).devices.Exclusive) ∧
    ((config.devices.map PersistedDevice.ieee).Nodup →
      (∀ pre, pre <+: is → (Runs.run step (start config env) pre).devices.Exclusive) →
        RestoresApart config ∧ Runs.Meets step AddressFree (start config env) is) := by
  have hruns (h : (start config env).devices.Exclusive) :=
    Runs.always_iff_meets step (J := fun _ => True) (P := fun t => t.devices.Exclusive)
      (C := AddressFree) (fun _ _ _ => trivial) (fun t i _ ht => exclusive_step i ht) trivial h is
  constructor
  · rintro ⟨hapart,hfree⟩
    exact (hruns (exclusive_start config env hapart)).mpr hfree
  · intro hone h
    have hstart : (start config env).devices.Exclusive := h [] (List.nil_prefix)
    exact ⟨restoresApart_of_exclusive config env hone hstart,(hruns hstart).mp h⟩

/-- Device `b` joins at the address `a` joined at. -/
def sameAddress : List (Input Engine.bare) := [joins ⟨0xa⟩ ⟨0x1001⟩,joins ⟨0xb⟩ ⟨0x1001⟩]

/-- Both are in the table under it, and it resolves to the later one. -/
theorem two_devices_one_address :
    ¬ ∀ is, (Runs.run step fresh is).devices.Exclusive := by
  intro h
  have hnwk (i : Ieee) (hi : i = ⟨0xa⟩ ∨ i = ⟨0xb⟩) :
      (Runs.run step fresh sameAddress).devices.nwkOf i = some ⟨0x1001⟩ := by
    rw [fresh_eq]
    rcases hi with rfl | rfl
    · rfl
    · rfl
  have he := (h sameAddress).distinct _ _ _ (hnwk ⟨0xa⟩ (Or.inl rfl)) (hnwk ⟨0xb⟩ (Or.inr rfl))
  simp at he

end Task
end Rszigbee
