import Rszigbee.Reachability
import Rszigbee.Runs
import Rszigbee.Tables

/-! The device table, indexed by permanent and by short address. -/
namespace Rszigbee

/-- One device as the runtime holds it. -/
structure Entry where
  info : DeviceInfo
  reachability : ReachabilityInfo := {}
  nextCheck : NextCheck := .awaitTraffic
  passthrough : List (String × String) := []
  deriving DecidableEq

structure Inventory where
  devices : Table Ieee Entry
  byNwk : Table Nwk Ieee

namespace Inventory

def new : Inventory := ⟨∅,∅⟩

def get (inv : Inventory) (ieee : Ieee) : Option Entry := inv.devices.lookup ieee

/-- The recorded short address of a device. -/
def nwkOf (inv : Inventory) (ieee : Ieee) : Option Nwk := (inv.get ieee).map fun e => e.info.nwk

/-- Resolves a short address to a permanent one. -/
def resolve (inv : Inventory) (nwk : Nwk) : Option Ieee := inv.byNwk.lookup nwk

/-- Every device, in address order. -/
def all (inv : Inventory) : List Entry :=
  (inv.devices.entries.mergeSort fun a b => a.1.raw ≤ b.1.raw).map Sigma.snd

def snapshot (inv : Inventory) : List DeviceInfo := inv.all.map Entry.info

/-- Writes through `get_mut`: an entry changes in place, the index does not. -/
def modify (inv : Inventory) (ieee : Ieee) (f : Entry → Entry) : Inventory :=
  match inv.get ieee with
  | none => inv
  | some e => { inv with devices := inv.devices.insert ieee (f e) }

def insert (inv : Inventory) (entry : Entry) : Inventory :=
  let ieee := entry.info.ieee
  let byNwk := match inv.get ieee with
    | some previous => inv.byNwk.erase previous.info.nwk
    | none => inv.byNwk
  { devices := inv.devices.insert ieee entry
    byNwk := byNwk.insert entry.info.nwk ieee }

/-- Records a new short address; the previous one when it changed. -/
def setNwk (inv : Inventory) (ieee : Ieee) (nwk : Nwk) : Inventory × Option Nwk :=
  match inv.get ieee with
  | none => (inv,none)
  | some entry =>
    let previous := entry.info.nwk
    if previous = nwk then (inv,none)
    else
      ({ devices := inv.devices.insert ieee { entry with info := { entry.info with nwk := nwk } }
         byNwk := (inv.byNwk.erase previous).insert nwk ieee },some previous)

def remove (inv : Inventory) (ieee : Ieee) : Inventory × Option Entry :=
  match inv.get ieee with
  | none => (inv,none)
  | some entry =>
    ({ devices := inv.devices.erase ieee, byNwk := inv.byNwk.erase entry.info.nwk },some entry)

end Inventory

/-- Builds a runtime entry from a stored record. -/
def entryFromPersisted (stored : PersistedDevice) : Entry where
  info := {
    ieee := stored.ieee
    nwk := stored.nwk
    kind := stored.kind
    powerSource := stored.powerSource
    interview := stored.interview
    basic := stored.basic
    endpoints := stored.endpoints
    checkinInterval := stored.checkinIntervalSecs.map fun s => .fromSecs s.toNat
    lastSeen := stored.lastSeenEpochMs.map fun ms => (Duration.fromMillis ms.toNat : ℤ)
    linkQuality := none }
  passthrough := stored.passthrough

/-- Builds a stored record from a runtime entry. -/
def persistedFromEntry (entry : Entry) : PersistedDevice where
  ieee := entry.info.ieee
  nwk := entry.info.nwk
  kind := entry.info.kind
  powerSource := entry.info.powerSource
  interview := entry.info.interview
  basic := entry.info.basic
  endpoints := entry.info.endpoints
  checkinIntervalSecs := entry.info.checkinInterval.map fun d =>
    let secs := d / 1000000000
    if secs < 2^32 then UInt32.ofNat secs else 0xffffffff
  lastSeenEpochMs := entry.info.lastSeen.bind fun t =>
    let ms := t.toNat / 1000000
    if 0 ≤ t ∧ ms < 2^64 then some (UInt64.ofNat ms) else none
  passthrough := entry.passthrough

/-- A minimal entry for a device seen for the first time. -/
def newEntry (ieee : Ieee) (nwk : Nwk) (now : SystemTime) : Entry where
  info := { DeviceInfo.new ieee nwk .unknown with lastSeen := some now }
  reachability := ReachabilityInfo.recordTraffic {} now

namespace Inventory

open Runs

/-- The operations on the table that touch the index. -/
inductive Op
  | insert (entry : Entry)
  | setNwk (ieee : Ieee) (nwk : Nwk)
  | remove (ieee : Ieee)

namespace Op

/-- The device an operation is on. -/
def device : Op → Ieee
  | insert entry => entry.info.ieee
  | setNwk ieee _ => ieee
  | remove ieee => ieee

/-- The short address an operation assigns to its device. -/
def assigns : Op → Option Nwk
  | insert entry => some entry.info.nwk
  | setNwk _ nwk => some nwk
  | remove _ => none

end Op

def apply (inv : Inventory) : Op → Inventory
  | .insert entry => inv.insert entry
  | .setNwk ieee nwk => (inv.setNwk ieee nwk).1
  | .remove ieee => (inv.remove ieee).1

section Modify

variable (inv : Inventory) (i j : Ieee)

theorem modify_get (f : Entry → Entry) :
    (inv.modify i f).get j = if j = i then (inv.get i).map f else inv.get j := by
  rw [modify]
  cases hg : inv.get i with
  | none =>
    by_cases hj : j = i
    · rw [if_pos hj,hj,hg]
      rfl
    · rw [if_neg hj]
  | some e => exact Table.lookup_insert_eq _ _ _ _

@[simp] theorem modify_resolve (f : Entry → Entry) (n : Nwk) :
    (inv.modify i f).resolve n = inv.resolve n := by
  rw [modify]
  split <;> rfl

/-- What a change in place preserves is the same for every device. -/
theorem map_get_modify {α : Type} {f : Entry → Entry} {g : Entry → α} (h : ∀ e, g (f e) = g e) :
    ((inv.modify i f).get j).map g = (inv.get j).map g := by
  rw [modify_get]
  by_cases hj : j = i
  · rw [if_pos hj,hj,Option.map_map]
    congr 1
    funext e
    exact h e
  · rw [if_neg hj]

end Modify

theorem nwkOf_eq_some {inv : Inventory} {i : Ieee} {n : Nwk} :
    inv.nwkOf i = some n ↔ ∃ e, inv.get i = some e ∧ e.info.nwk = n := Option.map_eq_some_iff

section Effects

variable (inv : Inventory) (i : Ieee) (n : Nwk)

theorem insert_get (e : Entry) :
    (inv.insert e).get i = if i = e.info.ieee then some e else inv.get i :=
  Table.lookup_insert_eq _ _ _ _

theorem insert_resolve (e : Entry) : (inv.insert e).resolve n =
    if n = e.info.nwk then some e.info.ieee
    else if inv.nwkOf e.info.ieee = some n then none else inv.resolve n := by
  rw [resolve,insert,Table.lookup_insert_eq]
  split
  · rfl
  · cases hg : inv.get e.info.ieee with
    | none => simp [nwkOf,hg,resolve]
    | some p =>
      simp only [Table.lookup_erase_eq,nwkOf,hg,Option.map_some,Option.some.injEq,resolve]
      by_cases hp : n = p.info.nwk
      · rw [if_pos hp,if_pos hp.symm]
      · rw [if_neg hp,if_neg (Ne.symm hp)]

/-- Readdressing an unknown device, or to the address it has, changes nothing. -/
theorem setNwk_unchanged (m : Nwk) (h : inv.nwkOf i = none ∨ inv.nwkOf i = some m) :
    inv.setNwk i m = (inv,none) := by
  unfold setNwk
  cases hg : inv.get i with
  | none => rfl
  | some e =>
    rcases h with h | h
    · simp [nwkOf,hg] at h
    · have hm : e.info.nwk = m := by simpa [nwkOf,hg] using h
      simp only [hm,if_true]

theorem setNwk_changed {m p : Nwk} {e : Entry} (hg : inv.get i = some e) (hp : e.info.nwk = p)
    (hm : p ≠ m) : inv.setNwk i m =
      ({ devices := inv.devices.insert i { e with info := { e.info with nwk := m } }
         byNwk := (inv.byNwk.erase p).insert m i },some p) := by
  subst hp
  simp only [setNwk,hg,if_neg hm]

theorem setNwk_get {m : Nwk} {e : Entry} (hg : inv.get i = some e) (hm : e.info.nwk ≠ m)
    (j : Ieee) : (inv.setNwk i m).1.get j =
      if j = i then some { e with info := { e.info with nwk := m } } else inv.get j := by
  rw [setNwk_changed inv i hg rfl hm]
  exact Table.lookup_insert_eq _ _ _ _

theorem setNwk_resolve {m p : Nwk} (hp : inv.nwkOf i = some p) (hm : p ≠ m) :
    (inv.setNwk i m).1.resolve n =
      if n = m then some i else if n = p then none else inv.resolve n := by
  obtain ⟨e,hg,he⟩ := nwkOf_eq_some.mp hp
  rw [setNwk_changed inv i hg he hm,resolve,Table.lookup_insert_eq,Table.lookup_erase_eq]
  rfl

theorem remove_get (j : Ieee) : (inv.remove i).1.get j = if j = i then none else inv.get j := by
  unfold remove
  cases hg : inv.get i with
  | none =>
    by_cases hj : j = i
    · rw [if_pos hj,hj,hg]
    · rw [if_neg hj]
  | some e => exact Table.lookup_erase_eq _ _ _

theorem remove_resolve : (inv.remove i).1.resolve n =
    if inv.nwkOf i = some n then none else inv.resolve n := by
  unfold remove
  cases hg : inv.get i with
  | none => simp [nwkOf,hg]
  | some e =>
    simp only [resolve,Table.lookup_erase_eq,nwkOf,hg,Option.map_some,Option.some.injEq]
    by_cases hn : n = e.info.nwk
    · rw [if_pos hn,if_pos hn.symm]
    · rw [if_neg hn,if_neg (Ne.symm hn)]

end Effects

/-- The table is keyed by its entries' own addresses, and every index entry names a device
in the table that has that short address. -/
structure Sound (inv : Inventory) : Prop where
  keyed : ∀ i e, inv.get i = some e → e.info.ieee = i
  indexed : ∀ n i, inv.resolve n = some i → inv.nwkOf i = some n

namespace Sound

theorem new : Inventory.new.Sound where
  keyed i e h := by simp [Inventory.new,get] at h
  indexed n i h := by simp [Inventory.new,resolve] at h

theorem insert {inv : Inventory} (hs : inv.Sound) (e : Entry) : (inv.insert e).Sound where
  keyed i e' h := by
    rw [insert_get] at h
    split at h
    · rename_i hi
      cases h
      exact hi.symm
    · exact hs.keyed i e' h
  indexed n i h := by
    rw [insert_resolve] at h
    split at h
    · rename_i hn
      cases h
      rw [nwkOf,insert_get,if_pos rfl,hn]
      rfl
    · split at h
      · cases h
      · rename_i hn
        have hi := hs.indexed n i h
        have hne : i ≠ e.info.ieee := fun he => hn (he ▸ hi)
        rw [nwkOf,insert_get,if_neg hne]
        exact hi

theorem setNwk {inv : Inventory} (hs : inv.Sound) (i : Ieee) (m : Nwk) :
    (inv.setNwk i m).1.Sound := by
  cases hp : inv.nwkOf i with
  | none =>
    rw [setNwk_unchanged inv i m (Or.inl hp)]
    exact hs
  | some p =>
    by_cases hm : p = m
    · rw [setNwk_unchanged inv i m (Or.inr (hm ▸ hp))]
      exact hs
    · obtain ⟨e,hg,he⟩ := nwkOf_eq_some.mp hp
      have hget := setNwk_get inv i hg (he ▸ hm)
      constructor
      case keyed =>
        intro j e' h
        rw [hget] at h
        split at h
        · rename_i hj
          cases h
          exact (hs.keyed i e hg).trans hj.symm
        · exact hs.keyed j e' h
      case indexed =>
        intro n j h
        rw [setNwk_resolve inv i n hp hm] at h
        rw [nwkOf,hget]
        split at h
        · rename_i hn
          cases h
          rw [if_pos rfl,hn]
          rfl
        · split at h
          · cases h
          · rename_i hn
            have hj := hs.indexed n j h
            have hne : j ≠ i := by
              rintro rfl
              exact hn (Option.some.inj (hj.symm.trans hp))
            rw [if_neg hne]
            exact hj

theorem remove {inv : Inventory} (hs : inv.Sound) (i : Ieee) : (inv.remove i).1.Sound where
  keyed j e h := by
    rw [remove_get] at h
    split at h
    · cases h
    · exact hs.keyed j e h
  indexed n j h := by
    rw [remove_resolve] at h
    split at h
    · cases h
    · rename_i hn
      have hj := hs.indexed n j h
      have hne : j ≠ i := fun he => hn (he ▸ hj)
      rw [nwkOf,remove_get,if_neg hne]
      exact hj

theorem apply {inv : Inventory} (hs : inv.Sound) (op : Op) : (inv.apply op).Sound := by
  cases op with
  | insert e => exact hs.insert e
  | setNwk i m => exact hs.setNwk i m
  | remove i => exact hs.remove i

end Sound

theorem reachable_sound (ops : List Op) : (run apply new ops).Sound :=
  run_invariant apply (fun _ op hs => hs.apply op) Sound.new ops

/-- Whatever devices claim whatever addresses in whatever order, an index entry names a
device of the table by its recorded address, and no device has two. -/
theorem index_names_devices (ops : List Op) :
    let inv := run apply new ops
    (∀ n i, inv.resolve n = some i →
      ∃ e, inv.get i = some e ∧ e.info.ieee = i ∧ e.info.nwk = n) ∧
    ∀ n m i, inv.resolve n = some i → inv.resolve m = some i → n = m := by
  have hs := reachable_sound ops
  constructor
  · intro n i h
    obtain ⟨e,hg,hn⟩ := nwkOf_eq_some.mp (hs.indexed n i h)
    exact ⟨e,hg,hs.keyed i e hg,hn⟩
  · intro n m i hn hm
    have hn := hs.indexed n i hn
    have hm := hs.indexed m i hm
    exact Option.some.inj (hn.symm.trans hm)

/-- Addresses that resolve to other devices still do, unless assigned to this one. -/
def FrameLaw (inv : Inventory) (op : Op) : Prop :=
  ∀ n b, inv.resolve n = some b → b ≠ op.device → op.assigns ≠ some n →
    (inv.apply op).resolve n = some b

/-- The address recorded for the device of the operation is not another device's by now,
unless the operation assigns that address. -/
def OwnsRecorded (inv : Inventory) (op : Op) : Prop :=
  ∀ n b, inv.nwkOf op.device = some n → inv.resolve n = some b →
    b = op.device ∨ op.assigns = some n

/-- Away from the assigned address, the index loses the recorded one and nothing else. -/
theorem apply_resolve (inv : Inventory) {op : Op} {n : Nwk} (h : op.assigns ≠ some n) :
    (inv.apply op).resolve n = inv.resolve n ∧
        (inv.nwkOf op.device = op.assigns ∨ inv.nwkOf op.device ≠ some n) ∨
      (inv.apply op).resolve n = none ∧ inv.nwkOf op.device = some n := by
  cases op with
  | insert e =>
    have hn : n ≠ e.info.nwk := fun he => h (by rw [he]; rfl)
    rw [apply,insert_resolve,if_neg hn,Op.device]
    by_cases hp : inv.nwkOf e.info.ieee = some n
    · exact Or.inr ⟨if_pos hp,hp⟩
    · exact Or.inl ⟨if_neg hp,Or.inr hp⟩
  | setNwk i m =>
    rw [apply,Op.device]
    cases hp : inv.nwkOf i with
    | none =>
      rw [setNwk_unchanged inv i m (Or.inl hp)]
      exact Or.inl ⟨rfl,Or.inr (by simp)⟩
    | some p =>
      by_cases hm : p = m
      · rw [setNwk_unchanged inv i m (Or.inr (hm ▸ hp))]
        exact Or.inl ⟨rfl,Or.inl (by rw [hm]; rfl)⟩
      · have hn : n ≠ m := fun he => h (by rw [he]; rfl)
        rw [setNwk_resolve inv i n hp hm,if_neg hn]
        by_cases hnp : n = p
        · exact Or.inr ⟨if_pos hnp,by rw [hnp]⟩
        · exact Or.inl ⟨if_neg hnp,Or.inr fun he => hnp (Option.some.inj he).symm⟩
  | remove i =>
    rw [apply,remove_resolve,Op.device]
    by_cases hp : inv.nwkOf i = some n
    · exact Or.inr ⟨if_pos hp,hp⟩
    · exact Or.inl ⟨if_neg hp,Or.inr hp⟩

theorem frameLaw_iff (inv : Inventory) (op : Op) : inv.FrameLaw op ↔ inv.OwnsRecorded op := by
  constructor
  · intro h n b hp hb
    by_contra hc
    rw [not_or] at hc
    obtain ⟨hne,ha⟩ := hc
    have hkeep := h n b hb hne ha
    rcases inv.apply_resolve ha with ⟨-,hr | hr⟩ | ⟨hr,-⟩
    · exact ha (hr ▸ hp)
    · exact hr hp
    · rw [hr] at hkeep
      cases hkeep
  · intro h n b hb hne ha
    rcases inv.apply_resolve ha with ⟨hr,-⟩ | ⟨-,hp⟩
    · rw [hr,hb]
    · rcases h n b hp hb with he | he
      · exact absurd he hne
      · exact absurd he ha

/-- The frame law holds of a whole run exactly when every operation finds its device's
recorded address still its own. -/
theorem frameLaw_iff_ownsRecorded (ops : List Op) :
    Meets apply FrameLaw new ops ↔ Meets apply OwnsRecorded new ops :=
  meets_congr apply (A := fun _ => True) (P := fun _ => True) (fun _ _ _ _ => trivial)
    (fun inv op _ _ => frameLaw_iff inv op) trivial fun _ _ => trivial

/-- Two devices claim address 1 and the first one moves on: the second one's entry goes. -/
theorem readdressing_unindexes_other : ¬ ∀ ops, Meets apply FrameLaw new ops := by
  intro h
  have h := h [.insert (newEntry ⟨1⟩ ⟨1⟩ 0),.insert (newEntry ⟨2⟩ ⟨1⟩ 0),.setNwk ⟨1⟩ ⟨2⟩]
  have hkeep := h.2.2.1 ⟨1⟩ ⟨2⟩ (by decide) (by decide) (by decide)
  revert hkeep
  decide

end Inventory
end Rszigbee
