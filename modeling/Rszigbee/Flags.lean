import Mathlib.Data.Nat.Bitwise
import Rszigbee.Datapoints

/-! Bitmaps as the names of their bits, with the overflow checks that every build keeps. -/
namespace Rszigbee
namespace Tuya

/-- `1u32 << u32::from(bit)`. A shift out of the word is an overflow, which ends the run. -/
def checkedShift (bit : UInt8) : Option UInt32 :=
  if bit.toNat < 32 then some (1 <<< bit.toUInt32) else none

/-- The names whose bits are set. -/
def flagNames (bits : UInt32) : List (UInt8 × String) → Option (List String)
  | [] => some []
  | n::names => do
    let mask ← checkedShift n.1
    let rest ← flagNames bits names
    some (if bits &&& mask ≠ 0 then n.2::rest else rest)

section Checked
variable {Q : Type} (apply : NumericSpec → ℤ → Q)

/-- `convert` where arithmetic is checked; none is an overflow. -/
def convertChecked (entry : TuyaDatapoint) (value : Value) : Option (Option (Reading Q)) :=
  match entry.kind,value with
  | .bitmap names,.bitmap bits =>
    (flagNames bits names).map fun set => some (.plain (.list (set.map .str)))
  | _,_ => some (convert apply entry value)

variable (behaviors : BehaviorRegistry) (definition : Definition) (device : DeviceInfo)

def readingsChecked (point : Datapoint) : Option (List (CapabilityId × Reading Q)) :=
  match definition.tuyaDatapoints.find? fun d => d.dp = point.dp with
  | none => some []
  | some entry =>
    match entry.kind with
    | .behavior name =>
      match behaviors.lookup name with
      | none => some []
      | some behavior =>
        match (behavior.decodeDatapoint device definition point entry.name).answer with
        | none => some []
        | some delegated => some (delegated.entries.map fun e => (e.1,.plain e.2))
    | _ =>
      (convertChecked apply entry point.value).map fun
        | none => []
        | some value => [(⟨entry.name⟩,value)]

end Checked

/-- `datapoints_to_state` where arithmetic is checked. -/
def datapointsToStateChecked (behaviors : BehaviorRegistry) (definition : Definition)
    (datapoints : List Datapoint) (device : DeviceInfo) : Option StateChanges :=
  datapoints.foldlM (fun changes point =>
    (readingsChecked NumericSpec.apply behaviors definition device point).map fun rs =>
      changes.setAll (rs.map fun e => (e.1,e.2.toState))) .new

/-- A bitmap for a table that numbers a bit beyond the word. -/
def Overshoots (definition : Definition) (point : Datapoint) : Prop :=
  ∃ entry names bits, definition.tuyaDatapoints.find? (fun d => d.dp = point.dp) = some entry ∧
    entry.kind = .bitmap names ∧ point.value = .bitmap bits ∧ ∃ n ∈ names, 32 ≤ n.1.toNat

section Shifts

theorem flag_set_iff (bits : UInt32) {bit : UInt8} (hbit : bit.toNat < 32) :
    bits &&& (1 <<< bit.toUInt32) ≠ 0 ↔ bits.toNat.testBit bit.toNat = true := by
  have hshift : bit.toUInt32.toNat % 32 = bit.toNat := by
    rw [UInt8.toNat_toUInt32]
    exact Nat.mod_eq_of_lt hbit
  have hmask : ((1 : UInt32) <<< bit.toUInt32).toNat = 2 ^ bit.toNat := by
    rw [UInt32.toNat_shiftLeft,hshift,UInt32.toNat_one,Nat.one_shiftLeft]
    exact Nat.mod_eq_of_lt (Nat.pow_lt_pow_right (by decide) hbit)
  rw [Ne,← UInt32.toNat_inj,UInt32.toNat_and,hmask,Nat.and_two_pow]
  cases bits.toNat.testBit bit.toNat <;> simp

theorem flagNames_of_lt (bits : UInt32) {names : List (UInt8 × String)}
    (h : ∀ n ∈ names, n.1.toNat < 32) : flagNames bits names =
      some ((names.filter fun n => bits.toNat.testBit n.1.toNat).map Prod.snd) := by
  induction names with
  | nil => rfl
  | cons n names ih =>
    have hn := h n List.mem_cons_self
    have hset := flag_set_iff bits hn
    have hrest := ih fun m hm => h m (List.mem_cons_of_mem _ hm)
    have hstep : flagNames bits (n::names) = (flagNames bits names).map fun rest =>
        if bits &&& (1 <<< n.1.toUInt32) ≠ 0 then n.2::rest else rest := by
      rw [flagNames,checkedShift,if_pos hn]
      cases flagNames bits names <;> rfl
    rw [hstep,hrest,Option.map_some,List.filter_cons]
    by_cases hbit : bits.toNat.testBit n.1.toNat = true
    · rw [if_pos (hset.mpr hbit),if_pos hbit,List.map_cons]
    · rw [if_neg (fun hmask => hbit (hset.mp hmask)),if_neg hbit]

/-- One bit beyond the word is enough to end the run. -/
theorem flagNames_of_le (bits : UInt32) {names : List (UInt8 × String)} {n : UInt8 × String}
    (hn : n ∈ names) (hbit : 32 ≤ n.1.toNat) : flagNames bits names = none := by
  induction names with
  | nil => cases hn
  | cons m names ih =>
    rcases List.mem_cons.mp hn with rfl | hn
    · rw [flagNames,checkedShift,if_neg (not_lt.mpr hbit)]
      rfl
    · rw [flagNames,ih hn]
      cases checkedShift m.1 <;> rfl

theorem convert_bitmap {Q : Type} (apply : NumericSpec → ℤ → Q) {entry : TuyaDatapoint}
    {names : List (UInt8 × String)} (hkind : entry.kind = .bitmap names)
    (hnames : ∀ n ∈ names, n.1.toNat < 32) (bits : UInt32) :
    convert apply entry (.bitmap bits) = some (.plain (.list
      (((names.filter fun n => bits.toNat.testBit n.1.toNat).map Prod.snd).map .str))) := by
  have hfilter : (names.filter fun n => bits &&& ((1 : UInt32) <<< n.1.toUInt32) ≠ 0) =
      names.filter fun n => bits.toNat.testBit n.1.toNat := by
    apply List.filter_congr
    intro n hn
    rw [Bool.eq_iff_iff,decide_eq_true_eq]
    exact flag_set_iff bits (hnames n hn)
  unfold convert
  rw [hkind]
  dsimp only
  rw [hfilter,List.map_map]
  rfl

end Shifts

section Completes
variable {Q : Type} (apply : NumericSpec → ℤ → Q) (behaviors : BehaviorRegistry)
  (definition : Definition) (device : DeviceInfo)

/-- Without an overflow, what is converted is what it was without the check. -/
theorem convertChecked_eq {entry : TuyaDatapoint} {value : Value}
    (h : ∀ names bits, entry.kind = .bitmap names → value = .bitmap bits →
      ∀ n ∈ names, n.1.toNat < 32) :
    convertChecked apply entry value = some (convert apply entry value) := by
  unfold convertChecked
  split
  · rename_i names bits hkind
    have hnames := h names bits hkind rfl
    rw [flagNames_of_lt bits hnames,convert_bitmap apply hkind hnames]
    rfl
  · rfl

theorem convertChecked_eq_none {entry : TuyaDatapoint} {names : List (UInt8 × String)}
    {bits : UInt32} (hkind : entry.kind = .bitmap names) {n : UInt8 × String} (hn : n ∈ names)
    (hbit : 32 ≤ n.1.toNat) : convertChecked apply entry (.bitmap bits) = none := by
  unfold convertChecked
  rw [hkind]
  dsimp only
  rw [flagNames_of_le bits hn hbit]
  rfl

variable {behaviors definition device}

theorem not_overshoots {point : Datapoint} {entry : TuyaDatapoint}
    (hentry : definition.tuyaDatapoints.find? (fun d => d.dp = point.dp) = some entry)
    (h : ¬Overshoots definition point) {names : List (UInt8 × String)} {bits : UInt32}
    (hkind : entry.kind = .bitmap names) (hvalue : point.value = .bitmap bits) :
    ∀ n ∈ names, n.1.toNat < 32 := by
  intro n hn
  by_contra hbit
  exact h ⟨entry,names,bits,hentry,hkind,hvalue,n,hn,not_lt.mp hbit⟩

theorem readingsChecked_eq {point : Datapoint} (h : ¬Overshoots definition point) :
    readingsChecked apply behaviors definition device point =
      some (readings apply behaviors definition device point) := by
  unfold readingsChecked readings
  cases hentry : definition.tuyaDatapoints.find? fun d => d.dp = point.dp with
  | none => rfl
  | some entry =>
    have hconvert : convertChecked apply entry point.value =
        some (convert apply entry point.value) :=
      convertChecked_eq apply fun names bits hkind hvalue => not_overshoots hentry h hkind hvalue
    dsimp only
    cases entry.kind with
    | behavior name =>
      dsimp only
      cases behaviors.lookup name with
      | none => rfl
      | some behavior =>
        dsimp only
        cases (behavior.decodeDatapoint device definition point entry.name).answer <;> rfl
    | _ =>
      dsimp only
      cases hvalue : convert apply entry point.value <;> simp [hconvert,hvalue]

theorem readingsChecked_eq_none {point : Datapoint} (h : Overshoots definition point) :
    readingsChecked apply behaviors definition device point = none := by
  obtain ⟨entry,names,bits,hentry,hkind,hvalue,n,hn,hbit⟩ := h
  unfold readingsChecked
  rw [hentry,hvalue]
  dsimp only
  rw [hkind]
  dsimp only
  rw [convertChecked_eq_none apply hkind hn hbit]
  rfl

end Completes

section Run
variable {behaviors : BehaviorRegistry} {definition : Definition} {device : DeviceInfo}
  {datapoints : List Datapoint}

/-- One datapoint after the others. -/
theorem datapointsToState_append (before : List Datapoint) (point : Datapoint) :
    datapointsToState behaviors definition (before ++ [point]) device =
      (datapointsToState behaviors definition before device).setAll
        ((readings NumericSpec.apply behaviors definition device point).map fun e =>
          (e.1,e.2.toState)) := by
  rw [datapointsToState,List.foldl_append]
  rfl

theorem datapointsToStateChecked_append (before : List Datapoint) (point : Datapoint) :
    datapointsToStateChecked behaviors definition (before ++ [point]) device =
      (datapointsToStateChecked behaviors definition before device).bind fun changes =>
        (readingsChecked NumericSpec.apply behaviors definition device point).map fun rs =>
          changes.setAll (rs.map fun e => (e.1,e.2.toState)) := by
  rw [datapointsToStateChecked,List.foldlM_append]
  simp only [List.foldlM_cons,List.foldlM_nil,bind_pure]
  rfl

/-- A run without an overflow gives what it was before the check; the others give nothing. -/
theorem datapointsToStateChecked_eq (h : ∀ point ∈ datapoints, ¬Overshoots definition point) :
    datapointsToStateChecked behaviors definition datapoints device =
      some (datapointsToState behaviors definition datapoints device) := by
  induction datapoints using List.reverseRecOn with
  | nil => rfl
  | append_singleton before point ih =>
    have hbefore := ih fun p hp => h p (List.mem_append_left _ hp)
    have hpoint : ¬Overshoots definition point := h point (by simp)
    rw [datapointsToStateChecked_append,hbefore,Option.bind_some,readingsChecked_eq _ hpoint,
      Option.map_some,datapointsToState_append]

theorem datapointsToStateChecked_eq_none {point : Datapoint} (hpoint : point ∈ datapoints)
    (h : Overshoots definition point) :
    datapointsToStateChecked behaviors definition datapoints device = none := by
  induction datapoints using List.reverseRecOn with
  | nil => cases hpoint
  | append_singleton before last ih =>
    rw [datapointsToStateChecked_append]
    rcases List.mem_append.mp hpoint with hbefore | hlast
    · rw [ih hbefore]
      rfl
    · obtain rfl := List.mem_singleton.mp hlast
      rw [readingsChecked_eq_none _ h]
      cases datapointsToStateChecked behaviors definition before device <;> rfl

/-- Where a bitmap is the last to set its capability, this is the names whose bits are set; a bit
beyond the word never is. -/
def FlagsNamed (behaviors : BehaviorRegistry) (definition : Definition)
    (datapoints : List Datapoint) (device : DeviceInfo) (changes : StateChanges) : Prop :=
  ∀ before point after entry names bits, datapoints = before ++ point::after →
    definition.tuyaDatapoints.find? (fun d => d.dp = point.dp) = some entry →
    entry.kind = .bitmap names → point.value = .bitmap bits →
    (∀ later ∈ after, ⟨entry.name⟩ ∉
      (readings NumericSpec.apply behaviors definition device later).map Prod.fst) →
    changes.get ⟨entry.name⟩ = some (.list
      ((names.filter fun n => bits.toNat.testBit n.1.toNat).map fun n => .str n.2))

theorem get_setAll_of_not_mem {changes : List (CapabilityId × StateValue)} {id : CapabilityId}
    (h : id ∉ changes.map Prod.fst) (c : StateChanges) : (c.setAll changes).get id = c.get id := by
  have hnone : changes.reverse.find? (fun e => e.1 = id) = none := by
    rw [List.find?_eq_none]
    intro e he heq
    exact h (List.mem_map.mpr ⟨e,List.mem_reverse.mp he,of_decide_eq_true heq⟩)
  rw [get_setAll,lastSet,hnone]
  rfl

theorem flagsNamed_of_not_overshoots (h : ∀ point ∈ datapoints, ¬Overshoots definition point) :
    FlagsNamed behaviors definition datapoints device
      (datapointsToState behaviors definition datapoints device) := by
  rintro before point after entry names bits rfl hentry hkind hvalue hlast
  have hnames : ∀ n ∈ names, n.1.toNat < 32 :=
    not_overshoots hentry (h point (by simp)) hkind hvalue
  clear h
  induction after using List.reverseRecOn with
  | nil =>
    have hreadings : readings NumericSpec.apply behaviors definition device point =
        [(⟨entry.name⟩,.plain (.list (((names.filter fun n =>
          bits.toNat.testBit n.1.toNat).map Prod.snd).map .str)))] := by
      unfold readings
      rw [hentry]
      dsimp only
      rw [hkind]
      dsimp only
      rw [hvalue,convert_bitmap _ hkind hnames]
    rw [datapointsToState_append,hreadings,get_setAll,List.map_map]
    simp [lastSet,Reading.toState]
  | append_singleton after later ih =>
    have hkeys : (⟨entry.name⟩ : CapabilityId) ∉ ((readings NumericSpec.apply behaviors definition
        device later).map fun e => (e.1,e.2.toState)).map Prod.fst := by
      rw [List.map_map]
      exact hlast later (by simp)
    rw [← List.cons_append,← List.append_assoc,datapointsToState_append,
      get_setAll_of_not_mem hkeys]
    exact ih fun q hq => hlast q (List.mem_append_left _ hq)

/-- A run completes, with every last bitmap as the names of its bits, if and only if none comes to
a table that numbers a bit beyond the word. -/
theorem bitmaps_decode_iff (behaviors : BehaviorRegistry) (definition : Definition)
    (datapoints : List Datapoint) (device : DeviceInfo) :
    (∃ changes, datapointsToStateChecked behaviors definition datapoints device = some changes ∧
      FlagsNamed behaviors definition datapoints device changes) ↔
    ∀ point ∈ datapoints, ¬Overshoots definition point := by
  constructor
  · rintro ⟨changes,hchanges,-⟩ point hpoint hover
    rw [datapointsToStateChecked_eq_none hpoint hover] at hchanges
    cases hchanges
  · intro h
    exact ⟨_,datapointsToStateChecked_eq h,flagsNamed_of_not_overshoots h⟩

/-- A table of faults that gives the thirty-second bit a name. -/
def faulty : Definition where
  tuyaDatapoints := [{ dp := 1, name := "faults", kind := .bitmap [(0,"low"),(32,"high")] }]

/-- Its first report ends the run. -/
theorem bitmap_overflows : ¬∃ changes,
    datapointsToStateChecked ∅ faulty [⟨1,.bitmap 1⟩] plug = some changes ∧
      FlagsNamed ∅ faulty [⟨1,.bitmap 1⟩] plug changes := by
  rintro ⟨changes,hchanges,-⟩
  cases hchanges

end Run
end Tuya
end Rszigbee
