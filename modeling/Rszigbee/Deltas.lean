import Rszigbee.Echo
import Rszigbee.History
import Rszigbee.Overlays

/-! Deltas of capability values: what they are made by, and what a snapshot makes of them. -/
namespace Rszigbee

instance : LinearOrder CapabilityId where
  le a b := a.name ≤ b.name
  lt a b := a.name < b.name
  le_refl a := le_refl a.name
  le_trans a b c := le_trans (α := String)
  lt_iff_le_not_ge a b := lt_iff_le_not_ge (a := a.name) (b := b.name)
  le_antisymm a b h h' := congrArg CapabilityId.mk (le_antisymm h h')
  le_total a b := le_total a.name b.name
  toDecidableLE a b := inferInstanceAs (Decidable (a.name ≤ b.name))
  toDecidableEq := inferInstance

section Equality

open Float.Model in
/-- Two that are finite compare as equal when they are of one sign, mantissa and exponent. -/
theorem compare_finite {s t : UnpackedFloat.Sign} {m n : ℕ} {e f : ℤ} (h : 0 < m) (h' : 0 < n) :
    (UnpackedFloat.finite s m e h).compare (.finite t n f h') = some .eq ↔
      s = t ∧ m = n ∧ e = f := by
  cases s <;> cases t
  · show some ((compare e f).then (compare m n)).swap = some .eq ↔ _
    simp [Ordering.then_eq_eq,and_comm]
  · exact iff_of_false nofun nofun
  · exact iff_of_false nofun nofun
  · show some ((compare e f).then (compare m n)) = some .eq ↔ _
    simp [Ordering.then_eq_eq,and_comm]

open Float.Model in
/-- Floats are equal as what they are, with zeros equal to one another and no number to nothing. -/
theorem compare_eq_iff_unpacked (x y : UnpackedFloat) : x.compare y = some .eq ↔
    x ≠ .notANumber ∧ (x = y ∨ ∃ s t, x = .zero s ∧ y = .zero t) := by
  have hequal (heq : x.compare y = some .eq) :
      x ≠ .notANumber ∧ (x = y ∨ ∃ s t, x = .zero s ∧ y = .zero t) := by
    cases x with
    | notANumber => cases heq
    | infinity s =>
      cases y with
      | infinity t => cases s <;> cases t <;> first | exact ⟨nofun,.inl rfl⟩ | cases heq
      | _ => cases s <;> cases heq
    | zero s =>
      cases y with
      | zero t => exact ⟨nofun,.inr ⟨s,t,rfl,rfl⟩⟩
      | notANumber => cases heq
      | infinity t => cases t <;> cases heq
      | finite t m e h => cases t <;> cases heq
    | finite s m e h =>
      cases y with
      | finite t n f h' =>
        obtain ⟨rfl,rfl,rfl⟩ := (compare_finite h h').mp heq
        exact ⟨nofun,.inl rfl⟩
      | infinity t => cases s <;> cases t <;> cases heq
      | _ => cases s <;> cases heq
  refine ⟨hequal,?_⟩
  rintro ⟨hnumber,rfl | ⟨s,t,rfl,rfl⟩⟩
  · cases x with
    | notANumber => exact absurd rfl hnumber
    | infinity s => cases s <;> rfl
    | zero s => rfl
    | finite s m e h => exact (compare_finite h h).mpr ⟨rfl,rfl,rfl⟩
  · rfl

theorem float_eq_iff (x y : Float) : (x == y) = true ↔
    x.toModel.unpack ≠ .notANumber ∧ (x.toModel.unpack = y.toModel.unpack ∨
      ∃ s t, x.toModel.unpack = .zero s ∧ y.toModel.unpack = .zero t) := by
  have hbeq : (x == y) = (x.toModel.unpack.compare y.toModel.unpack == some .eq) := rfl
  rw [hbeq,beq_iff_eq,compare_eq_iff_unpacked]

mutual

/-- `PartialEq` as it is derived; floats compare as such. -/
def StateValue.eq : StateValue → StateValue → Bool
  | .bool a,.bool b => a = b
  | .int a,.int b => a = b
  | .float a,.float b => a == b
  | .str a,.str b => a = b
  | .enum a,.enum b => a = b
  | .list as,.list bs => eqItems as bs
  | .map as,.map bs => eqFields as bs
  | .null,.null => true
  | _,_ => false

def eqItems : List StateValue → List StateValue → Bool
  | [],[] => true
  | a::as,b::bs => a.eq b && eqItems as bs
  | _,_ => false

def eqFields : List (String × StateValue) → List (String × StateValue) → Bool
  | [],[] => true
  | (j,a)::as,(k,b)::bs => j = k && a.eq b && eqFields as bs
  | _,_ => false

end

theorem float_eq_self_iff (x : Float) : (x == x) = true ↔ x.toModel.unpack ≠ .notANumber := by
  rw [float_eq_iff]
  exact ⟨fun h => h.1,fun h => ⟨h,.inl rfl⟩⟩

theorem float_eq_symm {x y : Float} (h : (x == y) = true) : (y == x) = true := by
  rw [float_eq_iff] at h ⊢
  obtain ⟨hx,heq | ⟨s,t,hs,ht⟩⟩ := h
  · exact ⟨heq ▸ hx,.inl heq.symm⟩
  · exact ⟨by simp [ht],.inr ⟨t,s,ht,hs⟩⟩

theorem float_eq_trans {x y z : Float} (hxy : (x == y) = true) (hyz : (y == z) = true) :
    (x == z) = true := by
  rw [float_eq_iff] at hxy hyz ⊢
  obtain ⟨hx,hxy⟩ := hxy
  obtain ⟨-,hyz⟩ := hyz
  refine ⟨hx,?_⟩
  rcases hxy with hxy | ⟨s,t,hs,ht⟩
  · rwa [hxy]
  · rcases hyz with hyz | ⟨t',u,-,hu⟩
    · exact .inr ⟨s,t,hs,hyz ▸ ht⟩
    · exact .inr ⟨s,u,hs,hu⟩

mutual

/-- No float in the value is not a number. -/
def StateValue.NoNaN : StateValue → Prop
  | .float x => x.toModel.unpack ≠ .notANumber
  | .list items => NoNaNItems items
  | .map entries => NoNaNFields entries
  | _ => True

def NoNaNItems : List StateValue → Prop
  | [] => True
  | v::vs => v.NoNaN ∧ NoNaNItems vs

def NoNaNFields : List (String × StateValue) → Prop
  | [] => True
  | (_,v)::entries => v.NoNaN ∧ NoNaNFields entries

end

mutual

/-- Only what is not a number keeps a value from equalling itself. -/
theorem StateValue.eq_self_iff : ∀ v : StateValue, v.eq v = true ↔ v.NoNaN
  | .bool _ | .int _ | .str _ | .enum _ | .null => by simp [StateValue.eq,StateValue.NoNaN]
  | .float x => float_eq_self_iff x
  | .list items => eqItems_self_iff items
  | .map entries => eqFields_self_iff entries

theorem eqItems_self_iff : ∀ vs : List StateValue, eqItems vs vs = true ↔ NoNaNItems vs
  | [] => by simp [eqItems,NoNaNItems]
  | v::vs => by
    rw [eqItems,Bool.and_eq_true,v.eq_self_iff,eqItems_self_iff vs,NoNaNItems]

theorem eqFields_self_iff : ∀ vs : List (String × StateValue),
    eqFields vs vs = true ↔ NoNaNFields vs
  | [] => by simp [eqFields,NoNaNFields]
  | (k,v)::vs => by
    rw [eqFields,Bool.and_eq_true,Bool.and_eq_true,v.eq_self_iff,eqFields_self_iff vs,NoNaNFields]
    simp

end

mutual

theorem StateValue.eq_symm : ∀ v w : StateValue, v.eq w = true → w.eq v = true
  | .bool a,.bool b,h | .int a,.int b,h | .str a,.str b,h | .enum a,.enum b,h => by
    simpa [StateValue.eq,eq_comm] using h
  | .float x,.float y,h => float_eq_symm h
  | .list as,.list bs,h => eqItems_symm as bs h
  | .map as,.map bs,h => eqFields_symm as bs h
  | .null,.null,h => h

theorem eqItems_symm : ∀ as bs : List StateValue, eqItems as bs = true → eqItems bs as = true
  | [],[],h => h
  | a::as,b::bs,h => by
    rw [eqItems,Bool.and_eq_true] at h ⊢
    exact ⟨a.eq_symm b h.1,eqItems_symm as bs h.2⟩

theorem eqFields_symm : ∀ as bs : List (String × StateValue),
    eqFields as bs = true → eqFields bs as = true
  | [],[],h => h
  | (j,a)::as,(k,b)::bs,h => by
    rw [eqFields,Bool.and_eq_true,Bool.and_eq_true,decide_eq_true_eq] at h ⊢
    exact ⟨⟨h.1.1.symm,a.eq_symm b h.1.2⟩,eqFields_symm as bs h.2⟩

end

mutual

theorem StateValue.eq_trans : ∀ u v w : StateValue,
    u.eq v = true → v.eq w = true → u.eq w = true
  | .bool a,.bool b,.bool c,h,h' | .int a,.int b,.int c,h,h' | .str a,.str b,.str c,h,h'
  | .enum a,.enum b,.enum c,h,h' => by
    simp only [StateValue.eq,decide_eq_true_eq] at h h' ⊢
    exact h.trans h'
  | .float x,.float y,.float z,h,h' => float_eq_trans h h'
  | .list as,.list bs,.list cs,h,h' => eqItems_trans as bs cs h h'
  | .map as,.map bs,.map cs,h,h' => eqFields_trans as bs cs h h'
  | .null,.null,.null,h,_ => h

theorem eqItems_trans : ∀ as bs cs : List StateValue,
    eqItems as bs = true → eqItems bs cs = true → eqItems as cs = true
  | [],[],[],h,_ => h
  | a::as,b::bs,c::cs,h,h' => by
    rw [eqItems,Bool.and_eq_true] at h h' ⊢
    exact ⟨a.eq_trans b c h.1 h'.1,eqItems_trans as bs cs h.2 h'.2⟩

theorem eqFields_trans : ∀ as bs cs : List (String × StateValue),
    eqFields as bs = true → eqFields bs cs = true → eqFields as cs = true
  | [],[],[],h,_ => h
  | (j,a)::as,(k,b)::bs,(l,c)::cs,h,h' => by
    rw [eqFields,Bool.and_eq_true,Bool.and_eq_true,decide_eq_true_eq] at h h' ⊢
    exact ⟨⟨h.1.1.trans h'.1.1,a.eq_trans b c h.1.2 h'.1.2⟩,eqFields_trans as bs cs h.2 h'.2⟩

end

theorem StateValue.isPartialEq : Overlay.IsPartialEq StateValue.eq where
  symm h := StateValue.eq_symm _ _ h
  trans h h' := StateValue.eq_trans _ _ _ h h'

end Equality

/-- Where prioritised entries go. -/
inductive Priority
  | front | back
  deriving DecidableEq

namespace StateChanges

/-- Those listed before or behind all others. -/
def prioritised (ids : List String) (position : Priority)
    (entries : List (CapabilityId × StateValue)) : List (CapabilityId × StateValue) :=
  let (listed,rest) := entries.partition fun e => e.1.name ∈ ids
  match position with
  | .front => listed ++ rest
  | .back => rest ++ listed

theorem prioritised_perm (ids : List String) (position : Priority)
    (entries : List (CapabilityId × StateValue)) :
    (prioritised ids position entries).Perm entries := by
  have hfilter := List.filter_append_perm (fun e : CapabilityId × StateValue => decide (e.1.name ∈ ids)) entries
  rw [prioritised,List.partition_eq_filter_filter]
  cases position with
  | front => exact hfilter
  | back => exact List.perm_append_comm.trans hfilter

/-- The same entries; those that are chosen in their order, and the others in theirs. -/
structure StablyPermuted (p : CapabilityId × StateValue → Bool)
    (entries entries' : List (CapabilityId × StateValue)) : Prop where
  perm : entries'.Perm entries
  chosen : entries'.filter p = entries.filter p
  others : entries'.filter (fun e => !p e) = entries.filter fun e => !p e

theorem prioritised_stable (ids : List String) (position : Priority)
    (entries : List (CapabilityId × StateValue)) :
    StablyPermuted (fun e => e.1.name ∈ ids) entries (prioritised ids position entries) := by
  refine ⟨prioritised_perm ids position entries,?_,?_⟩
  · rw [prioritised,List.partition_eq_filter_filter]
    cases position <;> simp [List.filter_filter]
  · rw [prioritised,List.partition_eq_filter_filter]
    cases position <;> simp [List.filter_filter]

def prioritise (c : StateChanges) (ids : List String) (position : Priority) : StateChanges where
  entries := prioritised ids position c.entries
  distinct := ((prioritised_perm ids position c.entries).map Prod.fst).nodup_iff.mpr c.distinct

/-- What a set of changes is made by. -/
inductive Operation
  | set (id : CapabilityId) (value : StateValue)
  | merge (other : StateChanges)
  | prioritise (ids : List String) (position : Priority)

def Operation.run (c : StateChanges) : Operation → StateChanges
  | set id value => c.set id value
  | merge other => c.merge other
  | prioritise ids position => c.prioritise ids position

end StateChanges

/-- A full view of a device's last known values. -/
structure StateSnapshot where
  values : Ordered CapabilityId StateValue

namespace StateSnapshot

def get (s : StateSnapshot) (id : CapabilityId) : Option StateValue := s.values.get id

/-- Applies a delta, and returns the ids that actually changed. -/
def apply (s : StateSnapshot) (changes : StateChanges) : StateSnapshot × List CapabilityId :=
  let laid := Overlay.lay StateValue.eq s.values changes.entries
  (⟨laid.1⟩,laid.2)

/-- What is returned of a delta: the ids whose value was not equal to the one before, in the order
of the delta. These have the delta's value; all others have the one before. -/
structure ReportsChanged (s : StateSnapshot) (a : StateChanges) : Prop where
  order : (s.apply a).2.Sublist (a.entries.map Prod.fst)
  changed : ∀ id, id ∈ (s.apply a).2 ↔
    ∃ v, a.get id = some v ∧ ∀ w, s.get id = some w → ¬w.eq v = true
  written : ∀ id ∈ (s.apply a).2, (s.apply a).1.get id = a.get id
  kept : ∀ id, id ∉ (s.apply a).2 → (s.apply a).1.get id = s.get id

section Laws
variable (s : StateSnapshot) (a b : StateChanges)

theorem get_apply (id : CapabilityId) :
    (s.apply a).1.get id = Overlay.overlaid StateValue.eq (s.get id) (a.get id) :=
  Overlay.get_lay a.distinct id

theorem mem_changed_iff (id : CapabilityId) : id ∈ (s.apply a).2 ↔
    ∃ v, a.get id = some v ∧ ∀ w, s.get id = some w → ¬w.eq v = true := by
  have hwritten : (s.apply a).2 = _ := Overlay.written_lay a.distinct
  rw [hwritten,List.mem_map]
  constructor
  · rintro ⟨e,he,rfl⟩
    obtain ⟨he,hholds⟩ := List.mem_filter.mp he
    refine ⟨e.2,Overlay.valueOf_of_mem a.distinct he,fun w hw heq => ?_⟩
    have hholds' : Overlay.holds StateValue.eq (s.values.get e.1) e.2 = true :=
      Overlay.holds_iff.mpr ⟨w,hw,heq⟩
    simp [hholds'] at hholds
  · rintro ⟨v,hv,hdiffers⟩
    obtain ⟨e,he,rfl⟩ := Option.map_eq_some_iff.mp hv
    have hid : e.1 = id := by simpa using List.find?_some he
    refine ⟨e,List.mem_filter.mpr ⟨List.mem_of_find?_eq_some he,?_⟩,hid⟩
    rw [Bool.not_eq_true',Bool.eq_false_iff]
    intro hholds
    obtain ⟨w,hw,heq⟩ := Overlay.holds_iff.mp hholds
    exact hdiffers w (hid ▸ hw) heq

theorem reportsChanged : s.ReportsChanged a := by
  refine ⟨?_,s.mem_changed_iff a,?_,?_⟩
  · have hwritten : (s.apply a).2 = _ := Overlay.written_lay a.distinct
    rw [hwritten]
    exact List.filter_sublist.map _
  · intro id hid
    obtain ⟨v,hv,hdiffers⟩ := (s.mem_changed_iff a id).mp hid
    rw [get_apply,hv,Overlay.overlaid,if_neg]
    intro hholds
    obtain ⟨w,hw,heq⟩ := Overlay.holds_iff.mp hholds
    exact hdiffers w hw heq
  · intro id hid
    rw [get_apply]
    cases hv : a.get id with
    | none => rfl
    | some v =>
      rw [Overlay.overlaid]
      split
      · rfl
      · rename_i hholds
        exact absurd ((s.mem_changed_iff a id).mpr ⟨v,hv,fun w hw heq =>
          hholds (Overlay.holds_iff.mpr ⟨w,hw,heq⟩)⟩) hid

/-- One delta after the other leaves what both at once do, up to values that are equal. -/
theorem alike_apply_merge (id : CapabilityId) : Overlay.Alike StateValue.eq
    (((s.apply a).1.apply b).1.get id) ((s.apply (a.merge b)).1.get id) := by
  rw [get_apply,get_apply,get_apply,StateChanges.get_merge]
  exact Overlay.overlaid_overlaid StateValue.isPartialEq _ _ _

theorem apply_merge (h : ∀ id v w, s.get id = some v ∨ a.get id = some v → b.get id = some w →
    v.eq w = true → v = w) : ((s.apply a).1.apply b).1 = (s.apply (a.merge b)).1 := by
  have hget : ∀ id, ((s.apply a).1.apply b).1.get id = (s.apply (a.merge b)).1.get id := by
    intro id
    rw [get_apply,get_apply,get_apply,StateChanges.get_merge]
    exact Overlay.overlaid_overlaid_of_exact (h id)
  exact congrArg StateSnapshot.mk (Ordered.ext_get hget)

theorem apply_again (h : ∀ e ∈ a.entries, e.2.NoNaN) :
    (s.apply a).1.apply a = ((s.apply a).1,[]) := by
  have hagain := Overlay.lay_lay (m := s.values) a.distinct fun e he =>
    (StateValue.eq_self_iff e.2).mpr (h e he)
  have happly : (s.apply a).1.apply a =
      (⟨(Overlay.lay StateValue.eq (s.apply a).1.values a.entries).1⟩,
        (Overlay.lay StateValue.eq (s.apply a).1.values a.entries).2) := rfl
  rw [happly]
  have hvalues : (s.apply a).1.values = (Overlay.lay StateValue.eq s.values a.entries).1 := rfl
  rw [hvalues,hagain]
  rfl

end Laws

/-- No capability is held twice, whatever a set of changes was made by, and prioritising permutes it
stably. Two deltas in turn leave the snapshot that their merger does: the same ids, each with the
same value or an equal one, and the very same wherever no other value than itself is equal to one of
the later delta's. What is reported is what changed; a delta applied again changes nothing. -/
theorem deltas_compose :
    (∀ ops : List StateChanges.Operation,
      ((ops.foldl StateChanges.Operation.run .new).entries.map Prod.fst).Nodup) ∧
    (∀ (c : StateChanges) ids position, StateChanges.StablyPermuted (fun e => e.1.name ∈ ids)
      c.entries (c.prioritise ids position).entries) ∧
    ∀ (s : StateSnapshot) (a b : StateChanges),
      (∀ id, Overlay.Alike StateValue.eq
        (((s.apply a).1.apply b).1.get id) ((s.apply (a.merge b)).1.get id)) ∧
      ((∀ id v w, s.get id = some v ∨ a.get id = some v → b.get id = some w →
        v.eq w = true → v = w) → ((s.apply a).1.apply b).1 = (s.apply (a.merge b)).1) ∧
      s.ReportsChanged a ∧
      ((∀ e ∈ a.entries, e.2.NoNaN) → (s.apply a).1.apply a = ((s.apply a).1,[])) :=
  ⟨fun _ => StateChanges.distinct _,
    fun c ids position => StateChanges.prioritised_stable ids position c.entries,
    fun s a b => ⟨s.alike_apply_merge a b,s.apply_merge a b,s.reportsChanged a,s.apply_again a⟩⟩

end StateSnapshot
end Rszigbee
