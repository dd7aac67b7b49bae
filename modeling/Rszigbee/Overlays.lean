import Rszigbee.Ordered

/-! Maps that lists of entries are laid over, where a value equal to the one before is not
written. Equality is a partial one, as that of floats is. -/
namespace Rszigbee
namespace Overlay

variable {K V : Type} [LinearOrder K]

/-- A value need not equal itself. -/
structure IsPartialEq (eq : V → V → Bool) : Prop where
  symm : ∀ {v w}, eq v w = true → eq w v = true
  trans : ∀ {u v w}, eq u v = true → eq v w = true → eq u w = true

variable (eq : V → V → Bool)

/-- Both absent, or there and equal or the very same. -/
def Alike : Option V → Option V → Prop := Option.Rel fun v w => v = w ∨ eq v w = true

/-- What is there is what a new value would be. -/
def holds (old : Option V) (v : V) : Bool := old.any fun w => eq w v

/-- A new value, if there is one, over an old. -/
def overlaid (old new : Option V) : Option V :=
  match new with
  | none => old
  | some v => if holds eq old v then old else some v

/-- Entries laid over a map in turn, and the keys that were written. -/
def lay : Ordered K V → List (K × V) → Ordered K V × List K
  | m,[] => (m,[])
  | m,e::es =>
    if holds eq (m.get e.1) e.2 then lay m es
    else
      let next := lay (m.insert e.1 e.2) es
      (next.1,e.1::next.2)

section Values
variable {eq} {old a b c : Option V} {v w : V}

theorem holds_iff : holds eq old v = true ↔ ∃ w, old = some w ∧ eq w v = true := by
  rw [holds,Option.any_eq_true]

theorem Alike.refl (o : Option V) : Alike eq o o := by
  cases o with
  | none => exact .none
  | some v => exact .some (.inl rfl)

theorem Alike.symm (heq : IsPartialEq eq) (h : Alike eq a b) : Alike eq b a := by
  cases h with
  | none => exact .none
  | some h =>
    obtain rfl | h := h
    · exact .some (.inl rfl)
    · exact .some (.inr (heq.symm h))

theorem Alike.trans (heq : IsPartialEq eq) (hab : Alike eq a b) (hbc : Alike eq b c) :
    Alike eq a c := by
  cases hab with
  | none => exact hbc
  | some hab =>
    cases hbc with
    | some hbc =>
      obtain rfl | hab := hab
      · exact .some hbc
      · obtain rfl | hbc := hbc
        · exact .some (.inr hab)
        · exact .some (.inr (heq.trans hab hbc))

/-- What was laid over is there, or what was equal to it. -/
theorem alike_overlaid (old : Option V) (v : V) : Alike eq (overlaid eq old (some v)) (some v) := by
  by_cases hholds : holds eq old v = true
  · obtain ⟨w,rfl,hw⟩ := holds_iff.mp hholds
    rw [overlaid,if_pos hholds]
    exact .some (.inr hw)
  · rw [overlaid,if_neg hholds]
    exact Alike.refl _

/-- One after the other is as good as both at once. -/
theorem overlaid_overlaid (heq : IsPartialEq eq) (old a b : Option V) :
    Alike eq (overlaid eq (overlaid eq old a) b) (overlaid eq old (b.or a)) := by
  cases b with
  | none => exact Alike.refl _
  | some v =>
    rw [Option.some_or]
    exact (alike_overlaid _ v).trans heq ((alike_overlaid old v).symm heq)

/-- It is the same where nothing but the value itself is equal to a later one. -/
theorem overlaid_overlaid_of_exact
    (h : ∀ v w, old = some v ∨ a = some v → b = some w → eq v w = true → v = w) :
    overlaid eq (overlaid eq old a) b = overlaid eq old (b.or a) := by
  cases b with
  | none => rfl
  | some w =>
    have hsame : ∀ o : Option V, (∀ v, o = some v → old = some v ∨ a = some v) →
        overlaid eq o (some w) = some w := by
      intro o ho
      by_cases hholds : holds eq o w = true
      · obtain ⟨v,rfl,hv⟩ := holds_iff.mp hholds
        rw [overlaid,if_pos hholds,h v w (ho v rfl) rfl hv]
      · rw [overlaid,if_neg hholds]
    rw [Option.some_or,hsame old fun v hv => .inl hv]
    apply hsame
    intro v hv
    cases a with
    | none => exact .inl hv
    | some u =>
      rw [overlaid] at hv
      split at hv
      · exact .inl hv
      · exact .inr hv

/-- A value that equals itself holds once it was laid over. -/
theorem holds_overlaid (h : eq v v = true) : holds eq (overlaid eq old (some v)) v = true := by
  by_cases hholds : holds eq old v = true
  · rw [overlaid,if_pos hholds]
    exact hholds
  · rw [overlaid,if_neg hholds]
    exact holds_iff.mpr ⟨v,rfl,h⟩

end Values

section Maps
variable {eq} {m : Ordered K V} {es : List (K × V)}

/-- The value of a key among entries. -/
def valueOf (es : List (K × V)) (k : K) : Option V := (es.find? fun e => e.1 = k).map Prod.snd

theorem valueOf_cons (e : K × V) (es : List (K × V)) (k : K) :
    valueOf (e::es) k = if e.1 = k then some e.2 else valueOf es k := by
  by_cases h : e.1 = k <;> simp [valueOf,h]

theorem valueOf_of_not_mem {k : K} (h : k ∉ es.map Prod.fst) : valueOf es k = none := by
  rw [valueOf,Option.map_eq_none_iff,List.find?_eq_none]
  intro e he hk
  exact h (List.mem_map.mpr ⟨e,he,of_decide_eq_true hk⟩)

theorem valueOf_of_mem (hdistinct : (es.map Prod.fst).Nodup) {e : K × V} (he : e ∈ es) :
    valueOf es e.1 = some e.2 := by
  induction es with
  | nil => cases he
  | cons f es ih =>
    obtain ⟨hfresh,hdistinct⟩ := List.nodup_cons.mp hdistinct
    rw [valueOf_cons]
    rcases List.mem_cons.mp he with rfl | he
    · exact if_pos rfl
    · have hne : f.1 ≠ e.1 := fun h => hfresh (h ▸ List.mem_map.mpr ⟨e,he,rfl⟩)
      rw [if_neg hne]
      exact ih hdistinct he

/-- Each key is written over at most once, by its entry. -/
theorem get_lay (hdistinct : (es.map Prod.fst).Nodup) (k : K) :
    (lay eq m es).1.get k = overlaid eq (m.get k) (valueOf es k) := by
  induction es generalizing m with
  | nil => rfl
  | cons e es ih =>
    obtain ⟨hfresh,hdistinct⟩ := List.nodup_cons.mp hdistinct
    rw [valueOf_cons]
    by_cases hk : e.1 = k
    · subst hk
      rw [if_pos rfl,overlaid,lay]
      split
      · rw [ih hdistinct,valueOf_of_not_mem hfresh]
        rfl
      · rw [ih hdistinct,valueOf_of_not_mem hfresh,overlaid,Ordered.get_insert,if_pos rfl]
    · rw [if_neg hk,lay]
      split
      · rw [ih hdistinct]
      · rw [ih hdistinct,Ordered.get_insert,if_neg (Ne.symm hk)]

/-- The keys written are those whose value was not there, in the order of the entries. -/
theorem written_lay (hdistinct : (es.map Prod.fst).Nodup) :
    (lay eq m es).2 = (es.filter fun e => !holds eq (m.get e.1) e.2).map Prod.fst := by
  induction es generalizing m with
  | nil => rfl
  | cons e es ih =>
    obtain ⟨hfresh,hdistinct⟩ := List.nodup_cons.mp hdistinct
    have hlater : (es.filter fun f => !holds eq ((m.insert e.1 e.2).get f.1) f.2) =
        es.filter fun f => !holds eq (m.get f.1) f.2 := by
      apply List.filter_congr
      intro f hf
      have hne : f.1 ≠ e.1 := fun h => hfresh (h ▸ List.mem_map.mpr ⟨f,hf,rfl⟩)
      rw [Ordered.get_insert,if_neg hne]
    rw [lay,List.filter_cons]
    by_cases hholds : holds eq (m.get e.1) e.2 = true
    · simp only [hholds,if_true,Bool.not_true,Bool.false_eq_true,if_false]
      exact ih hdistinct
    · simp only [hholds,Bool.false_eq_true,if_false]
      rw [ih hdistinct,hlater]
      simp

/-- Where every value is there already, nothing is written. -/
theorem lay_of_holds (h : ∀ e ∈ es, holds eq (m.get e.1) e.2 = true) : lay eq m es = (m,[]) := by
  induction es with
  | nil => rfl
  | cons e es ih =>
    rw [lay,if_pos (h e List.mem_cons_self)]
    exact ih fun f hf => h f (List.mem_cons_of_mem _ hf)

/-- Entries laid over what they were laid over already. -/
theorem lay_lay (hdistinct : (es.map Prod.fst).Nodup) (hself : ∀ e ∈ es, eq e.2 e.2 = true) :
    lay eq (lay eq m es).1 es = ((lay eq m es).1,[]) := by
  apply lay_of_holds
  intro e he
  rw [get_lay hdistinct,valueOf_of_mem hdistinct he]
  exact holds_overlaid (hself e he)

end Maps

end Overlay
end Rszigbee
