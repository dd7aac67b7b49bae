import Mathlib.Data.List.Basic

/-! Footprints. A state is seen through a family of observations. A step alters some of them and
leaves the others, steps in a row alter what each of them does, and what is read from none of the
altered observations is read the same before and after. -/
namespace Rszigbee

variable {ι S : Type*} {O : ι → Type*} {see : ∀ i, S → O i}

/-- At most these are seen to change. -/
def Alters (see : ∀ i, S → O i) (parts : List ι) (s s' : S) : Prop :=
  ∀ i, i ∉ parts → see i s' = see i s

/-- It is determined by these. -/
def RestsOn {β : Type*} (see : ∀ i, S → O i) (parts : List ι) (f : S → β) : Prop :=
  ∀ s s', (∀ i ∈ parts, see i s' = see i s) → f s' = f s

namespace Alters

variable {parts parts' : List ι} {s s' s'' : S}

theorem refl (parts : List ι) (s : S) : Alters see parts s s := fun _ _ => rfl

theorem mono (h : Alters see parts s s') (hparts : parts ⊆ parts') : Alters see parts' s s' :=
  fun i hi => h i fun hmem => hi (hparts hmem)

theorem trans (h : Alters see parts s s') (h' : Alters see parts' s' s'') :
    Alters see (parts ++ parts') s s'' := by
  intro i hi
  rw [List.mem_append,not_or] at hi
  rw [h' i hi.2,h i hi.1]

/-- Steps that alter the same alter it together. -/
theorem both (h : Alters see parts s s') (h' : Alters see parts s' s'') :
    Alters see parts s s'' :=
  fun i hi => (h' i hi).trans (h i hi)

theorem foldl {α : Type*} {f : S → α → S} (h : ∀ s a, Alters see parts s (f s a)) (l : List α)
    (s : S) : Alters see parts s (l.foldl f s) := by
  induction l generalizing s with
  | nil => exact .refl _ _
  | cons a l ih => exact (h s a).both (ih (f s a))

/-- What is read from none of what is altered stays the same. -/
theorem keeps {β : Type*} {f : S → β} (h : Alters see parts s s') (hf : RestsOn see parts' f)
    (hparts : ∀ i ∈ parts', i ∉ parts) : f s' = f s :=
  hf s s' fun i hi => h i (hparts i hi)

end Alters

end Rszigbee
