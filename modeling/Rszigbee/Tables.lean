import Mathlib.Data.List.AList
import Mathlib.Data.Set.Finite.Lattice

/-! Finite maps as association lists with distinct keys, and lists that grow or change in place.
Insertion, removal and lookup are Mathlib's; walking a map is added here. -/
namespace Rszigbee

theorem getElem?_concat {α : Type*} (l : List α) (x : α) (j : ℕ) :
    (l ++ [x])[j]? = if j = l.length then some x else l[j]? := by
  split
  · rename_i h
    rw [h,List.getElem?_concat_length]
  · rename_i h
    rcases Nat.lt_or_gt_of_ne h with hl | hl
    · rw [List.getElem?_append_left hl]
    · rw [List.getElem?_eq_none (by simp; omega),List.getElem?_eq_none (by omega)]

/-- Each of a list has one of the other that it stands in the relation to. -/
theorem exists_of_forall₂ {A B : Type} {R : A → B → Prop} {as : List A} {bs : List B}
    (h : List.Forall₂ R as bs) {a : A} (ha : a ∈ as) : ∃ b ∈ bs, R a b := by
  induction h with
  | nil => cases ha
  | @cons a' b as bs hab _ ih =>
    rcases List.mem_cons.mp ha with rfl | ha
    · exact ⟨b,List.mem_cons_self,hab⟩
    · obtain ⟨b',hb,hthis⟩ := ih ha
      exact ⟨b',List.mem_cons_of_mem b hb,hthis⟩

/-- An update in place does not change what it preserves. -/
theorem map_getElem?_modify {α β : Type*} {f : α → α} {g : α → β} (h : ∀ a, g (f a) = g a)
    (l : List α) (i j : ℕ) : ((l.modify i f)[j]?).map g = (l[j]?).map g := by
  rw [List.getElem?_modify]
  cases l[j]? with
  | none => rfl
  | some a =>
    by_cases hij : i = j
    · simp [hij,h]
    · simp [hij]

theorem getElem?_set_of {α : Type*} {xs : List α} {i : ℕ} {old : α} (h : xs[i]? = some old)
    (new : α) (j : ℕ) : (xs.set i new)[j]? = if i = j then some new else xs[j]? := by
  have hlt := (List.getElem?_eq_some_iff.mp h).1
  rw [List.getElem?_set,if_pos hlt]

theorem set_of_getElem? {α : Type*} {xs : List α} {i : ℕ} {a : α} (h : xs[i]? = some a) :
    xs.set i a = xs := by
  refine List.ext_getElem? fun j => ?_
  rw [getElem?_set_of h]
  split
  · rename_i hij
    rw [← hij,h]
  · rfl

/-- A finite map from `K` to `V`. -/
abbrev Table (K V : Type) := AList (fun _ : K => V)

namespace Table

variable {K V : Type}

/-- The keys of the values that pass the test, in the order the table is walked. -/
def keysWhere (p : V → Bool) (t : Table K V) : List K :=
  (t.entries.filter fun e => p e.2).map Sigma.fst

variable [DecidableEq K]

theorem lookup_eq_some {t : Table K V} {k : K} {v : V} :
    t.lookup k = some v ↔ ⟨k,v⟩ ∈ t.entries := AList.mem_lookup_iff

theorem mem_keysWhere {p : V → Bool} {t : Table K V} {k : K} :
    k ∈ t.keysWhere p ↔ ∃ v, t.lookup k = some v ∧ p v = true := by
  simp only [keysWhere,List.mem_map,List.mem_filter,lookup_eq_some]
  constructor
  · rintro ⟨⟨k',v⟩,⟨hm,hp⟩,rfl⟩
    exact ⟨v,hm,hp⟩
  · rintro ⟨v,hm,hp⟩
    exact ⟨⟨k,v⟩,⟨hm,hp⟩,rfl⟩

/-- What the entries measure has a bound. -/
theorem exists_bound (f : V → ℕ) (t : Table K V) :
    ∃ bound, ∀ k v, t.lookup k = some v → f v ≤ bound := by
  obtain ⟨bound,hbound⟩ := (t.entries.map fun e => f e.2).finite_toSet.bddAbove
  refine ⟨bound,fun k v hv => hbound ?_⟩
  exact List.mem_map.mpr ⟨⟨k,v⟩,lookup_eq_some.mp hv,rfl⟩

theorem lookup_insert_eq (t : Table K V) (k k' : K) (v : V) :
    (t.insert k v).lookup k' = if k' = k then some v else t.lookup k' := by
  split
  · rename_i h
    subst h
    exact AList.lookup_insert t
  · rename_i h
    exact AList.lookup_insert_ne h

theorem lookup_erase_eq (t : Table K V) (k k' : K) :
    (t.erase k).lookup k' = if k' = k then none else t.lookup k' := by
  split
  · rename_i h
    subst h
    exact AList.lookup_erase _ t
  · rename_i h
    exact AList.lookup_erase_ne h

theorem insert_erase (t : Table K V) (k : K) (v : V) : (t.erase k).insert k v = t.insert k v := by
  apply AList.ext
  rw [AList.entries_insert,AList.entries_insert]
  exact congrArg _ (List.kerase_of_notMem_keys (List.notMem_keys_kerase k t.nodupKeys))

end Table
end Rszigbee
