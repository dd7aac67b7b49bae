import Mathlib.Data.List.Destutter
import Mathlib.Data.List.Sort
import Rszigbee.Tables

/-! Items in the order they came, and for each key the positions of those filed under it, the
newest first. -/
namespace Rszigbee

section Distinct
variable {α : Type*} [LinearOrder α]

theorem mem_destutter_ne {a : α} {l : List α} : a ∈ l.destutter (· ≠ ·) ↔ a ∈ l := by
  have hfrom : ∀ (l : List α) (b : α), a ∈ l.destutter' (· ≠ ·) b ↔ a = b ∨ a ∈ l := by
    intro l
    induction l with
    | nil => simp
    | cons c l ih =>
      intro b
      rw [List.destutter'_cons]
      by_cases hbc : b = c
      · subst hbc
        simp [ih]
      · simp [hbc,ih]
  cases l with
  | nil => simp
  | cons b l => rw [List.destutter_cons',hfrom,List.mem_cons]

/-- Sorted and without repetitions: `sort` followed by `dedup`. -/
def sortDedup (l : List α) : List α := (l.mergeSort fun a b => decide (a ≤ b)).destutter (· ≠ ·)

theorem mem_sortDedup {a : α} {l : List α} : a ∈ sortDedup l ↔ a ∈ l := by
  rw [sortDedup,mem_destutter_ne,List.mem_mergeSort]

theorem nodup_sortDedup (l : List α) : (sortDedup l).Nodup := by
  have htrans : ∀ a b c : α, decide (a ≤ b) → decide (b ≤ c) → decide (a ≤ c) := by
    simpa using fun a b c => le_trans
  have htotal : ∀ a b : α, decide (a ≤ b) || decide (b ≤ a) := by simpa using le_total
  have hsorted : (l.mergeSort fun a b => decide (a ≤ b)).Pairwise (· ≤ ·) := by
    simpa using List.pairwise_mergeSort htrans htotal l
  have hle : (sortDedup l).Pairwise (· ≤ ·) := hsorted.sublist (List.destutter_sublist _ _)
  have hne : (sortDedup l).IsChain (· ≠ ·) := List.isChain_destutter _ _
  have hlt : (sortDedup l).IsChain (· < ·) := by
    rw [List.isChain_iff_getElem] at hne ⊢
    intro i hi
    exact lt_of_le_of_ne (List.isChain_iff_getElem.mp hle.isChain i hi) (hne i hi)
  exact hlt.pairwise.imp ne_of_lt

end Distinct

namespace Postings

variable {K α : Type} [DecidableEq K]

/-- A position is put first under each of the keys. -/
def file (position : ℕ) : List K → Table K (List ℕ) → Table K (List ℕ)
  | [], t => t
  | k::ks, t => file position ks (t.insert k (position::(t.lookup k).getD []))

theorem lookup_file {position : ℕ} {ks : List K} (hks : ks.Nodup) (t : Table K (List ℕ)) (k : K) :
    (file position ks t).lookup k =
      if k ∈ ks then some (position::(t.lookup k).getD []) else t.lookup k := by
  induction ks generalizing t with
  | nil => simp [file]
  | cons k' ks ih =>
    obtain ⟨hk',hks⟩ := List.nodup_cons.mp hks
    rw [file,ih hks]
    by_cases hk : k = k'
    · subst hk
      simp [hk']
    · simp [hk,AList.lookup_insert_ne hk]

/-- What a table of positions says of the items: under each key the items filed there, the newest
first, and no key for which there are none. -/
structure Represents (keysOf : α → List K) (items : List α) (t : Table K (List ℕ)) : Prop where
  at_positions : ∀ k, ((t.lookup k).getD []).map (items[·]?) =
    (items.reverse.filter fun a => k ∈ keysOf a).map some
  nonempty : ∀ k, t.lookup k ≠ some []

section Rules
variable {keysOf : α → List K} {items : List α} {t : Table K (List ℕ)}

theorem represents_nil : Represents keysOf [] ∅ where
  at_positions := by simp
  nonempty := by simp

theorem Represents.position_lt (h : Represents keysOf items t) {k : K} {ps : List ℕ}
    (hps : t.lookup k = some ps) {p : ℕ} (hp : p ∈ ps) : p < items.length := by
  have hat := h.at_positions k
  rw [hps] at hat
  have hmem : items[p]? ∈ (items.reverse.filter fun a => k ∈ keysOf a).map some :=
    hat ▸ List.mem_map_of_mem hp
  obtain ⟨a,-,ha⟩ := List.mem_map.mp hmem
  exact (List.getElem?_eq_some_iff.mp ha.symm).1

/-- An item added at the end and filed under its keys. -/
theorem Represents.file (h : Represents keysOf items t) {ks : List K} (hks : ks.Nodup) {a : α}
    (hmem : ∀ k, k ∈ ks ↔ k ∈ keysOf a) :
    Represents keysOf (items ++ [a]) (file items.length ks t) where
  at_positions k := by
    have hold : ((t.lookup k).getD []).map ((items ++ [a])[·]?) =
        (items.reverse.filter fun a => k ∈ keysOf a).map some := by
      rw [← h.at_positions k]
      apply List.map_congr_left
      intro p hp
      cases hps : t.lookup k with
      | none => simp [hps] at hp
      | some ps =>
        rw [hps,Option.getD_some] at hp
        exact List.getElem?_append_left (h.position_lt hps hp)
    rw [lookup_file hks]
    by_cases hk : k ∈ keysOf a
    · simp [(hmem k).mpr hk,hk,hold]
    · simp [mt (hmem k).mp hk,hk,hold]
  nonempty k := by
    rw [lookup_file hks]
    split
    · simp
    · exact h.nonempty k

theorem Represents.lookup_eq_none_iff (h : Represents keysOf items t) (k : K) :
    t.lookup k = none ↔ (items.reverse.filter fun a => k ∈ keysOf a) = [] := by
  have hat := h.at_positions k
  constructor
  · intro hnone
    simpa [hnone] using hat
  · intro hempty
    rw [hempty] at hat
    cases hps : t.lookup k with
    | none => rfl
    | some ps =>
      rw [hps] at hat
      have hnil : ps = [] := by simpa using hat
      exact absurd (hnil ▸ hps) (h.nonempty k)

theorem Represents.lookup_some (h : Represents keysOf items t) {k : K} {ps : List ℕ}
    (hps : t.lookup k = some ps) :
    ps.map (items[·]?) = (items.reverse.filter fun a => k ∈ keysOf a).map some := by
  have hat := h.at_positions k
  rwa [hps,Option.getD_some] at hat

end Rules
end Postings
end Rszigbee
