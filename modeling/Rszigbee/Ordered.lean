import Mathlib.Data.List.Basic
import Mathlib.Data.List.Induction
import Mathlib.Order.Lattice

/-! Finite maps walked in the order of their keys. -/
namespace Rszigbee

/-- Entries with strictly increasing keys. -/
structure Ordered (K V : Type) [LinearOrder K] where
  entries : List (K × V)
  sorted : (entries.map Prod.fst).Pairwise (· < ·)

namespace Ordered

variable {K V : Type} [LinearOrder K]

def empty : Ordered K V := ⟨[],List.Pairwise.nil⟩

/-- Replaces the value of the key, or puts the entry where the order wants it. -/
def insertEntry (k : K) (v : V) : List (K × V) → List (K × V)
  | [] => [(k,v)]
  | e::es =>
    if k < e.1 then (k,v)::e::es
    else if k = e.1 then (k,v)::es
    else e::insertEntry k v es

theorem mem_insertEntry {k : K} {v : V} {es : List (K × V)} {k' : K}
    (h : k' ∈ (insertEntry k v es).map Prod.fst) : k' = k ∨ k' ∈ es.map Prod.fst := by
  induction es with
  | nil => simpa [insertEntry] using h
  | cons e es ih =>
    rw [insertEntry] at h
    split at h
    · simpa using h
    · split at h
      · rw [List.map_cons,List.mem_cons] at h ⊢
        tauto
      · rw [List.map_cons,List.mem_cons] at h ⊢
        tauto

theorem sorted_insertEntry (k : K) (v : V) {es : List (K × V)}
    (h : (es.map Prod.fst).Pairwise (· < ·)) :
    ((insertEntry k v es).map Prod.fst).Pairwise (· < ·) := by
  induction es with
  | nil => simp [insertEntry]
  | cons e es ih =>
    obtain ⟨hhead,htail⟩ := List.pairwise_cons.mp h
    rw [insertEntry]
    split
    · rename_i hlt
      refine List.pairwise_cons.mpr ⟨fun k' hk' => ?_,h⟩
      rcases List.mem_cons.mp hk' with rfl | hk'
      · exact hlt
      · exact lt_trans hlt (hhead k' hk')
    · split
      · rename_i heq
        exact List.pairwise_cons.mpr ⟨heq ▸ hhead,htail⟩
      · rename_i hlt heq
        refine List.pairwise_cons.mpr ⟨fun k' hk' => ?_,ih htail⟩
        rcases mem_insertEntry hk' with rfl | hk'
        · exact lt_of_le_of_ne (le_of_not_gt hlt) (Ne.symm heq)
        · exact hhead k' hk'

def insert (m : Ordered K V) (k : K) (v : V) : Ordered K V where
  entries := insertEntry k v m.entries
  sorted := sorted_insertEntry k v m.sorted

def get (m : Ordered K V) (k : K) : Option V := (m.entries.find? fun e => e.1 = k).map Prod.snd

theorem find_insertEntry (k : K) (v : V) {es : List (K × V)}
    (h : (es.map Prod.fst).Pairwise (· < ·)) (k' : K) :
    (insertEntry k v es).find? (fun e => e.1 = k') =
      if k' = k then some (k,v) else es.find? fun e => e.1 = k' := by
  induction es with
  | nil =>
    by_cases hk : k' = k
    · simp [insertEntry,hk]
    · simp [insertEntry,hk,Ne.symm hk]
  | cons e es ih =>
    obtain ⟨hhead,htail⟩ := List.pairwise_cons.mp h
    rw [insertEntry]
    by_cases hk : k' = k
    · subst hk
      split
      · simp
      · split
        · simp
        · rename_i heq
          rw [List.find?_cons_of_neg (by simpa using Ne.symm heq),ih htail]
          simp
    · rw [if_neg hk]
      split
      · rw [List.find?_cons_of_neg (by simpa using Ne.symm hk)]
      · split
        · rename_i heq
          have hne : e.1 ≠ k' := heq ▸ Ne.symm hk
          rw [List.find?_cons_of_neg (by simpa using Ne.symm hk),
            List.find?_cons_of_neg (by simpa using hne)]
        · rw [List.find?_cons,List.find?_cons,ih htail,if_neg hk]

@[simp] theorem get_empty (k : K) : (empty : Ordered K V).get k = none := rfl

theorem get_insert (m : Ordered K V) (k : K) (v : V) (k' : K) :
    (m.insert k v).get k' = if k' = k then some v else m.get k' := by
  rw [get,insert,find_insertEntry k v m.sorted,get]
  split
  · rfl
  · rfl

/-- The entries of a list, the last of a key counting. -/
def ofList : List (K × V) → Ordered K V := List.foldl (fun m e => m.insert e.1 e.2) empty

theorem insertEntry_last {k : K} {v : V} {es : List (K × V)}
    (h : ∀ k' ∈ es.map Prod.fst, k' < k) : insertEntry k v es = es ++ [(k,v)] := by
  induction es with
  | nil => rfl
  | cons e es ih =>
    have hlt : e.1 < k := h e.1 List.mem_cons_self
    rw [insertEntry,if_neg hlt.not_gt,if_neg hlt.ne',List.cons_append,
      ih fun k' hk' => h k' (List.mem_cons_of_mem _ hk')]

/-- What is in order already is kept as it is. -/
theorem entries_ofList {es : List (K × V)} (h : (es.map Prod.fst).Pairwise (· < ·)) :
    (ofList es).entries = es := by
  induction es using List.reverseRecOn with
  | nil => rfl
  | append_singleton es e ih =>
    rw [List.map_append,List.pairwise_append] at h
    obtain ⟨hes,-,hlast⟩ := h
    have hinsert : (ofList (es ++ [e])).entries = insertEntry e.1 e.2 (ofList es).entries := by
      rw [ofList,List.foldl_append]
      rfl
    rw [hinsert,ih hes,insertEntry_last fun k hk => hlast k hk e.1 (by simp)]

theorem find_ne_none {es : List (K × V)} {k : K} :
    (es.find? fun e => e.1 = k).map Prod.snd ≠ none ↔ k ∈ es.map Prod.fst := by
  simp [List.find?_eq_none]

/-- Sorted entries are determined by what is found under each key. -/
theorem entries_unique {es fs : List (K × V)} (hes : (es.map Prod.fst).Pairwise (· < ·))
    (hfs : (fs.map Prod.fst).Pairwise (· < ·))
    (h : ∀ k, (es.find? fun e => e.1 = k).map Prod.snd =
      (fs.find? fun f => f.1 = k).map Prod.snd) : es = fs := by
  have hmem : ∀ k, k ∈ es.map Prod.fst ↔ k ∈ fs.map Prod.fst := by
    intro k
    rw [← find_ne_none,← find_ne_none,h k]
  induction es generalizing fs with
  | nil =>
    cases fs with
    | nil => rfl
    | cons f fs => simpa using hmem f.1
  | cons e es ih =>
    cases fs with
    | nil => simpa using hmem e.1
    | cons f fs =>
      obtain ⟨hehead,hetail⟩ := List.pairwise_cons.mp hes
      obtain ⟨hfhead,hftail⟩ := List.pairwise_cons.mp hfs
      have hle : f.1 ≤ e.1 := by
        rcases List.mem_cons.mp ((hmem e.1).mp List.mem_cons_self) with heq | hlater
        · exact heq.ge
        · exact (hfhead e.1 hlater).le
      have hge : e.1 ≤ f.1 := by
        rcases List.mem_cons.mp ((hmem f.1).mpr List.mem_cons_self) with heq | hlater
        · exact heq.ge
        · exact (hehead f.1 hlater).le
      have hkey : e.1 = f.1 := le_antisymm hge hle
      have hvalue : e.2 = f.2 := by simpa [hkey] using h f.1
      -- the first key is under no later entry, and every other key is under a later one
      have hrest : ∀ k, (es.find? fun e => e.1 = k).map Prod.snd =
          (fs.find? fun f => f.1 = k).map Prod.snd := by
        intro k
        by_cases hk : f.1 = k
        · have hes : k ∉ es.map Prod.fst := fun hmem => (hehead k hmem).ne (hkey.trans hk)
          have hfs : k ∉ fs.map Prod.fst := fun hmem => (hfhead k hmem).ne hk
          rw [not_ne_iff.mp (mt find_ne_none.mp hes),not_ne_iff.mp (mt find_ne_none.mp hfs)]
        · have hk' : e.1 ≠ k := fun heq => hk (hkey.symm.trans heq)
          simpa [hk,hk'] using h k
      have htail : es = fs := ih hetail hftail hrest fun k => by
        rw [← find_ne_none,← find_ne_none,hrest k]
      rw [htail,Prod.ext hkey hvalue]

/-- Maps with the same value under every key are the same. -/
theorem ext_get {m n : Ordered K V} (h : ∀ k, m.get k = n.get k) : m = n := by
  obtain ⟨es,hes⟩ := m
  obtain ⟨fs,hfs⟩ := n
  obtain rfl : es = fs := entries_unique hes hfs h
  rfl

end Ordered
end Rszigbee
