import Mathlib.Data.List.Basic

/-! Topics as levels between slashes, and the filters a broker matches them against. -/
namespace Rszigbee.TopicFilter

def levels (topic : String) : List (List Char) := topic.toList.splitOn '/'

/-- `+` is exactly one level; a last `#` is any number of them. -/
def matchLevels : List (List Char) → List (List Char) → Bool
  | [['#']], _ => true
  | f::fs, l::ls => (f = ['+'] || f = l) && matchLevels fs ls
  | [], [] => true
  | _, _ => false

def «matches» (filter topic : String) : Bool := matchLevels (levels filter) (levels topic)

theorem levels_append (s t : String) : levels (s ++ "/" ++ t) = levels s ++ levels t := by
  rw [levels,String.toList_append,String.toList_append,List.append_assoc]
  exact List.splitOn_append_cons_self s.toList t.toList

theorem levels_eq_singleton {s : String} (h : '/' ∉ s.toList) : levels s = [s.toList] :=
  List.splitOn_eq_singleton h

/-- A text with a slash has two levels or more. -/
theorem two_le_length_levels {s : String} (h : '/' ∈ s.toList) : 2 ≤ (levels s).length := by
  obtain ⟨before,after,hs⟩ := List.append_of_mem h
  have hbefore := List.length_pos_of_ne_nil (List.splitOn_ne_nil '/' before)
  have hafter := List.length_pos_of_ne_nil (List.splitOn_ne_nil '/' after)
  rw [levels,hs,List.splitOn_append_cons_self,List.length_append]
  omega

/-- A level without a character of the topic is not in it. -/
theorem mem_of_mem_levels {c : Char} {l : List Char} {s : String} (hl : l ∈ levels s) (hc : c ∈ l) :
    c ∈ s.toList := by
  rw [levels] at hl
  have hjoin : ['/'].intercalate (s.toList.splitOn '/') = s.toList := List.intercalate_splitOn _
  have hpart : ∀ ls : List (List Char), l ∈ ls → c ∈ ['/'].intercalate ls := by
    intro ls
    induction ls with
    | nil => simp
    | cons a ls ih =>
      intro hmem
      cases ls with
      | nil =>
        obtain rfl : l = a := by simpa using hmem
        simpa using hc
      | cons b ls =>
        rw [List.intercalate_cons_cons,List.mem_append,List.mem_append]
        rcases List.mem_cons.mp hmem with rfl | hmem
        · left; left; exact hc
        · right; exact ih hmem
  exact hjoin ▸ hpart _ hl

section Matching
variable {ps fs ls : List (List Char)}

/-- Levels without wildcards stand for themselves. -/
theorem matchLevels_append (hps : ∀ p ∈ ps, p ≠ ['+'] ∧ p ≠ ['#']) :
    matchLevels (ps ++ fs) (ps ++ ls) = matchLevels fs ls := by
  induction ps with
  | nil => rfl
  | cons p ps ih =>
    obtain ⟨hp,hps⟩ := List.forall_mem_cons.mp hps
    rw [List.cons_append,List.cons_append,matchLevels]
    · simp [ih hps]
    · intro heq hnil
      exact hp.2 heq

theorem length_of_matchLevels (hfs : ['#'] ∉ fs) (h : matchLevels fs ls) :
    fs.length = ls.length := by
  induction fs generalizing ls with
  | nil =>
    cases ls with
    | nil => rfl
    | cons l ls => simp [matchLevels] at h
  | cons f fs ih =>
    cases ls with
    | nil =>
      have hf : f ≠ ['#'] := fun hf => hfs (by simp [hf])
      simp [matchLevels,hf] at h
    | cons l ls =>
      have hf : f ≠ ['#'] := fun hf => hfs (by simp [hf])
      rw [matchLevels] at h
      · simp only [Bool.and_eq_true] at h
        rw [List.length_cons,List.length_cons,ih (fun hmem => hfs (List.mem_cons_of_mem _ hmem)) h.2]
      · intro heq hnil
        exact hf heq

end Matching
end Rszigbee.TopicFilter
