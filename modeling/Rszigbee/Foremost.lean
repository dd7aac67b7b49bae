import Mathlib.Data.List.MinMax

/-! The first among the greatest elements of a list: what a scan keeps that replaces the best it
has found by strictly greater ones only. -/
namespace Rszigbee

section Foremost

variable {α β : Type*} [LinearOrder β]

/-- All before it are less, and none after it is greater. -/
def Foremost (key : α → β) (l : List α) (a : α) : Prop :=
  ∃ pre post, l = pre ++ a::post ∧ (∀ x ∈ pre, key x < key a) ∧ ∀ x ∈ post, key x ≤ key a

theorem Foremost.mem {key : α → β} {l : List α} {a : α} (h : Foremost key l a) : a ∈ l := by
  obtain ⟨pre,post,rfl,-,-⟩ := h
  simp

/-- One element more: it comes to the fore when it is greater than the one that was there. -/
theorem foremost_concat_iff {key : α → β} {l : List α} {a b : α} : Foremost key (l ++ [b]) a ↔
    (Foremost key l a ∧ key b ≤ key a) ∨ (b = a ∧ ∀ x ∈ l, key x < key a) := by
  constructor
  · rintro ⟨pre,post,he,hpre,hpost⟩
    rcases List.eq_nil_or_concat' post with rfl | ⟨post,c,rfl⟩
    · obtain ⟨rfl,hb⟩ := List.append_inj' he rfl
      exact .inr ⟨List.singleton_inj.mp hb,hpre⟩
    · rw [← List.cons_append,← List.append_assoc] at he
      obtain ⟨rfl,hb⟩ := List.append_inj' he rfl
      obtain rfl := List.singleton_inj.mp hb
      exact .inl ⟨⟨pre,post,rfl,hpre,fun x hx => hpost x (by simp [hx])⟩,hpost b (by simp)⟩
  · rintro (⟨⟨pre,post,rfl,hpre,hpost⟩,hb⟩ | ⟨rfl,hall⟩)
    · refine ⟨pre,post ++ [b],by simp,hpre,fun x hx => ?_⟩
      rcases List.mem_append.mp hx with hx | hx
      · exact hpost x hx
      · rwa [List.mem_singleton.mp hx]
    · exact ⟨l,[],rfl,hall,by simp⟩

theorem argmax_eq_some_iff_foremost {key : α → β} {l : List α} {a : α} :
    l.argmax key = some a ↔ Foremost key l a := by
  induction l using List.reverseRecOn generalizing a with
  | nil =>
    refine iff_of_false (by simp) ?_
    rintro ⟨pre,post,he,-⟩
    simp at he
  | append_singleton l b ih =>
    rw [List.argmax_concat,foremost_concat_iff]
    cases hbest : l.argmax key with
    | none =>
      obtain rfl := List.argmax_eq_none.mp hbest
      have hnot : ¬ Foremost key [] a := fun h => absurd h.mem List.not_mem_nil
      simp [hnot]
    | some c =>
      have hc := ih.mp hbest
      have hle : ∀ x ∈ l, key x ≤ key c := fun x hx => List.le_of_mem_argmax hx hbest
      have hsame (h : Foremost key l a) : c = a := Option.some.inj (hbest.symm.trans (ih.mpr h))
      by_cases hlt : key c < key b
      · simp only [if_pos hlt,Option.some.injEq]
        constructor
        · rintro rfl
          exact .inr ⟨rfl,fun x hx => (hle x hx).trans_lt hlt⟩
        · rintro (⟨h,hb⟩ | ⟨h,-⟩)
          · exact absurd (hsame h ▸ hlt) (not_lt.mpr hb)
          · exact h
      · simp only [if_neg hlt,Option.some.injEq]
        constructor
        · rintro rfl
          exact .inl ⟨hc,not_lt.mp hlt⟩
        · rintro (⟨h,-⟩ | ⟨rfl,hall⟩)
          · exact hsame h
          · exact absurd (hall c hc.mem) hlt

end Foremost

/-- A rule and one to fall back on answer alike where the rule is narrowed and the other may be
dropped, exactly when what the rule found is found still, and nothing is missed. -/
theorem or_eq_or_iff {α : Type*} {first first' second : Option α} {kept : Prop} [Decidable kept]
    (h : first = none → first' = none) :
    first'.or (if kept then second else none) = first.or second ↔
      (∀ a, first = some a → first' = some a ∨ (first' = none ∧ kept ∧ second = some a)) ∧
      (first = none → kept ∨ second = none) := by
  cases first with
  | none =>
    rw [h rfl]
    by_cases hkept : kept
    · simp [hkept]
    · simp [hkept,eq_comm]
  | some a =>
    cases first' with
    | none => by_cases hkept : kept <;> simp [hkept]
    | some b => simp

end Rszigbee
