import Mathlib.Data.List.Induction
import Mathlib.Logic.Relation

/-! Runs of a deterministic machine on a list of inputs.
Everything the environment decides is part of an input, so a statement about
all runs is a statement about all lists of inputs. -/
namespace Rszigbee
namespace Runs

variable {S I : Type*} (step : S → I → S)

/-- The state after a list of inputs. -/
def run (s : S) (is : List I) : S := is.foldl step s

@[simp] theorem run_nil (s : S) : run step s [] = s := rfl
@[simp] theorem run_cons (s : S) (i : I) (is : List I) :
    run step s (i::is) = run step (step s i) is := rfl

theorem run_append (s : S) (is js : List I) :
    run step s (is ++ js) = run step (run step s is) js := by
  simp [run,List.foldl_append]

@[simp] theorem run_concat (s : S) (is : List I) (i : I) :
    run step s (is ++ [i]) = step (run step s is) i := by
  simp [run_append]

/-- The induction rule for invariants. -/
theorem run_invariant {P : S → Prop} (hstep : ∀ s i, P s → P (step s i))
    {s : S} (hs : P s) (is : List I) : P (run step s is) := by
  induction is generalizing s with
  | nil => exact hs
  | cons i is ih => exact ih (hstep s i hs)

/-- The simulation rule: where every step of another system is matched by a run of this one, all
its runs are. -/
theorem exists_run_of_simulation {T : Type*} {next : T → T → Prop} {J : T → Prop}
    {R : T → S → Prop} (hJ : ∀ t t', J t → next t t' → J t')
    (hstep : ∀ t t' s, J t → R t s → next t t' → ∃ is, R t' (run step s is)) {t t' : T} {s : S}
    (ht : J t) (hs : R t s) (h : Relation.ReflTransGen next t t') :
    J t' ∧ ∃ is, R t' (run step s is) := by
  induction h with
  | refl => exact ⟨ht,[],hs⟩
  | tail _ hnext ih =>
    obtain ⟨hthere,is,hrelated⟩ := ih
    obtain ⟨js,hmatched⟩ := hstep _ _ _ hthere hrelated hnext
    refine ⟨hJ _ _ hthere hnext,is ++ js,?_⟩
    rw [run_append]
    exact hmatched

/-- A condition on a state and the next input holds at every step of a run. -/
def Meets (C : S → I → Prop) : S → List I → Prop
  | _, [] => True
  | s, i::is => C s i ∧ Meets C (step s i) is

theorem meets_append (C : S → I → Prop) (s : S) (is js : List I) :
    Meets step C s (is ++ js) ↔ Meets step C s is ∧ Meets step C (run step s is) js := by
  induction is generalizing s with
  | nil => simp [Meets]
  | cons i is ih => simp [Meets,ih,and_assoc]

/-- A condition that follows from another under an invariant holds wherever that one does. -/
theorem Meets.imp {A : I → Prop} {J : S → Prop} {C D : S → I → Prop}
    (hJ : ∀ s i, A i → J s → J (step s i)) (hCD : ∀ s i, A i → J s → C s i → D s i) {s : S}
    (hs : J s) {is : List I} (hA : ∀ i ∈ is, A i) (h : Meets step C s is) : Meets step D s is := by
  induction is generalizing s with
  | nil => trivial
  | cons i is ih =>
    have hi : A i := hA i (by simp)
    exact ⟨hCD s i hi hs h.1,ih (hJ s i hi hs) (fun j hj => hA j (by simp [hj])) h.2⟩

/-- The step-by-step reading of `Meets`: the condition holds wherever the run is cut. -/
theorem meets_iff (C : S → I → Prop) (s : S) (is : List I) :
    Meets step C s is ↔ ∀ pre i post, is = pre ++ i::post → C (run step s pre) i := by
  induction is generalizing s with
  | nil => simp [Meets]
  | cons i is ih =>
    rw [Meets,ih]
    constructor
    · rintro ⟨hi,his⟩ pre j post he
      cases pre with
      | nil =>
        obtain ⟨rfl,rfl⟩ := List.cons.inj he
        exact hi
      | cons k pre =>
        rw [List.cons_append,List.cons.injEq] at he
        obtain ⟨rfl,hpost⟩ := he
        exact his pre j post hpost
    · intro h
      exact ⟨h [] i is rfl,fun pre j post he => h (i::pre) j post (by rw [he]; rfl)⟩

/-- Two step conditions that agree under an invariant hold of the same runs. The invariant
and the agreement may rest on a condition `A` that every input of the run meets. -/
theorem meets_congr {A : I → Prop} {P : S → Prop} {C D : S → I → Prop}
    (hstep : ∀ s i, A i → P s → P (step s i)) (hCD : ∀ s i, A i → P s → (C s i ↔ D s i))
    {s : S} (hs : P s) {is : List I} (hA : ∀ i ∈ is, A i) :
    Meets step C s is ↔ Meets step D s is := by
  induction is generalizing s with
  | nil => rfl
  | cons i is ih =>
    have hi : A i := hA i (by simp)
    rw [Meets,Meets,hCD s i hi hs,ih (hstep s i hi hs) fun j hj => hA j (by simp [hj])]

/-- A property of states is kept throughout a run, and one of steps holds of all of them, exactly
when `C` holds at every step, if one step keeps the first and has the second exactly when `C`
holds there; all of it may rest on a condition `A` that every input of the run meets. -/
theorem always_and_meets_iff_of {A : I → Prop} {J P : S → Prop} {T C : S → I → Prop}
    (hJ : ∀ s i, A i → J s → J (step s i))
    (hC : ∀ s i, A i → J s → P s → ((P (step s i) ∧ T s i) ↔ C s i)) {s : S} (hs : J s) (hp : P s)
    (is : List I) (hA : ∀ i ∈ is, A i) :
    ((∀ pre, pre <+: is → P (run step s pre)) ∧ Meets step T s is) ↔ Meets step C s is := by
  induction is generalizing s with
  | nil =>
    refine ⟨fun _ => trivial,fun _ => ⟨fun pre hpre => ?_,trivial⟩⟩
    rw [List.prefix_nil.mp hpre]
    exact hp
  | cons i is ih =>
    have hi : A i := hA i (by simp)
    have hrest : ∀ j ∈ is, A j := fun j hj => hA j (by simp [hj])
    rw [Meets,Meets]
    constructor
    · rintro ⟨h,ht,hts⟩
      have hp' : P (step s i) := h [i] (by simp)
      have hall (pre) (hpre : pre <+: is) : P (run step (step s i) pre) :=
        h (i::pre) (List.cons_prefix_cons.mpr ⟨rfl,hpre⟩)
      exact ⟨(hC s i hi hs hp).mp ⟨hp',ht⟩,(ih (hJ s i hi hs) hp' hrest).mp ⟨hall,hts⟩⟩
    · rintro ⟨hc,his⟩
      obtain ⟨hp',ht⟩ := (hC s i hi hs hp).mpr hc
      obtain ⟨hall,hts⟩ := (ih (hJ s i hi hs) hp' hrest).mpr his
      refine ⟨fun pre hpre => ?_,ht,hts⟩
      cases pre with
      | nil => exact hp
      | cons j pre =>
        obtain ⟨rfl,hpre'⟩ := List.cons_prefix_cons.mp hpre
        exact hall pre hpre'

/-- A property that a step keeps exactly when `C` holds there is kept throughout a run
exactly when `C` holds at every step. -/
theorem always_iff_meets_of {A : I → Prop} {J P : S → Prop} {C : S → I → Prop}
    (hJ : ∀ s i, A i → J s → J (step s i))
    (hC : ∀ s i, A i → J s → P s → (P (step s i) ↔ C s i)) {s : S} (hs : J s) (hp : P s)
    (is : List I) (hA : ∀ i ∈ is, A i) :
    (∀ pre, pre <+: is → P (run step s pre)) ↔ Meets step C s is := by
  have htrue (s : S) : Meets step (fun _ _ => True) s is := by
    simp [meets_iff]
  rw [← always_and_meets_iff_of step (T := fun _ _ => True) hJ
    (fun s i hi hj hp => (and_iff_left trivial).trans (hC s i hi hj hp)) hs hp is hA]
  exact (and_iff_left (htrue s)).symm

theorem always_iff_meets {J P : S → Prop} {C : S → I → Prop} (hJ : ∀ s i, J s → J (step s i))
    (hC : ∀ s i, J s → P s → (P (step s i) ↔ C s i)) {s : S} (hs : J s) (hp : P s)
    (is : List I) : (∀ pre, pre <+: is → P (run step s pre)) ↔ Meets step C s is :=
  always_iff_meets_of step (A := fun _ => True) (fun s i _ => hJ s i) (fun s i _ => hC s i) hs hp
    is fun _ _ => trivial

section Monotone

variable {α : Type*} {r : α → α → Prop}

section Measure

variable (m : S → α) (hrefl : ∀ a, r a a) (htrans : ∀ {a b c}, r a b → r b c → r a c)

include hrefl htrans

/-- A measure that no step lowers is monotone along the run. -/
theorem run_monotone {s : S} {is : List I} (h : Meets step (fun s i => r (m s) (m (step s i))) s is) :
    r (m s) (m (run step s is)) := by
  induction is generalizing s with
  | nil => exact hrefl _
  | cons i is ih => exact htrans h.1 (ih h.2)

/-- A measure is monotone along a run exactly when no step lowers it. -/
theorem monotone_iff_meets (s : S) (is : List I) :
    (∀ pre mid, pre <+: mid → mid <+: is → r (m (run step s pre)) (m (run step s mid))) ↔
      Meets step (fun s i => r (m s) (m (step s i))) s is := by
  constructor
  · intro h
    rw [meets_iff]
    rintro pre i post rfl
    have hmid : pre ++ [i] <+: pre ++ i::post := ⟨post,by simp⟩
    simpa using h pre (pre ++ [i]) (List.prefix_append _ _) hmid
  · rintro h pre mid ⟨d,rfl⟩ ⟨rest,rfl⟩
    rw [meets_append,meets_append] at h
    rw [run_append]
    exact run_monotone step m hrefl htrans h.1.2

end Measure

/-- What a state may lack is related wherever a run has had it throughout, exactly when it is
across every step that leaves it. -/
theorem kept_while_iff (m : S → Option α) (hrefl : ∀ a, r a a)
    (htrans : ∀ {a b c}, r a b → r b c → r a c) (s : S) (is : List I) :
    (∀ pre mid, pre <+: mid → mid <+: is →
      (∀ cut, pre <+: cut → cut <+: mid → (m (run step s cut)).isSome = true) →
      ∀ a b, m (run step s pre) = some a → m (run step s mid) = some b → r a b) ↔
    Meets step (fun s i => ∀ a b, m s = some a → m (step s i) = some b → r a b) s is := by
  rw [meets_iff]
  constructor
  · rintro h pre i post rfl a b ha hb
    have hmid : pre ++ [i] <+: pre ++ i::post := ⟨post,by simp⟩
    refine h pre (pre ++ [i]) (List.prefix_append _ _) hmid (fun cut hpre hcut => ?_) a b ha
      (by simpa using hb)
    rcases List.prefix_concat_iff.mp hcut with rfl | hback
    · simp [hb]
    · rw [hback.eq_of_length_le hpre.length_le,ha]
      rfl
  · rintro h pre mid ⟨d,rfl⟩ ⟨rest,rfl⟩ hthere a b ha hb
    induction d using List.reverseRecOn generalizing b rest with
    | nil =>
      rw [List.append_nil,ha] at hb
      exact Option.some.inj hb ▸ hrefl a
    | append_singleton d i ih =>
      have hlast : pre ++ d <+: pre ++ (d ++ [i]) := by
        rw [← List.append_assoc]
        exact List.prefix_append _ _
      obtain ⟨c,hc⟩ := Option.isSome_iff_exists.mp (hthere _ (List.prefix_append _ _) hlast)
      have hac : r a c := by
        refine ih (i::rest) (fun pre' j post he => h pre' j post ?_) (fun cut hpre hcut => ?_) c hc
        · rw [← he]
          simp
        · exact hthere cut hpre (hcut.trans hlast)
      rw [← List.append_assoc,run_concat] at hb
      exact htrans hac (h (pre ++ d) i rest (by simp) c b hc hb)

end Monotone

section Logs

variable {α : Type*}

/-- What the turns of a run add to a log, one after the other. -/
def gathered (f : S → I → List α) : S → List I → List α
  | _, [] => []
  | s, i::is => f s i ++ gathered f (step s i) is

theorem run_gathered (log : S → List α) (f : S → I → List α)
    (h : ∀ s i, log (step s i) = log s ++ f s i) (s : S) (is : List I) :
    log (run step s is) = log s ++ gathered step f s is := by
  induction is generalizing s with
  | nil => rw [run_nil,gathered,List.append_nil]
  | cons i is ih => rw [run_cons,ih,h,gathered,List.append_assoc]

/-- An entry of a log is there from the start, or from one turn on. -/
theorem entered_by {log : S → List α} (h : ∀ s i, log s <+: log (step s i)) {s : S} {is : List I}
    {k : ℕ} {a : α} (hk : (log (run step s is))[k]? = some a) :
    (log s)[k]? = some a ∨ ∃ pre i post, is = pre ++ i::post ∧ (log (run step s pre)).length ≤ k ∧
      (log (run step s (pre ++ [i])))[k]? = some a := by
  induction is using List.reverseRecOn with
  | nil => exact .inl hk
  | append_singleton is i ih =>
    by_cases hold : k < (log (run step s is)).length
    · have hsame : (log (run step s is))[k]? = some a := by
        obtain ⟨d,hd⟩ := h (run step s is) i
        rw [run_concat,← hd,List.getElem?_append_left hold] at hk
        exact hk
      rcases ih hsame with hstart | ⟨pre,j,post,rfl,hlen,hthere⟩
      · exact .inl hstart
      · exact .inr ⟨pre,j,post ++ [i],by simp,hlen,hthere⟩
    · exact .inr ⟨is,i,[],rfl,Nat.le_of_not_lt hold,hk⟩

end Logs

end Runs
end Rszigbee
