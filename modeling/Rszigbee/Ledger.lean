import Mathlib.Data.Set.Insert
import Mathlib.Logic.Function.Basic
import Rszigbee.Runs

/-! A ledger of questions and answers.
Callers are numbered as they come. A caller's question is answered at once, or it is left
waiting under a key until the key is settled; a key has room for one caller, and the
newest takes it. Questions, keys, waiting entries and answers are arbitrary types. -/
namespace Rszigbee

structure Ledger (Q K W A : Type*) where
  opened : ℕ
  asked : Set (ℕ × Q)
  waiting : K → Option W
  answers : ℕ → List A

namespace Ledger

variable {Q K W A : Type*}

@[ext] theorem ext {l l' : Ledger Q K W A} (ho : l.opened = l'.opened) (ha : l.asked = l'.asked)
    (hw : l.waiting = l'.waiting) (hr : l.answers = l'.answers) : l = l' := by
  cases l
  cases l'
  simp_all

inductive Op (Q K W A : Type*)
  | hold
  | refuse (a : A)
  | meet (q : Q) (a : A)
  | ask (q : Q) (k : K) (w : W)
  | settle (k : K) (a : W → A)

/-- Nobody has come yet. -/
def new : Ledger Q K W A := ⟨0,∅,fun _ => none,fun _ => []⟩

/-- One more answer for a caller. -/
def give (answers : ℕ → List A) (id : ℕ) (a : A) : ℕ → List A :=
  Function.update answers id (answers id ++ [a])

@[simp] theorem give_self (answers : ℕ → List A) (id : ℕ) (a : A) :
    give answers id a id = answers id ++ [a] := by
  simp [give]

@[simp] theorem give_of_ne (answers : ℕ → List A) {id j : ℕ} (a : A) (h : j ≠ id) :
    give answers id a j = answers j := by
  simp [give,h]

theorem mem_give {answers : ℕ → List A} {id j : ℕ} {a b : A} :
    b ∈ give answers id a j ↔ b ∈ answers j ∨ j = id ∧ b = a := by
  by_cases h : j = id
  · subst j
    simp
  · simp [h]

variable [DecidableEq K] (who : W → ℕ)

def step (l : Ledger Q K W A) : Op Q K W A → Ledger Q K W A
  | .hold => { l with opened := l.opened + 1 }
  | .refuse a => { l with opened := l.opened + 1, answers := give l.answers l.opened a }
  | .meet q a =>
    { l with
      opened := l.opened + 1
      asked := insert (l.opened,q) l.asked
      answers := give l.answers l.opened a }
  | .ask q k w =>
    { l with
      opened := l.opened + 1
      asked := insert (l.opened,q) l.asked
      waiting := Function.update l.waiting k (some w) }
  | .settle k a =>
    match l.waiting k with
    | none => l
    | some w =>
      { l with
        waiting := Function.update l.waiting k none
        answers := give l.answers (who w) (a w) }

theorem step_settle_none {l : Ledger Q K W A} {k : K} (h : l.waiting k = none) (a : W → A) :
    l.step who (.settle k a) = l := by
  simp [step,h]

theorem step_settle_some {l : Ledger Q K W A} {k : K} {w : W} (h : l.waiting k = some w)
    (a : W → A) : l.step who (.settle k a) =
      { l with
        waiting := Function.update l.waiting k none
        answers := give l.answers (who w) (a w) } := by
  simp [step,h]

section Settling

/-- Settling a key empties it and touches no other. -/
@[simp] theorem settle_waiting (l : Ledger Q K W A) (k k' : K) (a : W → A) :
    (l.step who (.settle k a)).waiting k' = if k' = k then none else l.waiting k' := by
  cases h : l.waiting k with
  | none =>
    rw [step_settle_none who h]
    by_cases hk : k' = k
    · simp [hk,h]
    · simp [hk]
  | some w =>
    rw [step_settle_some who h]
    by_cases hk : k' = k
    · simp [hk]
    · simp [hk]

@[simp] theorem settle_asked (l : Ledger Q K W A) (k : K) (a : W → A) :
    (l.step who (.settle k a)).asked = l.asked := by
  cases h : l.waiting k with
  | none => rw [step_settle_none who h]
  | some w => rw [step_settle_some who h]

@[simp] theorem settle_opened (l : Ledger Q K W A) (k : K) (a : W → A) :
    (l.step who (.settle k a)).opened = l.opened := by
  cases h : l.waiting k with
  | none => rw [step_settle_none who h]
  | some w => rw [step_settle_some who h]

/-- Settles keys one after the other. -/
def settleAll (l : Ledger Q K W A) (ks : List K) (a : W → A) : Ledger Q K W A :=
  ks.foldl (fun l k => l.step who (.settle k a)) l

@[simp] theorem settleAll_opened (l : Ledger Q K W A) (ks : List K) (a : W → A) :
    (l.settleAll who ks a).opened = l.opened := by
  induction ks generalizing l with
  | nil => rfl
  | cons k ks ih => exact (ih (l.step who (.settle k a))).trans (settle_opened who l k a)

theorem settleAll_waiting (l : Ledger Q K W A) (ks : List K) (a : W → A) (k : K) :
    (l.settleAll who ks a).waiting k = if k ∈ ks then none else l.waiting k := by
  induction ks generalizing l with
  | nil => simp [settleAll]
  | cons k' ks ih =>
    have htail := ih (l.step who (.settle k' a))
    simp only [settleAll,List.foldl_cons] at htail ⊢
    rw [htail,settle_waiting]
    by_cases hk : k = k'
    · simp [hk]
    · simp [hk]

/-- What every settlement keeps, settling many keys keeps. A key is settled for the entry
that waited there at the start. -/
theorem settleAll_keeps {P : Ledger Q K W A → Prop} {G : K → W → Prop} {a : W → A}
    (hstep : ∀ l k, P l → (∀ w, l.waiting k = some w → G k w) → P (l.step who (.settle k a)))
    {l : Ledger Q K W A} {ks : List K} (hl : P l)
    (hks : ∀ k ∈ ks, ∀ w, l.waiting k = some w → G k w) : P (l.settleAll who ks a) := by
  induction ks generalizing l with
  | nil => exact hl
  | cons k ks ih =>
    apply ih (hstep l k hl (hks k (by simp)))
    intro k' hk' w hw
    apply hks k' (by simp [hk'])
    rw [settle_waiting] at hw
    by_cases hkk : k' = k
    · simp [hkk] at hw
    · simpa [hkk] using hw

end Settling

/-- What a ledger needs to know about its entries: the key of a question, and which
entries are written down for it. -/
structure Form (Q K W : Type*) where
  key : Q → K
  records : Q → W → Prop

variable (form : Form Q K W)

/-- An operation that writes down what it should. -/
def Op.Faithful (l : Ledger Q K W A) : Op Q K W A → Prop
  | .ask q k w => who w = l.opened ∧ form.key q = k ∧ form.records q w
  | _ => True

/-- The books are in order: numbers are handed out once, and an entry waits under the key
of the question it stands for, unanswered. -/
structure Sound (l : Ledger Q K W A) : Prop where
  bounded : ∀ id q, (id,q) ∈ l.asked → id < l.opened
  unopened : ∀ id, l.opened ≤ id → l.answers id = []
  single : ∀ id q q', (id,q) ∈ l.asked → (id,q') ∈ l.asked → q = q'
  recorded : ∀ k w, l.waiting k = some w →
    ∃ q, (who w,q) ∈ l.asked ∧ form.key q = k ∧ form.records q w
  unanswered : ∀ k w, l.waiting k = some w → l.answers (who w) = []

variable {who form}

namespace Sound

variable {l : Ledger Q K W A}

omit [DecidableEq K] in
theorem new : (Ledger.new : Ledger Q K W A).Sound who form := by
  constructor <;> simp [Ledger.new]

omit [DecidableEq K] in
/-- A caller waits under one key. -/
theorem key_unique (h : l.Sound who form) {k k' : K} {w w' : W} (hw : l.waiting k = some w)
    (hw' : l.waiting k' = some w') (hid : who w = who w') : k = k' := by
  obtain ⟨q,hq,hk,-⟩ := h.recorded k w hw
  obtain ⟨q',hq',hk',-⟩ := h.recorded k' w' hw'
  rw [← hid] at hq'
  have he := h.single _ q q' hq hq'
  rw [← hk,← hk',he]

omit [DecidableEq K] in
theorem waiting_opened (h : l.Sound who form) {k : K} {w : W} (hw : l.waiting k = some w) :
    who w < l.opened := by
  obtain ⟨q,hq,-⟩ := h.recorded k w hw
  exact h.bounded _ q hq

omit [DecidableEq K] in
theorem not_asked_opened (h : l.Sound who form) (q : Q) : (l.opened,q) ∉ l.asked := by
  intro hq
  have := h.bounded _ q hq
  omega

omit [DecidableEq K] in
theorem answered_opened (h : l.Sound who form) {id : ℕ} {a : A} (ha : a ∈ l.answers id) :
    id < l.opened := by
  by_contra hid
  rw [h.unopened id (by omega)] at ha
  simp at ha

omit [DecidableEq K] in
/-- Handing out a number keeps the books in order. -/
private theorem give_unopened (h : l.Sound who form) (a : A) {id : ℕ} (hid : l.opened + 1 ≤ id) :
    give l.answers l.opened a id = [] := by
  rw [give_of_ne _ _ (by omega)]
  exact h.unopened id (by omega)

omit [DecidableEq K] in
private theorem insert_single (h : l.Sound who form) (q : Q) (id : ℕ) (p p' : Q)
    (hp : (id,p) ∈ insert (l.opened,q) l.asked) (hp' : (id,p') ∈ insert (l.opened,q) l.asked) :
    p = p' := by
  simp only [Set.mem_insert_iff,Prod.mk.injEq] at hp hp'
  rcases hp with ⟨rfl,rfl⟩ | hp
  · rcases hp' with ⟨-,rfl⟩ | hp'
    · rfl
    · exact absurd hp' (h.not_asked_opened p')
  · rcases hp' with ⟨rfl,rfl⟩ | hp'
    · exact absurd hp (h.not_asked_opened p)
    · exact h.single id p p' hp hp'

omit [DecidableEq K] in
private theorem insert_bounded (h : l.Sound who form) (q : Q) (id : ℕ) (p : Q)
    (hp : (id,p) ∈ insert (l.opened,q) l.asked) : id < l.opened + 1 := by
  simp only [Set.mem_insert_iff,Prod.mk.injEq] at hp
  rcases hp with ⟨rfl,rfl⟩ | hp
  · omega
  · have := h.bounded id p hp
    omega

/-- Every operation that writes down what it should keeps the books in order. -/
theorem step (h : l.Sound who form) {op : Op Q K W A} (hop : op.Faithful who form l) :
    (l.step who op).Sound who form := by
  cases op with
  | hold =>
    refine ⟨fun id q hq => ?_,fun id hid => h.unopened id ?_,h.single,h.recorded,h.unanswered⟩
    · have := h.bounded id q hq
      exact Nat.lt_succ_of_lt this
    · exact Nat.le_of_succ_le hid
  | refuse a =>
    refine ⟨fun id q hq => ?_,fun id hid => h.give_unopened a hid,h.single,h.recorded,?_⟩
    · exact Nat.lt_succ_of_lt (h.bounded id q hq)
    · intro k w hw
      have hlt := h.waiting_opened hw
      have hold := h.unanswered k w hw
      simpa [Ledger.step,give_of_ne _ _ (Nat.ne_of_lt hlt)] using hold
  | meet q a =>
    refine ⟨h.insert_bounded q,fun id hid => h.give_unopened a hid,h.insert_single q,?_,?_⟩
    · intro k w hw
      obtain ⟨p,hp,hk,hr⟩ := h.recorded k w hw
      exact ⟨p,Set.mem_insert_of_mem _ hp,hk,hr⟩
    · intro k w hw
      have hlt := h.waiting_opened hw
      have hold := h.unanswered k w hw
      simpa [Ledger.step,give_of_ne _ _ (Nat.ne_of_lt hlt)] using hold
  | ask q k w =>
    obtain ⟨hid,hkey,hrec⟩ := hop
    refine ⟨h.insert_bounded q,fun id hle => h.unopened id (Nat.le_of_succ_le hle),
      h.insert_single q,?_,?_⟩
    · intro k' w' hw'
      by_cases hk : k' = k
      · subst k'
        have he : w = w' := by simpa [Ledger.step] using hw'
        subst w'
        exact ⟨q,by simp [Ledger.step,hid],hkey,hrec⟩
      · have hold : l.waiting k' = some w' := by simpa [Ledger.step,hk] using hw'
        obtain ⟨p,hp,hpk,hpr⟩ := h.recorded k' w' hold
        exact ⟨p,Set.mem_insert_of_mem _ hp,hpk,hpr⟩
    · intro k' w' hw'
      by_cases hk : k' = k
      · subst k'
        have he : w = w' := by simpa [Ledger.step] using hw'
        subst w'
        exact h.unopened _ (by omega)
      · have hold : l.waiting k' = some w' := by simpa [Ledger.step,hk] using hw'
        exact h.unanswered k' w' hold
  | settle k a =>
    cases hw : l.waiting k with
    | none => rwa [step_settle_none who hw]
    | some w =>
      have hlt := h.waiting_opened hw
      rw [step_settle_some who hw]
      refine ⟨h.bounded,fun id hid => ?_,h.single,fun k' w' hw' => ?_,fun k' w' hw' => ?_⟩
      · have hne : id ≠ who w := by
          have hle : l.opened ≤ id := hid
          omega
        simpa [give_of_ne _ _ hne] using h.unopened id hid
      · by_cases hk : k' = k
        · simp [hk] at hw'
        · exact h.recorded k' w' (by simpa [hk] using hw')
      · by_cases hk : k' = k
        · simp [hk] at hw'
        · have hold : l.waiting k' = some w' := by simpa [hk] using hw'
          have hne : who w' ≠ who w := fun he => hk (h.key_unique hold hw he)
          simpa [give_of_ne _ _ hne] using h.unanswered k' w' hold

theorem settleAll (h : l.Sound who form) (ks : List K) (a : W → A) :
    (l.settleAll who ks a).Sound who form :=
  settleAll_keeps (G := fun _ _ => True) who (fun _ _ hl _ => hl.step trivial) h
    fun _ _ _ _ => trivial

end Sound

section Attribution

variable (fits : Q → A → Prop) (free : A → Prop)

/-- Every answer is one that anybody may get, or fits the question of who got it. -/
def Attributed (l : Ledger Q K W A) : Prop :=
  ∀ id, ∀ a ∈ l.answers id, free a ∨ ∃ q, (id,q) ∈ l.asked ∧ fits q a

/-- An operation whose answer may go to who gets it. -/
def Op.Matching (who : W → ℕ) (l : Ledger Q K W A) : Op Q K W A → Prop
  | .refuse a => free a
  | .meet q a => free a ∨ fits q a
  | .settle k a => ∀ w, l.waiting k = some w → free (a w) ∨ ∃ q, (who w,q) ∈ l.asked ∧ fits q (a w)
  | _ => True

variable {fits free} {l : Ledger Q K W A}

omit [DecidableEq K] in
theorem Attributed.new : (Ledger.new : Ledger Q K W A).Attributed fits free := by
  simp [Attributed,Ledger.new]

omit [DecidableEq K] in
theorem attributed_mono {asked : Set (ℕ × Q)} (h : l.Attributed fits free)
    (hasked : l.asked ⊆ asked) (opened : ℕ) (waiting : K → Option W) :
    Attributed fits free ⟨opened,asked,waiting,l.answers⟩ := by
  intro id a ha
  rcases h id a ha with hf | ⟨q,hq,hf⟩
  · exact Or.inl hf
  · exact Or.inr ⟨q,hasked hq,hf⟩

omit [DecidableEq K] in
/-- One more answer leaves the ledger attributed exactly when that answer is. -/
theorem attributed_give {opened : ℕ} {asked : Set (ℕ × Q)} {waiting : K → Option W} {id : ℕ}
    {a : A} (h : Attributed fits free ⟨opened,asked,waiting,l.answers⟩) :
    Attributed fits free ⟨opened,asked,waiting,give l.answers id a⟩ ↔
      free a ∨ ∃ q, (id,q) ∈ asked ∧ fits q a := by
  constructor
  · intro h'
    exact h' id a (mem_give.mpr (Or.inr ⟨rfl,rfl⟩))
  · intro ha j b hb
    rcases mem_give.mp hb with hb | ⟨rfl,rfl⟩
    · exact h j b hb
    · exact ha

/-- A step keeps every answer attributed exactly when its own is. -/
theorem attributed_step_iff (hs : l.Sound who form) (h : l.Attributed fits free)
    (op : Op Q K W A) : (l.step who op).Attributed fits free ↔ op.Matching fits free who l := by
  cases op with
  | hold => exact iff_of_true (attributed_mono h subset_rfl _ _) trivial
  | refuse a =>
    rw [step,attributed_give (attributed_mono h subset_rfl _ _)]
    constructor
    · rintro (hf | ⟨q,hq,-⟩)
      · exact hf
      · exact absurd hq (hs.not_asked_opened q)
    · exact Or.inl
  | meet q a =>
    rw [step,attributed_give (attributed_mono h (Set.subset_insert _ _) _ _)]
    constructor
    · rintro (hf | ⟨q',hq',hf⟩)
      · exact Or.inl hf
      · rcases Set.mem_insert_iff.mp hq' with he | hq'
        · obtain ⟨-,rfl⟩ := Prod.mk.inj he
          exact Or.inr hf
        · exact absurd hq' (hs.not_asked_opened q')
    · rintro (hf | hf)
      · exact Or.inl hf
      · exact Or.inr ⟨q,Set.mem_insert _ _,hf⟩
  | ask q k w => exact iff_of_true (attributed_mono h (Set.subset_insert _ _) _ _) trivial
  | settle k a =>
    cases hw : l.waiting k with
    | none =>
      rw [step_settle_none who hw]
      exact iff_of_true h fun w hw' => by simp [hw] at hw'
    | some w =>
      rw [step_settle_some who hw,attributed_give (attributed_mono h subset_rfl _ _)]
      constructor
      · intro hf w' hw'
        obtain rfl := Option.some.inj (hw.symm.trans hw')
        exact hf
      · intro hf
        exact hf w hw

/-- Answers anybody may get can be handed to everyone who waits. -/
theorem Attributed.settleAll (h : l.Attributed fits free) (ks : List K) {a : W → A}
    (ha : ∀ w, free (a w)) : (l.settleAll who ks a).Attributed fits free := by
  apply settleAll_keeps (G := fun _ _ => True) who _ h (fun _ _ _ _ => trivial)
  intro l k hl _
  cases hw : l.waiting k with
  | none => rwa [step_settle_none who hw]
  | some w =>
    rw [step_settle_some who hw]
    exact (attributed_give (attributed_mono hl subset_rfl _ _)).mpr (Or.inl (ha w))

end Attribution

section Once

variable (who) (form) (proper : Q → ℕ → A → Prop)

/-- Every question has exactly one answer, a proper one, or none while its caller waits. -/
def AnsweredOnce (l : Ledger Q K W A) : Prop :=
  ∀ id q, (id,q) ∈ l.asked →
    (l.answers id = [] ∧ ∃ w, l.waiting (form.key q) = some w ∧ who w = id) ∨
    ∃ a, l.answers id = [a] ∧ proper q id a

/-- An operation whose answer is a proper one. -/
def Op.Proper (l : Ledger Q K W A) : Op Q K W A → Prop
  | .meet q a => proper q l.opened a
  | .settle k a => ∀ w q, l.waiting k = some w → form.key q = k → form.records q w →
      proper q (who w) (a w)
  | _ => True

/-- A question is left waiting only under a free key. -/
def Op.Roomy (l : Ledger Q K W A) : Op Q K W A → Prop
  | .ask _ k _ => l.waiting k = none
  | _ => True

variable {who form proper} {l : Ledger Q K W A}

omit [DecidableEq K] in
theorem AnsweredOnce.new : (Ledger.new : Ledger Q K W A).AnsweredOnce who form proper := by
  simp [AnsweredOnce,Ledger.new]

omit [DecidableEq K] in
theorem AnsweredOnce.mono {proper' : Q → ℕ → A → Prop} (h : l.AnsweredOnce who form proper)
    (hp : ∀ q id a, proper q id a → proper' q id a) : l.AnsweredOnce who form proper' := by
  intro id q hq
  rcases h id q hq with hw | ⟨a,ha,hpa⟩
  · exact Or.inl hw
  · exact Or.inr ⟨a,ha,hp q id a hpa⟩

/-- The one waiting is the one whose question it is. -/
theorem AnsweredOnce.settle (hs : l.Sound who form) (h : l.AnsweredOnce who form proper)
    {k : K} {a : W → A} (hp : (Op.settle k a).Proper who form proper l) :
    (l.step who (.settle k a)).AnsweredOnce who form proper := by
  cases hw : l.waiting k with
  | none => rwa [step_settle_none who hw]
  | some w =>
    obtain ⟨p,hp',hkey,hrec⟩ := hs.recorded k w hw
    rw [step_settle_some who hw]
    intro id q hq
    by_cases hid : id = who w
    · subst id
      obtain rfl := hs.single _ q p hq hp'
      have hnone := hs.unanswered k w hw
      exact Or.inr ⟨a w,by simp [hnone],hp w q hw hkey hrec⟩
    · rcases h id q hq with ⟨ha,w',hw',hid'⟩ | ⟨b,hb,hpb⟩
      · have hne : form.key q ≠ k := by
          intro hk
          rw [hk,hw] at hw'
          exact hid (hid'.symm.trans (congrArg who (Option.some.inj hw').symm))
        exact Or.inl ⟨by simpa [hid] using ha,w',by simpa [hne] using hw',hid'⟩
      · exact Or.inr ⟨b,by simpa [hid] using hb,hpb⟩

theorem AnsweredOnce.refuse (hs : l.Sound who form) (h : l.AnsweredOnce who form proper) (a : A) :
    (l.step who (.refuse a)).AnsweredOnce who form proper := by
  intro id q hq
  have hne : id ≠ l.opened := Nat.ne_of_lt (hs.bounded id q hq)
  simpa [Ledger.step,hne] using h id q hq

private theorem AnsweredOnce.meet (hs : l.Sound who form) (h : l.AnsweredOnce who form proper)
    {p : Q} {a : A} (hp : proper p l.opened a) :
    (l.step who (.meet p a)).AnsweredOnce who form proper := by
  intro id q hq
  rcases Set.mem_insert_iff.mp hq with he | hq
  · obtain ⟨rfl,rfl⟩ := Prod.mk.inj he
    have hnone := hs.unopened l.opened le_rfl
    exact Or.inr ⟨a,by simp [Ledger.step,hnone],hp⟩
  · have hne : id ≠ l.opened := Nat.ne_of_lt (hs.bounded id q hq)
    simpa [Ledger.step,hne] using h id q hq

private theorem AnsweredOnce.ask (hs : l.Sound who form) (h : l.AnsweredOnce who form proper)
    {p : Q} {k : K} {w : W} (hop : (Op.ask p k w : Op Q K W A).Faithful who form l)
    (hk : l.waiting k = none) : (l.step who (.ask p k w)).AnsweredOnce who form proper := by
  obtain ⟨hid,hkey,-⟩ := hop
  intro id q hq
  rcases Set.mem_insert_iff.mp hq with he | hq
  · obtain ⟨rfl,rfl⟩ := Prod.mk.inj he
    exact Or.inl ⟨hs.unopened _ le_rfl,w,by simp [Ledger.step,hkey],hid⟩
  · rcases h id q hq with ⟨ha,w',hw',hid'⟩ | hb
    · have hne : form.key q ≠ k := by
        intro he
        rw [he,hk] at hw'
        simp at hw'
      exact Or.inl ⟨ha,w',by simpa [Ledger.step,hne] using hw',hid'⟩
    · exact Or.inr hb

/-- A caller whose key is taken over has lost its answer. -/
private theorem not_answeredOnce_ask (hs : l.Sound who form) {p : Q} {k : K} {w w' : W}
    (hop : (Op.ask p k w : Op Q K W A).Faithful who form l) (hw' : l.waiting k = some w') :
    ¬ (l.step who (.ask p k w)).AnsweredOnce who form proper := by
  obtain ⟨q,hq,hkey,-⟩ := hs.recorded k w' hw'
  have hlt := hs.waiting_opened hw'
  intro h
  rcases h (who w') q (Set.mem_insert_of_mem _ hq) with ⟨-,v,hv,hid⟩ | ⟨a,ha,-⟩
  · have he : w = v := by simpa [Ledger.step,hkey] using hv
    subst v
    have hnew := hop.1
    omega
  · have hnone := hs.unanswered k w' hw'
    simp [Ledger.step,hnone] at ha

/-- A step keeps the ledger answering everybody once exactly when it takes no key over. -/
theorem answeredOnce_step_iff (hs : l.Sound who form) (h : l.AnsweredOnce who form proper)
    {op : Op Q K W A} (hop : op.Faithful who form l) (hp : op.Proper who form proper l) :
    (l.step who op).AnsweredOnce who form proper ↔ op.Roomy l := by
  cases op with
  | hold => exact iff_of_true h trivial
  | refuse a => exact iff_of_true (h.refuse hs a) trivial
  | meet q a => exact iff_of_true (h.meet hs hp) trivial
  | settle k a => exact iff_of_true (h.settle hs hp) trivial
  | ask q k w =>
    constructor
    · intro h'
      cases hw : l.waiting k with
      | none => exact hw
      | some w' => exact absurd h' (not_answeredOnce_ask hs hop hw)
    · exact h.ask hs hop

/-- Everyone who waits under one of the keys can be given a proper answer. -/
theorem AnsweredOnce.settleAll (hs : l.Sound who form) (h : l.AnsweredOnce who form proper)
    {ks : List K} {a : W → A} (hp : ∀ k ∈ ks, ∀ w, l.waiting k = some w →
      ∀ q, form.key q = k → form.records q w → proper q (who w) (a w)) :
    (l.settleAll who ks a).AnsweredOnce who form proper := by
  have hboth : (l.settleAll who ks a).Sound who form ∧
      (l.settleAll who ks a).AnsweredOnce who form proper := by
    refine settleAll_keeps (P := fun l => l.Sound who form ∧ l.AnsweredOnce who form proper)
      who (fun l k hl hgood => ?_) ⟨hs,h⟩ hp
    exact ⟨hl.1.step trivial,hl.2.settle hl.1 fun w q hw hk hr => hgood w hw q hk hr⟩
  exact hboth.2

end Once

section Refusal

/-- A caller whose question was never taken down has its one answer. -/
def Refused (refusal : A → Prop) (l : Ledger Q K W A) (id : ℕ) : Prop :=
  (∀ q, (id,q) ∉ l.asked) ∧ ∃ a, l.answers id = [a] ∧ refusal a

variable {refusal : A → Prop} {l : Ledger Q K W A} {id : ℕ}

theorem Refused.settle (h : l.Refused refusal id) (hs : l.Sound who form) (k : K) (a : W → A) :
    (l.step who (.settle k a)).Refused refusal id := by
  obtain ⟨hq,b,hb,hr⟩ := h
  refine ⟨by simpa using hq,b,?_,hr⟩
  cases hw : l.waiting k with
  | none => rwa [step_settle_none who hw]
  | some w =>
    obtain ⟨q,hwq,-⟩ := hs.recorded k w hw
    have hne : id ≠ who w := by
      rintro rfl
      exact hq q hwq
    rw [step_settle_some who hw]
    simpa [hne] using hb

/-- Nothing that happens later changes that. -/
theorem Refused.step (h : l.Refused refusal id) (hs : l.Sound who form) (op : Op Q K W A) :
    (l.step who op).Refused refusal id := by
  cases op with
  | settle k a => exact h.settle hs k a
  | hold => exact h
  | _ =>
    obtain ⟨hq,b,hb,hr⟩ := h
    have hmem : b ∈ l.answers id := by simp [hb]
    have hne : id ≠ l.opened := Nat.ne_of_lt (hs.answered_opened hmem)
    exact ⟨by simpa [Ledger.step,hne] using hq,b,by simpa [Ledger.step,hne] using hb,hr⟩

theorem refused_refuse (hs : l.Sound who form) {a : A} (ha : refusal a) :
    (l.step who (.refuse a)).Refused refusal l.opened := by
  refine ⟨hs.not_asked_opened,a,?_,ha⟩
  simp [Ledger.step,hs.unopened l.opened le_rfl]

end Refusal

section Closing

variable {l : Ledger Q K W A} {id : ℕ}

/-- A caller that came and does not wait. -/
def Closed (who : W → ℕ) (l : Ledger Q K W A) (id : ℕ) : Prop :=
  id < l.opened ∧ ∀ k w, l.waiting k = some w → who w ≠ id

/-- Such a caller is not answered any more. -/
theorem Closed.step (h : l.Closed who id) {op : Op Q K W A} (hop : op.Faithful who form l) :
    (l.step who op).Closed who id ∧ (l.step who op).answers id = l.answers id := by
  obtain ⟨hlt,hclosed⟩ := h
  have hne : id ≠ l.opened := Nat.ne_of_lt hlt
  cases op with
  | hold => exact ⟨⟨Nat.lt_succ_of_lt hlt,hclosed⟩,rfl⟩
  | refuse a => exact ⟨⟨Nat.lt_succ_of_lt hlt,hclosed⟩,give_of_ne _ _ hne⟩
  | meet q a => exact ⟨⟨Nat.lt_succ_of_lt hlt,hclosed⟩,give_of_ne _ _ hne⟩
  | ask q k w =>
    refine ⟨⟨Nat.lt_succ_of_lt hlt,fun k' w' hw' => ?_⟩,rfl⟩
    by_cases hk : k' = k
    · have he : w = w' := by simpa [Ledger.step,hk] using hw'
      rw [← he,hop.1]
      exact hne.symm
    · exact hclosed k' w' (by simpa [Ledger.step,hk] using hw')
  | settle k a =>
    cases hw : l.waiting k with
    | none =>
      rw [step_settle_none who hw]
      exact ⟨⟨hlt,hclosed⟩,rfl⟩
    | some w =>
      refine ⟨⟨by simpa using hlt,fun k' w' hw' => ?_⟩,?_⟩
      · rw [settle_waiting] at hw'
        split at hw'
        · cases hw'
        · exact hclosed k' w' hw'
      · rw [step_settle_some who hw]
        exact give_of_ne _ _ (hclosed k w hw).symm

/-- Nobody has two answers. -/
def Single (l : Ledger Q K W A) : Prop := ∀ id, (l.answers id).length ≤ 1

omit [DecidableEq K] in
theorem Single.give (h : l.Single) {n : ℕ} (hn : l.answers n = []) (a : A) :
    ∀ id, (give l.answers n a id).length ≤ 1 := by
  intro id
  by_cases he : id = n
  · rw [he,give_self,hn]
    simp
  · rw [give_of_ne _ _ he]
    exact h id

theorem Single.step (h : l.Single) (hs : l.Sound who form) (op : Op Q K W A) :
    (l.step who op).Single := by
  cases op with
  | hold => exact h
  | refuse a => exact h.give (hs.unopened _ le_rfl) a
  | meet q a => exact h.give (hs.unopened _ le_rfl) a
  | ask q k w => exact h
  | settle k a =>
    cases hw : l.waiting k with
    | none =>
      rw [step_settle_none who hw]
      exact h
    | some w =>
      rw [step_settle_some who hw]
      exact h.give (hs.unanswered k w hw) (a w)

/-- Every question is answered, waits, or has lost its key to a later one. -/
def Accounted (who : W → ℕ) (form : Form Q K W) (l : Ledger Q K W A) : Prop :=
  ∀ id q, (id,q) ∈ l.asked → l.answers id ≠ [] ∨
    (∃ w, l.waiting (form.key q) = some w ∧ who w = id) ∨
    ∃ id' q', id < id' ∧ (id',q') ∈ l.asked ∧ form.key q' = form.key q

theorem Accounted.step (h : l.Accounted who form) (hs : l.Sound who form) {op : Op Q K W A}
    (hop : op.Faithful who form l) : (l.step who op).Accounted who form := by
  have hgiven (n : ℕ) (a : A) {id : ℕ} (hid : l.answers id ≠ []) :
      Ledger.give l.answers n a id ≠ [] := by
    by_cases he : id = n
    · rw [he,give_self]
      simp
    · rwa [give_of_ne _ _ he]
  cases op with
  | hold => exact h
  | refuse a => exact fun id q hq => (h id q hq).imp_left (hgiven _ a)
  | meet p a =>
    intro id q hq
    rcases Set.mem_insert_iff.mp hq with he | hq
    · obtain ⟨rfl,rfl⟩ := Prod.mk.inj he
      refine .inl ?_
      show Ledger.give l.answers l.opened a l.opened ≠ []
      rw [give_self]
      simp
    · rcases h id q hq with hid | hwaits | ⟨id',q',hlt,hq',hkey⟩
      · exact .inl (hgiven _ a hid)
      · exact .inr (.inl hwaits)
      · exact .inr (.inr ⟨id',q',hlt,Set.mem_insert_of_mem _ hq',hkey⟩)
  | ask p k w =>
    obtain ⟨hid,hkey,-⟩ := hop
    intro id q hq
    rcases Set.mem_insert_iff.mp hq with he | hq
    · obtain ⟨rfl,rfl⟩ := Prod.mk.inj he
      exact .inr (.inl ⟨w,by simp [Ledger.step,hkey],hid⟩)
    · by_cases hk : form.key q = k
      · -- Its key goes to the newcomer.
        exact .inr (.inr ⟨l.opened,p,hs.bounded id q hq,Set.mem_insert _ _,hkey.trans hk.symm⟩)
      · rcases h id q hq with hid' | ⟨w',hw',hwho⟩ | ⟨id',q',hlt,hq',hkey'⟩
        · exact .inl hid'
        · exact .inr (.inl ⟨w',by simpa [Ledger.step,hk] using hw',hwho⟩)
        · exact .inr (.inr ⟨id',q',hlt,Set.mem_insert_of_mem _ hq',hkey'⟩)
  | settle k a =>
    cases hw : l.waiting k with
    | none =>
      rw [step_settle_none who hw]
      exact h
    | some w =>
      intro id q hq
      rw [settle_asked] at hq ⊢
      rcases h id q hq with hid | ⟨w',hw',hwho⟩ | hlost
      · rw [step_settle_some who hw]
        exact .inl (hgiven _ (a w) hid)
      · by_cases hk : form.key q = k
        · rw [hk,hw] at hw'
          obtain rfl := Option.some.inj hw'
          rw [step_settle_some who hw,← hwho]
          refine .inl ?_
          show Ledger.give l.answers (who w) (a w) (who w) ≠ []
          rw [give_self]
          simp
        · refine .inr (.inl ⟨w',?_,hwho⟩)
          rw [settle_waiting,if_neg hk]
          exact hw'
      · exact .inr (.inr hlost)

/-- What every operation on sound books keeps, settling many keys keeps. -/
theorem settleAll_induction {P : Ledger Q K W A → Prop}
    (hstep : ∀ l op, l.Sound who form → op.Faithful who form l → P l → P (l.step who op))
    (hs : l.Sound who form) (h : P l) (ks : List K) (a : W → A) : P (l.settleAll who ks a) := by
  have hboth : (l.settleAll who ks a).Sound who form ∧ P (l.settleAll who ks a) := by
    refine settleAll_keeps (P := fun l => l.Sound who form ∧ P l) (G := fun _ _ => True) who
      (fun l k hl _ => ?_) ⟨hs,h⟩ fun _ _ _ _ => trivial
    exact ⟨hl.1.step trivial,hstep l (.settle k a) hl.1 trivial hl.2⟩
  exact hboth.2

end Closing

end Ledger
end Rszigbee
