import Mathlib.Data.List.Basic

/-! Programs that put commands to a peer and go on with its answers, or give up with an
error. What the peer answers to each command is a parameter of a run; what a run comes to
and the commands it issued are its two results. -/
namespace Rszigbee

/-- Either over, or at a command, with what follows each answer to it. -/
inductive Dialogue (C : Type) (R : C → Type) (ε α : Type)
  | done (result : Except ε α)
  | ask (c : C) (next : R c → Dialogue C R ε α)

namespace Dialogue

variable {C : Type} {R : C → Type} {ε α β : Type}

def bind : Dialogue C R ε α → (α → Dialogue C R ε β) → Dialogue C R ε β
  | done (.ok a), k => k a
  | done (.error e), _ => done (.error e)
  | ask c next, k => ask c fun r => (next r).bind k

instance : Monad (Dialogue C R ε) where
  pure a := done (.ok a)
  bind := bind

/-- One command and its answer. -/
def command (c : C) : Dialogue C R ε (R c) := ask c fun r => done (.ok r)

def result (peer : (c : C) → R c) : Dialogue C R ε α → Except ε α
  | done r => r
  | ask c next => (next (peer c)).result peer

/-- The commands a run issues, in order. -/
def issued (peer : (c : C) → R c) : Dialogue C R ε α → List C
  | done _ => []
  | ask c next => c::(next (peer c)).issued peer

section Running

variable (peer : (c : C) → R c)

@[simp] theorem result_done (r : Except ε α) :
    (done r : Dialogue C R ε α).result peer = r := rfl
@[simp] theorem issued_done (r : Except ε α) :
    (done r : Dialogue C R ε α).issued peer = [] := rfl
@[simp] theorem result_pure (a : α) :
    (pure a : Dialogue C R ε α).result peer = .ok a := rfl
@[simp] theorem issued_pure (a : α) : (pure a : Dialogue C R ε α).issued peer = [] := rfl
@[simp] theorem result_command (c : C) :
    (command c : Dialogue C R ε (R c)).result peer = .ok (peer c) := rfl
@[simp] theorem issued_command (c : C) :
    (command c : Dialogue C R ε (R c)).issued peer = [c] := rfl

theorem result_bind (d : Dialogue C R ε α) (k : α → Dialogue C R ε β) :
    (d >>= k).result peer =
      match d.result peer with
      | .ok a => (k a).result peer
      | .error e => .error e := by
  show (d.bind k).result peer = _
  induction d with
  | done r => cases r <;> rfl
  | ask c next ih => exact ih (peer c)

theorem issued_bind (d : Dialogue C R ε α) (k : α → Dialogue C R ε β) :
    (d >>= k).issued peer = d.issued peer ++
      match d.result peer with
      | .ok a => (k a).issued peer
      | .error _ => [] := by
  show (d.bind k).issued peer = _
  induction d with
  | done r => cases r <;> simp [bind]
  | ask c next ih => simpa [bind,issued,result] using ih (peer c)

/-- A sequence comes to a value when its first part does and its second part does then. -/
theorem result_bind_eq_ok (d : Dialogue C R ε α) (k : α → Dialogue C R ε β) (b : β) :
    (d >>= k).result peer = .ok b ↔
      ∃ a, d.result peer = .ok a ∧ (k a).result peer = .ok b := by
  rw [result_bind]
  cases h : d.result peer <;> simp

theorem mem_issued_bind (d : Dialogue C R ε α) (k : α → Dialogue C R ε β) (c : C) :
    c ∈ (d >>= k).issued peer ↔
      c ∈ d.issued peer ∨ ∃ a, d.result peer = .ok a ∧ c ∈ (k a).issued peer := by
  rw [issued_bind,List.mem_append]
  cases h : d.result peer <;> simp

/-- A loop without a result comes through when each of its rounds does. -/
theorem result_forM_eq_ok (xs : List α) (f : α → Dialogue C R ε PUnit) :
    (forM xs f : Dialogue C R ε PUnit).result peer = .ok .unit ↔
      ∀ x ∈ xs, (f x).result peer = .ok .unit := by
  induction xs with
  | nil => simp
  | cons x xs ih =>
    have hx : (∃ u, (f x).result peer = .ok u) ↔ (f x).result peer = .ok .unit :=
      ⟨fun ⟨_,h⟩ => h,fun h => ⟨_,h⟩⟩
    rw [List.forM_cons,result_bind_eq_ok,exists_and_right,hx,ih,List.forall_mem_cons]

end Running

/-- No run issues a command of the kind. -/
def Avoids (P : C → Prop) (d : Dialogue C R ε α) : Prop :=
  ∀ peer, ∀ c ∈ d.issued peer, ¬ P c

section Kinds

variable {P : C → Prop}

theorem avoids_done (r : Except ε α) : (done r : Dialogue C R ε α).Avoids P := by
  intro peer c hc
  simp at hc

theorem avoids_pure (a : α) : (pure a : Dialogue C R ε α).Avoids P := avoids_done _

theorem avoids_command {c : C} (h : ¬ P c) : (command c : Dialogue C R ε (R c)).Avoids P := by
  intro peer d hd
  rw [issued_command,List.mem_singleton] at hd
  rwa [hd]

theorem Avoids.bind {d : Dialogue C R ε α} {k : α → Dialogue C R ε β} (hd : d.Avoids P)
    (hk : ∀ a, (k a).Avoids P) : (d >>= k).Avoids P := by
  intro peer c hc
  rcases (mem_issued_bind peer d k c).mp hc with hc | ⟨a,_,hc⟩
  · exact hd peer c hc
  · exact hk a peer c hc

theorem Avoids.forM {xs : List α} {f : α → Dialogue C R ε PUnit}
    (h : ∀ x ∈ xs, (f x).Avoids P) : (forM xs f : Dialogue C R ε PUnit).Avoids P := by
  induction xs with
  | nil => exact avoids_pure _
  | cons x xs ih =>
    obtain ⟨hx,hxs⟩ := List.forall_mem_cons.mp h
    rw [List.forM_cons]
    exact hx.bind fun _ => ih hxs

/-- Every run that comes to a value issues a command of the kind. -/
def Sends (P : C → Prop) (d : Dialogue C R ε α) : Prop :=
  ∀ peer a, d.result peer = .ok a → ∃ c ∈ d.issued peer, P c

theorem sends_command {c : C} (h : P c) : (command c : Dialogue C R ε (R c)).Sends P :=
  fun _ _ _ => ⟨c,List.mem_singleton_self c,h⟩

theorem Sends.left {d : Dialogue C R ε α} {k : α → Dialogue C R ε β} (h : d.Sends P) :
    (d >>= k).Sends P := by
  intro peer b hb
  obtain ⟨a,ha,_⟩ := (result_bind_eq_ok ..).mp hb
  obtain ⟨c,hc,hP⟩ := h peer a ha
  exact ⟨c,(mem_issued_bind ..).mpr (.inl hc),hP⟩

theorem Sends.right {d : Dialogue C R ε α} {k : α → Dialogue C R ε β}
    (h : ∀ a, (k a).Sends P) : (d >>= k).Sends P := by
  intro peer b hb
  obtain ⟨a,ha,hb⟩ := (result_bind_eq_ok ..).mp hb
  obtain ⟨c,hc,hP⟩ := h a peer b hb
  exact ⟨c,(mem_issued_bind ..).mpr (.inr ⟨a,ha,hc⟩),hP⟩

end Kinds

/-- Every value a run comes to has the property. -/
def Yields (Q : α → Prop) (d : Dialogue C R ε α) : Prop :=
  ∀ peer a, d.result peer = .ok a → Q a

section Values

variable {Q : α → Prop} {Q' : β → Prop} {P : C → Prop}

theorem yields_pure {a : α} (h : Q a) : (pure a : Dialogue C R ε α).Yields Q := by
  intro peer b hb
  rw [result_pure] at hb
  exact Except.ok.inj hb ▸ h

theorem yields_any (d : Dialogue C R ε α) : d.Yields fun _ => True := fun _ _ _ => trivial

theorem Yields.bind {d : Dialogue C R ε α} {k : α → Dialogue C R ε β} (hd : d.Yields Q)
    (hk : ∀ a, Q a → (k a).Yields Q') : (d >>= k).Yields Q' := by
  intro peer b hb
  obtain ⟨a,ha,hb⟩ := (result_bind_eq_ok ..).mp hb
  exact hk a (hd peer a ha) peer b hb

/-- What follows a part need only be told of the values the part comes to. -/
theorem Avoids.bind_yields {d : Dialogue C R ε α} {k : α → Dialogue C R ε β} (hd : d.Avoids P)
    (hy : d.Yields Q) (hk : ∀ a, Q a → (k a).Avoids P) : (d >>= k).Avoids P := by
  intro peer c hc
  rcases (mem_issued_bind peer d k c).mp hc with hc | ⟨a,ha,hc⟩
  · exact hd peer c hc
  · exact hk a (hy peer a ha) peer c hc

end Values
end Dialogue
end Rszigbee
