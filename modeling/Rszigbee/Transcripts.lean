import Rszigbee.Dialogue

/-! What was put to a peer in a run and what it answered, one after the other.
A peer that answers the same command in one way now and in another way later has a transcript
as well, so that a statement about all transcripts is one about all that a peer may do. -/
namespace Rszigbee

/-- Commands, each with the answer to it. -/
abbrev Transcript {C : Type} (R : C → Type) := List (Σ c : C, R c)

namespace Dialogue

variable {C : Type} {R : C → Type} {ε α β : Type}

/-- A run with the transcript, and what it comes to. -/
inductive Run : Dialogue C R ε α → Transcript R → Except ε α → Prop
  | done (r : Except ε α) : Run (.done r) [] r
  | ask {c : C} {next : R c → Dialogue C R ε α} {answer : R c} {T : Transcript R}
      {r : Except ε α} : Run (next answer) T r → Run (.ask c next) (⟨c,answer⟩::T) r

section Runs

theorem run_done_iff {r s : Except ε α} {T : Transcript R} :
    Run (.done r : Dialogue C R ε α) T s ↔ T = [] ∧ s = r := by
  constructor
  · rintro ⟨⟩
    exact ⟨rfl,rfl⟩
  · rintro ⟨rfl,rfl⟩
    exact .done s

theorem run_pure_iff {a b : α} {T : Transcript R} :
    Run (pure a : Dialogue C R ε α) T (.ok b) ↔ T = [] ∧ b = a :=
  run_done_iff.trans (by rw [Except.ok.injEq])

theorem run_error_iff {e : ε} {b : α} {T : Transcript R} :
    ¬ Run (.done (.error e) : Dialogue C R ε α) T (.ok b) := by
  rintro ⟨⟩

theorem run_command_iff {c : C} {answer : R c} {T : Transcript R} :
    Run (command c : Dialogue C R ε (R c)) T (.ok answer) ↔ T = [⟨c,answer⟩] := by
  constructor
  · intro h
    cases h with
    | ask h =>
      obtain ⟨rfl,he⟩ := run_done_iff.mp h
      rw [Except.ok.inj he]
  · rintro rfl
    exact .ask (.done _)

/-- A sequence comes to a value in a run of its first part and one of its second. -/
theorem run_bind_iff {d : Dialogue C R ε α} {k : α → Dialogue C R ε β} {T : Transcript R} {b : β} :
    Run (d >>= k) T (.ok b) ↔
      ∃ a S U, T = S ++ U ∧ Run d S (.ok a) ∧ Run (k a) U (.ok b) := by
  show Run (d.bind k) T (.ok b) ↔ _
  induction d generalizing T with
  | done r =>
    cases r with
    | error e =>
      refine iff_of_false run_error_iff ?_
      rintro ⟨a,S,U,-,hd,-⟩
      exact run_error_iff hd
    | ok a =>
      constructor
      · intro h
        exact ⟨a,[],T,rfl,.done _,h⟩
      · rintro ⟨a',S,U,rfl,hd,hk⟩
        obtain ⟨rfl,he⟩ := run_done_iff.mp hd
        obtain rfl := Except.ok.inj he
        exact hk
  | ask c next ih =>
    constructor
    · intro h
      cases h with
      | @ask _ _ answer _ _ h =>
        obtain ⟨a,S,U,rfl,hd,hk⟩ := (ih answer).mp h
        exact ⟨a,⟨c,answer⟩::S,U,rfl,.ask hd,hk⟩
    · rintro ⟨a,S,U,rfl,hd,hk⟩
      cases hd with
      | @ask _ _ answer S _ hd => exact .ask ((ih answer).mpr ⟨a,S,U,rfl,hd,hk⟩)

/-- A sequence gives up in a run of its first part, or in one of its second after it. -/
theorem run_bind_error_iff {d : Dialogue C R ε α} {k : α → Dialogue C R ε β} {T : Transcript R}
    {e : ε} : Run (d >>= k) T (.error e) ↔ Run d T (.error e) ∨
      ∃ a S U, T = S ++ U ∧ Run d S (.ok a) ∧ Run (k a) U (.error e) := by
  show Run (d.bind k) T (.error e) ↔ _
  induction d generalizing T with
  | done r =>
    cases r with
    | error e' =>
      have hnone (a : α) (S : Transcript R) : ¬ Run (.done (.error e') : Dialogue C R ε α) S (.ok a) :=
        run_error_iff
      simp only [hnone,false_and,and_false,exists_false,or_false]
      rw [run_done_iff]
      show Run (.done (.error e') : Dialogue C R ε β) T (.error e) ↔ _
      rw [run_done_iff]
      simp
    | ok a =>
      constructor
      · intro h
        exact .inr ⟨a,[],T,rfl,.done _,h⟩
      · rintro (h | ⟨a',S,U,rfl,hd,hk⟩)
        · cases h
        · obtain ⟨rfl,he⟩ := run_done_iff.mp hd
          obtain rfl := Except.ok.inj he
          exact hk
  | ask c next ih =>
    constructor
    · intro h
      cases h with
      | @ask _ _ answer _ _ h =>
        rcases (ih answer).mp h with h | ⟨a,S,U,rfl,hd,hk⟩
        · exact .inl (.ask h)
        · exact .inr ⟨a,⟨c,answer⟩::S,U,rfl,.ask hd,hk⟩
    · rintro (h | ⟨a,S,U,rfl,hd,hk⟩)
      · cases h with
        | @ask _ _ answer S _ hd => exact .ask ((ih answer).mpr (.inl hd))
      · cases hd with
        | @ask _ _ answer S _ hd => exact .ask ((ih answer).mpr (.inr ⟨a,S,U,rfl,hd,hk⟩))

/-- A peer that answers each command in one way has the transcript of what it was asked. -/
theorem run_of_peer (peer : (c : C) → R c) (d : Dialogue C R ε α) :
    Run d ((d.issued peer).map fun c => ⟨c,peer c⟩) (d.result peer) := by
  induction d with
  | done r => exact .done r
  | ask c next ih => exact .ask (ih (peer c))

end Runs

/-- What every run that comes to a value tells, of its transcript and of the value. -/
def Tells (Q : Transcript R → α → Prop) (d : Dialogue C R ε α) : Prop :=
  ∀ T a, Run d T (.ok a) → Q T a

section Contents

variable {Q : Transcript R → α → Prop} {Q' : Transcript R → β → Prop}

theorem tells_pure {a : α} (h : Q [] a) : (pure a : Dialogue C R ε α).Tells Q := by
  intro T b hT
  obtain ⟨rfl,rfl⟩ := run_pure_iff.mp hT
  exact h

theorem tells_error (e : ε) : (.done (.error e) : Dialogue C R ε α).Tells Q :=
  fun _ _ hT => absurd hT run_error_iff

theorem tells_command {c : C} {Q : Transcript R → R c → Prop} (h : ∀ answer, Q [⟨c,answer⟩] answer) :
    (command c : Dialogue C R ε (R c)).Tells Q := by
  intro T answer hT
  rw [run_command_iff.mp hT]
  exact h answer

/-- What follows a part is told what the part came to, and its transcript comes after. -/
theorem Tells.bind {d : Dialogue C R ε α} {k : α → Dialogue C R ε β} (hd : d.Tells Q)
    (hk : ∀ S a, Q S a → (k a).Tells fun U => Q' (S ++ U)) : (d >>= k).Tells Q' := by
  intro T b hT
  obtain ⟨a,S,U,rfl,hS,hU⟩ := run_bind_iff.mp hT
  exact hk S a (hd S a hS) U b hU

theorem Tells.mono {P : Transcript R → α → Prop} {d : Dialogue C R ε α} (hd : d.Tells P)
    (h : ∀ T a, P T a → Q T a) : d.Tells Q := fun T a hT => h T a (hd T a hT)

end Contents

/-- A run that gives up has an exchange to blame for it. -/
def Blames (Q : (Σ c : C, R c) → ε → Prop) (d : Dialogue C R ε α) : Prop :=
  ∀ T e, Run d T (.error e) → ∃ x ∈ T, Q x e

section Blame

variable {Q : (Σ c : C, R c) → ε → Prop}

theorem blames_pure (a : α) : (pure a : Dialogue C R ε α).Blames Q := by
  intro T e hT
  cases hT

theorem blames_command (c : C) : (command c : Dialogue C R ε (R c)).Blames Q := by
  intro T e hT
  cases hT with
  | ask hT => cases hT

theorem Blames.bind {d : Dialogue C R ε α} {k : α → Dialogue C R ε β} (hd : d.Blames Q)
    (hk : ∀ a, (k a).Blames Q) : (d >>= k).Blames Q := by
  intro T e hT
  rcases run_bind_error_iff.mp hT with hT | ⟨a,S,U,rfl,-,hU⟩
  · exact hd T e hT
  · obtain ⟨x,hx,hQ⟩ := hk a U e hU
    exact ⟨x,List.mem_append_right S hx,hQ⟩

end Blame
end Dialogue
end Rszigbee
