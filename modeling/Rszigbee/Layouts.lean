import Rszigbee.Codec

/-! What a computation reads, as a relation between what it yields and the bytes before and after.
The offsets, which only errors tell of, are left out. -/
namespace Rszigbee

/-- A computation that reads, and fails in its own way. -/
abbrev ReadOr (ε α : Type) := StateT Reader (Except ε) α

variable {ε α β : Type}

/-- What is yielded, and what it is read from and leaves. -/
def Reads (m : ReadOr ε α) (layout : α → Bytes → Bytes → Prop) : Prop :=
  ∀ before pos a after, (∃ pos', m ⟨before,pos⟩ = .ok (a,⟨after,pos'⟩)) ↔ layout a before after

/-- However it fails, it fails so. -/
def FailsWith (m : ReadOr ε α) (P : ε → Prop) : Prop := ∀ r e, m r = .error e → P e

theorem bind_error_iff (m : ReadOr ε α) (f : α → ReadOr ε β) (r : Reader) (e : ε) :
    (m >>= f) r = .error e ↔
      m r = .error e ∨ ∃ a r', m r = .ok (a,r') ∧ f a r' = .error e := by
  show (m r >>= fun p => f p.1 p.2) = .error e ↔ _
  cases hm : m r with
  | error e' => simp [bind,Except.bind]
  | ok p =>
    constructor
    · intro h
      exact .inr ⟨p.1,p.2,rfl,h⟩
    · rintro (h | ⟨a,r',hp,h⟩)
      · cases h
      · cases hp
        exact h

namespace Reads
variable {m : ReadOr ε α} {G G' : α → Bytes → Bytes → Prop}

theorem congr (h : Reads m G) (hG : ∀ a before after, G a before after ↔ G' a before after) :
    Reads m G' := fun before pos a after => (h before pos a after).trans (hG a before after)

theorem pure (a : α) : Reads (pure a : ReadOr ε α) fun a' before after => a' = a ∧ before = after := by
  intro before pos a' after
  show (∃ pos', Except.ok (a,Reader.mk before pos) = .ok (a',⟨after,pos'⟩)) ↔ _
  simp [eq_comm]

theorem bind {f : α → ReadOr ε β} {H : α → β → Bytes → Bytes → Prop} (hm : Reads m G)
    (hf : ∀ a, Reads (f a) (H a)) :
    Reads (m >>= f) fun b before after => ∃ a mid, G a before mid ∧ H a b mid after := by
  intro before pos b after
  simp only [Read.bind_ok_iff]
  constructor
  · rintro ⟨pos',a,⟨mid,pos₁⟩,ha,hb⟩
    exact ⟨a,mid,(hm before pos a mid).mp ⟨pos₁,ha⟩,(hf a mid pos₁ b after).mp ⟨pos',hb⟩⟩
  · rintro ⟨a,mid,ha,hb⟩
    obtain ⟨pos₁,ha⟩ := (hm before pos a mid).mpr ha
    obtain ⟨pos',hb⟩ := (hf a mid pos₁ b after).mpr hb
    exact ⟨pos',a,⟨mid,pos₁⟩,ha,hb⟩

/-- What is read next is turned into something else. -/
theorem map {f : α → β} (hm : Reads m G) :
    Reads (m >>= fun a => Pure.pure (f a)) fun b before after => ∃ a, G a before after ∧ b = f a := by
  refine (hm.bind fun a => Reads.pure (f a)).congr fun b before after => ?_
  constructor
  · rintro ⟨a,mid,ha,rfl,rfl⟩
    exact ⟨a,ha,rfl⟩
  · rintro ⟨a,ha,rfl⟩
    exact ⟨a,after,ha,rfl,rfl⟩

theorem throw (e : ε) : Reads (throw e : ReadOr ε α) fun _ _ _ => False := by
  intro before pos a after
  simp only [iff_false,not_exists]
  intro pos' h
  cases h

theorem ite {c : Prop} [Decidable c] {m' : ReadOr ε α} (hm : Reads m G) (hm' : Reads m' G') :
    Reads (if c then m else m') fun a before after =>
      if c then G a before after else G' a before after := by
  by_cases hc : c
  · simpa [hc] using hm
  · simpa [hc] using hm'

theorem u8 : Reads Reader.u8 fun b before after => before = b::after := by
  intro before pos b after
  simp only [Read.u8_ok_iff]
  exact exists_and_left.trans (and_iff_left ⟨_,rfl⟩)

theorem u16Le : Reads Reader.u16Le fun v before after => before = le16 v ++ after := by
  intro before pos v after
  simp only [Read.u16Le_ok_iff]
  exact exists_and_left.trans (and_iff_left ⟨_,rfl⟩)

theorem take (n : ℕ) :
    Reads (Reader.take n) fun b before after => b.length = n ∧ before = b ++ after := by
  intro before pos b after
  constructor
  · rintro ⟨pos',h⟩
    rw [Reader.take] at h
    split at h
    · rename_i hroom
      cases h
      exact ⟨by simpa [Reader.remaining] using hroom,by simp⟩
    · cases h
  · rintro ⟨hn,rfl⟩
    exact ⟨_,Reader.take_append hn after pos⟩

theorem takeRest : Reads Reader.takeRest fun b before after => b = before ∧ after = [] := by
  intro before pos b after
  simp [Reader.takeRest,eq_comm]

/-- A payload that is read from its start. -/
theorem run (h : Reads m G) {payload : Bytes} {a : α} :
    (m (.new payload)).map Prod.fst = .ok a ↔ ∃ after, G a payload after := by
  rw [map_eq_ok]
  constructor
  · rintro ⟨⟨a',after,pos'⟩,hm,rfl⟩
    exact ⟨after,(h payload 0 a' after).mp ⟨pos',hm⟩⟩
  · rintro ⟨after,hG⟩
    obtain ⟨pos',hm⟩ := (h payload 0 a after).mpr hG
    exact ⟨_,hm,rfl⟩

end Reads

/-- A run of bytes is read, and something made of it. -/
def Spans (m : ReadOr ε α) (W : Bytes → Prop) (g : Bytes → Option α) : Prop :=
  Reads m fun a before after => ∃ b, W b ∧ g b = some a ∧ before = b ++ after

namespace Spans
variable {m : ReadOr ε α} {W : Bytes → Prop} {g : Bytes → Option α}

theorem map (h : Spans m W g) (f : α → β) :
    Spans (m >>= fun a => pure (f a)) W fun b => (g b).map f := by
  refine (Reads.map h).congr fun v before after => ?_
  simp only [Option.map_eq_some_iff]
  constructor
  · rintro ⟨a,⟨b,hb,ha,hbytes⟩,rfl⟩
    exact ⟨b,hb,⟨a,ha,rfl⟩,hbytes⟩
  · rintro ⟨b,hb,⟨a,ha,rfl⟩,hbytes⟩
    exact ⟨a,⟨b,hb,ha,hbytes⟩,rfl⟩

theorem pure (a : α) : Spans (Pure.pure a : ReadOr ε α) (fun b => b.length = 0) fun _ => some a := by
  refine (Reads.pure a).congr fun a' before after => ?_
  simp [eq_comm]

theorem take (n : ℕ) : Spans (Reader.take n) (fun b => b.length = n) some := by
  refine (Reads.take n).congr fun a before after => ?_
  simp

theorem u8 : Spans Reader.u8 (fun b => b.length = 1) fun b => some (b.headD 0) := by
  refine Reads.u8.congr fun a before after => ?_
  constructor
  · rintro rfl
    exact ⟨[a],rfl,rfl,rfl⟩
  · rintro ⟨b,hb,ha,rfl⟩
    obtain ⟨x,rfl⟩ := List.length_eq_one_iff.mp hb
    cases ha
    rfl

theorem u16Le : Spans Reader.u16Le (fun b => b.length = 2) fun b =>
    some (Reader.ofLe16 (b.headD 0) (b.tail.headD 0)) := by
  refine Reads.u16Le.congr fun a before after => ?_
  constructor
  · rintro rfl
    exact ⟨le16 a,rfl,by simp [le16],rfl⟩
  · rintro ⟨b,hb,ha,rfl⟩
    obtain ⟨x,y,rfl⟩ := List.length_eq_two.mp hb
    cases ha
    simp

end Spans

namespace FailsWith
variable {m : ReadOr ε α} {P Q : ε → Prop}

theorem imp (hm : FailsWith m P) (h : ∀ e, P e → Q e) : FailsWith m Q :=
  fun r e he => h e (hm r e he)

theorem pure (a : α) : FailsWith (Pure.pure a : ReadOr ε α) P := by
  intro r e h
  cases h

theorem bind {f : α → ReadOr ε β} (hm : FailsWith m P) (hf : ∀ a, FailsWith (f a) P) :
    FailsWith (m >>= f) P := by
  intro r e h
  rcases (bind_error_iff m f r e).mp h with h | ⟨a,r',-,h⟩
  · exact hm r e h
  · exact hf a r' e h

end FailsWith
end Rszigbee
