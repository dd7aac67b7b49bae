import Mathlib.Algebra.Order.Round
import Mathlib.Data.Rat.Floor
import Rszigbee.Grammar
import Rszigbee.Weekdays

/-! Schedules as bytes and as text: what is read is written back, and what is written is read
with its temperatures in tenths. -/
namespace Rszigbee

section Exactly

/-- The number a text has; an infinity has none. -/
def Decimal.toRat : Decimal → Option ℚ
  | number negative digits exponent =>
    let magnitude := (digits : ℚ) * 10 ^ exponent
    some (if negative then -magnitude else magnitude)
  | infinity _ | nan => none

/-- To the nearest integer, and from halfway away from zero. -/
def roundAway (q : ℚ) : ℤ := if 0 ≤ q then ⌊q + 1 / 2⌋ else -⌊-q + 1 / 2⌋

namespace Schedule

/-- A temperature in tenths as `tenthsOf` has it, without the rounding of floats. -/
def exactTenths (degrees : Decimal) : UInt16 :=
  match degrees.toRat with
  | some q => .ofNat (min (roundAway (q * 10)).toNat 65535)
  | none => if degrees = .infinity false then 65535 else 0

/-- `encodeTransition` with its temperatures taken in some way. -/
def encodeTransitionBy (tenths : Decimal → UInt16) (cs : List Char) : Option Bytes := do
  let (time,temperature) ← splitOnce '/' cs
  let (hour,minute) ← splitOnce ':' time
  let hour ← parseU8 hour
  let minute ← parseU8 minute
  let degrees ← Decimal.parse temperature
  let t := tenths degrees
  if 24 < hour ∨ 59 < minute ∨ ¬(minTenths ≤ t ∧ t ≤ maxTenths) then none
  else some (hour::minute::Tuya.be16 t)

def encodeScheduleBy (tenths : Decimal → UInt16) (day : UInt8) (text : String) : Option Bytes :=
  ((splitWhitespace text.toList).mapM (encodeTransitionBy tenths)).bind fun transitions =>
    if transitions = [] then none else some (day::transitions.flatten)

theorem encodeScheduleBy_toFloat :
    encodeScheduleBy (fun degrees => tenthsOf degrees.toFloat) = encodeSchedule := rfl

/-- The temperatures of a payload's transitions, in tenths. -/
def temperatures : Bytes → List UInt16
  | _::_::high::low::rest => Reader.ofLe16 low high::temperatures rest
  | _ => []

/-- The thermostat accepts it. -/
def Accepted (t : UInt16) : Prop := minTenths ≤ t ∧ t ≤ maxTenths

/-- A time and a temperature, as text. -/
def Says (cs : List Char) (hour minute : UInt8) (degrees : Decimal) : Prop :=
  ∃ h m t, cs = h ++ ':'::m ++ '/'::t ∧ ':' ∉ h ∧ '/' ∉ h ++ ':'::m ∧
    parseU8 h = some hour ∧ parseU8 m = some minute ∧ Decimal.parse t = some degrees

section Splitting
variable {sep : Char} {before after cs : List Char}

theorem splitOnce_append (h : sep ∉ before) (after : List Char) :
    splitOnce sep (before ++ sep::after) = some (before,after) := by
  have hall : ∀ c ∈ before, decide (c ≠ sep) = true := by
    intro c hc
    rw [decide_eq_true_eq]
    exact fun heq => h (heq ▸ hc)
  rw [splitOnce,if_pos (by simp),List.takeWhile_append_of_pos hall,
    List.dropWhile_append_of_pos hall]
  simp

theorem splitOnce_eq_some_iff :
    splitOnce sep cs = some (before,after) ↔ cs = before ++ sep::after ∧ sep ∉ before := by
  constructor
  · intro h
    by_cases hmem : sep ∈ cs
    · obtain ⟨as,bs,rfl,has⟩ := List.eq_append_cons_of_mem hmem
      rw [splitOnce_append has] at h
      cases h
      exact ⟨rfl,has⟩
    · rw [splitOnce,if_neg hmem] at h
      cases h
  · rintro ⟨rfl,hbefore⟩
    exact splitOnce_append hbefore after

/-- Words with blanks between them are split at these. -/
theorem splitWhitespace_intercalate {texts : List (List Char)}
    (h : ∀ text ∈ texts, text ≠ [] ∧ ∀ c ∈ text, Texts.isWhitespace c = false) :
    splitWhitespace ([' '].intercalate texts) = texts := by
  induction texts with
  | nil => rfl
  | cons text texts ih =>
    obtain ⟨hne,hword⟩ := h text List.mem_cons_self
    have hrest := ih fun t ht => h t (List.mem_cons_of_mem _ ht)
    cases texts with
    | nil =>
      rw [List.intercalate_singleton,splitWhitespace,List.splitOnP_eq_singleton hword]
      simp [hne]
    | cons next texts =>
      rw [splitWhitespace] at hrest ⊢
      rw [List.intercalate_cons_cons,List.append_assoc,List.singleton_append,
        List.splitOnP_append_cons_of_forall_mem hword ' ' rfl,List.filter_cons,hrest]
      simp [hne]

end Splitting

section Transitions
variable {tenths : Decimal → UInt16} {cs : List Char} {hour minute : UInt8} {degrees : Decimal}

/-- What is made of the text of a transition. -/
theorem encodeTransitionBy_eq_some_iff {b : Bytes} : encodeTransitionBy tenths cs = some b ↔
    ∃ hour minute degrees, Says cs hour minute degrees ∧ hour ≤ 24 ∧ minute ≤ 59 ∧
      Accepted (tenths degrees) ∧ b = hour::minute::Tuya.be16 (tenths degrees) := by
  constructor
  · intro h
    simp only [encodeTransitionBy,Option.bind_eq_bind,Option.bind_eq_some_iff] at h
    obtain ⟨⟨time,t⟩,htime,⟨h',m⟩,hhour',hour,hhour,minute,hminute,degrees,hdegrees,h⟩ := h
    obtain ⟨rfl,hslash⟩ := splitOnce_eq_some_iff.mp htime
    obtain ⟨rfl,hcolon⟩ := splitOnce_eq_some_iff.mp hhour'
    split at h
    · cases h
    · rename_i hrange
      cases h
      rw [not_or,not_or,not_not,UInt8.not_lt,UInt8.not_lt] at hrange
      exact ⟨hour,minute,degrees,⟨h',m,t,rfl,hcolon,hslash,hhour,hminute,hdegrees⟩,hrange.1,
        hrange.2.1,hrange.2.2,rfl⟩
  · rintro ⟨hour,minute,degrees,⟨h,m,t,rfl,hcolon,hslash,hhour,hminute,hdegrees⟩,hclock,hclock',
      haccepted,rfl⟩
    have hrange : ¬(24 < hour ∨ 59 < minute ∨
        ¬(minTenths ≤ tenths degrees ∧ tenths degrees ≤ maxTenths)) := by
      rw [not_or,not_or,not_not,UInt8.not_lt,UInt8.not_lt]
      exact ⟨hclock,hclock',haccepted⟩
    simp only [encodeTransitionBy,splitOnce_append hslash,splitOnce_append hcolon,
      Option.bind_eq_bind,Option.bind_some,hhour,hminute,hdegrees,if_neg hrange]

theorem digitValue_of_mem_toDigits {n : ℕ} {c : Char} (h : c ∈ Nat.toDigits 10 n) :
    Texts.digitValue 10 c ≠ none :=
  Texts.digit_of_value (Texts.value_toDigits (by decide) (by decide) n) h

theorem parseU8_padded (n : UInt8) : parseU8 (Texts.padded 10 2 n.toNat) = some n := by
  rw [parseU8,Texts.fromStrRadix_padded (by decide) (by decide) 2 n.toNat_lt]
  simp

theorem padded_two (n : ℕ) {c : Char} (h : c ∈ Texts.padded 10 2 n) :
    Texts.digitValue 10 c ≠ none :=
  Texts.digit_of_value (Texts.value_padded (by decide) (by decide) 2 n) h

/-- A text with a point that begins with a digit is a number without a sign. -/
theorem parse_unsigned {c : Char} {cs : List Char} (hdigit : Texts.isDigit 10 c = true)
    (hpoint : '.' ∈ cs) : Decimal.parse (c::cs) = Decimal.parseNumber false (c::cs) := by
  have hminus : ¬(c::cs).head? = some '-' := by
    intro hc
    rw [Option.some.inj hc] at hdigit
    exact absurd hdigit (by decide)
  have hsigned : ¬(decide ((c::cs).head? = some '-') = true ∨ (c::cs).head? = some '+') := by
    rintro (hc | hc)
    · exact hminus (of_decide_eq_true hc)
    · rw [Option.some.inj hc] at hdigit
      exact absurd hdigit (by decide)
  have hlower : '.' ∈ (c::cs).map Char.toLower :=
    List.mem_map.mpr ⟨'.',List.mem_cons_of_mem _ hpoint,rfl⟩
  have hwords : ∀ word : List Char, '.' ∉ word → (c::cs).map Char.toLower ≠ word :=
    fun word hword heq => hword (heq ▸ hlower)
  have hinf := hwords "inf".toList (by decide)
  have hinfinity := hwords "infinity".toList (by decide)
  have hnan := hwords "nan".toList (by decide)
  dsimp only [Decimal.parse]
  rw [if_neg hsigned,if_neg (not_or.mpr ⟨hinf,hinfinity⟩),if_neg hnan,decide_eq_false hminus]

/-- Whole degrees, a point and a tenth are read as tenths. -/
theorem parse_tenths (n : ℕ) :
    Decimal.parse (Nat.toDigits 10 (n / 10) ++ '.'::Nat.toDigits 10 (n % 10)) =
      some (.number false n (-1)) := by
  have hwhole : ∀ c ∈ Nat.toDigits 10 (n / 10), Texts.isDigit 10 c = true :=
    fun c hc => Option.isSome_iff_ne_none.mpr (digitValue_of_mem_toDigits hc)
  have htenth : Nat.toDigits 10 (n % 10) = [Nat.digitChar (n % 10)] :=
    Nat.toDigits_of_lt_base (Nat.mod_lt n (by decide))
  have htenth' : Texts.digitValue 10 (Nat.digitChar (n % 10)) = some (n % 10) :=
    Texts.digitValue_digitChar (by decide) (Nat.mod_lt n (by decide))
  have hdigit : Texts.isDigit 10 (Nat.digitChar (n % 10)) = true :=
    Option.isSome_of_eq_some htenth'
  have hvalue : Texts.value 10 (Nat.toDigits 10 (n / 10) ++ [Nat.digitChar (n % 10)]) 0 =
      some n := by
    rw [Texts.value_append,Texts.value_toDigits (by decide) (by decide),Option.bind_some]
    simp [Texts.value,htenth',Nat.div_add_mod]
  have hpoint : Texts.isDigit 10 '.' = false := by decide
  obtain ⟨c,cs,hcs⟩ := List.exists_cons_of_ne_nil (Nat.toDigits_ne_nil (n := n / 10) (b := 10))
  have hfirst : Texts.isDigit 10 c = true := hwhole c (hcs ▸ List.mem_cons_self)
  rw [htenth,hcs,List.cons_append,parse_unsigned hfirst (by simp),← List.cons_append,← hcs]
  simp [Decimal.parseNumber,List.takeWhile_append_of_pos hwhole,
    List.dropWhile_append_of_pos hwhole,hpoint,hdigit,hvalue,Decimal.parseExponent]

/-- A transition's text says what it was made of, in tenths. -/
theorem says_transitionText (hour minute : UInt8) (t : UInt16) :
    Says (transitionText hour minute t) hour minute (.number false t.toNat (-1)) := by
  refine ⟨Texts.padded 10 2 hour.toNat,Texts.padded 10 2 minute.toNat,_,
    by rw [transitionText,List.append_assoc _ ('/'::_),List.cons_append],?_,?_,
    parseU8_padded hour,parseU8_padded minute,parse_tenths t.toNat⟩
  · exact fun hmem => padded_two _ hmem (by decide)
  · intro hmem
    rcases List.mem_append.mp hmem with hmem | hmem
    · exact padded_two _ hmem (by decide)
    · rcases List.mem_cons.mp hmem with heq | hmem
      · exact absurd heq (by decide)
      · exact padded_two _ hmem (by decide)

theorem isWhitespace_of_digit {c : Char} (h : Texts.digitValue 10 c ≠ none) :
    Texts.isWhitespace c = false := by
  have hdigit : '0' ≤ c ∧ c ≤ '9' := by
    by_contra hnot
    apply h
    simp only [Texts.digitValue,if_neg hnot]
    split
    · simp
    · split <;> simp
  have hlow : (48 : UInt32) ≤ c.val := hdigit.1
  have hhigh : c.val ≤ (57 : UInt32) := hdigit.2
  rw [UInt32.le_iff_toNat_le] at hlow hhigh
  have hlow' : 48 ≤ c.toNat := hlow
  have hhigh' : c.toNat ≤ 57 := hhigh
  simp [Texts.isWhitespace]
  omega

/-- It is one word. -/
theorem transitionText_word (hour minute : UInt8) (t : UInt16) :
    transitionText hour minute t ≠ [] ∧
      ∀ c ∈ transitionText hour minute t, Texts.isWhitespace c = false := by
  have hpadded : ∀ n, ∀ c ∈ Texts.padded 10 2 n, Texts.isWhitespace c = false :=
    fun n c hc => isWhitespace_of_digit (padded_two n hc)
  have hdigits : ∀ n, ∀ c ∈ Nat.toDigits 10 n, Texts.isWhitespace c = false :=
    fun n c hc => isWhitespace_of_digit (digitValue_of_mem_toDigits hc)
  constructor
  · simp [transitionText]
  · intro c hc
    simp only [transitionText,List.mem_append,List.mem_cons] at hc
    obtain ((hc | rfl | hc) | rfl | hc) | rfl | hc := hc
    · exact hpadded _ c hc
    · rfl
    · exact hpadded _ c hc
    · rfl
    · exact hdigits _ c hc
    · rfl
    · exact hdigits _ c hc

end Transitions

section Whole
variable {tenths : Decimal → UInt16}

theorem words_of_transitionTexts {body : Bytes} {texts : List (List Char)}
    (h : transitionTexts body = some texts) :
    ∀ text ∈ texts, text ≠ [] ∧ ∀ c ∈ text, Texts.isWhitespace c = false := by
  induction body using transitionTexts.induct generalizing texts with
  | case1 hour minute high low rest hclock =>
    rw [transitionTexts,if_pos hclock] at h
    cases h
  | case2 hour minute high low rest hclock ih =>
    rw [transitionTexts,if_neg hclock,Option.map_eq_some_iff] at h
    obtain ⟨texts,hrest,rfl⟩ := h
    intro text htext
    rcases List.mem_cons.mp htext with rfl | htext
    · exact transitionText_word _ _ _
    · exact ih hrest text htext
  | case3 body hshort =>
    rw [transitionTexts] at h
    · cases h
      simp
    · exact hshort

/-- The texts of a payload's transitions are made into these again. -/
theorem mapM_transitionTexts {body : Bytes} {texts : List (List Char)}
    (h : transitionTexts body = some texts) (hlength : body.length % bytesPerTransition = 0)
    (htenths : ∀ t ∈ temperatures body, Accepted t ∧ tenths (.number false t.toNat (-1)) = t) :
    ∃ bs, texts.mapM (encodeTransitionBy tenths) = some bs ∧ bs.flatten = body := by
  induction body using transitionTexts.induct generalizing texts with
  | case1 hour minute high low rest hclock =>
    rw [transitionTexts,if_pos hclock] at h
    cases h
  | case2 hour minute high low rest hclock ih =>
    rw [transitionTexts,if_neg hclock,Option.map_eq_some_iff] at h
    obtain ⟨texts,hrest,rfl⟩ := h
    obtain ⟨haccepted,hread⟩ := htenths _ List.mem_cons_self
    have hrestlength : rest.length % bytesPerTransition = 0 := by
      simp only [List.length_cons,bytesPerTransition] at hlength ⊢
      omega
    obtain ⟨bs,hbs,hflatten⟩ := ih hrest hrestlength fun t ht =>
      htenths t (List.mem_cons_of_mem _ ht)
    rw [not_or,UInt8.not_lt,UInt8.not_lt] at hclock
    have hfirst := encodeTransitionBy_eq_some_iff.mpr ⟨hour,minute,_,
      says_transitionText hour minute (Reader.ofLe16 low high),hclock.1,hclock.2,
      hread.symm ▸ haccepted,rfl⟩
    rw [hread,Tuya.be16_ofLe16] at hfirst
    exact ⟨_,by rw [List.mapM_cons,hfirst,hbs]; rfl,by rw [← hflatten]; rfl⟩
  | case3 body hshort =>
    rw [transitionTexts] at h
    · cases h
      match body,hshort,hlength with
      | [],_,_ => exact ⟨[],rfl,rfl⟩
      | [_],_,hlength => cases hlength
      | [_,_],_,hlength => cases hlength
      | [_,_,_],_,hlength => cases hlength
      | hour::minute::high::low::rest,hshort,_ => exact (hshort hour minute high low rest rfl).elim
    · exact hshort

/-- What is read is written back, where the temperatures are. -/
theorem encodeScheduleBy_decodeSchedule {day : UInt8} {body : Bytes} {text : String}
    (h : decodeSchedule (day::body) = some text)
    (htenths : ∀ t ∈ temperatures body, Accepted t ∧ tenths (.number false t.toNat (-1)) = t) :
    encodeScheduleBy tenths day text = some (day::body) := by
  rw [decodeSchedule] at h
  split at h
  · cases h
  · rename_i hbody
    rw [not_or,not_not] at hbody
    obtain ⟨texts,htexts,rfl⟩ := Option.map_eq_some_iff.mp h
    obtain ⟨bs,hbs,hflatten⟩ := mapM_transitionTexts htexts hbody.2 htenths
    have hne : bs ≠ [] := by
      rintro rfl
      exact hbody.1 hflatten.symm
    rw [encodeScheduleBy,String.toList_ofList,
      splitWhitespace_intercalate (words_of_transitionTexts htexts),hbs,Option.bind_some,
      if_neg hne,hflatten]

/-- A transition's text, and another with its time and its temperature in tenths. -/
def Kept (tenths : Decimal → UInt16) (part text : List Char) : Prop :=
  ∃ hour minute degrees, Says part hour minute degrees ∧ Accepted (tenths degrees) ∧
    text = transitionText hour minute (tenths degrees)

theorem transitionTexts_flatten {parts : List (List Char)} {bs : List Bytes}
    (h : parts.mapM (encodeTransitionBy tenths) = some bs) :
    bs.flatten.length % bytesPerTransition = 0 ∧
      ∃ texts, transitionTexts bs.flatten = some texts ∧ List.Forall₂ (Kept tenths) parts texts := by
  induction parts generalizing bs with
  | nil =>
    cases h
    exact ⟨rfl,[],rfl,.nil⟩
  | cons part parts ih =>
    simp only [List.mapM_cons,Option.bind_eq_bind,Option.bind_eq_some_iff] at h
    obtain ⟨b,hb,bs,hbs,h⟩ := h
    cases h
    obtain ⟨hour,minute,degrees,hreads,hhour,hminute,haccepted,rfl⟩ :=
      encodeTransitionBy_eq_some_iff.mp hb
    obtain ⟨hlength,texts,htexts,hkept⟩ := ih hbs
    have hclock : ¬(24 < hour ∨ 59 < minute) := by
      rw [not_or,UInt8.not_lt,UInt8.not_lt]
      exact ⟨hhour,hminute⟩
    refine ⟨?_,_,?_,.cons ⟨hour,minute,degrees,hreads,haccepted,rfl⟩ hkept⟩
    · simp only [bytesPerTransition,List.flatten_cons,List.length_append,List.length_cons,
        Tuya.be16,le16,List.length_reverse,List.length_nil] at hlength ⊢
      omega
    · have hbytes : ((hour::minute::Tuya.be16 (tenths degrees))::bs).flatten =
          hour::minute::(tenths degrees >>> 8).toUInt8::(tenths degrees).toUInt8::bs.flatten := rfl
      rw [hbytes,transitionTexts,if_neg hclock,htexts,Reader.ofLe16_bytes]
      rfl

/-- What is written is read as as many transitions, their times and their tenths. -/
theorem decodeSchedule_encodeScheduleBy {day : UInt8} {text : String} {payload : Bytes}
    (h : encodeScheduleBy tenths day text = some payload) :
    ∃ out, decodeSchedule payload = some out ∧
      List.Forall₂ (Kept tenths) (splitWhitespace text.toList) (splitWhitespace out.toList) := by
  obtain ⟨bs,hbs,h⟩ := Option.bind_eq_some_iff.mp h
  split at h
  · cases h
  · rename_i hne
    cases h
    obtain ⟨hlength,texts,htexts,hkept⟩ := transitionTexts_flatten hbs
    have hbody : bs.flatten ≠ [] := by
      intro hflatten
      rw [hflatten] at htexts
      cases htexts
      rw [List.forall₂_nil_right_iff.mp hkept] at hbs
      cases hbs
      exact hne rfl
    refine ⟨.ofList ([' '].intercalate texts),?_,?_⟩
    · rw [decodeSchedule,if_neg (not_or.mpr ⟨hbody,not_not.mpr hlength⟩),htexts]
      rfl
    · rwa [String.toList_ofList,splitWhitespace_intercalate (words_of_transitionTexts htexts)]

end Whole

section Rounding

/-- The number a temperature is written as, and the tenths nearest to it. -/
def Tenths (degrees : Decimal) (n : ℕ) : Prop :=
  ∃ q, degrees.toRat = some q ∧ (n : ℚ) ≤ 10 * q + 1 / 2 ∧ 10 * q + 1 / 2 < n + 1

theorem toNat_accepted {t : UInt16} (h : Accepted t) : 50 ≤ t.toNat ∧ t.toNat ≤ 350 := by
  have hlow := UInt16.le_iff_toNat_le.mp h.1
  have hhigh := UInt16.le_iff_toNat_le.mp h.2
  exact ⟨hlow,hhigh⟩

/-- What the thermostat accepts has been rounded, and neither clamped nor taken for zero. -/
theorem tenths_exactTenths {degrees : Decimal} (h : Accepted (exactTenths degrees)) :
    Tenths degrees (exactTenths degrees).toNat := by
  obtain ⟨hlow,hhigh⟩ := toNat_accepted h
  cases hq : degrees.toRat with
  | none =>
    simp only [exactTenths,hq] at hlow hhigh
    split at hlow
    · rename_i hinfinity
      simp [hinfinity] at hhigh
    · simp at hlow
  | some q =>
    have htenths : exactTenths degrees = .ofNat (min (roundAway (q * 10)).toNat 65535) := by
      simp only [exactTenths,hq]
    have hsize : min (roundAway (q * 10)).toNat 65535 < UInt16.size :=
      Nat.lt_of_le_of_lt (min_le_right _ _) (by decide)
    rw [htenths,UInt16.toNat_ofNat_of_lt' hsize] at hlow hhigh ⊢
    have hmin : min (roundAway (q * 10)).toNat 65535 = (roundAway (q * 10)).toNat := by omega
    rw [hmin] at hlow hhigh ⊢
    refine ⟨q,hq,?_⟩
    by_cases hsign : 0 ≤ q * 10
    · have hround : roundAway (q * 10) = ⌊q * 10 + 1 / 2⌋ := if_pos hsign
      rw [hround] at hlow hhigh ⊢
      have hcast : ((⌊q * 10 + 1 / 2⌋.toNat : ℕ) : ℚ) = ((⌊q * 10 + 1 / 2⌋ : ℤ) : ℚ) := by
        rw [← Int.cast_natCast,Int.toNat_of_nonneg (by omega)]
      rw [hcast,mul_comm 10 q]
      exact ⟨Int.floor_le _,Int.lt_floor_add_one _⟩
    · have hround : roundAway (q * 10) = -⌊-(q * 10) + 1 / 2⌋ := if_neg hsign
      have hfloor : 0 ≤ ⌊-(q * 10) + 1 / 2⌋ := Int.floor_nonneg.mpr (by linarith)
      rw [hround] at hlow
      omega

/-- Tenths as they are written. -/
theorem exactTenths_number (t : UInt16) : exactTenths (.number false t.toNat (-1)) = t := by
  have hten : (t.toNat : ℚ) * 10 ^ (-1 : ℤ) * 10 = t.toNat := by
    rw [zpow_neg_one,mul_assoc,inv_mul_cancel₀ (by norm_num),mul_one]
  have hround : roundAway t.toNat = t.toNat := by
    rw [roundAway,if_pos (Nat.cast_nonneg _),Int.floor_eq_iff]
    constructor
    · push_cast
      linarith
    · push_cast
      linarith
  have hsmall : t.toNat < 65536 := t.toNat_lt
  simp only [exactTenths,Decimal.toRat,Bool.false_eq_true,if_false,hten,hround]
  rw [Int.toNat_natCast,min_eq_left (by omega),UInt16.ofNat_toNat]

/-- Doubles are as good for the temperatures a thermostat accepts. -/
theorem tenthsOf_accepted {t : UInt16} (h : Accepted t) :
    tenthsOf (Decimal.number false t.toNat (-1)).toFloat = t := by
  have hall : ∀ n ∈ List.range 301,
      tenthsOf (Decimal.number false (50 + n) (-1)).toFloat = .ofNat (50 + n) := by
    decide +kernel
  obtain ⟨hlow,hhigh⟩ := toNat_accepted h
  have hat := hall (t.toNat - 50) (List.mem_range.mpr (by omega))
  rwa [Nat.add_sub_cancel' hlow,UInt16.ofNat_toNat] at hat

end Rounding

/-- A payload that is read, with temperatures the thermostat accepts, is written back as it was,
in exact arithmetic and in that of doubles; and whatever is written is read as as many transitions,
each with its own time and with its temperature rounded to a tenth. -/
theorem schedule_round_trips :
    (∀ day body text, decodeSchedule (day::body) = some text →
      (∀ t ∈ temperatures body, Accepted t) →
      encodeScheduleBy exactTenths day text = some (day::body) ∧
        encodeSchedule day text = some (day::body)) ∧
    ∀ day text payload, encodeScheduleBy exactTenths day text = some payload →
      ∃ out, decodeSchedule payload = some out ∧
        List.Forall₂ (fun part read => ∃ hour minute degrees n,
          Says part hour minute degrees ∧ Says read hour minute (.number false n (-1)) ∧
            Tenths degrees n) (splitWhitespace text.toList) (splitWhitespace out.toList) := by
  constructor
  · intro day body text hdecode haccepted
    constructor
    · exact encodeScheduleBy_decodeSchedule hdecode fun t ht =>
        ⟨haccepted t ht,exactTenths_number t⟩
    · rw [← encodeScheduleBy_toFloat]
      exact encodeScheduleBy_decodeSchedule hdecode fun t ht =>
        ⟨haccepted t ht,tenthsOf_accepted (haccepted t ht)⟩
  · intro day text payload hencode
    obtain ⟨out,hout,hkept⟩ := decodeSchedule_encodeScheduleBy hencode
    refine ⟨out,hout,hkept.imp ?_⟩
    rintro part read ⟨hour,minute,degrees,hreads,haccepted,rfl⟩
    exact ⟨hour,minute,degrees,_,hreads,says_transitionText _ _ _,tenths_exactTenths haccepted⟩

/-- Warm in the morning and in the evening. -/
def workday : Bytes := [6,0,0,210,8,30,0,165,17,0,0,215,22,0,0,150]

def workdayText : String := "06:00/21.0 08:30/16.5 17:00/21.5 22:00/15.0"

theorem schedule_round_trips_workday :
    encodeScheduleBy exactTenths 1 workdayText = some (1::workday) ∧
      encodeSchedule 1 workdayText = some (1::workday) ∧
      ∃ out, decodeSchedule (1::workday) = some out ∧
        List.Forall₂ (fun part read => ∃ hour minute degrees n,
          Says part hour minute degrees ∧ Says read hour minute (.number false n (-1)) ∧
            Tenths degrees n) (splitWhitespace workdayText.toList)
            (splitWhitespace out.toList) := by
  have hread : decodeSchedule (1::workday) = some workdayText := by decide +kernel
  have htemperatures : temperatures workday = [210,165,215,150] := rfl
  have haccepted : ∀ t ∈ temperatures workday, Accepted t := by
    rw [htemperatures]
    simp [Accepted,minTenths,maxTenths,UInt16.le_iff_toNat_le]
  have hwritten := schedule_round_trips.1 1 _ _ hread haccepted
  exact ⟨hwritten.1,hwritten.2,schedule_round_trips.2 1 _ _ hwritten.1⟩

end Schedule
end Exactly
end Rszigbee
