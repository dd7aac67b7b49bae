import Rszigbee.Codec
import Rszigbee.Intents

/-! What a request to permit joining wishes for. It can be stated bare, as a time or as a value;
the value is never looked at. -/
namespace Rszigbee

def Number.Positive : Number → Prop
  | posInt n => n ≠ 0
  | negInt i => 0 < i
  | float x => 0 < x

namespace Json

/-- True, or a positive number. -/
def Opens : Json → Prop
  | bool b => b = true
  | number n => n.Positive
  | _ => False

/-- False, zero or a negative number. -/
def Closes : Json → Prop
  | bool b => b = false
  | number n => ¬ n.Positive
  | _ => False

/-- `Map::get`, of an object. -/
def field (name : String) : Json → Option Json
  | object fields => (fields.find? fun e => e.1 = name).map Prod.snd
  | _ => none

def IsObject (j : Json) : Prop := ∃ fields, j = object fields

/-- The value stands bare, or under a name that states a wish. -/
def States (j v : Json) : Prop := v = j ∨ j.field "time" = some v ∨ j.field "value" = some v

def AsksOpen (j : Json) : Prop := ∃ v, j.States v ∧ v.Opens

def AsksClose (j : Json) : Prop := ∃ v, j.States v ∧ v.Closes

/-- An object that states no wish. -/
def Silent (j : Json) : Prop := j.IsObject ∧ j.field "time" = none ∧ j.field "value" = none

/-- What is taken to open: true, or a positive integer. -/
def LetsIn (j : Json) : Prop := j = bool true ∨ ∃ n, n ≠ 0 ∧ j = number (.posInt n)

/-- A value that does not ask to open stands alone, or one that asks to close beside a time that
opens. -/
def Overlooked (j : Json) : Prop :=
  ∃ v, j.field "value" = some v ∧ (j.field "time" = none ∧ ¬ v.Opens ∨
    ∃ w, j.field "time" = some w ∧ w.LetsIn ∧ v.Closes)

theorem LetsIn.opens {j : Json} (h : j.LetsIn) : j.Opens := by
  rcases h with rfl | ⟨n,hn,rfl⟩
  · rfl
  · exact hn

theorem Closes.not_opens {j : Json} (h : j.Closes) : ¬ j.Opens := by
  cases j with
  | bool b => simpa [Closes,Opens] using h
  | number n => exact h
  | _ => exact id

end Json

section Window
variable {text : JsonText} {t : Topics} {payload : Bytes} {j : Json}

/-- A window is opened for as long as `permit_join` asks. -/
theorem parse_permitJoin (hjson : text.fromSlice payload = .ok j) {i : Inbound} :
    parse text t ⟨t.bridgeRequest "permit_join",payload⟩ = .ok i ↔
      ∃ seconds, permitSeconds text j = .ok seconds ∧ i = .permitJoin (.fromSecs seconds.toNat) := by
  have hread : json text payload = .ok j := by rw [json,hjson]; rfl
  have hbody : parsePermitJoin text payload =
      (permitSeconds text j).map fun seconds => .fromSecs seconds.toNat := by
    rw [parsePermitJoin,hread]
    show (permitSeconds text j).bind _ = _
    cases permitSeconds text j <;> rfl
  have hrequest : parseRequest text payload "permit_join" =
      (parsePermitJoin text payload).map .permitJoin := if_neg (not_not_intro rfl)
  rw [parse_request,hrequest,hbody]
  cases permitSeconds text j <;> simp [Except.map,eq_comm]

/-- What a request opens for: bare, or as the time of an object, where none means to open. -/
theorem permitSeconds_ne_zero_iff : (∃ seconds, permitSeconds text j = .ok seconds ∧ seconds ≠ 0) ↔
    j.LetsIn ∨ j.IsObject ∧ ∀ w, j.field "time" = some w → w.LetsIn := by
  cases j with
  | object fields =>
    simp only [permitSeconds,Json.field,Json.IsObject,Json.LetsIn]
    generalize (fields.find? fun e => e.1 = "time").map Prod.snd = time
    cases time with
    | none => simp
    | some w =>
      cases w with
      | number n => cases n <;> simp [Number.asU64]
      | bool b => cases b <;> simp
      | _ => simp
  | number n => cases n <;> simp [permitSeconds,Json.LetsIn,Json.IsObject,Number.asU64]
  | bool b => cases b <;> simp [permitSeconds,Json.LetsIn,Json.IsObject]
  | _ => simp [permitSeconds,Json.LetsIn,Json.IsObject]

/-- A request that asks to close opens nothing, and one opens only if it asks to, or states
nothing. -/
structure OpensAsked (text : JsonText) (t : Topics) (payload : Bytes) (j : Json) : Prop where
  closed : j.AsksClose → ∀ i, parse text t ⟨t.bridgeRequest "permit_join",payload⟩ = .ok i →
    i = .permitJoin 0
  asked : ∀ duration, parse text t ⟨t.bridgeRequest "permit_join",payload⟩ =
    .ok (.permitJoin duration) → duration ≠ 0 → j.AsksOpen ∨ j.Silent

theorem fromSecs_eq_zero {seconds : UInt64} :
    Duration.fromSecs seconds.toNat = 0 ↔ seconds = 0 := by
  simp [Duration.fromSecs,← UInt64.toNat_inj]

theorem opensAsked_iff_lets (hjson : text.fromSlice payload = .ok j) : OpensAsked text t payload j ↔
    ((∃ seconds, permitSeconds text j = .ok seconds ∧ seconds ≠ 0) →
      ¬ j.AsksClose ∧ (j.AsksOpen ∨ j.Silent)) := by
  constructor
  · rintro h ⟨seconds,hseconds,hne⟩
    have hparse := (parse_permitJoin (t := t) hjson).mpr ⟨seconds,hseconds,rfl⟩
    have hopen : Duration.fromSecs seconds.toNat ≠ 0 := mt fromSecs_eq_zero.mp hne
    refine ⟨fun hclose => hopen ?_,h.asked _ hparse hopen⟩
    exact Inbound.permitJoin.inj (h.closed hclose _ hparse)
  · intro h
    constructor
    · intro hclose i hi
      obtain ⟨seconds,hseconds,rfl⟩ := (parse_permitJoin hjson).mp hi
      by_contra hne
      have hopen : seconds ≠ 0 := fun hzero => hne (by rw [fromSecs_eq_zero.mpr hzero])
      exact (h ⟨seconds,hseconds,hopen⟩).1 hclose
    · intro duration hduration hne
      obtain ⟨seconds,hseconds,heq⟩ := (parse_permitJoin hjson).mp hduration
      obtain rfl := Inbound.permitJoin.inj heq
      exact (h ⟨seconds,hseconds,fun hzero => hne (fromSecs_eq_zero.mpr hzero)⟩).2

/-- A request opens the network as it asks to exactly when no value stands in it that is
overlooked. -/
theorem opensAsked_iff (hjson : text.fromSlice payload = .ok j) :
    OpensAsked text t payload j ↔ ¬ j.Overlooked := by
  rw [opensAsked_iff_lets hjson,permitSeconds_ne_zero_iff]
  by_cases hobject : j.IsObject
  · have hin : ¬ j.LetsIn := by
      obtain ⟨fields,rfl⟩ := hobject
      simp [Json.LetsIn]
    have hopens : ¬ j.Opens := by
      obtain ⟨fields,rfl⟩ := hobject
      exact id
    have hcloses : ¬ j.Closes := by
      obtain ⟨fields,rfl⟩ := hobject
      exact id
    simp only [hin,hobject,false_or,true_and,Json.AsksClose,Json.AsksOpen,Json.Silent,Json.States,
      Json.Overlooked,or_and_right,exists_or,exists_eq_left,hopens,hcloses]
    generalize j.field "time" = time
    generalize j.field "value" = value
    cases time with
    | none =>
      cases value with
      | none => simp
      | some v => simpa using fun h => mt Json.Closes.not_opens (not_not_intro h)
    | some w =>
      have hw : w.LetsIn → w.Opens ∧ ¬ w.Closes :=
        fun h => ⟨h.opens,mt Json.Closes.not_opens (not_not_intro h.opens)⟩
      cases value with
      | none => simp; tauto
      | some v => simp; tauto
  · have hfield : ∀ name, j.field name = none := by
      intro name
      cases j with
      | object fields => exact absurd ⟨fields,rfl⟩ hobject
      | _ => rfl
    have hnone : ¬ j.Overlooked := by simp [Json.Overlooked,hfield]
    refine iff_of_true ?_ hnone
    rintro (hin | ⟨h,-⟩)
    · have hopens := hin.opens
      refine ⟨?_,.inl ⟨j,.inl rfl,hopens⟩⟩
      rintro ⟨v,rfl | hv | hv,hclose⟩
      · exact hclose.not_opens hopens
      · simp [hfield] at hv
      · simp [hfield] at hv
    · exact absurd h hobject

end Window

section Closing

/-- A bare `true`. -/
theorem opensAsked_iff_bare : OpensAsked (.reading [0x74,0x72,0x75,0x65] (.bool true))
    (.new "zigbee2mqtt") [0x74,0x72,0x75,0x65] (.bool true) ↔ ¬ (Json.bool true).Overlooked :=
  opensAsked_iff rfl

/-- A value of false, and no time. -/
def valueFalse : Json := .object [("value",.bool false)]

def valueFalseText : Bytes :=
  [0x7b,0x22,0x76,0x61,0x6c,0x75,0x65,0x22,0x3a,0x66,0x61,0x6c,0x73,0x65,0x7d]

/-- Asked to close so, the network is opened. -/
theorem value_false_opens : ¬ ∀ (text : JsonText) (t : Topics) (payload : Bytes) (j : Json),
    text.fromSlice payload = .ok j → OpensAsked text t payload j := by
  intro h
  have hclosed := (h (.reading valueFalseText valueFalse) (.new "zigbee2mqtt") valueFalseText
    valueFalse rfl).closed ⟨_,.inr (.inr rfl),rfl⟩ _ ((parse_permitJoin rfl).mpr ⟨254,rfl,rfl⟩)
  have hzero := fromSecs_eq_zero.mp (Inbound.permitJoin.inj hclosed)
  revert hzero
  decide

end Closing
end Rszigbee
