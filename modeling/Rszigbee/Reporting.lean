import Rszigbee.Encode
import Rszigbee.Configure

/-! The reporting configurations sent, read back as a receiver reads them. -/
namespace Rszigbee

/-- What a record of a reporting configuration says. -/
structure Reported where
  attr : UInt16
  ty : ZclType
  minInterval : UInt16
  maxInterval : UInt16
  change : Option ℕ
  deriving DecidableEq

namespace Reported

/-- A reportable change, there exactly for analog types. -/
def parseChange (ty : ZclType) (bytes : Bytes) : Option (Option ℕ × Bytes) :=
  if Encode.isAnalog ty then do
    let size ← ty.fixedSize
    if size ≤ bytes.length then
      some (some (LittleEndian.value (bytes.take size)),bytes.drop size)
    else none
  else some (none,bytes)

/-- Direction, attribute, type, shortest and longest interval, change. -/
def parseRecord : Bytes → Option (Reported × Bytes)
  | direction::a₀::a₁::tag::n₀::n₁::x₀::x₁::rest =>
    if direction = 0x00 then do
      let ty := ZclType.fromU8 tag
      let (change,rest) ← parseChange ty rest
      some (⟨Reader.ofLe16 a₀ a₁,ty,Reader.ofLe16 n₀ n₁,Reader.ofLe16 x₀ x₁,change⟩,rest)
    else none
  | _ => none

/-- Records until nothing is left; at most some number of them. -/
def parseUpTo : ℕ → Bytes → Option (List Reported)
  | _, [] => some []
  | 0, _ => none
  | n+1, bytes => do
    let (record,rest) ← parseRecord bytes
    let records ← parseUpTo n rest
    some (record::records)

/-- A record has eight bytes at least, so no more than the bytes are there. -/
def parse (bytes : Bytes) : Option (List Reported) := parseUpTo bytes.length bytes

end Reported

namespace ReportRecord

/-- The change fits the type; a discrete type has none. -/
def Representable (r : ReportRecord) : Prop :=
  match r.ty with
  | .uint n => r.minChange.toNat < 256 ^ n.toNat
  | .int n => 2 * r.minChange.toNat < 256 ^ n.toNat
  | _ => True

def said (r : ReportRecord) : Reported where
  attr := r.attr.raw
  ty := r.ty
  minInterval := r.minInterval
  maxInterval := r.maxInterval
  change := if Encode.isAnalog r.ty then some r.minChange.toNat else none

end ReportRecord

/-- Floats and times have a reportable change, and it is refused. -/
def ZclType.Refused : ZclType → Prop
  | .single | .time _ => True
  | _ => False

section Record
variable (r : ReportRecord)

/-- The bytes before a change. -/
def ReportRecord.head : Bytes :=
  [0x00] ++ le16 r.attr.raw ++ [r.ty.toU8] ++ le16 r.minInterval ++ le16 r.maxInterval

theorem parseRecord_head (rest : Bytes) :
    Reported.parseRecord (r.head ++ rest) =
      (Reported.parseChange (.fromU8 r.ty.toU8) rest).map fun p =>
        (⟨r.attr.raw,.fromU8 r.ty.toU8,r.minInterval,r.maxInterval,p.1⟩,p.2) := by
  simp only [ReportRecord.head,le16,List.cons_append,List.nil_append,Reported.parseRecord,
    if_true,Reader.ofLe16_bytes]
  cases Reported.parseChange (.fromU8 r.ty.toU8) rest <;> rfl

theorem reportRecord_refused (h : r.ty.Refused) :
    Encode.reportRecord r = .error (.outputFull 0) := by
  obtain ⟨attr,ty,minInterval,maxInterval,minChange⟩ := r
  cases ty with
  | single | time => rfl
  | _ => cases h

/-- What is written for a change is read back, if the change fits the type. -/
theorem parseChange_bytes {ty : ZclType} {n v : ℕ} (hty : Encode.isAnalog ty)
    (hsize : ty.fixedSize = some n) (hv : v < 256 ^ n) (rest : Bytes) :
    Reported.parseChange ty (LittleEndian.bytes n v ++ rest) = some (some v,rest) := by
  have hlen := LittleEndian.length_bytes n v
  have htake : (LittleEndian.bytes n v ++ rest).take n = LittleEndian.bytes n v := by
    rw [List.take_append_of_le_length (by omega),List.take_of_length_le (by omega)]
  have hdrop : (LittleEndian.bytes n v ++ rest).drop n = rest := by
    rw [List.drop_append_of_le_length (by omega),List.drop_of_length_le (by omega),
      List.nil_append]
  simp [Reported.parseChange,hty,hsize,hlen,htake,hdrop,LittleEndian.value_bytes_of_lt hv]

theorem reportRecord_eq (h : ¬r.ty.Refused) : ∃ change : Bytes,
    Encode.reportRecord r = .ok (r.head ++ change) ∧
    (r.Representable → r.ty.Canonical → ∀ rest : Bytes,
      Reported.parseChange r.ty (change ++ rest) = some (r.said.change,rest)) := by
  obtain ⟨attr,ty,minInterval,maxInterval,minChange⟩ := r
  cases ty with
  | single | time => exact absurd trivial h
  | uint n =>
    refine ⟨LittleEndian.bytes n.toNat minChange.toNat,rfl,fun hfits _ rest => ?_⟩
    exact parseChange_bytes rfl rfl hfits rest
  | int n =>
    refine ⟨_,rfl,fun hfits hcanonical rest => ?_⟩
    have hpow : 256 ^ n.toNat ≤ 256 ^ 8 := Nat.pow_le_pow_right (by decide) hcanonical.int_le
    have hfits : 2 * minChange.toNat < 256 ^ n.toNat := hfits
    have hsmall : minChange.toNat < 2 ^ 63 := by omega
    have hchange : writeUint (minChange.toInt64.toUInt64) n =
        LittleEndian.bytes n.toNat minChange.toNat := by
      rw [UInt64.toUInt64_toInt64,writeUint]
    rw [if_pos hsmall,hchange]
    exact parseChange_bytes rfl rfl (by omega) rest
  | _ => exact ⟨[],rfl,fun _ _ rest => rfl⟩

end Record

section Frame

/-- Records whose types are sent are sent one after the other. -/
theorem reportRecords_ok_iff (records : List ReportRecord) :
    (∃ payload, Encode.reportRecords records = .ok payload) ↔ ∀ r ∈ records, ¬r.ty.Refused := by
  induction records with
  | nil => simp [Encode.reportRecords]
  | cons r records ih =>
    simp only [List.forall_mem_cons,← ih]
    by_cases h : r.ty.Refused
    · simp [Encode.reportRecords,reportRecord_refused r h,h,bind,Except.bind]
    · obtain ⟨change,hr,-⟩ := reportRecord_eq r h
      cases hrest : Encode.reportRecords records with
      | error e => simp [Encode.reportRecords,hr,hrest,bind,Except.bind]
      | ok rest => simp [Encode.reportRecords,hr,hrest,h,bind,Except.bind,pure,Except.pure]

theorem reportRecords_cons {r : ReportRecord} {records : List ReportRecord} {payload : Bytes}
    (h : Encode.reportRecords (r::records) = .ok payload) :
    ¬r.ty.Refused ∧ ∃ bytes rest, Encode.reportRecord r = .ok bytes ∧
      Encode.reportRecords records = .ok rest ∧ payload = bytes ++ rest := by
  have hsent := (reportRecords_ok_iff (r::records)).mp ⟨payload,h⟩
  refine ⟨hsent r List.mem_cons_self,?_⟩
  rw [Encode.reportRecords] at h
  obtain ⟨bytes,hr,h⟩ := bind_eq_ok.mp h
  obtain ⟨rest,hrest,h⟩ := bind_eq_ok.mp h
  exact ⟨bytes,rest,hr,hrest,(Except.ok.inj h).symm⟩

theorem parseUpTo_record (r : ReportRecord) (n : ℕ) (rest : Bytes) :
    Reported.parseUpTo (n+1) (r.head ++ rest) =
      (Reported.parseChange (.fromU8 r.ty.toU8) rest).bind fun p =>
        (Reported.parseUpTo n p.2).map fun records =>
          ⟨r.attr.raw,.fromU8 r.ty.toU8,r.minInterval,r.maxInterval,p.1⟩::records := by
  have hcons : ∃ b bs, r.head ++ rest = b::bs := ⟨_,_,rfl⟩
  obtain ⟨b,bs,hb⟩ := hcons
  rw [hb,Reported.parseUpTo]
  · rw [← hb,parseRecord_head]
    cases Reported.parseChange (.fromU8 r.ty.toU8) rest with
    | none => rfl
    | some p => cases h : Reported.parseUpTo n p.2 <;> simp [h]
  · simp

/-- What is sent says what was asked, exactly when the types are those of their tags. -/
theorem parse_reportRecords {records : List ReportRecord} {payload : Bytes}
    (hsent : Encode.reportRecords records = .ok payload)
    (hfits : ∀ r ∈ records, r.Representable) {n : ℕ} (hn : payload.length ≤ n) :
    Reported.parseUpTo n payload = some (records.map ReportRecord.said) ↔
      ∀ r ∈ records, r.ty.Canonical := by
  induction records generalizing payload n with
  | nil =>
    cases hsent
    cases n <;> simp [Reported.parseUpTo]
  | cons r records ih =>
    obtain ⟨hkept,bytes,rest,hr,hrest,rfl⟩ := reportRecords_cons hsent
    obtain ⟨change,hbytes,hread⟩ := reportRecord_eq r hkept
    have heq : bytes = r.head ++ change := Except.ok.inj (hr.symm.trans hbytes)
    have hhead : r.head.length = 8 := rfl
    rw [heq,List.length_append,List.length_append,hhead] at hn
    obtain ⟨m,rfl⟩ : ∃ m, n = m + 1 := ⟨n - 1,by omega⟩
    have ih := @ih rest hrest (fun r' h => hfits r' (List.mem_cons_of_mem _ h)) m (by omega)
    rw [heq,List.append_assoc,parseUpTo_record,List.map_cons,List.forall_mem_cons,← ih]
    by_cases hty : r.ty.Canonical
    · have hty' : ZclType.fromU8 r.ty.toU8 = r.ty := hty
      rw [hty',hread (hfits r List.mem_cons_self) hty]
      have hsaid : r.said = ⟨r.attr.raw,r.ty,r.minInterval,r.maxInterval,r.said.change⟩ := rfl
      rw [hsaid]
      simp [hty]
    · have hne : ZclType.fromU8 r.ty.toU8 ≠ r.said.ty := hty
      simp only [hty,false_and,iff_false]
      intro h
      obtain ⟨p,-,hp⟩ := Option.bind_eq_some_iff.mp h
      obtain ⟨rs,-,hrs⟩ := Option.map_eq_some_iff.mp hp
      exact hne (congrArg Reported.ty (List.cons.inj hrs).1)

theorem configureReporting_ok_iff (tsn : UInt8) (records : List ReportRecord) :
    (∃ bytes, Encode.configureReporting tsn records = .ok bytes) ↔
      ∀ r ∈ records, ¬r.ty.Refused := by
  rw [← reportRecords_ok_iff,Encode.configureReporting]
  cases Encode.reportRecords records <;> simp [Except.map]

/-- Of the types a plan states, only the carbon dioxide sensor's is refused. -/
theorem refused_of_planned {d : Definition} {info : DeviceInfo} {step : ConfigureStep}
    (h : step ∈ configurePlan d info) {ty : ZclType} (hty : step.attrType = some ty)
    (hrefused : ty.Refused) : step.cluster = ⟨0x040d⟩ ∧ step.attr = some ⟨0x0000⟩ := by
  obtain ⟨s,hs,rfl,hcluster,hattr⟩ := configurePlan_typed h hty
  have htyped := typed_of_mem_sources hs
  have hsingle : s.ty = .single := by
    rw [Source.Typed] at htyped
    cases hvalue : s.value <;> rw [hvalue] at htyped
    · rcases htyped with hs | hs | hs | rfl
      · simp [hs,ZclType.Refused] at hrefused
      · simp [hs,ZclType.Refused] at hrefused
      · simp [hs,ZclType.Refused] at hrefused
      · rfl
    · rcases htyped with hs | hs | hs <;> simp [hs,ZclType.Refused] at hrefused
    · simp [show s.ty = .enum8 from htyped,ZclType.Refused] at hrefused
  have hco2 := htyped.eq_co2 hsingle
  rw [hco2] at hcluster hattr
  exact ⟨hcluster.symm,hattr⟩

/-- The receiver reads the frame as the records that were asked for. -/
def SaysAsAsked (tsn : UInt8) (records : List ReportRecord) : Prop :=
  ∃ bytes frame, Encode.configureReporting tsn records = .ok bytes ∧
    ZclFrame.decode bytes = .ok frame ∧ frame.header = .global tsn ⟨0x06⟩ ∧
    Reported.parse frame.payload = some (records.map ReportRecord.said)

/-- A frame is sent for a step of a plan whose type is the plan's or the registry's. -/
def StepSent (tsn : UInt8) (step : ConfigureStep) (attr : AttrId) (ty : ZclType) : Prop :=
  ∃ bytes, Encode.configureReporting tsn
    [⟨attr,ty,step.minInterval,step.maxInterval,step.minChange⟩] = .ok bytes

end Frame
end Rszigbee
