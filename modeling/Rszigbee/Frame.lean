import Rszigbee.Codec

/-! The ZCL frame header and frame envelope.
Frame control: bits 0..2 frame type, 2 manufacturer specific, 3 direction,
4 disable default response, 5..8 reserved. -/
namespace Rszigbee

/-- Reserved frame types stay representable. -/
inductive FrameType
  | global | specific
  | reserved (bits : UInt8)
  deriving DecidableEq

namespace FrameType

def fromBits (b : UInt8) : FrameType :=
  if b &&& 3 = 0 then .global else if b &&& 3 = 1 then .specific else .reserved (b &&& 3)

def toBits : FrameType → UInt8
  | global => 0
  | specific => 1
  | reserved o => o &&& 3

end FrameType

inductive Direction
  | clientToServer | serverToClient
  deriving DecidableEq

structure ZclHeader where
  frameType : FrameType
  manufacturer : Option ManufacturerCode
  direction : Direction
  disableDefaultResponse : Bool
  reserved : UInt8
  tsn : UInt8
  command : CommandId
  deriving DecidableEq

namespace ZclHeader

/-- A client-to-server foundation command header. -/
def global (tsn : UInt8) (command : CommandId) : ZclHeader where
  frameType := .global
  manufacturer := none
  direction := .clientToServer
  disableDefaultResponse := false
  reserved := 0
  tsn := tsn
  command := command

/-- A client-to-server cluster-specific command header. -/
def specific (tsn : UInt8) (command : CommandId) : ZclHeader :=
  { global tsn command with frameType := .specific }

def decode : Read ZclHeader := do
  let fc ← Reader.u8
  let manufacturer ← if fc &&& 0x04 ≠ 0 then (do
      let code ← Reader.u16Le
      pure (some ⟨code⟩))
    else pure none
  let tsn ← Reader.u8
  let command ← Reader.u8
  pure {
    frameType := .fromBits fc
    manufacturer := manufacturer
    direction := if fc &&& 0x08 = 0 then .clientToServer else .serverToClient
    disableDefaultResponse := decide (fc &&& 0x10 ≠ 0)
    reserved := (fc >>> 5) &&& 7
    tsn := tsn
    command := ⟨command⟩ }

def bit (mask : UInt8) (b : Bool) : UInt8 := if b then mask else 0

/-- The frame control byte. -/
def control (h : ZclHeader) : UInt8 :=
  h.frameType.toBits ||| bit 0x04 h.manufacturer.isSome |||
    bit 0x08 (h.direction = .serverToClient) ||| bit 0x10 h.disableDefaultResponse |||
    ((h.reserved &&& 7) <<< 5)

def encode (h : ZclHeader) : Bytes :=
  [h.control] ++ (match h.manufacturer with
    | some code => le16 code.raw
    | none => []) ++ [h.tsn,h.command.raw]

end ZclHeader

/-- A header and an undecoded payload. -/
structure ZclFrame where
  header : ZclHeader
  payload : Bytes
  deriving DecidableEq

namespace ZclFrame

def decode (bytes : Bytes) : Except CodecError ZclFrame :=
  match ZclHeader.decode (Reader.new bytes) with
  | .ok (header,r) => .ok ⟨header,r.rest⟩
  | .error e => .error e

def encode (f : ZclFrame) : Bytes := f.header.encode ++ f.payload

theorem decode_global (tsn : UInt8) (command : CommandId) (payload : Bytes) :
    decode (encode ⟨.global tsn command,payload⟩) =
      .ok ⟨.global tsn command,payload⟩ := by
  have hcontrol : (ZclHeader.global tsn command).control = 0x00 := by
    simp [ZclHeader.control,ZclHeader.global,FrameType.toBits,ZclHeader.bit]
  have hencode : encode ⟨.global tsn command,payload⟩ =
      0x00::tsn::command.raw::payload := by
    rw [encode,ZclHeader.encode,hcontrol]
    rfl
  have hflag : ¬((0x00 : UInt8) &&& 0x04 ≠ 0) := by decide
  have hheader : ZclHeader.decode (.new (0x00::tsn::command.raw::payload)) =
      .ok (.global tsn command,⟨payload,3⟩) := by
    rw [ZclHeader.decode,Read.bind_ok_iff]
    refine ⟨0x00,⟨tsn::command.raw::payload,1⟩,rfl,?_⟩
    rw [if_neg hflag]
    rfl
  rw [hencode,decode,hheader]

end ZclFrame

theorem FrameType.toBits_fromBits (b : UInt8) : (fromBits b).toBits = b &&& 3 := by
  apply forall_byte (P := fun b => (fromBits b).toBits = b &&& 3)
  decide +kernel

namespace ZclHeader

/-- Size on the wire. -/
def encodedLen (h : ZclHeader) : ℕ := if h.manufacturer.isSome then 5 else 3

/-- The reserved bits fit, and a reserved frame type is one of the two there are. -/
def Proper (h : ZclHeader) : Prop :=
  h.reserved < 8 ∧ (h.frameType = .global ∨ h.frameType = .specific ∨
    h.frameType = .reserved 2 ∨ h.frameType = .reserved 3)

instance (h : ZclHeader) : Decidable h.Proper := by
  unfold Proper
  infer_instance

/-- What a frame control byte says of a header. -/
structure Says (fc : UInt8) (h : ZclHeader) : Prop where
  frameType : .fromBits fc = h.frameType
  manufacturer : fc &&& 0x04 ≠ 0 ↔ h.manufacturer.isSome = true
  direction : (if fc &&& 0x08 = 0 then .clientToServer else .serverToClient) = h.direction
  disableDefaultResponse : decide (fc &&& 0x10 ≠ 0) = h.disableDefaultResponse
  reserved : (fc >>> 5) &&& 7 = h.reserved

/-- Frame control from its parts. -/
def pack (type : UInt8) (manufacturer response disable : Bool) (reserved : UInt8) : UInt8 :=
  type ||| bit 0x04 manufacturer ||| bit 0x08 response ||| bit 0x10 disable |||
    ((reserved &&& 7) <<< 5)

theorem pack_parts (fc : UInt8) :
    pack (fc &&& 3) (fc &&& 0x04 ≠ 0) (fc &&& 0x08 ≠ 0) (fc &&& 0x10 ≠ 0) ((fc >>> 5) &&& 7) =
      fc := by
  apply forall_byte (P := fun fc => pack (fc &&& 3) (fc &&& 0x04 ≠ 0) (fc &&& 0x08 ≠ 0)
    (fc &&& 0x10 ≠ 0) ((fc >>> 5) &&& 7) = fc)
  decide +kernel

/-- The parts are read back, for each type and all reserved bits. -/
theorem parts_pack : ∀ (type : Fin 4) (manufacturer response disable : Bool) (reserved : Fin 8),
    let fc := pack (.ofNat type) manufacturer response disable (.ofNat reserved)
    fc &&& 3 = .ofNat type ∧ (fc &&& 0x04 ≠ 0 ↔ manufacturer = true) ∧
      (fc &&& 0x08 = 0 ↔ response = false) ∧ decide (fc &&& 0x10 ≠ 0) = disable ∧
      (fc >>> 5) &&& 7 = .ofNat reserved := by
  decide +kernel

/-- A byte that says a header is that header's frame control. -/
theorem Says.control_eq {fc : UInt8} {h : ZclHeader} (hfields : Says fc h) : h.control = fc := by
  have htype : h.frameType.toBits = fc &&& 3 := by
    rw [← hfields.frameType,FrameType.toBits_fromBits]
  have hmanufacturer : h.manufacturer.isSome = decide (fc &&& 0x04 ≠ 0) := by
    rw [Bool.eq_iff_iff,decide_eq_true_iff]
    exact hfields.manufacturer.symm
  have hdirection : decide (h.direction = .serverToClient) = decide (fc &&& 0x08 ≠ 0) := by
    rw [← hfields.direction]
    by_cases hbit : fc &&& 0x08 = 0
    · simp [hbit]
    · simp [hbit]
  rw [control,htype,hmanufacturer,hdirection,← hfields.disableDefaultResponse,← hfields.reserved]
  exact pack_parts fc

/-- A proper header's frame control says it. -/
theorem Proper.says {h : ZclHeader} (hproper : h.Proper) : Says h.control h := by
  obtain ⟨hreserved,htype⟩ := hproper
  have hlt : h.reserved.toNat < 8 := hreserved
  obtain ⟨type,hbits,hfrom⟩ : ∃ type : Fin 4, h.frameType.toBits = .ofNat type ∧
      ∀ b : UInt8, b &&& 3 = .ofNat type → FrameType.fromBits b = h.frameType := by
    rcases htype with htype | htype | htype | htype <;> rw [htype]
    · exact ⟨0,rfl,fun b hb => by simp [FrameType.fromBits,hb]⟩
    · exact ⟨1,rfl,fun b hb => by simp [FrameType.fromBits,hb]⟩
    · exact ⟨2,rfl,fun b hb => by simp [FrameType.fromBits,hb]⟩
    · exact ⟨3,rfl,fun b hb => by simp [FrameType.fromBits,hb]⟩
  have hparts := parts_pack type h.manufacturer.isSome (h.direction = .serverToClient)
    h.disableDefaultResponse ⟨h.reserved.toNat,hlt⟩
  rw [UInt8.ofNat_toNat,← hbits] at hparts
  obtain ⟨hlow,hmanufacturer,hdirection,hdisable,hhigh⟩ := hparts
  refine ⟨hfrom _ (hlow.trans hbits),hmanufacturer,?_,hdisable,hhigh⟩
  show (if h.control &&& 0x08 = 0 then _ else _) = _
  have hiff : h.control &&& 0x08 = 0 ↔ ¬h.direction = .serverToClient := by
    rw [← decide_eq_false_iff_not]
    exact hdirection
  cases hdir : h.direction with
  | clientToServer => simp [hiff,hdir]
  | serverToClient => simp [hiff,hdir]

/-- The header's bytes, whatever follows them, are read as the header. -/
theorem decode_encode {h : ZclHeader} (hproper : h.Proper) (payload : Bytes) (pos : ℕ) :
    decode ⟨h.encode ++ payload,pos⟩ = .ok (h,⟨payload,pos + h.encodedLen⟩) := by
  have hfields := hproper.says
  cases hcode : h.manufacturer with
  | none =>
    have hflag : ¬h.control &&& 0x04 ≠ 0 := by
      rw [hfields.manufacturer,hcode]
      decide
    rw [decode,Read.bind_ok_iff]
    refine ⟨h.control,⟨[h.tsn,h.command.raw] ++ payload,pos + 1⟩,?_,?_⟩
    · rw [encode,hcode]
      rfl
    · rw [if_neg hflag,encodedLen,hcode]
      show Except.ok (_,_) = _
      rw [hfields.frameType,hfields.direction,hfields.disableDefaultResponse,hfields.reserved]
      cases h
      cases hcode
      rfl
  | some code =>
    have hflag : h.control &&& 0x04 ≠ 0 := by
      rw [hfields.manufacturer,hcode]
      rfl
    rw [decode,Read.bind_ok_iff]
    refine ⟨h.control,⟨le16 code.raw ++ [h.tsn,h.command.raw] ++ payload,pos + 1⟩,?_,?_⟩
    · rw [encode,hcode]
      rfl
    · rw [if_pos hflag,encodedLen,hcode]
      show Except.ok (_,_) = _
      rw [hfields.frameType,hfields.direction,hfields.disableDefaultResponse,hfields.reserved,
        Reader.ofLe16_bytes]
      cases h
      cases hcode
      rfl

/-- A decoded header's bytes are the ones it was read from. -/
theorem encode_decode {h : ZclHeader} {r r' : Reader} (hdecode : decode r = .ok (h,r')) :
    h.encode ++ r'.rest = r.rest := by
  rw [decode,Read.bind_ok_iff] at hdecode
  obtain ⟨fc,r₁,hfc,hdecode⟩ := hdecode
  rw [Read.u8_ok_iff] at hfc
  -- the optional code is the only part that moves what follows it
  obtain ⟨manufacturer,r₂,hflag,hcode,hdecode⟩ : ∃ manufacturer r₂,
      (fc &&& 0x04 ≠ 0 ↔ manufacturer.isSome = true) ∧
      r₁.rest = (match manufacturer with
        | some code => le16 code.raw
        | none => []) ++ r₂.rest ∧
      (do
        let tsn ← Reader.u8
        let command ← Reader.u8
        pure (⟨.fromBits fc,manufacturer,
          if fc &&& 0x08 = 0 then .clientToServer else .serverToClient,decide (fc &&& 0x10 ≠ 0),
          (fc >>> 5) &&& 7,tsn,⟨command⟩⟩ : ZclHeader) : Read ZclHeader) r₂ = .ok (h,r') := by
    by_cases hbit : fc &&& 0x04 ≠ 0
    · rw [if_pos hbit,Read.bind_ok_iff] at hdecode
      obtain ⟨manufacturer,r₂,hread,hdecode⟩ := hdecode
      rw [Read.bind_ok_iff] at hread
      obtain ⟨code,r₅,hread,hpure⟩ := hread
      rw [Read.u16Le_ok_iff] at hread
      rw [Read.pure_ok_iff] at hpure
      obtain ⟨rfl,rfl⟩ := Prod.mk.inj hpure
      exact ⟨some ⟨code⟩,r₂,by simp [hbit],hread.1,hdecode⟩
    · rw [if_neg hbit,Read.bind_ok_iff] at hdecode
      obtain ⟨manufacturer,r₂,hpure,hdecode⟩ := hdecode
      rw [Read.pure_ok_iff] at hpure
      obtain ⟨rfl,rfl⟩ := Prod.mk.inj hpure
      exact ⟨none,r₂,by simp [hbit],rfl,hdecode⟩
  rw [Read.bind_ok_iff] at hdecode
  obtain ⟨tsn,r₃,htsn,hdecode⟩ := hdecode
  rw [Read.u8_ok_iff] at htsn
  rw [Read.bind_ok_iff] at hdecode
  obtain ⟨command,r₄,hcommand,hdecode⟩ := hdecode
  rw [Read.u8_ok_iff] at hcommand
  rw [Read.pure_ok_iff] at hdecode
  obtain ⟨rfl,rfl⟩ := Prod.mk.inj hdecode
  have hfields : Says fc ⟨.fromBits fc,manufacturer,
      if fc &&& 0x08 = 0 then .clientToServer else .serverToClient,decide (fc &&& 0x10 ≠ 0),
      (fc >>> 5) &&& 7,tsn,⟨command⟩⟩ := ⟨rfl,hflag,rfl,rfl,rfl⟩
  rw [encode,hfields.control_eq,hfc.1,hcode,htsn.1,hcommand.1]
  cases manufacturer with
  | none => rfl
  | some code => rfl
end ZclHeader

namespace ZclFrame

theorem encode_decode {bytes : Bytes} {f : ZclFrame} (hdecode : decode bytes = .ok f) :
    f.encode = bytes := by
  rw [decode] at hdecode
  cases hheader : ZclHeader.decode (Reader.new bytes) with
  | error e =>
    rw [hheader] at hdecode
    cases hdecode
  | ok read =>
    rw [hheader] at hdecode
    cases hdecode
    exact ZclHeader.encode_decode hheader

theorem decode_encode {f : ZclFrame} (hproper : f.header.Proper) : decode f.encode = .ok f := by
  have hheader := ZclHeader.decode_encode hproper f.payload 0
  rw [decode,encode,Reader.new,hheader]

/-- What is accepted is emitted again as it was, and a proper frame is read back. -/
theorem decode_encode_bijective :
    (∀ (bytes : Bytes) (f : ZclFrame), decode bytes = .ok f → f.encode = bytes) ∧
      ∀ f : ZclFrame, f.header.Proper → decode f.encode = .ok f := by
  constructor
  · intro bytes f hdecode
    exact encode_decode hdecode
  · intro f hproper
    exact decode_encode hproper

end ZclFrame

end Rszigbee
