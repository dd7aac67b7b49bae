import Rszigbee.Parameters
import Rszigbee.Traffic

/-! The manufacturer code of the frames the runtime builds. A cluster or an attribute may state
one in the registry; a frame has the one its request gives. -/
namespace Rszigbee

namespace Outgoing

/-- The attributes it names. -/
def attributes : Outgoing → List AttrId
  | attributeWrite request => request.attributes.map Prod.fst
  | readAttributes _ attributes => attributes
  | probe => [⟨0x0000⟩]
  | configureReporting _ records => records.map ReportRecord.attr
  | _ => []

/-- The manufacturer code the caller supplied. Only two kinds of request have room for one. -/
def manufacturer : Outgoing → Option ManufacturerCode
  | command request => request.manufacturer.map .mk
  | attributeWrite request => request.manufacturer.map .mk
  | _ => none

/-- The frame built for it. -/
def build (registry : ClusterRegistry) (device : Ieee) (tsn : UInt8) :
    Outgoing → Except String Bytes
  | command request => (Encode.command registry device tsn request).mapError EncodeError.toText
  | attributeWrite request =>
    (Encode.attributeWrite registry device tsn request).mapError EncodeError.toText
  | planned _ id payload => .ok (Task.plannedFrame tsn id payload)
  | readAttributes _ attributes => .ok (Task.readAttributes tsn attributes)
  | probe => .ok (Task.probeFrame tsn)
  | configureReporting _ records =>
    (Encode.configureReporting tsn records).mapError CodecError.toText
  | otaNoImage => .ok (Task.otaNoImage tsn)

/-- The registry has the code for the cluster, or for an attribute that is named. The device's own
clusters come first. -/
def States (o : Outgoing) (registry : ClusterRegistry) (device : Ieee)
    (code : ManufacturerCode) : Prop :=
  (∃ c, registry.get (some device) o.cluster = some c ∧ c.manufacturer = some code) ∨
    ∃ a ∈ o.attributes, ∃ definition, registry.attr (some device) o.cluster a = some definition ∧
      definition.manufacturer = some code

end Outgoing

/-- The code is in the frame's header. -/
def Carries (frame : Bytes) (code : ManufacturerCode) : Prop :=
  ∃ f, ZclFrame.decode frame = .ok f ∧ f.header.manufacturer = some code

theorem carries_encode {f : ZclFrame} (h : f.header.Proper) {code : ManufacturerCode} :
    Carries f.encode code ↔ f.header.manufacturer = some code := by
  rw [Carries,ZclFrame.decode_encode h]
  simp

section Built
variable {registry : ClusterRegistry} {device : Ieee} {tsn : UInt8} {frame : Bytes}

/-- A built frame is a proper one, under the code supplied. -/
def BuiltWith (frame : Bytes) (manufacturer : Option ManufacturerCode) : Prop :=
  ∃ f : ZclFrame, f.header.Proper ∧ f.header.manufacturer = manufacturer ∧ frame = f.encode

theorem builtWith_global (tsn : UInt8) (command : CommandId)
    (manufacturer : Option ManufacturerCode) (payload : Bytes) :
    BuiltWith (ZclFrame.encode ⟨{ ZclHeader.global tsn command with
      manufacturer := manufacturer },payload⟩) manufacturer :=
  ⟨_,⟨show (0 : UInt8) < 8 by decide,.inl rfl⟩,rfl,rfl⟩

theorem builtWith_specific (tsn : UInt8) (command : CommandId)
    (manufacturer : Option ManufacturerCode) (direction : Direction)
    (disableDefaultResponse : Bool) (payload : Bytes) :
    BuiltWith (ZclFrame.encode ⟨{ ZclHeader.specific tsn command with
      manufacturer := manufacturer
      direction := direction
      disableDefaultResponse := disableDefaultResponse },payload⟩) manufacturer :=
  ⟨_,⟨show (0 : UInt8) < 8 by decide,.inr (.inl rfl)⟩,rfl,rfl⟩

theorem Encode.builtWith_command {request : ZclCommand}
    (h : command registry device tsn request = .ok frame) :
    BuiltWith frame (request.manufacturer.map .mk) := by
  rcases command_cases registry device tsn request with ⟨definition,hdefinition,htyped⟩ | ⟨e,he⟩
  · obtain ⟨payload,-,rfl⟩ := map_eq_ok.mp
      ((command_eq_payload tsn hdefinition htyped request.params).symm.trans h)
    exact builtWith_specific ..
  · cases (he request.params).symm.trans h

theorem Encode.builtWith_attributeWrite {request : ZclAttributeWrite}
    (h : attributeWrite registry device tsn request = .ok frame) :
    BuiltWith frame (request.manufacturer.map .mk) := by
  rw [attributeWrite] at h
  split at h
  · cases h
  · obtain ⟨payload,-,rfl⟩ := map_eq_ok.mp h
    exact builtWith_global ..

theorem Encode.builtWith_configureReporting {records : List ReportRecord}
    (h : configureReporting tsn records = .ok frame) : BuiltWith frame none := by
  obtain ⟨payload,-,rfl⟩ := map_eq_ok.mp h
  exact builtWith_global ..

/-- Every builder puts in the header what the caller supplied, and nothing else. -/
theorem Outgoing.builtWith {o : Outgoing} (h : o.build registry device tsn = .ok frame) :
    BuiltWith frame o.manufacturer := by
  cases o with
  | command request => exact Encode.builtWith_command (mapError_eq_ok.mp h)
  | attributeWrite request => exact Encode.builtWith_attributeWrite (mapError_eq_ok.mp h)
  | configureReporting cluster records =>
    exact Encode.builtWith_configureReporting (mapError_eq_ok.mp h)
  | planned cluster id payload =>
    obtain rfl := Except.ok.inj h
    exact builtWith_specific tsn id none .clientToServer false payload
  | readAttributes cluster attributes =>
    obtain rfl := Except.ok.inj h
    exact builtWith_global tsn ⟨0x00⟩ none _
  | probe =>
    obtain rfl := Except.ok.inj h
    exact builtWith_global tsn ⟨0x00⟩ none _
  | otaNoImage =>
    obtain rfl := Except.ok.inj h
    exact builtWith_specific tsn ⟨0x02⟩ none .serverToClient true _

theorem Outgoing.carries_iff {o : Outgoing} (h : o.build registry device tsn = .ok frame)
    {code : ManufacturerCode} : Carries frame code ↔ o.manufacturer = some code := by
  obtain ⟨f,hproper,hmanufacturer,rfl⟩ := o.builtWith h
  rw [carries_encode hproper,hmanufacturer]

end Built

section Runtime

variable {E : Engine} (customClusters : E.Definition → List ClusterDef)

/-- The runtime's frames are those of the codecs it is given. -/
theorem Outgoing.frame_withCodecs (o : Outgoing) (registry : ClusterRegistry) (device : Ieee)
    (tsn : UInt8) :
    o.frame (E.withCodecs customClusters) registry device tsn = o.build registry device tsn := by
  cases o <;> rfl

/-- The ZCL frames a turn sends are each built for something on its cluster, for the device it
goes to, with the registry that the turn leaves. A frame that is built so has the codes the registry
states for it exactly when the caller supplied them. -/
theorem manufacturer_carried_iff :
    (∀ (t : Task (E.withCodecs customClusters)) (i : Input (E.withCodecs customClusters)),
      ∃ zs, (t.step i).sentZcl = t.sentZcl ++ zs ∧ ∀ s ∈ zs, ∃ device nwk,
        s.tx.dest = .unicast device nwk ∧ ∃ o : Outgoing, o.cluster = s.tx.cluster ∧
          o.build (t.step i).registry device s.sequence = .ok s.tx.frame) ∧
    ∀ {registry : ClusterRegistry} {device : Ieee} {tsn : UInt8} {frame : Bytes} {o : Outgoing},
      o.build registry device tsn = .ok frame →
        ((∀ code, o.States registry device code → Carries frame code) ↔
          ∀ code, o.States registry device code → o.manufacturer = some code) := by
  constructor
  · intro t i
    obtain ⟨zs,-,hzcl,-,-,-,-,hframed⟩ := t.sent_step i
    refine ⟨zs,hzcl,fun s hs => ?_⟩
    obtain ⟨device,nwk,hdest,o,hcluster,hframe⟩ := hframed s hs
    exact ⟨device,nwk,hdest,o,hcluster,(o.frame_withCodecs customClusters _ _ _).symm.trans hframe⟩
  · intro registry device tsn frame o h
    exact forall₂_congr fun _ _ => o.carries_iff h

end Runtime

section Unstated

/-- A cluster that states its code, with one attribute. -/
def wwah : ClusterDef :=
  { (ClusterDef.new 0xfc57 "manuSpecificAmazonWWAH").attr 4 "nwkRetryCount" (.uint 1) with
    manufacturer := some ⟨0x1217⟩ }

/-- A caller that knows the code. -/
def retries (manufacturer : Option UInt16) : ZclAttributeWrite where
  endpoint := none
  cluster := ⟨0xfc57⟩
  attributes := [(⟨4⟩,.uint 3)]
  manufacturer := manufacturer

/-- The registry of one device that has the cluster. -/
def wwahRegistry : ClusterRegistry := .insertForDevice {} ⟨1⟩ wwah

/-- The cluster states its code, and the attribute none. -/
theorem states_wwah {o : Outgoing} (h : o.cluster = ⟨0xfc57⟩) (code : ManufacturerCode) :
    o.States wwahRegistry ⟨1⟩ code ↔ code = ⟨0x1217⟩ := by
  have hget : wwahRegistry.get (some ⟨1⟩) ⟨0xfc57⟩ = some wwah := rfl
  have hattr : ∀ a definition, wwahRegistry.attr (some ⟨1⟩) ⟨0xfc57⟩ a = some definition →
      definition.manufacturer = none := by
    intro a definition hdefinition
    have hlookup : wwah.attributes.lookup a.raw = some definition := hdefinition
    have hattributes : wwah.attributes = (∅ : Table UInt16 AttrDef).insert 4
      ⟨⟨4⟩,"nwkRetryCount",.uint 1,none⟩ := rfl
    rw [hattributes,Table.lookup_insert_eq] at hlookup
    split at hlookup
    · cases hlookup
      rfl
    · cases hlookup
  rw [Outgoing.States,h,hget]
  constructor
  · rintro (⟨c,hc,hcode⟩ | ⟨a,-,definition,hdefinition,hcode⟩)
    · cases hc
      exact (Option.some.inj hcode).symm
    · rw [hattr a definition hdefinition] at hcode
      cases hcode
  · rintro rfl
    exact .inl ⟨wwah,rfl,rfl⟩

/-- A write that gives the code. -/
theorem retries_carried :
    Carries [0x04,0x17,0x12,0x07,0x02,0x04,0x00,0x20,0x03] ⟨0x1217⟩ := by
  have hbuilt : (Outgoing.attributeWrite (retries (some 0x1217))).build wwahRegistry ⟨1⟩ 7 =
      .ok [0x04,0x17,0x12,0x07,0x02,0x04,0x00,0x20,0x03] := by
    decide +kernel
  refine ((manufacturer_carried_iff noClusters).2 hbuilt).mpr (fun code hstates => ?_) ⟨0x1217⟩
    ((states_wwah rfl _).mpr rfl)
  rw [(states_wwah rfl code).mp hstates]
  rfl

/-- A read has no room for the code. -/
theorem retries_unread : ¬ ∀ (registry : ClusterRegistry) (device : Ieee) (tsn : UInt8)
    (o : Outgoing) (frame : Bytes), o.build registry device tsn = .ok frame →
      ∀ code, o.States registry device code → Carries frame code := by
  intro h
  obtain ⟨f,hdecode,hcode⟩ := h wwahRegistry ⟨1⟩ 7 (.readAttributes ⟨0xfc57⟩ [⟨4⟩]) _ rfl ⟨0x1217⟩
    ((states_wwah rfl _).mpr rfl)
  have hread : ZclFrame.decode (Task.readAttributes 7 [⟨4⟩]) =
      .ok ⟨.global 7 ⟨0x00⟩,[0x04,0x00]⟩ := ZclFrame.decode_global ..
  obtain rfl := Except.ok.inj (hdecode.symm.trans hread)
  cases hcode

end Unstated
end Rszigbee
