import Rszigbee.Handlers
import Rszigbee.Reporting
import Rszigbee.Agreement

/-! The runtime over definitions that are data: what a definition's tables come to once a
device's frames and plans go through them. -/
namespace Rszigbee

namespace Definition

/-- Nothing in it was left untranslated. -/
def isComplete (d : Definition) : Bool := !d.extend.any fun
  | .unsupported _ _ => true
  | _ => false

def forcePowerSource (d : Definition) : Option PowerSourceHint :=
  d.extend.findSome? fun
    | .forcePowerSource source => some source
    | _ => none

end Definition

/-- The Tuya side of a definition, as the runtime calls it. -/
structure TuyaSide where
  Datapoint : Type
  decode : Bytes → Option (UInt16 × List Datapoint)
  encode : UInt16 → List Datapoint → Bytes
  toState : Definition → List Datapoint → DeviceInfo → StateChanges
  ofCommand : Definition → CapabilityCommand → Option Datapoint
  viaBehavior : Definition → CapabilityCommand → DeviceInfo → Option (List Datapoint)

/-- The engine of these definitions, with the codecs of a cluster registry. -/
def Engine.ofDefinitions (resolve : DeviceInfo → Option Rszigbee.Definition) (debug : DebugText)
    (tuya : TuyaSide) : Engine :=
  Engine.withCodecs {
    Registry := Unit
    ClusterDef := Unit
    Definition := Rszigbee.Definition
    Command := CapabilityCommand
    Datapoint := tuya.Datapoint
    Value := StateValue
    Changes := StateChanges
    zclMessage := fun _ _ rx => .error (.unknownCluster rx.cluster)
    attrType := fun _ _ _ _ => none
    insertForDevice := fun registry _ _ => registry
    resolve := resolve
    model := Rszigbee.Definition.model
    isComplete := Rszigbee.Definition.isComplete
    customClusters := fun _ => []
    forcePowerSource := Rszigbee.Definition.forcePowerSource
    configurePlan := Rszigbee.configurePlan
    reportToState := Rszigbee.reportToState
    noChanges := .new
    setChange := StateChanges.set
    isEmpty := fun changes => changes.entries.isEmpty
    commandToAction := Rszigbee.commandToAction
    tuyaDecode := tuya.decode
    tuyaEncode := tuya.encode
    datapointsToState := tuya.toState
    commandToDatapoint := tuya.ofCommand
    commandViaBehavior := tuya.viaBehavior
    planCommand := Rszigbee.planCommand debug
    encodeCommand := fun _ _ _ _ => .error ""
    attributeWrite := fun _ _ _ _ => .error ""
    configureReporting := fun _ _ => .error "" } Rszigbee.customClusters

section Fields
variable {resolve : DeviceInfo → Option Rszigbee.Definition} {debug : DebugText} {tuya : TuyaSide}

@[simp] theorem Engine.ofDefinitions_planCommand :
    (ofDefinitions resolve debug tuya).planCommand = Rszigbee.planCommand debug := rfl

@[simp] theorem Engine.ofDefinitions_commandToDatapoint :
    (ofDefinitions resolve debug tuya).commandToDatapoint = tuya.ofCommand := rfl

@[simp] theorem Engine.ofDefinitions_commandViaBehavior :
    (ofDefinitions resolve debug tuya).commandViaBehavior = tuya.viaBehavior := rfl

end Fields

namespace Task

section Plans
variable {E : Engine} {customClusters : E.Definition → List ClusterDef}

/-- A step whose type is refused uses up a sequence number and counts as failed; nothing is
sent. -/
theorem reportStep_refused (t : Task (E.withCodecs customClusters)) (ieee : Ieee) (nwk : Nwk)
    {step : ConfigureStep} (p : PlanProgress) (env : Env) {attr : AttrId} {ty : ZclType}
    (hattr : step.attr = some attr)
    (hty : (step.attrType <|> (t.registry.attr (some ieee) step.cluster attr).map AttrDef.ty) =
      some ty) (hrefused : ty.Refused) :
    t.reportStep ieee nwk step p env = ({ t with zclSequence := t.zclSequence + 1 },
      { p with outcome := { p.outcome with failed := p.outcome.failed + 1 } }) := by
  have hnone : ∀ tsn, ∃ e, (E.withCodecs customClusters).configureReporting tsn
      [⟨attr,ty,step.minInterval,step.maxInterval,step.minChange⟩] = .error e := by
    intro tsn
    have hrecord := reportRecord_refused
      ⟨attr,ty,step.minInterval,step.maxInterval,step.minChange⟩ hrefused
    exact ⟨_,by
      show (Encode.configureReporting tsn _).mapError _ = _
      simp [Encode.configureReporting,Encode.reportRecords,hrecord,Except.map,Except.mapError]
      rfl⟩
  obtain ⟨e,he⟩ := hnone (t.zclSequence + 1)
  have htype : (step.attrType <|>
      (E.withCodecs customClusters).attrType t.registry ieee step.cluster attr) = some ty := hty
  rw [reportStep,hattr]
  dsimp only
  rw [htype]
  dsimp only
  rw [configureReporting]
  dsimp only
  rw [he]

end Plans

section Requests
variable {resolve : DeviceInfo → Option Rszigbee.Definition} {debug : DebugText} {tuya : TuyaSide}

/-- What a command comes to: a datapoint, else what a behaviour makes of it, else what the
definition plans. -/
theorem planCapabilityCommand_eq (t : Task (Engine.ofDefinitions resolve debug tuya)) {ieee : Ieee}
    {e : Entry} {d : Rszigbee.Definition} (he : t.devices.get ieee = some e)
    (hd : t.resolve ieee = some d) (command : CapabilityCommand) (tsn : UInt8) :
    (t.planCapabilityCommand ieee command tsn).2 =
      match tuya.ofCommand d command with
      | some point => .ok (some ⟨1⟩,tuyaCluster,
          plannedFrame tsn ⟨0x00⟩ (tuya.encode (t.tuyaSequence + 1) [point]))
      | none =>
        match tuya.viaBehavior d command e.info with
        | some [] => .error (.invalidValue ⟨"behavior"⟩
            "the device behaviour refused this command")
        | some points => .ok (some ⟨1⟩,tuyaCluster,
            plannedFrame tsn ⟨0x00⟩ (tuya.encode (t.tuyaSequence + 1) points))
        | none => (planCommand debug d e.info command).map fun planned =>
            (some planned.endpoint,planned.cluster,
              plannedFrame tsn planned.command planned.payload) := by
  unfold planCapabilityCommand
  rw [he,hd]
  dsimp only
  rw [Engine.ofDefinitions_commandToDatapoint]
  cases tuya.ofCommand d command with
  | some point => rfl
  | none =>
    dsimp only
    rw [Engine.ofDefinitions_commandViaBehavior]
    cases tuya.viaBehavior d command e.info with
    | some points => cases points <;> rfl
    | none =>
      dsimp only
      rw [Engine.ofDefinitions_planCommand]
      cases planCommand debug d e.info command <;> rfl

end Requests
end Task

section Frame

/-- What is sent says what was asked exactly when every type is one of a tag and none is refused.
So it is with the steps of a plan; of the types plans state themselves, only the carbon dioxide
sensor's is refused. A step whose type is refused uses up a sequence number and counts as failed. -/
theorem says_as_asked_iff {E : Engine} (customClusters : E.Definition → List ClusterDef)
    (tsn : UInt8) (records : List ReportRecord) (hfits : ∀ r ∈ records, r.Representable) :
    (SaysAsAsked tsn records ↔ ∀ r ∈ records, r.ty.Canonical ∧ ¬r.ty.Refused) ∧
    (∀ d info, ∀ step ∈ configurePlan d info, ∀ (registry : ClusterRegistry) ieee attr ty,
      step.attr = some attr →
      (step.attrType <|> (registry.attr (some ieee) step.cluster attr).map AttrDef.ty) =
        some ty →
      (StepSent tsn step attr ty ↔ ¬ty.Refused)) ∧
    (∀ d info, ∀ step ∈ configurePlan d info, ∀ ty, step.attrType = some ty → ty.Refused →
      step.cluster = ⟨0x040d⟩ ∧ step.attr = some ⟨0x0000⟩) ∧
    ∀ (t : Task (E.withCodecs customClusters)) ieee nwk step p env attr ty,
      step.attr = some attr →
      (step.attrType <|> (t.registry.attr (some ieee) step.cluster attr).map AttrDef.ty) =
        some ty →
      ty.Refused → t.reportStep ieee nwk step p env = ({ t with zclSequence := t.zclSequence + 1 },
        { p with outcome := { p.outcome with failed := p.outcome.failed + 1 } }) := by
  refine ⟨?_,?_,fun d info step h ty => refused_of_planned h,
    fun t ieee nwk step p env attr ty => t.reportStep_refused ieee nwk p env⟩
  · rw [forall₂_and,← configureReporting_ok_iff tsn]
    cases hsent : Encode.reportRecords records with
    | error e => simp [SaysAsAsked,Encode.configureReporting,hsent,Except.map]
    | ok payload =>
      have hbytes : Encode.configureReporting tsn records =
          .ok (ZclFrame.encode ⟨.global tsn ⟨0x06⟩,payload⟩) := by
        rw [Encode.configureReporting,hsent]
        rfl
      have hparse := parse_reportRecords hsent hfits le_rfl
      rw [← hparse,hbytes]
      constructor
      · rintro ⟨bytes,frame,hok,hframe,-,hsaid⟩
        cases hbytes.symm.trans hok
        cases (ZclFrame.decode_global _ _ _).symm.trans hframe
        exact ⟨hsaid,_,rfl⟩
      · rintro ⟨hsaid,-⟩
        exact ⟨_,_,hbytes,ZclFrame.decode_global _ _ _,rfl,hsaid⟩
  · intro d info step _ registry ieee attr ty _ _
    rw [StepSent,configureReporting_ok_iff]
    simp

theorem humidity_says_as_asked : SaysAsAsked 0x01 [⟨⟨0x0000⟩,.uint 2,10,3600,500⟩] :=
  (says_as_asked_iff noClusters 0x01 [⟨⟨0x0000⟩,.uint 2,10,3600,500⟩]
    (by simp [ReportRecord.Representable])).1.mpr (by
      simp [ZclType.Canonical,ZclType.Refused]
      decide)

/-- A carbon dioxide sensor is never asked for reports. -/
theorem co2_not_configured :
    let step : ConfigureStep := ⟨⟨1⟩,⟨0x040d⟩,some ⟨0x0000⟩,some .single,10,3600,0⟩
    let r : ReportRecord := ⟨⟨0x0000⟩,.single,10,3600,0⟩
    configurePlan { extend := [.co2 {}] } (.new ⟨1⟩ ⟨0x1234⟩ .endDevice) = [step] ∧
      r.Representable ∧ ¬SaysAsAsked 0x01 [r] ∧ ¬StepSent 0x01 step ⟨0x0000⟩ .single := by
  refine ⟨by decide,trivial,?_,?_⟩
  · rintro ⟨bytes,-,hbytes,-⟩
    cases hbytes
  · rintro ⟨bytes,hbytes⟩
    cases hbytes

end Frame
end Rszigbee
