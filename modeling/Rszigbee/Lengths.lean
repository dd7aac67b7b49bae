import Rszigbee.Datapoints

/-! Tuya payloads as a receiver walks them, from one length to the next. -/
namespace Rszigbee
namespace Tuya

/-- What a receiver sees: a number, a type, and as many bytes as the length between them and it
says, until nothing is left. -/
inductive Walks : Bytes → List (UInt8 × UInt8 × Bytes) → Prop
  | done : Walks [] []
  | step {dp ty : UInt8} {length : UInt16} {data rest : Bytes} {seen : List (UInt8 × UInt8 × Bytes)}
      (hlength : data.length = length.toNat) (hrest : Walks rest seen) :
      Walks (dp::ty::(be16 length ++ (data ++ rest))) ((dp,ty,data)::seen)

/-- A datapoint as it should be seen. -/
def Datapoint.seen (p : Datapoint) : UInt8 × UInt8 × Bytes :=
  (p.dp,(writeValue p.value).1.toU8,(writeValue p.value).2)

/-- Behind the sequence number, a receiver sees the datapoints. -/
def Consistent (payload : Bytes) (points : List Datapoint) : Prop :=
  Walks (payload.drop 2) (points.map Datapoint.seen)

theorem walks_nil {payload : Bytes} : Walks payload [] ↔ payload = [] := by
  constructor
  · intro h
    cases h
    rfl
  · rintro rfl
    exact .done

theorem walks_cons {payload data : Bytes} {dp ty : UInt8} {seen : List (UInt8 × UInt8 × Bytes)} :
    Walks payload ((dp,ty,data)::seen) ↔
      ∃ length rest, payload = dp::ty::(be16 length ++ (data ++ rest)) ∧
        data.length = length.toNat ∧ Walks rest seen := by
  constructor
  · intro h
    cases h with
    | step hlength hrest => exact ⟨_,_,rfl,hlength,hrest⟩
  · rintro ⟨length,rest,rfl,hlength,hrest⟩
    exact .step hlength hrest

theorem be16_append_inj {v w : UInt16} {bs cs : Bytes} :
    be16 v ++ bs = be16 w ++ cs ↔ v = w ∧ bs = cs := by
  constructor
  · intro h
    have hread := u16Be_be16 v bs 0
    rw [h,u16Be_be16] at hread
    obtain ⟨hvalue,hrest⟩ := Prod.mk.inj (Except.ok.inj hread)
    exact ⟨hvalue.symm,(Reader.mk.inj hrest).1.symm⟩
  · rintro ⟨rfl,rfl⟩
    rfl

/-- A length that was cut off is not the one that follows. -/
theorem walks_records (ps : List Datapoint) :
    Walks (ps.flatMap record) (ps.map Datapoint.seen) ↔ ∀ p ∈ ps, p.value.Fits := by
  induction ps with
  | nil => simp [walks_nil]
  | cons p ps ih =>
    have hrecord : (p::ps).flatMap record = p.dp::(writeValue p.value).1.toU8::
        (be16 (.ofNat (min (writeValue p.value).2.length 65535)) ++
          ((writeValue p.value).2 ++ ps.flatMap record)) := by
      simp [record]
    rw [List.map_cons,Datapoint.seen,walks_cons,hrecord,List.forall_mem_cons,← ih,Value.Fits]
    generalize (writeValue p.value).2 = data
    constructor
    · rintro ⟨length,rest,hpayload,hlength,hrest⟩
      simp only [List.cons.injEq,true_and] at hpayload
      obtain ⟨rfl,htail⟩ := be16_append_inj.mp hpayload
      rw [UInt16.toNat_ofNat_of_lt' (Nat.lt_succ_of_le (min_le_right _ _))] at hlength
      rw [List.append_cancel_left htail]
      exact ⟨hlength ▸ min_le_right _ _,hrest⟩
    · rintro ⟨hfits,hrest⟩
      refine ⟨_,_,rfl,?_,hrest⟩
      rw [min_eq_left hfits,UInt16.toNat_ofNat_of_lt' (Nat.lt_succ_of_le hfits)]

/-- A payload is as it should be exactly when every value fits its length. -/
theorem consistent_encode (seq : UInt16) (points : List Datapoint) :
    Consistent (encode seq points) points ↔ ∀ p ∈ points, p.value.Fits :=
  walks_records points

/-- Of the values a table's entry makes, only a text can be too long. -/
theorem fits_encodeIntent {entry : TuyaDatapoint} {intent : Intent} {v : Value}
    (h : encodeIntent entry intent = some v) :
    v.Fits ↔ ∀ name, intent = .named name → entry.kind = .string →
      name.toUTF8.toList.length ≤ 65535 := by
  unfold encodeIntent at h
  split at h
  · rename_i hkind
    obtain rfl := Option.some.inj h
    exact iff_of_true (by simp [Value.Fits,writeValue]) (by simp [hkind])
  · rename_i hkind
    obtain ⟨n,-,rfl⟩ := Option.map_eq_some_iff.mp h
    exact iff_of_true (by simp [Value.Fits,writeValue]) (by simp [hkind])
  · rename_i hkind
    obtain ⟨n,-,rfl⟩ := Option.map_eq_some_iff.mp h
    exact iff_of_true (by simp [Value.Fits,writeValue]) (by simp [hkind])
  · rename_i hkind
    obtain ⟨n,-,rfl⟩ := Option.map_eq_some_iff.mp h
    exact iff_of_true (by simp [Value.Fits,writeValue]) (by simp [hkind])
  · rename_i name hkind
    obtain rfl := Option.some.inj h
    simp [Value.Fits,writeValue,hkind]
  · cases h

/-- A datapoint of the table fits unless it is a preset's name that does not. -/
theorem fits_commandToDatapoint {definition : Definition} {command : CapabilityCommand}
    {point : Datapoint} (h : commandToDatapoint definition command = some point) :
    point.value.Fits ↔ ∀ name entry, command = .setPreset name →
      definition.tuyaDatapoints.find? (fun d => d.name = "preset") = some entry →
      entry.kind = .string → name.toUTF8.toList.length ≤ 65535 := by
  obtain ⟨⟨capability,intent⟩,hintent,-⟩ := Option.bind_eq_some_iff.mp h
  obtain ⟨entry,hentry,value,hvalue,rfl⟩ := commandToDatapoint_ok hintent h
  rw [fits_encodeIntent hvalue]
  cases command with
  | setPreset name =>
    obtain ⟨rfl,rfl⟩ := Prod.mk.inj (Option.some.inj hintent)
    constructor
    · rintro hshort _ other ⟨rfl⟩ hother
      obtain rfl := Option.some.inj (hentry.symm.trans hother)
      exact hshort name rfl
    · rintro hshort _ ⟨rfl⟩
      exact hshort name entry rfl hentry
  | openCover | closeCover | stopCover =>
    obtain ⟨rfl,rfl⟩ := Prod.mk.inj (Option.some.inj hintent)
    refine iff_of_true ?_ (by simp)
    rintro _ ⟨rfl⟩ -
    rw [Utf8.toList_toUTF8]
    decide
  | setOn | setBrightness | setPosition | setTargetTemperature | lock | unlock =>
    obtain ⟨rfl,rfl⟩ := Prod.mk.inj (Option.some.inj hintent)
    exact iff_of_true (by simp) (by simp)
  | _ => cases hintent

/-- What a command sends: the table's datapoint, or else what a behaviour makes of it. -/
def pointsOf (behaviors : BehaviorRegistry) (definition : Definition) (device : DeviceInfo)
    (command : CapabilityCommand) : Option (List Datapoint) :=
  match commandToDatapoint definition command with
  | some point => some [point]
  | none => commandViaBehavior behaviors definition command device

/-- What the device is to be sent is short enough: of the table's datapoints only a preset's name
can be too long, and of a behaviour's every value. -/
def ShortEnough (behaviors : BehaviorRegistry) (definition : Definition) (device : DeviceInfo)
    (command : CapabilityCommand) : Prop :=
  if (commandToDatapoint definition command).isSome then
    ∀ name entry, command = .setPreset name →
      definition.tuyaDatapoints.find? (fun d => d.name = "preset") = some entry →
      entry.kind = .string → name.toUTF8.toList.length ≤ 65535
  else ∀ points, commandViaBehavior behaviors definition command device = some points →
    ∀ p ∈ points, p.value.Fits

theorem shortEnough_iff {behaviors : BehaviorRegistry} {definition : Definition}
    {device : DeviceInfo} {command : CapabilityCommand} {points : List Datapoint}
    (h : pointsOf behaviors definition device command = some points) :
    ShortEnough behaviors definition device command ↔ ∀ p ∈ points, p.value.Fits := by
  unfold ShortEnough
  unfold pointsOf at h
  cases hpoint : commandToDatapoint definition command with
  | some point =>
    rw [hpoint] at h
    obtain rfl := Option.some.inj h
    rw [if_pos Option.isSome_some,List.forall_mem_singleton]
    exact (fits_commandToDatapoint hpoint).symm
  | none =>
    rw [hpoint] at h
    dsimp only at h
    simp [h]

end Tuya

namespace Task

variable {resolve : DeviceInfo → Option Rszigbee.Definition} {debug : DebugText}
  {behaviors : BehaviorRegistry}

/-- What a command planned as a Tuya frame puts into it. -/
theorem points_of_planned (t : Task (Engine.ofDefinitions resolve debug (Tuya.side behaviors)))
    {ieee : Ieee} {command : CapabilityCommand} {tsn : UInt8} {endpoint : Option EndpointId}
    {frame : Bytes}
    (h : (t.planCapabilityCommand ieee command tsn).2 = .ok (endpoint,tuyaCluster,frame)) :
    ∃ e d points, t.devices.get ieee = some e ∧ t.resolve ieee = some d ∧
      Tuya.pointsOf behaviors d e.info command = some points ∧
      frame = plannedFrame tsn ⟨0x00⟩ (Tuya.encode (t.tuyaSequence + 1) points) := by
  cases he : t.devices.get ieee with
  | none => simp [planCapabilityCommand,he] at h
  | some e =>
    cases hd : t.resolve ieee with
    | none => simp [planCapabilityCommand,he,hd] at h
    | some d =>
      have hside : (Tuya.side behaviors).ofCommand d command = Tuya.commandToDatapoint d command :=
        rfl
      have hvia : (Tuya.side behaviors).viaBehavior d command e.info =
          Tuya.commandViaBehavior behaviors d command e.info := rfl
      rw [t.planCapabilityCommand_eq he hd,hside] at h
      cases hpoint : Tuya.commandToDatapoint d command with
      | some point =>
        rw [hpoint] at h
        obtain ⟨-,hrest⟩ := Prod.mk.inj (Except.ok.inj h)
        refine ⟨e,d,[point],rfl,rfl,by simp [Tuya.pointsOf,hpoint],?_⟩
        exact (Prod.mk.inj hrest).2.symm
      | none =>
        rw [hpoint] at h
        dsimp only at h
        rw [hvia] at h
        cases hpoints : Tuya.commandViaBehavior behaviors d command e.info with
        | some points =>
          have hof : Tuya.pointsOf behaviors d e.info command = some points := by
            simpa [Tuya.pointsOf,hpoint] using hpoints
          rw [hpoints] at h
          cases points with
          | nil => cases h
          | cons p ps =>
            obtain ⟨-,hrest⟩ := Prod.mk.inj (Except.ok.inj h)
            exact ⟨e,d,p::ps,rfl,rfl,hof,(Prod.mk.inj hrest).2.symm⟩
        | none =>
          rw [hpoints] at h
          dsimp only at h
          cases hplan : planCommand debug d e.info command with
          | error err =>
            rw [hplan] at h
            cases h
          | ok planned =>
            rw [hplan] at h
            obtain ⟨-,hrest⟩ := Prod.mk.inj (Except.ok.inj h)
            exact absurd (Prod.mk.inj hrest).1 (planCommand_cluster hplan)

end Task

/-- Every datapoint list is encoded with the right lengths exactly when every value fits its
length, and a command planned as a Tuya frame makes such a one exactly when what it has sent is
short enough. -/
theorem tuya_lengths_iff (seq : UInt16) (values : List Tuya.Datapoint)
    (resolve : DeviceInfo → Option Definition) (debug : DebugText) (behaviors : BehaviorRegistry)
    (t : Task (Engine.ofDefinitions resolve debug (Tuya.side behaviors))) (ieee : Ieee)
    (command : CapabilityCommand) (tsn : UInt8) :
    (Tuya.Consistent (Tuya.encode seq values) values ↔ ∀ p ∈ values, p.value.Fits) ∧
    ∀ endpoint frame,
      (t.planCapabilityCommand ieee command tsn).2 = .ok (endpoint,Task.tuyaCluster,frame) →
      ∃ e d points, t.devices.get ieee = some e ∧ t.resolve ieee = some d ∧
        Tuya.pointsOf behaviors d e.info command = some points ∧
        frame = Task.plannedFrame tsn ⟨0x00⟩ (Tuya.encode (t.tuyaSequence + 1) points) ∧
        (Tuya.Consistent (Tuya.encode (t.tuyaSequence + 1) points) points ↔
          Tuya.ShortEnough behaviors d e.info command) := by
  refine ⟨Tuya.consistent_encode seq values,?_⟩
  intro endpoint frame h
  obtain ⟨e,d,points,he,hd,hpoints,hframe⟩ := t.points_of_planned h
  refine ⟨e,d,points,he,hd,hpoints,hframe,?_⟩
  rw [Tuya.consistent_encode,Tuya.shortEnough_iff hpoints]

/-- A valve whose preset is kept as a text. -/
def presetValve : Definition where
  tuyaDatapoints := [{ dp := 4, name := "preset", kind := .string, access := .reportAndSet }]

def valveTask : Task (Engine.ofDefinitions (fun _ => some presetValve) ⟨fun _ => "",fun _ => ""⟩
    (Tuya.side ∅)) where
  reachability := silencePolicy 0
  interviewOnJoin := false
  coordinator := ⟨0⟩
  networkKnown := true
  devices := Inventory.new.insert { info := Tuya.plug }
  registry := {}
  store := .new

def longPreset (n : ℕ) : String := .ofList (List.replicate n 'a')

theorem length_longPreset (n : ℕ) : (longPreset n).toUTF8.toList.length = n := by
  rw [Utf8.toList_toUTF8,longPreset,String.toList_ofList,List.length_flatMap,List.map_replicate,
    List.sum_replicate]
  exact Nat.mul_one n

theorem planned_preset (name : String) :
    (valveTask.planCapabilityCommand ⟨1⟩ (.setPreset name) 7).2 = .ok (some ⟨1⟩,Task.tuyaCluster,
      Task.plannedFrame 7 ⟨0x00⟩ (Tuya.encode 1 [⟨4,.str name⟩])) := rfl

theorem points_preset (name : String) :
    Tuya.pointsOf ∅ presetValve Tuya.plug (.setPreset name) = some [⟨4,.str name⟩] := rfl

/-- A preset of one byte more than its length can say is sent all the same. -/
theorem endless_preset_sent : ¬ ∀ (command : CapabilityCommand) (tsn : UInt8)
    (endpoint : Option EndpointId) (frame : Bytes),
    (valveTask.planCapabilityCommand ⟨1⟩ command tsn).2 =
        .ok (endpoint,Task.tuyaCluster,frame) →
      ∃ points payload, Tuya.pointsOf ∅ presetValve Tuya.plug command = some points ∧
        frame = Task.plannedFrame tsn ⟨0x00⟩ payload ∧ Tuya.Consistent payload points := by
  intro h
  have hlength := length_longPreset 65536
  generalize longPreset 65536 = name at hlength
  obtain ⟨points,payload,hpoints,hframe,hconsistent⟩ := h _ 7 _ _ (planned_preset name)
  obtain rfl := Option.some.inj ((points_preset name).symm.trans hpoints)
  obtain rfl := Task.plannedFrame_inj.mp hframe
  have hfits := (Tuya.consistent_encode 1 [⟨4,.str name⟩]).mp hconsistent _ List.mem_cons_self
  have hshort : name.toUTF8.toList.length ≤ 65535 := hfits
  omega

end Rszigbee
