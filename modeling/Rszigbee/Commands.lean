import Rszigbee.Sources

/-! Turning an intent into a cluster and a command. There is no fallback: what a
definition does not say a device has is refused. -/
namespace Rszigbee

/-- The `Debug` texts of values and commands. -/
structure DebugText where
  value : StateValue → String
  command : CapabilityCommand → String

/-- What a window covering supports. -/
structure Cover where
  lift : Bool
  tilt : Bool
  inverted : Bool
  deriving DecidableEq

section Lookups
variable (definition : Definition)

def coverControls : Option Cover :=
  definition.extend.findSome? fun
    | .windowCovering lift tilt inverted => some ⟨lift,tilt,inverted⟩
    | _ => none

/-- The endpoints declared for on/off; a light has on/off too, and declares none. -/
def onOffEndpoints : Option (List EndpointId) :=
  definition.extend.findSome? fun
    | .onOff endpoints => some endpoints
    | .light _ => some []
    | _ => none

def hasBrightness : Bool := definition.extend.any fun
  | .light brightness => brightness
  | _ => false

def hasLock : Bool := definition.extend.any fun
  | .lock => true
  | _ => false

/-- The definition's endpoint first, then one the device reported, then the first. -/
def endpointFor (info : DeviceInfo) (declared : List EndpointId) (cluster : ClusterId) :
    EndpointId :=
  match declared with
  | first::_ => first
  | [] =>
    match definition.endpointNames with
    | (_,id)::_ => id
    | [] => ((info.endpointWithInput cluster).map EndpointInfo.id).getD ⟨1⟩

end Lookups

/-- A percentage of openness on the device's scale, which is of closedness unless
inverted. -/
def coverPercent (opened : UInt8) (inverted : Bool) : UInt8 :=
  if inverted then min opened 100 else 100 - min opened 100

section Lowering

/-- `str::to_ascii_uppercase`. -/
def asciiUppercase (s : String) : String := String.ofList (s.toList.map Char.toUpper)

/-- Anything that plausibly means "on" or "off". -/
def truthy : StateValue → Option Bool
  | .bool b => some b
  | .int i => some (i ≠ 0)
  | .str s | .enum s =>
    let upper := asciiUppercase s
    if upper ∈ ["ON","TRUE","1","OPEN","LOCK"] then some true
    else if upper ∈ ["OFF","FALSE","0","CLOSE","UNLOCK"] then some false
    else none
  | _ => none

/-- A value as an integer, when it is exactly one once rounded. -/
def integer : StateValue → Option Int64
  | .int i => some i
  | .float x => (roundFloat x).map .ofInt
  | _ => none

/-- `u8::try_from`. -/
def tryUInt8 (v : Int64) : Option UInt8 :=
  if 0 ≤ v.toInt ∧ v.toInt < 256 then some (.ofNat v.toInt.toNat) else none

/-- `u16::try_from`. -/
def tryUInt16 (v : Int64) : Option UInt16 :=
  if 0 ≤ v.toInt ∧ v.toInt < 65536 then some (.ofNat v.toInt.toNat) else none

/-- A text that asks to toggle, in any case. -/
def asksToToggle : StateValue → Bool
  | .str s | .enum s => asciiUppercase s = "TOGGLE"
  | _ => false

/-- A capability value as the command that writes it. -/
def lower (debug : DebugText) (capability : CapabilityId) (value : StateValue) :
    Except CommandError CapabilityCommand :=
  let orInvalid (command : Option CapabilityCommand) : Except CommandError CapabilityCommand :=
    command.elim (.error (.invalidValue capability (debug.value value))) .ok
  if capability.name = "state" then
    if asksToToggle value then .ok .toggle else orInvalid ((truthy value).map .setOn)
  else if capability.name = "brightness" then
    orInvalid (((integer value).bind tryUInt8).map fun raw => .setBrightness (.new raw))
  else if capability.name = "color_temp" then
    orInvalid (((integer value).bind tryUInt16).map fun mireds => .setColorTemp ⟨mireds⟩)
  else if capability.name = "position" then
    orInvalid (((integer value).bind tryUInt8).map fun percent => .setPosition (.new percent))
  else .error (.unsupportedCapability capability)

end Lowering

section Planning
variable (debug : DebugText) (definition : Definition) (info : DeviceInfo)

/-- A command this build does not implement, named as such. -/
def unimplementedCommand (command : CapabilityCommand) : CommandError :=
  .invalidValue ⟨"command"⟩ (debug.command command ++ " is not implemented by this build")

def unsupported {α : Type} (name : String) : Except CommandError α :=
  .error (.unsupportedCapability ⟨name⟩)

/-- A window-covering command, on the endpoint that hosts the cluster. -/
def coverFrame (command : UInt8) (payload : Bytes) : PlannedZcl :=
  ⟨endpointFor definition info [] .windowCovering,.windowCovering,⟨command⟩,payload⟩

/-- Up is `0x00`, down `0x01`, stop `0x02`, also where percentages are inverted; lift and
tilt go to a percentage with `0x05` and `0x08`. -/
def planCover (command : CapabilityCommand) : Except CommandError PlannedZcl :=
  match command with
  | .openCover | .closeCover | .stopCover =>
    match coverControls definition with
    | none => unsupported "position"
    | some _ => .ok (coverFrame definition info (match command with
        | .openCover => 0x00
        | .closeCover => 0x01
        | _ => 0x02) [])
  | .setPosition percent =>
    match coverControls definition with
    | none => unsupported "position"
    | some cover =>
      if cover.lift then
        .ok (coverFrame definition info 0x05 [coverPercent percent.raw cover.inverted])
      else unsupported "position"
  | .setTilt percent =>
    match coverControls definition with
    | none => unsupported "tilt"
    | some cover =>
      if cover.tilt then
        .ok (coverFrame definition info 0x08 [coverPercent percent.raw cover.inverted])
      else unsupported "tilt"
  | other => .error (unimplementedCommand debug other)

/-- A specific command; the general form is lowered to one before. -/
def planSpecific (command : CapabilityCommand) : Except CommandError PlannedZcl :=
  match command with
  | .setOn on =>
    match onOffEndpoints definition with
    | none => unsupported "state"
    | some declared => .ok ⟨endpointFor definition info declared .onOff,.onOff,
        ⟨if on then 1 else 0⟩,[]⟩
  | .toggle =>
    match onOffEndpoints definition with
    | none => unsupported "state"
    | some declared => .ok ⟨endpointFor definition info declared .onOff,.onOff,⟨0x02⟩,[]⟩
  -- With on/off: setting a level on a light that is off turns it on. No transition time.
  | .setBrightness level =>
    if hasBrightness definition then
      .ok ⟨endpointFor definition info [] .level,.level,⟨0x04⟩,[level.raw] ++ le16 0⟩
    else unsupported "brightness"
  | .openCover | .closeCover | .stopCover | .setPosition _ | .setTilt _ =>
    planCover debug definition info command
  | .lock | .unlock =>
    if hasLock definition then
      .ok ⟨endpointFor definition info [] .lock,.lock,
        ⟨match command with
          | .unlock => 1
          | _ => 0⟩,[]⟩
    else unsupported "lock"
  -- Every device identifies itself, so this needs no capability.
  | .identify duration =>
    let seconds := duration / 1000000000
    .ok ⟨endpointFor definition info [] .identify,.identify,⟨0x00⟩,
      le16 (if seconds < 65536 then .ofNat seconds else 0xffff)⟩
  | other => .error (unimplementedCommand debug other)

/-- The general form; one frame is planned, so one capability is named. -/
def planSet (changes : StateChanges) : Except CommandError PlannedZcl :=
  match changes.entries with
  | [(capability,value)] =>
    (lower debug capability value).bind (planSpecific debug definition info)
  | _ => .error (.invalidValue ⟨"set"⟩
      "a Set must name exactly one capability; send them separately")

def planCommand (command : CapabilityCommand) : Except CommandError PlannedZcl :=
  match command with
  | .set changes => planSet debug definition info changes
  | specific => planSpecific debug definition info specific

end Planning

/-- The clusters a definition's capabilities are commanded on. -/
theorem planSpecific_cluster {debug : DebugText} {d : Definition} {info : DeviceInfo}
    {command : CapabilityCommand} {planned : PlannedZcl}
    (h : planSpecific debug d info command = .ok planned) :
    planned.cluster ∈ [ClusterId.onOff,.level,.windowCovering,.lock,.identify] := by
  cases command with
  | setOn | toggle =>
    simp only [planSpecific] at h
    cases hon : onOffEndpoints d with
    | none => simp [hon,unsupported] at h
    | some declared =>
      simp only [hon,Except.ok.injEq] at h
      simp [← h]
  | setBrightness =>
    simp only [planSpecific] at h
    split at h
    · cases h
      simp
    · cases h
  | lock | unlock =>
    simp only [planSpecific] at h
    split at h
    · cases h
      simp
    · cases h
  | identify =>
    cases h
    simp
  | openCover | closeCover | stopCover =>
    simp only [planSpecific,planCover] at h
    cases hcover : coverControls d with
    | none => simp [hcover,unsupported] at h
    | some cover =>
      simp only [hcover,Except.ok.injEq] at h
      simp [← h,coverFrame]
  | setPosition | setTilt =>
    simp only [planSpecific,planCover] at h
    cases hcover : coverControls d with
    | none => simp [hcover,unsupported] at h
    | some cover =>
      simp only [hcover] at h
      split at h
      · cases h
        simp [coverFrame]
      · cases h
  | set | get | setColorTemp | setColor | setTargetTemperature | setPreset => cases h

section GeneralForm
variable (debug : DebugText) (d : Definition) (info : DeviceInfo)

theorem lower_state {s : String} (on : Bool) (htoggle : asksToToggle (.enum s) = false)
    (h : truthy (.enum s) = some on) : lower debug ⟨"state"⟩ (.enum s) = .ok (.setOn on) := by
  simp [lower,htoggle,h]

theorem integer_ofU8 (v : UInt8) :
    (integer (CapabilityCommand.ofU8 v)).bind tryUInt8 = some v := by
  have hlt : v.toNat < 256 := v.toNat_lt
  have hnat : v.toUInt64.toNat = v.toNat := UInt8.toNat_toUInt64 v
  have hval : v.toUInt64.toInt64.toInt = v.toNat := by
    rw [toInt_toInt64 (by omega),hnat]
  have hback : UInt8.ofNat v.toNat = v := UInt8.ofNat_toNat
  simp [CapabilityCommand.ofU8,integer,tryUInt8,hval,hback,hlt]

theorem Brightness.new_raw (level : Brightness) : Brightness.new level.raw = level :=
  dif_pos level.le

theorem Percent.new_raw (percent : Percent) : Percent.new percent.raw = percent :=
  dif_pos percent.le

theorem integer_ofU16 (v : UInt16) :
    (integer (.int v.toUInt64.toInt64)).bind tryUInt16 = some v := by
  have hlt : v.toNat < 65536 := v.toNat_lt
  have hnat : v.toUInt64.toNat = v.toNat := UInt16.toNat_toUInt64 v
  have hval : v.toUInt64.toInt64.toInt = v.toNat := by
    rw [toInt_toInt64 (by omega),hnat]
  have hback : UInt16.ofNat v.toNat = v := UInt16.ofNat_toNat
  simp [integer,tryUInt16,hval,hback,hlt]

/-- What the general form of a command is lowered to. -/
def CapabilityCommand.lowered : CapabilityCommand → Option CapabilityCommand
  | .setOn on => some (.setOn on)
  | .toggle => some .toggle
  | .setBrightness level => some (.setBrightness level)
  | .setColorTemp mireds => some (.setColorTemp mireds)
  | .setPosition percent => some (.setPosition percent)
  | .openCover | .lock => some (.setOn true)
  | .closeCover | .unlock => some (.setOn false)
  | _ => none

/-- The one capability a general form names, and its lowering. -/
theorem lower_toChanges {command : CapabilityCommand} {changes : StateChanges}
    (h : command.toChanges = some changes) (hset : ∀ c, command ≠ .set c) :
    ∃ capability value, changes.entries = [(capability,value)] ∧
      (lower debug capability value).toOption = command.lowered := by
  cases command with
  | set c => exact absurd rfl (hset c)
  | get | identify => cases h
  | setOn on =>
    cases h
    refine ⟨_,_,rfl,?_⟩
    cases on
    · rw [if_neg Bool.false_ne_true,lower_state debug false (by decide) (by decide)]
      rfl
    · rw [if_pos rfl,lower_state debug true (by decide) (by decide)]
      rfl
  | toggle =>
    cases h
    refine ⟨_,_,rfl,?_⟩
    have htoggle : asksToToggle (.enum "TOGGLE") = true := by decide
    simp [lower,htoggle,CapabilityCommand.lowered,Except.toOption]
  | setBrightness level =>
    cases h
    refine ⟨_,_,rfl,?_⟩
    simp [lower,integer_ofU8,Brightness.new_raw,CapabilityCommand.lowered,Except.toOption]
  | setColorTemp mireds =>
    cases h
    refine ⟨_,_,rfl,?_⟩
    simp [lower,integer_ofU16,CapabilityCommand.lowered,Except.toOption]
  | setPosition percent =>
    cases h
    refine ⟨_,_,rfl,?_⟩
    simp [lower,integer_ofU8,Percent.new_raw,CapabilityCommand.lowered,Except.toOption]
  | openCover | lock =>
    cases h
    refine ⟨_,_,rfl,?_⟩
    rw [lower_state debug true (by decide) (by decide)]
    rfl
  | closeCover | unlock =>
    cases h
    refine ⟨_,_,rfl,?_⟩
    rw [lower_state debug false (by decide) (by decide)]
    rfl
  | stopCover =>
    cases h
    refine ⟨_,_,rfl,?_⟩
    have htoggle : asksToToggle (.enum "STOP") = false := by decide
    have hstop : truthy (.enum "STOP") = none := by decide
    simp [lower,htoggle,hstop,CapabilityCommand.lowered,Except.toOption]
  | setColor | setTilt | setTargetTemperature | setPreset =>
    cases h
    refine ⟨_,_,rfl,?_⟩
    simp [lower,CapabilityCommand.lowered,Except.toOption]

/-- The general form is planned as what it is lowered to. -/
theorem planSet_toOption {command : CapabilityCommand} {changes : StateChanges}
    (h : command.toChanges = some changes) (hset : ∀ c, command ≠ .set c) :
    (planSet debug d info changes).toOption =
      command.lowered.bind fun c => (planSpecific debug d info c).toOption := by
  obtain ⟨capability,value,hentries,hlower⟩ := lower_toChanges debug h hset
  rw [planSet,hentries,← hlower]
  cases hlow : lower debug capability value <;> simp [hlow,Except.bind,Except.toOption]

theorem planSpecific_setOn (on : Bool) : (planSpecific debug d info (.setOn on)).toOption =
    (onOffEndpoints d).map fun declared =>
      ⟨endpointFor d info declared .onOff,.onOff,⟨if on then 1 else 0⟩,[]⟩ := by
  rw [planSpecific]
  cases onOffEndpoints d <;> rfl

/-- A covering's three commands without a percentage. -/
theorem planSpecific_cover {command : CapabilityCommand}
    (h : command = .openCover ∨ command = .closeCover ∨ command = .stopCover) :
    ∃ id, (planSpecific debug d info command).toOption =
      (coverControls d).map fun _ => coverFrame d info id [] := by
  rcases h with rfl | rfl | rfl
  · refine ⟨0x00,?_⟩
    rw [planSpecific,planCover]
    cases coverControls d <;> rfl
  · refine ⟨0x01,?_⟩
    rw [planSpecific,planCover]
    cases coverControls d <;> rfl
  · refine ⟨0x02,?_⟩
    rw [planSpecific,planCover]
    cases coverControls d <;> rfl

theorem planSpecific_lock {command : CapabilityCommand}
    (h : command = .lock ∨ command = .unlock) :
    ∃ id, (planSpecific debug d info command).toOption = if hasLock d then
      some ⟨endpointFor d info [] .lock,.lock,id,[]⟩ else none := by
  rcases h with rfl | rfl
  · refine ⟨⟨0⟩,?_⟩
    rw [planSpecific]
    cases hasLock d <;> rfl
  · refine ⟨⟨1⟩,?_⟩
    rw [planSpecific]
    cases hasLock d <;> rfl

theorem setOn_eq_cover_iff (on : Bool) {command : CapabilityCommand}
    (h : command = .openCover ∨ command = .closeCover ∨ command = .stopCover) :
    (planSpecific debug d info (.setOn on)).toOption =
        (planSpecific debug d info command).toOption ↔
      onOffEndpoints d = none ∧ coverControls d = none := by
  obtain ⟨id,hid⟩ := planSpecific_cover debug d info h
  rw [planSpecific_setOn,hid]
  cases onOffEndpoints d <;> cases coverControls d <;>
    simp [coverFrame,ClusterId.onOff,ClusterId.windowCovering]

theorem setOn_eq_lock_iff (on : Bool) {command : CapabilityCommand}
    (h : command = .lock ∨ command = .unlock) :
    (planSpecific debug d info (.setOn on)).toOption =
        (planSpecific debug d info command).toOption ↔
      onOffEndpoints d = none ∧ hasLock d = false := by
  obtain ⟨id,hid⟩ := planSpecific_lock debug d info h
  rw [planSpecific_setOn,hid]
  cases onOffEndpoints d <;> cases hasLock d <;> simp [ClusterId.onOff,ClusterId.lock]

/-- Both refuse, or both plan the same. -/
def SamePlan (a b : Except CommandError PlannedZcl) : Prop := a.toOption = b.toOption

/-- What a definition must lack for both forms of a command to mean the same: what a
switch, a covering or a lock would do in place of one another. -/
def MeansTheSame (d : Definition) : CapabilityCommand → Prop
  | .openCover | .closeCover => onOffEndpoints d = none ∧ coverControls d = none
  | .stopCover => coverControls d = none
  | .setTilt _ => ∀ cover, coverControls d = some cover → cover.tilt = false
  | .lock | .unlock => onOffEndpoints d = none ∧ hasLock d = false
  | _ => True

theorem general_form_iff (command : CapabilityCommand) (changes : StateChanges)
    (h : command.toChanges = some changes) :
    SamePlan (planCommand debug d info (.set changes)) (planCommand debug d info command) ↔
      MeansTheSame d command := by
  by_cases hset : ∃ c, command = .set c
  · obtain ⟨c,rfl⟩ := hset
    cases h
    simp [SamePlan,MeansTheSame]
  have hset : ∀ c, command ≠ .set c := fun c hc => hset ⟨c,hc⟩
  have hspecific : planCommand debug d info command = planSpecific debug d info command := by
    cases command with
    | set c => exact absurd rfl (hset c)
    | _ => rfl
  rw [SamePlan,hspecific,planCommand,planSet_toOption debug d info h hset]
  cases command with
  | set c => exact absurd rfl (hset c)
  | get | identify => cases h
  | setOn | toggle | setBrightness | setColorTemp | setPosition =>
    simp [CapabilityCommand.lowered,MeansTheSame]
  | setColor | setTargetTemperature | setPreset =>
    simp [CapabilityCommand.lowered,MeansTheSame,planSpecific,Except.toOption]
  | setTilt percent =>
    have hlow : (CapabilityCommand.setTilt percent).lowered = none := rfl
    rw [hlow,MeansTheSame,planSpecific,planCover]
    cases hcover : coverControls d with
    | none => simp [unsupported,Except.toOption]
    | some cover => cases htilt : cover.tilt <;> simp [htilt,unsupported,Except.toOption]
  | stopCover =>
    obtain ⟨id,hid⟩ := planSpecific_cover debug d info (.inr (.inr rfl))
    have hlow : CapabilityCommand.stopCover.lowered = none := rfl
    rw [hlow,hid,MeansTheSame]
    cases coverControls d <;> simp
  -- What opens, closes, locks or unlocks is lowered to a switch command.
  | openCover => exact setOn_eq_cover_iff debug d info true (.inl rfl)
  | closeCover => exact setOn_eq_cover_iff debug d info false (.inr (.inl rfl))
  | lock => exact setOn_eq_lock_iff debug d info true (.inl rfl)
  | unlock => exact setOn_eq_lock_iff debug d info false (.inr rfl)

end GeneralForm

/-- A switch, whose general form is lowered back to the command. -/
theorem switch_means_the_same :
    SamePlan (planCommand ⟨fun _ => "",fun _ => ""⟩ { extend := [.onOff []] }
        (.new ⟨1⟩ ⟨0x1234⟩ .router) (.set (.single "state" (.enum "ON"))))
      (planCommand ⟨fun _ => "",fun _ => ""⟩ { extend := [.onOff []] }
        (.new ⟨1⟩ ⟨0x1234⟩ .router) (.setOn true)) :=
  (general_form_iff _ _ _ (.setOn true) (.single "state" (.enum "ON")) rfl).mpr trivial

/-- A lock with a switch: asked in general to lock, it is switched on. -/
theorem lock_switches_on :
    let debug : DebugText := ⟨fun _ => "",fun _ => ""⟩
    let d : Definition := { extend := [.onOff [],.lock] }
    let info : DeviceInfo := .new ⟨1⟩ ⟨0x1234⟩ .router
    let changes : StateChanges := .single "state" (.enum "LOCK")
    CapabilityCommand.lock.toChanges = some changes ∧
      (planCommand debug d info (.set changes)).toOption = some ⟨⟨1⟩,.onOff,⟨0x01⟩,[]⟩ ∧
      (planCommand debug d info .lock).toOption = some ⟨⟨1⟩,.lock,⟨0x00⟩,[]⟩ ∧
      ¬SamePlan (planCommand debug d info (.set changes)) (planCommand debug d info .lock) := by
  refine ⟨rfl,by decide,by decide,?_⟩
  show ¬((_ : Option PlannedZcl) = _)
  decide

end Rszigbee
