import Rszigbee.Lengths
import Rszigbee.Schedule

/-! What is written through the schedule's behaviour: which presets reach it, which datapoint they
are written to, and with which day's number. -/
namespace Rszigbee

namespace BehaviorRegistry

/-- Nothing is registered but what is shipped. -/
def Shipped (behaviors : BehaviorRegistry) : Prop :=
  ∀ name behavior, behaviors.lookup name = some behavior →
    name = Schedule.name ∧ behavior = tuyaThermostatSchedule

/-- The schedule's behaviour is registered. -/
def Schedules (behaviors : BehaviorRegistry) : Prop := (behaviors.lookup Schedule.name).isSome

theorem shipped_withBuiltins : Shipped withBuiltins := by
  intro name behavior h
  rw [withBuiltins,Table.lookup_insert_eq] at h
  split at h
  · rename_i hname
    exact ⟨hname,(Option.some.inj h).symm⟩
  · cases h

end BehaviorRegistry

namespace Definition

/-- An entry that leaves its datapoint to the schedule's behaviour. -/
def Delegates (d : Definition) (entry : TuyaDatapoint) : Prop :=
  entry ∈ d.tuyaDatapoints ∧ entry.kind = .behavior Schedule.name

/-- The first of these. -/
def scheduleEntry (d : Definition) : Option TuyaDatapoint :=
  d.tuyaDatapoints.find? fun entry => entry.kind = .behavior Schedule.name

/-- The number is that of an entry that is not for reports only. -/
def Writable (d : Definition) (dp : UInt8) : Prop :=
  ∃ entry ∈ d.tuyaDatapoints, entry.dp = dp ∧ entry.access ≠ .report

variable {d : Definition} {entry : TuyaDatapoint}

theorem delegates_of_scheduleEntry (h : d.scheduleEntry = some entry) : d.Delegates entry :=
  ⟨List.mem_of_find?_eq_some h,by simpa using List.find?_some h⟩

theorem exists_scheduleEntry (h : d.Delegates entry) : ∃ first, d.scheduleEntry = some first := by
  rw [scheduleEntry,← Option.isSome_iff_exists,List.find?_isSome]
  exact ⟨entry,h.1,by simpa using h.2⟩

end Definition

namespace Tuya
open BehaviorRegistry Definition Schedule

section Presets

/-- The table's own entry for presets, if it has one, is read only, or no text and no enumeration
that has the name. -/
def PresetRefused (d : Definition) (text : String) : Prop :=
  ∀ entry, d.tuyaDatapoints.find? (fun e => e.name = "preset") = some entry →
    entry.access = .report ∨ encodeIntent entry (.named text) = none

theorem commandToDatapoint_preset {d : Definition} {text : String} :
    commandToDatapoint d (.setPreset text) = none ↔ PresetRefused d text := by
  rw [commandToDatapoint,intentOf]
  simp only [Option.bind_eq_bind,Option.bind_some,PresetRefused]
  cases hentry : d.tuyaDatapoints.find? fun e => e.name = "preset" with
  | none => simp
  | some entry =>
    by_cases hreport : entry.access = .report
    · simp [hreport]
    · cases hvalue : encodeIntent entry (.named text) with
      | none => simp [hvalue]
      | some value => simp [hreport,hvalue]

/-- A table's entry writes no bytes of its own. -/
theorem encodeIntent_ne_raw {entry : TuyaDatapoint} {intent : Intent} {bytes : Bytes} :
    encodeIntent entry intent ≠ some (.raw bytes) := by
  intro h
  unfold encodeIntent at h
  split at h
  · cases h
  · obtain ⟨n,-,heq⟩ := Option.map_eq_some_iff.mp h
    cases heq
  · obtain ⟨n,-,heq⟩ := Option.map_eq_some_iff.mp h
    cases heq
  · obtain ⟨n,-,heq⟩ := Option.map_eq_some_iff.mp h
    cases heq
  · cases h
  · cases h

end Presets

/-- A preset that the table refuses is a schedule, and this is what it is written as. -/
structure Scheduled (behaviors : BehaviorRegistry) (d : Definition) (text : String)
    (point : Datapoint) : Prop where
  registered : behaviors.Schedules
  refused : PresetRefused d text
  written : ∃ entry day bytes, d.scheduleEntry = some entry ∧ scheduleDay entry.name = some day ∧
    encodeSchedule day text = some bytes ∧ point = ⟨entry.dp,.raw bytes⟩

section Planned

variable {behaviors : BehaviorRegistry} {d : Definition} {device : DeviceInfo}
  {command : CapabilityCommand} {points : List Datapoint}

/-- What the behaviour answers. -/
theorem encodeCommand_answer : (Schedule.encodeCommand device d command).answer = some points ↔
    ∃ text entry day, command = .setPreset text ∧ d.scheduleEntry = some entry ∧
      scheduleDay entry.name = some day ∧ points =
        ((encodeSchedule day text).map fun bytes => (⟨entry.dp,.raw bytes⟩ : Datapoint)).toList := by
  constructor
  · intro h
    cases command with
    | setPreset text =>
      rw [Schedule.encodeCommand,← scheduleEntry] at h
      cases hentry : d.scheduleEntry with
      | none => simp [hentry,Outcome.answer] at h
      | some entry =>
        cases hday : scheduleDay entry.name with
        | none => simp [hentry,hday,Outcome.answer] at h
        | some day =>
          refine ⟨text,entry,day,rfl,rfl,hday,?_⟩
          simp only [hentry,hday] at h
          cases hbytes : encodeSchedule day text with
          | none => simpa [hbytes,Outcome.answer] using h.symm
          | some bytes => simpa [hbytes,Outcome.answer] using h.symm
    | _ => cases h
  · rintro ⟨text,entry,day,rfl,hentry,hday,rfl⟩
    rw [scheduleEntry] at hentry
    simp only [Schedule.encodeCommand,hentry,hday]
    cases encodeSchedule day text with
    | none => rfl
    | some bytes => rfl

/-- Of the shipped behaviours only the schedule's can answer. -/
theorem schedules_of_viaBehavior (hshipped : behaviors.Shipped)
    (h : commandViaBehavior behaviors d command device = some points) :
    behaviors.Schedules ∧ (Schedule.encodeCommand device d command).answer = some points := by
  obtain ⟨entry,-,hentry⟩ := List.exists_of_findSome?_eq_some h
  split at hentry
  · rename_i name hkind
    obtain ⟨behavior,hlookup,hanswer⟩ := Option.bind_eq_some_iff.mp hentry
    obtain ⟨rfl,rfl⟩ := hshipped name behavior hlookup
    exact ⟨Option.isSome_of_eq_some hlookup,hanswer⟩
  · cases hentry

theorem commandViaBehavior_shipped (hshipped : behaviors.Shipped) :
    commandViaBehavior behaviors d command device = some points ↔ behaviors.Schedules ∧
      (Schedule.encodeCommand device d command).answer = some points := by
  constructor
  · exact schedules_of_viaBehavior hshipped
  · rintro ⟨hregistered,hanswer⟩
    obtain ⟨-,entry,-,-,hentry,-,-⟩ := encodeCommand_answer.mp hanswer
    obtain ⟨hmem,hkind⟩ := delegates_of_scheduleEntry hentry
    obtain ⟨behavior,hlookup⟩ := Option.isSome_iff_exists.mp hregistered
    obtain ⟨-,rfl⟩ := hshipped _ behavior hlookup
    have hsome : (commandViaBehavior behaviors d command device).isSome := by
      rw [commandViaBehavior,List.findSome?_isSome_iff]
      refine ⟨entry,hmem,?_⟩
      simp only [hkind,hlookup,Option.bind_some]
      exact Option.isSome_of_eq_some hanswer
    obtain ⟨found,hfound⟩ := Option.isSome_iff_exists.mp hsome
    rw [hfound,← (schedules_of_viaBehavior hshipped hfound).2,hanswer]

/-- A command sends one datapoint: the table's, or a schedule. -/
theorem pointsOf_shipped (hshipped : behaviors.Shipped) {p : Datapoint} {ps : List Datapoint} :
    pointsOf behaviors d device command = some (p::ps) ↔ ps = [] ∧
      (commandToDatapoint d command = some p ∨
        ∃ text, command = .setPreset text ∧ Scheduled behaviors d text p) := by
  rw [pointsOf]
  cases hpoint : commandToDatapoint d command with
  | some point =>
    dsimp only
    constructor
    · intro h
      obtain ⟨rfl,rfl⟩ := List.cons.inj (Option.some.inj h)
      exact ⟨rfl,.inl rfl⟩
    · rintro ⟨rfl,h | ⟨text,rfl,hscheduled⟩⟩
      · rw [Option.some.inj h]
      · rw [commandToDatapoint_preset.mpr hscheduled.refused] at hpoint
        cases hpoint
  | none =>
    dsimp only
    rw [commandViaBehavior_shipped hshipped,encodeCommand_answer]
    constructor
    · rintro ⟨hregistered,text,entry,day,rfl,hentry,hday,hpoints⟩
      cases hbytes : encodeSchedule day text with
      | none =>
        rw [hbytes] at hpoints
        cases hpoints
      | some bytes =>
        rw [hbytes] at hpoints
        obtain ⟨rfl,rfl⟩ := List.cons.inj hpoints
        exact ⟨rfl,.inr ⟨text,rfl,hregistered,commandToDatapoint_preset.mp hpoint,entry,day,bytes,
          hentry,hday,hbytes,rfl⟩⟩
    · rintro ⟨rfl,h | ⟨text,rfl,hregistered,-,entry,day,bytes,hentry,hday,hbytes,rfl⟩⟩
      · cases h
      · exact ⟨hregistered,text,entry,day,rfl,hentry,hday,by rw [hbytes]; rfl⟩

end Planned

/-- What is written tells the datapoint. -/
theorem record_inj {p q : Datapoint} : record p = record q ↔ p = q := by
  constructor
  · intro h
    have hrecord (p : Datapoint) : record p = p.dp::(writeValue p.value).1.toU8::
        (be16 (.ofNat (min (writeValue p.value).2.length 65535)) ++ (writeValue p.value).2) := rfl
    rw [hrecord,hrecord,List.cons.injEq,List.cons.injEq,be16_append_inj] at h
    obtain ⟨hdp,htag,-,hbytes⟩ := h
    have hvalue := readValue_writeValue p.dp p.value
    rw [htag,hbytes,hdp,readValue_writeValue q.dp q.value] at hvalue
    obtain ⟨dp,value⟩ := p
    obtain ⟨dp',value'⟩ := q
    cases hdp
    cases hvalue
    rfl
  · rintro rfl
    rfl

end Tuya

namespace Task
open Tuya

variable {resolve : DeviceInfo → Option Rszigbee.Definition} {debug : DebugText}
  {behaviors : BehaviorRegistry}

/-- The command is planned as a frame with these datapoints. -/
def Sends (t : Task (Engine.ofDefinitions resolve debug (side behaviors))) (ieee : Ieee)
    (tsn : UInt8) (command : CapabilityCommand) (points : List Datapoint) : Prop :=
  ∃ endpoint, (t.planCapabilityCommand ieee command tsn).2 = .ok (endpoint,tuyaCluster,
    plannedFrame tsn ⟨0x00⟩ (encode (t.tuyaSequence + 1) points))

variable {t : Task (Engine.ofDefinitions resolve debug (side behaviors))} {ieee : Ieee}
  {tsn : UInt8} {e : Entry} {d : Rszigbee.Definition} {command : CapabilityCommand}

/-- What there is to be sent is sent. -/
theorem sends_of_points (he : t.devices.get ieee = some e) (hd : t.resolve ieee = some d)
    {p : Datapoint} {ps : List Datapoint}
    (hpoints : pointsOf behaviors d e.info command = some (p::ps)) :
    t.Sends ieee tsn command (p::ps) := by
  rw [pointsOf] at hpoints
  cases hpoint : commandToDatapoint d command with
  | some point =>
    rw [hpoint] at hpoints
    obtain ⟨rfl,rfl⟩ := List.cons.inj (Option.some.inj hpoints)
    exact ⟨_,t.planCapabilityCommand_datapoint he hd hpoint tsn⟩
  | none =>
    rw [hpoint] at hpoints
    have hside : (side behaviors).ofCommand d command = none := hpoint
    have hvia : (side behaviors).viaBehavior d command e.info = some (p::ps) := hpoints
    refine ⟨some ⟨1⟩,?_⟩
    rw [t.planCapabilityCommand_eq he hd,hside]
    dsimp only
    rw [hvia]
    rfl

/-- One datapoint is sent if it is what the command comes to. -/
theorem sends_singleton (hshipped : behaviors.Shipped) (he : t.devices.get ieee = some e)
    (hd : t.resolve ieee = some d) {p : Datapoint} : t.Sends ieee tsn command [p] ↔
      pointsOf behaviors d e.info command = some [p] := by
  constructor
  · rintro ⟨endpoint,hplan⟩
    obtain ⟨e',d',points,he',hd',hpoints,hframe⟩ := t.points_of_planned hplan
    obtain rfl := Option.some.inj (he.symm.trans he')
    obtain rfl := Option.some.inj (hd.symm.trans hd')
    have hrecords := List.append_cancel_left (plannedFrame_inj.mp hframe)
    rw [hpoints]
    cases points with
    | nil => cases hrecords
    | cons q qs =>
      obtain ⟨rfl,-⟩ := (pointsOf_shipped hshipped).mp hpoints
      rw [List.flatMap_singleton,List.flatMap_singleton] at hrecords
      rw [record_inj.mp hrecords]
  · exact sends_of_points he hd

/-- Only a schedule is sent as bytes. -/
theorem sends_raw (hshipped : behaviors.Shipped) (he : t.devices.get ieee = some e)
    (hd : t.resolve ieee = some d) {dp : UInt8} {bytes : Bytes} :
    t.Sends ieee tsn command [⟨dp,.raw bytes⟩] ↔
      ∃ text, command = .setPreset text ∧ Scheduled behaviors d text ⟨dp,.raw bytes⟩ := by
  rw [sends_singleton hshipped he hd,pointsOf_shipped hshipped]
  constructor
  · rintro ⟨-,hpoint | hscheduled⟩
    · obtain ⟨⟨capability,intent⟩,hintent,-⟩ := Option.bind_eq_some_iff.mp hpoint
      obtain ⟨entry,-,value,hvalue,heq⟩ := commandToDatapoint_ok hintent hpoint
      cases heq
      exact absurd hvalue encodeIntent_ne_raw
    · exact hscheduled
  · exact fun hscheduled => ⟨rfl,.inr hscheduled⟩

end Task

section Writes
open Tuya

/-- A preset that is a schedule goes to a number that may not be written: the table refuses it, and
the first entry that leaves its datapoint to the schedule's behaviour has a day, but neither it nor
another with its number may be written. -/
structure Strays (behaviors : BehaviorRegistry) (d : Definition) (text : String) : Prop where
  registered : behaviors.Schedules
  refused : PresetRefused d text
  stray : ∃ entry day, d.scheduleEntry = some entry ∧ Schedule.scheduleDay entry.name = some day ∧
    (Schedule.encodeSchedule day text).isSome ∧ ¬ d.Writable entry.dp

/-- What the table answers is written to an entry of it. -/
theorem writable_of_commandToDatapoint {d : Definition} {command : CapabilityCommand}
    {point : Datapoint} (h : commandToDatapoint d command = some point) : d.Writable point.dp := by
  obtain ⟨⟨capability,intent⟩,-,h⟩ := Option.bind_eq_some_iff.mp h
  obtain ⟨entry,hentry,h⟩ := Option.bind_eq_some_iff.mp h
  by_cases hreport : entry.access = .report
  · simp [hreport] at h
  · simp only [hreport,if_false] at h
    obtain ⟨value,-,heq⟩ := Option.bind_eq_some_iff.mp h
    cases heq
    exact ⟨entry,List.mem_of_find?_eq_some hentry,rfl,hreport⟩

/-- A command planned as a Tuya frame writes only numbers that may be written. -/
def WritesWritable {resolve : DeviceInfo → Option Definition} {debug : DebugText}
    {behaviors : BehaviorRegistry} (t : Task (Engine.ofDefinitions resolve debug (side behaviors)))
    (ieee : Ieee) (command : CapabilityCommand) (tsn : UInt8) : Prop :=
  ∀ endpoint frame, (t.planCapabilityCommand ieee command tsn).2 =
      .ok (endpoint,Task.tuyaCluster,frame) →
    ∃ e d points, t.devices.get ieee = some e ∧ t.resolve ieee = some d ∧
      pointsOf behaviors d e.info command = some points ∧
      frame = Task.plannedFrame tsn ⟨0x00⟩ (encode (t.tuyaSequence + 1) points) ∧
      ∀ p ∈ points, d.Writable p.dp

/-- A Tuya frame writes what may be written, unless it is for a schedule that strays. -/
theorem writes_writable_iff (resolve : DeviceInfo → Option Definition) (debug : DebugText)
    (behaviors : BehaviorRegistry) (hshipped : behaviors.Shipped)
    (t : Task (Engine.ofDefinitions resolve debug (side behaviors))) (ieee : Ieee)
    (command : CapabilityCommand) (tsn : UInt8) :
    WritesWritable t ieee command tsn ↔ ∀ e d text, t.devices.get ieee = some e →
      t.resolve ieee = some d → command = .setPreset text → ¬ Strays behaviors d text := by
  constructor
  · rintro h e d text he hd rfl ⟨hregistered,hrefused,entry,day,hentry,hday,hsome,hstray⟩
    obtain ⟨bytes,hbytes⟩ := Option.isSome_iff_exists.mp hsome
    have hscheduled : Scheduled behaviors d text ⟨entry.dp,.raw bytes⟩ :=
      ⟨hregistered,hrefused,entry,day,bytes,hentry,hday,hbytes,rfl⟩
    have hpoints : pointsOf behaviors d e.info (.setPreset text) = some [⟨entry.dp,.raw bytes⟩] :=
      (pointsOf_shipped hshipped).mpr ⟨rfl,.inr ⟨text,rfl,hscheduled⟩⟩
    obtain ⟨endpoint,hplan⟩ := Task.sends_of_points he hd hpoints
    obtain ⟨e',d',points,he',hd',hpoints',-,hall⟩ := h endpoint _ hplan
    obtain rfl := Option.some.inj (he.symm.trans he')
    obtain rfl := Option.some.inj (hd.symm.trans hd')
    obtain rfl := Option.some.inj (hpoints.symm.trans hpoints')
    exact hstray (hall _ List.mem_cons_self)
  · intro h endpoint frame hplan
    obtain ⟨e,d,points,he,hd,hpoints,hframe⟩ := t.points_of_planned hplan
    refine ⟨e,d,points,he,hd,hpoints,hframe,?_⟩
    cases points with
    | nil => simp
    | cons p ps =>
      obtain ⟨rfl,hpoint | ⟨text,rfl,hscheduled⟩⟩ := (pointsOf_shipped hshipped).mp hpoints
      · exact List.forall_mem_singleton.mpr (writable_of_commandToDatapoint hpoint)
      · obtain ⟨hregistered,hrefused,entry,day,bytes,hentry,hday,hbytes,rfl⟩ := hscheduled
        refine List.forall_mem_singleton.mpr ?_
        by_contra hstray
        exact h e d text he hd rfl ⟨hregistered,hrefused,entry,day,hentry,hday,
          Option.isSome_of_eq_some hbytes,hstray⟩

section Sample

/-- A valve with a schedule for each of these datapoints. -/
def scheduleValve (access : Access) (days : List (UInt8 × String)) : Definition where
  tuyaDatapoints := days.map fun day => ⟨day.1,day.2,.behavior Schedule.name,access⟩

def scheduleTask (d : Definition) : Task (Engine.ofDefinitions (fun _ => some d)
    ⟨fun _ => "",fun _ => ""⟩ (side .withBuiltins)) where
  reachability := silencePolicy 0
  interviewOnJoin := false
  coordinator := ⟨0⟩
  networkKnown := true
  devices := Inventory.new.insert { info := Tuya.plug }
  registry := {}
  store := .new

theorem writes_writable_iff_monday : WritesWritable
    (scheduleTask (scheduleValve .set [(28,"schedule_monday")])) ⟨1⟩ (.setPreset "06:00/21.0") 7 := by
  refine (writes_writable_iff _ _ _ BehaviorRegistry.shipped_withBuiltins _ ⟨1⟩ _ 7).mpr ?_
  rintro e d text he hd - ⟨-,-,entry,day,hentry,-,-,hstray⟩
  cases hd
  cases hentry
  exact hstray ⟨_,List.mem_cons_self,rfl,by decide⟩

/-- A schedule that may only be read is written. -/
theorem report_only_written : ¬ WritesWritable
    (scheduleTask (scheduleValve .report [(28,"schedule_monday")])) ⟨1⟩ (.setPreset "06:00/21.0")
      7 := by
  have hpoints : pointsOf .withBuiltins (scheduleValve .report [(28,"schedule_monday")]) Tuya.plug
      (.setPreset "06:00/21.0") = some [⟨28,.raw [1,6,0,0,210]⟩] := by
    decide +kernel
  have hsends : (scheduleTask (scheduleValve .report [(28,"schedule_monday")])).Sends ⟨1⟩ 7
      (.setPreset "06:00/21.0") [⟨28,.raw [1,6,0,0,210]⟩] :=
    Task.sends_of_points (e := { info := Tuya.plug }) rfl rfl hpoints
  obtain ⟨endpoint,hplan⟩ := hsends
  intro h
  obtain ⟨e,d,points,he,hd,hpoints',-,hall⟩ := h endpoint _ hplan
  cases he
  cases hd
  obtain rfl := Option.some.inj (hpoints.symm.trans hpoints')
  obtain ⟨entry,hentry,-,haccess⟩ := hall _ List.mem_cons_self
  rw [List.mem_singleton.mp hentry] at haccess
  exact haccess rfl

end Sample

end Writes

end Rszigbee
