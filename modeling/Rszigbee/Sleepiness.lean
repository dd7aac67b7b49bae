import Rszigbee.Facts
import Rszigbee.Records

/-! The two records of whether a device sleeps: the class its power source and check-in interval
put it in, and the flag beside what is known of its reachability. -/
namespace Rszigbee

/-- A device that is classed as sleeping is flagged so. -/
def Entry.Consistent (e : Entry) : Prop := e.info.isSleepy = true → e.reachability.isSleepy = true

/-- The two records. -/
def Entry.sleeps (e : Entry) : Bool × Bool := (e.info.isSleepy,e.reachability.isSleepy)

/-- A policy that probes only devices not flagged as sleeping. -/
def ReachabilityPolicy.ProbesAwake (policy : ReachabilityPolicy) : Prop :=
  ∀ ctx due attempts recover, (policy ctx).next = .probe due attempts recover →
    ctx.current.isSleepy = false

/-- No such policy has a device probed that is classed as sleeping. -/
def Entry.Spared (e : Entry) : Prop :=
  ∀ policy : ReachabilityPolicy, policy.ProbesAwake → e.info.isSleepy = true →
    ∀ now wall due attempts recover,
      (policy ⟨e.info,e.reachability,now,wall⟩).next ≠ .probe due attempts recover

theorem Entry.Consistent.spared {e : Entry} (h : e.Consistent) : e.Spared := by
  intro policy hpolicy hsleepy now wall due attempts recover hprobe
  have hawake : e.reachability.isSleepy = false := hpolicy _ due attempts recover hprobe
  rw [h hsleepy] at hawake
  cases hawake

theorem durable_sleeps : Durable Entry.sleeps where
  mark m e := by
    cases m with
    | transmitted time result => cases result <;> rfl
    | _ => rfl
  verdict a e := rfl
  nwk n e := rfl

namespace Task

variable {E : Engine}

def Consistent (t : Task E) : Prop := ∀ i e, t.devices.get i = some e → e.Consistent

def Spared (t : Task E) : Prop := ∀ i e, t.devices.get i = some e → e.Spared

/-- What an input may not do: make an unknown device join, report a sleeping device that
listens when idle, or force mains on a device with a check-in interval. -/
def ClassedAlike (t : Task E) : Input E → Prop
  | .event (.deviceJoined ieee nwk) _ _ =>
    ∀ a, (ieee <|> t.devices.resolve nwk) = some a → (t.devices.get a).isSome = true
  | .request (.interviewUpdate ieee (.nodeDescriptor kind power sleepy)) _ =>
    ∀ e, t.devices.get ieee = some e →
      DeviceInfo.isSleepy { e.info with kind := kind, powerSource := power } = true → sleepy = true
  | .request (.interviewUpdate ieee (.finished outcome)) _ =>
    ∀ e, t.devices.get ieee = some e → e.info.checkinInterval.isSome = true →
      ∀ power, ((E.resolve (finishInterview outcome e).info).bind E.forcePowerSource).bind forced =
        some (power,false) → e.info.powerSource = power
  | _ => True

/-- A turn keeps the records alike where what it makes of the entries is. -/
theorem consistent_step_iff {t : Task E} (hrun : t.stopped = false) (i : Input E) :
    (t.step i).Consistent ↔ ∀ j e, t.entryAfter i j = some e → e.Consistent := by
  have hone (o : Option Entry) : (∀ e, o = some e → e.Consistent) ↔
      ∀ b, o.map Entry.sleeps = some b → b.1 = true → b.2 = true := by
    cases o with
    | none => simp
    | some e => simp [Entry.Consistent,Entry.sleeps]
  rw [Consistent]
  refine forall_congr' fun j => ?_
  rw [hone,hone,fact_step durable_sleeps hrun]

theorem isSleepy_newEntry (ieee : Ieee) (nwk : Nwk) (now : SystemTime) :
    ¬ (newEntry ieee nwk now).Consistent := by
  simp [Entry.Consistent,newEntry,DeviceInfo.new,DeviceInfo.isSleepy,ReachabilityInfo.recordTraffic]

/-- Only batteries are forced to sleep. -/
theorem forced_cases {hint : PowerSourceHint} {power : PowerSource} {sleepy : Bool}
    (h : forced hint = some (power,sleepy)) :
    sleepy = true ∨ sleepy = false ∧ (power = .mains ∨ power = .dc) := by
  cases hint <;> simp_all [forced]

/-- A forced power source keeps the records alike, but for mains on a device that checks in. -/
theorem consistent_finished {outcome : InterviewOutcome} {e : Entry} (h : e.Consistent) :
    (updated E (.finished outcome) e).Consistent ↔ (e.info.checkinInterval.isSome = true →
      ∀ power, ((E.resolve (finishInterview outcome e).info).bind E.forcePowerSource).bind forced =
        some (power,false) → e.info.powerSource = power) := by
  have hfinish : (finishInterview outcome e).Consistent := h
  have hpower : (finishInterview outcome e).info.powerSource = e.info.powerSource := rfl
  have hcheckin : (finishInterview outcome e).info.checkinInterval = e.info.checkinInterval := rfl
  rw [updated,withMetadata,hpower]
  cases hmeta : ((E.resolve (finishInterview outcome e).info).bind E.forcePowerSource).bind
      forced with
  | none => simpa using hfinish
  | some f =>
    obtain ⟨power,sleepy⟩ := f
    obtain ⟨hint,-,hforced⟩ := Option.bind_eq_some_iff.mp hmeta
    by_cases hsame : e.info.powerSource = power
    · simpa [hsame] using hfinish
    · simp only [if_neg hsame]
      rcases forced_cases hforced with rfl | ⟨rfl,hawake⟩
      · simp [Entry.Consistent]
      · rcases hawake with rfl | rfl
        · simp [Entry.Consistent,DeviceInfo.isSleepy,hcheckin,hsame]
        · simp [Entry.Consistent,DeviceInfo.isSleepy,hcheckin,hsame]

theorem consistent_descriptor {kind : DeviceKind} {power : PowerSource} {sleepy : Bool}
    {e : Entry} : (updated E (.nodeDescriptor kind power sleepy) e).Consistent ↔
      (DeviceInfo.isSleepy { e.info with kind := kind, powerSource := power } = true →
        sleepy = true) := Iff.rfl

/-- One turn keeps every device's records alike exactly when its input classes them alike. -/
theorem consistent_step {t : Task E} (hrun : t.stopped = false) (i : Input E)
    (h : t.Consistent) : (t.step i).Consistent ↔ t.ClassedAlike i := by
  rw [consistent_step_iff hrun]
  have hupdate (ieee : Ieee) (update : InterviewUpdate) (env : ℕ → Env) :
      (∀ j e, t.entryAfter (.request (.interviewUpdate ieee update) env) j = some e →
        e.Consistent) ↔
      ∀ e, t.devices.get ieee = some e → (updated E update e).Consistent := by
    constructor
    · intro hall e he
      refine hall ieee _ ?_
      rw [entryAfter,if_pos rfl,he]
      rfl
    · intro hone j e he
      rw [entryAfter] at he
      split at he
      · rename_i hj
        obtain ⟨e',he',rfl⟩ := Option.map_eq_some_iff.mp he
        exact hone e' (hj ▸ he')
      · exact h j e he
  cases i with
  | request request env =>
    cases request with
    | interviewUpdate ieee update =>
      rw [hupdate]
      cases update with
      | started => exact iff_of_true (fun e he => h ieee e he) trivial
      | step step => exact iff_of_true (fun e he => h ieee e he) trivial
      | nodeDescriptor kind power sleepy =>
        exact forall₂_congr fun e he => consistent_descriptor
      | finished outcome =>
        exact forall₂_congr fun e he => consistent_finished (h ieee e he)
    | _ => exact iff_of_true h trivial
  | event event origin env =>
    cases event with
    | deviceJoined ieee nwk =>
      rw [ClassedAlike]
      constructor
      · intro hall a ha
        by_contra hunknown
        have hnone : t.devices.get a = none := by simpa using hunknown
        refine isSleepy_newEntry a nwk (env 0).wall (hall a _ ?_)
        rw [entryAfter,if_pos ha,hnone]
        rfl
      · intro hknown j e he
        rw [entryAfter] at he
        split at he
        · rename_i hj
          obtain ⟨e',he'⟩ := Option.isSome_iff_exists.mp (hknown j hj)
          rw [he',Option.getD_some] at he
          exact Option.some.inj he ▸ h j e' he'
        · exact h j e he
    | deviceLeft ieee nwk =>
      refine iff_of_true (fun j e he => ?_) trivial
      rw [entryAfter] at he
      split at he
      · cases he
      · exact h j e he
    | _ => exact iff_of_true h trivial
  | _ => exact iff_of_true h trivial

end Task

namespace System

variable {E : Engine}

/-- Nothing that runs takes a sleeping device for an awake one. -/
def Consistent : System E → Prop
  | off _ => True
  | on t => t.Consistent

/-- No policy that goes by the flag probes what sleeps. -/
def Spared : System E → Prop
  | off _ => True
  | on t => t.Spared

theorem Consistent.spared {s : System E} (h : s.Consistent) : s.Spared := by
  cases s with
  | off store => trivial
  | on t => exact fun i e he => (h i e he).spared

/-- While the loop runs its inputs class devices alike, and nothing that is restored is classed
as sleeping. -/
def ClassedAlike (s : System E) (input : SystemInput E) : Prop :=
  match s,input with
  | off store,.start builder answers => (∃ config, builder.start store answers = .ok config) →
      ∀ i e, (Inventory.restored store).get i = some e → e.info.isSleepy = false
  | on t,.task i => t.stopped = false → t.ClassedAlike i
  | _,_ => True

/-- Whatever was stored of a device, its flag is not set when it is restored. -/
theorem awake_restored {store : Store} {i : Ieee} {e : Entry}
    (h : (Inventory.restored store).get i = some e) : e.reachability.isSleepy = false := by
  have hnew : ∀ i e, Inventory.new.get i = some e → e.reachability.isSleepy = false := by
    intro i e he
    simp [Inventory.new,Inventory.get] at he
  exact Inventory.restore_each (fun _ => rfl) _ _ hnew i e h

theorem consistent_start {builder : ZigbeeBuilder E} {store : Store} {answers : StartAnswers}
    {config : TaskConfig E} (h : builder.start store answers = .ok config) (env : Env) :
    (Task.start config env).Consistent ↔
      ∀ i e, (Inventory.restored store).get i = some e → e.info.isSleepy = false := by
  have hdevices := Task.devices_start config env
  obtain ⟨-,hconfig,-⟩ := ZigbeeBuilder.start_ok h
  rw [hconfig,← Inventory.restored] at hdevices
  have hawake : (Task.coordinatorEntry config.coordinator env.wall).info.isSleepy = false := rfl
  constructor
  · intro hall i e he
    by_contra hsleepy
    rw [Bool.not_eq_false] at hsleepy
    have hget : (Task.start config env).devices.get i = some e := by
      rw [hdevices]
      split
      · exact he
      · rename_i hunknown
        have hne : i ≠ config.coordinator := by
          rintro rfl
          exact hunknown (by rw [he]; rfl)
        exact (Inventory.insert_get _ _ _).trans ((if_neg hne).trans he)
    have hflag := hall i e hget hsleepy
    rw [awake_restored he] at hflag
    cases hflag
  · intro hall i e he hsleepy
    rw [hdevices] at he
    split at he
    · rw [hall i e he] at hsleepy
      cases hsleepy
    · rw [Inventory.insert_get] at he
      split at he
      · cases he
        rw [hawake] at hsleepy
        cases hsleepy
      · rw [hall i e he] at hsleepy
        cases hsleepy

theorem consistent_turn {s : System E} (input : SystemInput E) (h : s.Consistent) :
    (s.step input).Consistent ↔ s.ClassedAlike input := by
  cases s with
  | off store =>
    cases input with
    | start builder answers =>
      rw [step,ClassedAlike]
      cases hconfig : builder.start store answers with
      | ok config =>
        dsimp only
        rw [Consistent,consistent_start hconfig]
        simp
      | error e => simp [Consistent]
    | _ => exact iff_of_true trivial trivial
  | on t =>
    cases input with
    | task i =>
      rw [step,ClassedAlike]
      by_cases hstopped : t.stopped = true
      · rw [Task.step_stopped hstopped]
        exact iff_of_true h fun hrun => absurd hstopped (by simp [hrun])
      · have hrun : t.stopped = false := by simpa using hstopped
        rw [Consistent,Task.consistent_step hrun i h]
        simp [hrun]
    | start builder answers => exact iff_of_true h trivial
    | crash => exact iff_of_true trivial trivial

/-- In a run from any stored records every device's two records of whether it sleeps agree, and
no policy that goes by the flag probes a device classed as sleeping, exactly when nothing that
sleeps is restored or joins unknown, and interviews class each device as they flag it. -/
theorem sleepiness_consistent_iff (store : Store) (is : List (SystemInput E)) :
    (∀ pre, pre <+: is → (Runs.run step (off store) pre).Consistent ∧
      (Runs.run step (off store) pre).Spared) ↔
      Runs.Meets step ClassedAlike (off store) is := by
  have hruns : (∀ pre, pre <+: is → (Runs.run step (off store) pre).Consistent) ↔
      Runs.Meets step ClassedAlike (off store) is :=
    Runs.always_iff_meets step (J := fun _ => True) (fun _ _ _ => trivial)
      (fun _ input _ hs => consistent_turn input hs) (s := off store) trivial trivial is
  rw [← hruns]
  exact forall₂_congr fun pre _ => and_iff_left_of_imp Consistent.spared

/-- A battery device whose interview is over. -/
def batterySensor : PersistedDevice where
  ieee := ⟨0xa⟩
  nwk := ⟨0x1001⟩
  kind := .endDevice
  powerSource := .battery
  interview := .successful

/-- The store of a network with that device. -/
def sensorStored : Store := ⟨none,(∅ : Table Ieee PersistedDevice).insert ⟨0xa⟩ batterySensor⟩

/-- Restored from its record, it is not flagged as sleeping. -/
theorem battery_sensor_flagged_awake : ¬ ∀ (store : Store) (is : List (SystemInput Engine.bare)),
    (Runs.run step (off store) is).Consistent := by
  intro h
  have hstart := (consistent_turn (s := off sensorStored) startsBare trivial).mp
    (h sensorStored [startsBare])
  have hawake : (entryFromPersisted batterySensor).info.isSleepy = false :=
    hstart ⟨_,rfl⟩ ⟨0xa⟩ _ rfl
  cases hawake

end System
end Rszigbee
