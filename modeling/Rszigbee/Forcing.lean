import Rszigbee.Facts
import Rszigbee.Registrations

/-! What becomes of a device whose definition forces a power source. The source and the flag are
two facts of its node descriptor; only the source is looked at before both are overridden. -/
namespace Rszigbee
namespace Task

variable {E : Engine}

/-- A device is powered as forced, flagged as sleeping exactly on a battery, and so recorded. -/
def PoweredBy (t : Task E) (ieee : Ieee) (power : PowerSource) : Prop :=
  ∃ e, t.devices.get ieee = some e ∧ e.info.powerSource = power ∧
    (e.reachability.isSleepy = true ↔ power = .battery) ∧
    ∃ r, t.store.devices.lookup e.info.ieee = some r ∧ r.powerSource = power

/-- The stored record of an entry has this power source. -/
def RecordedWith (t : Task E) (e : Entry) (power : PowerSource) : Prop :=
  ∃ r, t.store.devices.lookup e.info.ieee = some r ∧ r.powerSource = power

section Metadata
variable {t : Task E} {ieee : Ieee} {e : Entry} {hint : PowerSourceHint} {power : PowerSource}
  {sleepy : Bool} {env : Env}

theorem forced_sleepy_iff (h : forced hint = some (power,sleepy)) :
    sleepy = true ↔ power = .battery := by
  cases hint <;> simp [forced] at h <;> simp [← h.1,← h.2]

/-- Where the device reported what is forced, nothing is done. -/
theorem applyDefinitionMetadata_same (he : t.devices.get ieee = some e)
    (hforces : (t.resolve ieee).bind E.forcePowerSource = some hint)
    (hknown : forced hint = some (power,sleepy)) (hsame : e.info.powerSource = power) :
    t.applyDefinitionMetadata ieee env = t := by
  simp [applyDefinitionMetadata,hforces,hknown,he,hsame]

/-- Where it reported another, both are written, and the record. -/
theorem applyDefinitionMetadata_other (env : Env) (he : t.devices.get ieee = some e)
    (hforces : (t.resolve ieee).bind E.forcePowerSource = some hint)
    (hknown : forced hint = some (power,sleepy)) (hother : e.info.powerSource ≠ power) :
    ∃ e', (t.applyDefinitionMetadata ieee env).devices.get ieee = some e' ∧
      e'.info = { e.info with powerSource := power } ∧ e'.reachability.isSleepy = sleepy ∧
      (t.applyDefinitionMetadata ieee env).store =
        t.store.upsertDevice (persistedFromEntry e') env.upsertDevice := by
  let f : Entry → Entry := fun e => { e with
    info := { e.info with powerSource := power }
    reachability := { e.reachability with isSleepy := sleepy } }
  have happly : t.applyDefinitionMetadata ieee env = (t.modifyDevice ieee f).persist ieee env := by
    simp [applyDefinitionMetadata,hforces,hknown,he,hother,f]
  have hget : (t.modifyDevice ieee f).devices.get ieee = some (f e) := by
    rw [get_modifyDevice,if_pos rfl,he]
    rfl
  refine ⟨f e,by rw [happly,devices_persist,hget],rfl,rfl,?_⟩
  rw [happly,persist,hget]
  rfl

theorem recordedWith_upsert (power : PowerSource) (s : Store) (e : Entry) (answer : WriteAnswer) :
    (∃ r, (s.upsertDevice (persistedFromEntry e) answer).devices.lookup e.info.ieee = some r ∧
        r.powerSource = power) ↔
      (answer.effective = true ∧ e.info.powerSource = power) ∨
        answer.effective = false ∧ ∃ r, s.devices.lookup e.info.ieee = some r ∧
          r.powerSource = power := by
  have hkey : (persistedFromEntry e).ieee = e.info.ieee := rfl
  have hpower : (persistedFromEntry e).powerSource = e.info.powerSource := rfl
  rw [Store.upsertDevice]
  cases answer.effective with
  | false => simp
  | true => simp [hkey,hpower]

/-- A forced power source wins, in the entry and in its record, exactly when the device is flagged
as its forced source has it or reported another source, and the record is written or has the
forced source already. -/
theorem forced_wins_iff (he : t.devices.get ieee = some e)
    (hforces : (t.resolve ieee).bind E.forcePowerSource = some hint)
    (hknown : forced hint = some (power,sleepy)) (env : Env) :
    (t.applyDefinitionMetadata ieee env).PoweredBy ieee power ↔
      (e.info.powerSource = power → (e.reachability.isSleepy = true ↔ power = .battery)) ∧
        ((e.info.powerSource ≠ power ∧ env.upsertDevice.effective = true) ∨
          t.RecordedWith e power) := by
  by_cases hsame : e.info.powerSource = power
  · rw [applyDefinitionMetadata_same he hforces hknown hsame]
    simp [PoweredBy,RecordedWith,he,hsame]
  · obtain ⟨e',hget,hinfo,hflag,hstore⟩ := applyDefinitionMetadata_other env he hforces hknown hsame
    have hieee : e'.info.ieee = e.info.ieee := by rw [hinfo]
    have hpower : e'.info.powerSource = power := by rw [hinfo]
    have hrecorded := recordedWith_upsert power t.store e' env.upsertDevice
    rw [hieee] at hrecorded
    rw [PoweredBy,hstore]
    simp only [hget,Option.some.injEq,exists_eq_left',hpower,hflag,forced_sleepy_iff hknown,
      true_and,hsame,false_imp_iff]
    rw [hieee,hrecorded,RecordedWith]
    cases env.upsertDevice.effective <;> simp [hpower,hsame]

end Metadata

end Task

section Override

/-- A lamp that reports itself as sleeping on mains. -/
def forcedLamp : Definition where
  model := "LAMP"
  matchRules := { models := ["LAMP"] }
  extend := [.forcePowerSource .mains]

/-- An index of that lamp alone. -/
def lampIndex : DefinitionIndex := DefinitionIndex.insertAll id [forcedLamp] {}

def lampEngine : Engine := .ofIndex id lampIndex ⟨fun _ => "",fun _ => ""⟩ (Tuya.side ∅)

def lampRecord : PersistedDevice where
  ieee := ⟨0xa⟩
  nwk := ⟨0x1001⟩
  kind := .router
  interview := .successful
  basic := { modelId := some "LAMP" }

/-- The store of a network with such a lamp. -/
def lampStored : Store := ⟨none,(∅ : Table Ieee PersistedDevice).insert ⟨0xa⟩ lampRecord⟩

/-- A coordinator with a network is started on. -/
def startsLamp : SystemInput lampEngine := .start {
    network := {
      panId := none
      extendedPanId := none
      channel := 11
      networkKey := none
      onMismatch := .form }
    backup := none
    reachability := silencePolicy defaultSilenceLimit
    interviewOnJoin := false
    registry := ({} : ClusterRegistry) } {
  adapterStart := .ok .formed
  coordinatorIeee := .ok ⟨0xc0⟩ }

/-- Its node descriptor: on mains, and not listening when idle. -/
def describesLamp : SystemInput lampEngine :=
  .task (.request (.interviewUpdate ⟨0xa⟩ (.nodeDescriptor .router .mains true)) fun _ => {})

/-- The lamp as the descriptor leaves it. -/
def lampEntry : Entry :=
  Task.updated lampEngine (.nodeDescriptor .router .mains true) (entryFromPersisted lampRecord)

theorem resolve_lamp : (lampEngine.resolve lampEntry.info).bind lampEngine.forcePowerSource =
    some .mains := by
  obtain ⟨hindex,hdefinitions⟩ := DefinitionIndex.represents_insertAll [forcedLamp]
    (DefinitionIndex.represents_empty id)
  have hfound : lampIndex.resolve id (deviceMatch lampEntry.info) = some forcedLamp := by
    rw [lampIndex,DefinitionIndex.resolve_eq_search hindex,hdefinitions]
    decide
  have hengine : lampEngine.resolve lampEntry.info =
      lampIndex.resolve id (deviceMatch lampEntry.info) := rfl
  rw [hengine,hfound]
  rfl

theorem run_lamp : ∃ t, Runs.run System.step (.off lampStored) [startsLamp,describesLamp] = .on t ∧
    t.devices.get ⟨0xa⟩ = some lampEntry := by
  refine ⟨_,rfl,?_⟩
  rw [Task.get_step_interviewUpdate (Task.stopped_start _ _),if_pos rfl,Task.devices_start]
  rfl

theorem forced_wins_iff_lamp : ∃ t : Task lampEngine,
    Runs.run System.step (.off lampStored) [startsLamp,describesLamp] = .on t ∧
      ((t.applyDefinitionMetadata ⟨0xa⟩ {}).PoweredBy ⟨0xa⟩ .mains ↔
        (lampEntry.info.powerSource = .mains →
          (lampEntry.reachability.isSleepy = true ↔ PowerSource.mains = .battery)) ∧
          ((lampEntry.info.powerSource ≠ .mains ∧ (WriteAnswer.done).effective = true) ∨
            t.RecordedWith lampEntry .mains)) := by
  obtain ⟨t,hrun,hget⟩ := run_lamp
  have hforces : (t.resolve ⟨0xa⟩).bind lampEngine.forcePowerSource = some .mains := by
    rw [Task.resolve,hget]
    exact resolve_lamp
  exact ⟨t,hrun,Task.forced_wins_iff hget hforces rfl {}⟩

/-- After a definition that forces mains, a lamp that was reached so is still flagged. -/
theorem forced_lamp_sleeps : ¬ ∀ (store : Store) (is : List (SystemInput lampEngine))
    (t : Task lampEngine), Runs.run System.step (.off store) is = .on t →
    ∀ ieee e hint power sleepy, t.devices.get ieee = some e →
      (t.resolve ieee).bind lampEngine.forcePowerSource = some hint →
      Task.forced hint = some (power,sleepy) →
      (t.applyDefinitionMetadata ieee {}).PoweredBy ieee power := by
  intro h
  obtain ⟨t,hrun,hget⟩ := run_lamp
  have hforces : (t.resolve ⟨0xa⟩).bind lampEngine.forcePowerSource = some .mains := by
    rw [Task.resolve,hget]
    exact resolve_lamp
  have hwins := h lampStored _ t hrun ⟨0xa⟩ lampEntry .mains .mains false hget hforces rfl
  rw [Task.applyDefinitionMetadata_same hget hforces rfl rfl] at hwins
  obtain ⟨e,he,-,hflag,-⟩ := hwins
  rw [hget] at he
  cases he
  revert hflag
  decide

end Override
end Rszigbee
