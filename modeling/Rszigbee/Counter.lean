import Rszigbee.System

/-! The stored frame counter.
The task keeps a copy of what it last stored and writes when the live counter has caught
up with the copy. The copy starts at zero with every task, whatever is stored. -/
namespace Rszigbee

/-- What the stored counter depends on: whether the network is known, the copy, and the
stored record. -/
structure Counters where
  known : Bool
  persisted : UInt32
  network : Option PersistedNetwork

namespace Counters

/-- The stored counter; zero stands for none. -/
def stored (c : Counters) : UInt32 := (c.network.map PersistedNetwork.frameCounter).getD 0

/-- The counter to store for a live one. -/
def ahead (live : UInt32) : UInt32 := saturatingAdd live frameCounterMargin

def write (c : Counters) (record : PersistedNetwork) (answer : WriteAnswer) : Counters where
  known := c.known || answer.isDone
  persisted := if answer.isDone then record.frameCounter else c.persisted
  network := if answer.effective then some record else c.network

theorem le_ahead (live : UInt32) : live ≤ ahead live := by
  rw [ahead]
  exact le_saturatingAdd live _

theorem lt_ahead (live : UInt32) : live < ahead live ∨ ahead live = 0xffffffff := by
  rw [ahead]
  exact lt_saturatingAdd live (by decide)

theorem stored_write_done (c : Counters) (record : PersistedNetwork) :
    (c.write record .done).stored = record.frameCounter := rfl

theorem persisted_write_done (c : Counters) (record : PersistedNetwork) :
    (c.write record .done).persisted = (c.write record .done).stored := rfl

/-- A refresh: a known network's record is written again when the live counter has caught up. -/
def refresh (c : Counters) (env : Env) : Counters :=
  match c.known,env.networkInfo,env.loadNetwork,c.network with
  | true,.ok info,none,some record =>
    if info.frameCounter < c.persisted then c
    else c.write { record with frameCounter := ahead info.frameCounter } env.saveNetwork
  | _,_,_,_ => c

/-- Before the first turn: an unknown network is written. -/
def complete (c : Counters) (record : NetworkInfo → PersistedNetwork) (env : Env) : Counters :=
  match c.known,env.networkInfo with
  | false,.ok info =>
    c.write { record info with frameCounter := ahead info.frameCounter } env.saveNetwork
  | _,_ => c

theorem refresh_of_live {c : Counters} {env : Env} {info : NetworkInfo} {record : PersistedNetwork}
    (hknown : c.known = true) (hinfo : env.networkInfo = .ok info) (hload : env.loadNetwork = none)
    (hrecord : c.network = some record) : c.refresh env =
      if info.frameCounter < c.persisted then c
      else c.write { record with frameCounter := ahead info.frameCounter } env.saveNetwork := by
  simp [refresh,hknown,hinfo,hload,hrecord]

/-- A refresh writes a counter ahead of a live one that has caught up, or does nothing. -/
theorem refresh_cases (c : Counters) (env : Env) : c.refresh env = c ∨
    ∃ info record, c.known = true ∧ env.networkInfo = .ok info ∧ c.network = some record ∧
      c.persisted ≤ info.frameCounter ∧ c.refresh env =
        c.write { record with frameCounter := ahead info.frameCounter } env.saveNetwork := by
  cases hinfo : env.networkInfo with
  | error e =>
    left
    simp [refresh,hinfo]
  | ok info =>
    cases hrecord : c.network with
    | none =>
      left
      simp [refresh,hrecord]
    | some record =>
      by_cases hask : c.known = true ∧ env.loadNetwork = none
      · have heq := refresh_of_live hask.1 hinfo hask.2 hrecord
        by_cases hlive : info.frameCounter < c.persisted
        · left
          simpa [hlive] using heq
        · right
          have hle : c.persisted ≤ info.frameCounter := UInt32.not_lt.mp hlive
          exact ⟨info,record,hask.1,rfl,rfl,hle,by simpa [hlive] using heq⟩
      · left
        unfold refresh
        split
        · simp_all
        · rfl

theorem complete_cases (c : Counters) (record : NetworkInfo → PersistedNetwork) (env : Env) :
    c.complete record env = c ∨ ∃ info, c.known = false ∧ env.networkInfo = .ok info ∧
      c.complete record env =
        c.write { record info with frameCounter := ahead info.frameCounter } env.saveNetwork := by
  unfold complete
  split
  · rename_i info hknown hinfo
    exact Or.inr ⟨info,hknown,hinfo,rfl⟩
  · exact Or.inl rfl

/-- The copy never exceeds what is stored, and it is zero while the network is unknown. -/
structure Bounded (c : Counters) : Prop where
  copy : c.persisted ≤ c.stored
  unknown : c.known = false → c.persisted = 0
  known : c.known = true → ∃ record, c.network = some record

namespace Bounded

variable {c : Counters}

/-- A failed write may have reached the store, but then it only raised what is stored. -/
theorem write (h : c.Bounded) {record : PersistedNetwork} (answer : WriteAnswer)
    (hrecord : c.persisted ≤ record.frameCounter) : (c.write record answer).Bounded := by
  cases answer with
  | done => exact ⟨UInt32.le_refl _,by simp [Counters.write,WriteAnswer.isDone],fun _ => ⟨record,rfl⟩⟩
  | failed e applied =>
    cases applied with
    | true =>
      refine ⟨hrecord,fun hknown => h.unknown (by simpa [Counters.write,WriteAnswer.isDone] using hknown),
        fun _ => ⟨record,rfl⟩⟩
    | false =>
      refine ⟨h.copy,fun hknown => h.unknown ?_,fun hknown => h.known ?_⟩
      · simpa [Counters.write,WriteAnswer.isDone] using hknown
      · simpa [Counters.write,WriteAnswer.isDone] using hknown

theorem refresh (h : c.Bounded) (env : Env) : (c.refresh env).Bounded := by
  rcases c.refresh_cases env with he | ⟨info,record,-,-,-,hlive,he⟩
  · rwa [he]
  · rw [he]
    have hahead := le_ahead info.frameCounter
    exact h.write _ (UInt32.le_trans hlive hahead)

theorem complete (h : c.Bounded) (record : NetworkInfo → PersistedNetwork) (env : Env) :
    (c.complete record env).Bounded := by
  rcases c.complete_cases record env with he | ⟨info,hknown,-,he⟩
  · rwa [he]
  · rw [he]
    refine h.write _ ?_
    rw [h.unknown hknown]
    exact UInt32.zero_le

/-- A task starts with a copy of zero. -/
theorem start (network : Option PersistedNetwork) :
    Bounded ⟨network.any fun n => !n.needsCompleting,0,network⟩ := by
  refine ⟨UInt32.zero_le,fun _ => rfl,fun hknown => ?_⟩
  cases network with
  | none => simp at hknown
  | some record => exact ⟨record,rfl⟩

/-- After a refresh that everybody answered, what is stored lies ahead of the live counter. -/
theorem ahead_of_live (h : c.Bounded) {env : Env} {info : NetworkInfo} (hknown : c.known = true)
    (hinfo : env.networkInfo = .ok info) (hload : env.loadNetwork = none)
    (hsave : env.saveNetwork = .done) :
    info.frameCounter < (c.refresh env).stored ∨ (c.refresh env).stored = 0xffffffff := by
  obtain ⟨record,hrecord⟩ := h.known hknown
  rw [refresh_of_live hknown hinfo hload hrecord]
  by_cases hlive : info.frameCounter < c.persisted
  · left
    rw [if_pos hlive]
    exact UInt32.lt_of_lt_of_le hlive h.copy
  · have hahead := lt_ahead info.frameCounter
    rw [if_neg hlive,hsave,stored_write_done]
    simpa only using hahead

end Bounded

/-- With a store that does what it is asked, the copy is what is stored, once it is set. -/
structure Exact (c : Counters) : Prop where
  bounded : c.Bounded
  copy : c.persisted = 0 ∨ c.persisted = c.stored

namespace Exact

variable {c : Counters}

theorem refresh (h : c.Exact) {env : Env} (hsave : env.saveNetwork = .done) :
    (c.refresh env).Exact := by
  refine ⟨h.bounded.refresh env,?_⟩
  rcases c.refresh_cases env with he | ⟨info,record,-,-,-,-,he⟩
  · rw [he]
    exact h.copy
  · rw [he,hsave]
    exact Or.inr (persisted_write_done _ _)

theorem complete (h : c.Exact) {record : NetworkInfo → PersistedNetwork} {env : Env}
    (hsave : env.saveNetwork = .done) : (c.complete record env).Exact := by
  refine ⟨h.bounded.complete record env,?_⟩
  rcases c.complete_cases record env with he | ⟨info,-,-,he⟩
  · rw [he]
    exact h.copy
  · rw [he,hsave]
    exact Or.inr (persisted_write_done _ _)

/-- Only a refresh against a copy that is still zero can lower what is stored. -/
theorem stored_le_refresh_iff (h : c.Exact) {env : Env} (hload : env.loadNetwork = none)
    (hsave : env.saveNetwork = .done) : c.stored ≤ (c.refresh env).stored ↔
      (c.known = true → c.persisted = 0 → ∀ info, env.networkInfo = .ok info →
        c.stored ≤ ahead info.frameCounter) := by
  constructor
  · intro hle hknown hzero info hinfo
    obtain ⟨record,hrecord⟩ := h.bounded.known hknown
    have hnot : ¬ info.frameCounter < c.persisted := by
      rw [hzero]
      exact UInt32.not_lt.mpr UInt32.zero_le
    rw [refresh_of_live hknown hinfo hload hrecord,if_neg hnot,hsave,stored_write_done] at hle
    exact hle
  · intro hcover
    rcases c.refresh_cases env with he | ⟨info,record,hknown,hinfo,-,hlive,he⟩
    · rw [he]
      exact UInt32.le_refl _
    · rw [he,hsave,stored_write_done]
      rcases h.copy with hzero | hcopy
      · exact hcover hknown hzero info hinfo
      · have hahead := le_ahead info.frameCounter
        rw [hcopy] at hlive
        exact UInt32.le_trans hlive hahead

theorem stored_le_complete_iff {record : NetworkInfo → PersistedNetwork} {env : Env}
    (hsave : env.saveNetwork = .done) : c.stored ≤ (c.complete record env).stored ↔
      (c.known = false → ∀ info, env.networkInfo = .ok info → c.stored ≤ ahead info.frameCounter) := by
  constructor
  · intro hle hknown info hinfo
    simp only [Counters.complete,hknown,hinfo,hsave,stored_write_done] at hle
    exact hle
  · intro hcover
    rcases c.complete_cases record env with he | ⟨info,hknown,hinfo,he⟩
    · rw [he]
      exact UInt32.le_refl _
    · rw [he,hsave,stored_write_done]
      exact hcover hknown info hinfo

end Exact

end Counters

namespace Task

variable {E : Engine}

def counters (t : Task E) : Counters := ⟨t.networkKnown,t.persistedFrameCounter,t.store.network⟩

theorem restsOn_counters : RestsOn see [.networkKnown,.storedCounter,.network]
    (counters (E := E)) := by
  intro t u h
  have hknown : u.networkKnown = t.networkKnown := h .networkKnown (by decide)
  have hcounter : u.persistedFrameCounter = t.persistedFrameCounter := h .storedCounter (by decide)
  have hnetwork : u.store.network = t.store.network := h .network (by decide)
  rw [counters,counters,hknown,hcounter,hnetwork]

/-- Saving the record and noting the outcome. -/
theorem counters_saved (t : Task E) (record : PersistedNetwork) (answer : WriteAnswer) :
    counters (if answer.isDone = true then
        { { t with store := t.store.saveNetwork record answer } with
          networkKnown := true
          persistedFrameCounter := record.frameCounter }
      else { t with store := t.store.saveNetwork record answer }) =
      t.counters.write record answer := by
  cases answer with
  | done => simp [counters,Counters.write,WriteAnswer.isDone,WriteAnswer.effective,Store.saveNetwork]
  | failed e applied =>
    cases applied <;>
      simp [counters,Counters.write,WriteAnswer.isDone,WriteAnswer.effective,Store.saveNetwork]

theorem counters_refresh (t : Task E) (env : Env) :
    (t.refreshFrameCounter env).counters = t.counters.refresh env := by
  unfold refreshFrameCounter Counters.refresh
  cases hknown : t.networkKnown with
  | false => simp [counters,hknown]
  | true =>
    cases env.networkInfo with
    | error e => simp [counters,hknown]
    | ok info =>
      by_cases hlive : info.frameCounter < t.persistedFrameCounter
      · cases env.loadNetwork <;> cases hnetwork : t.store.network <;>
          simp [counters,hknown,hlive,hnetwork]
      · cases env.loadNetwork with
        | some e => simp [counters,hknown,hlive]
        | none =>
          cases hnetwork : t.store.network with
          | none => simp [counters,hknown,hlive,hnetwork]
          | some record =>
            have hsaved := counters_saved t { record with
              frameCounter := Counters.ahead info.frameCounter } env.saveNetwork
            simp only [counters,hknown,hnetwork,hlive] at hsaved ⊢
            simpa [Counters.ahead,hknown] using hsaved

/-- The record written for a network that is not known yet. -/
def networkRecord (coordinator : Ieee) (env : Env) (info : NetworkInfo) : PersistedNetwork where
  panId := info.panId
  extendedPanId := info.extendedPanId
  channel := info.channel
  nwkUpdateId := info.nwkUpdateId
  coordinatorIeee := coordinator
  keySequence := info.keySequence
  frameCounter := Counters.ahead info.frameCounter
  networkKey := match env.networkKey with
    | .ok key => key
    | .error _ => none

theorem counters_persistNetworkIfNeeded (t : Task E) (env : Env) :
    (t.persistNetworkIfNeeded env).counters =
      t.counters.complete (networkRecord t.coordinator env) env := by
  unfold persistNetworkIfNeeded Counters.complete
  cases hknown : t.networkKnown with
  | true => simp [counters,hknown]
  | false =>
    cases env.networkInfo with
    | error e => simp [counters,hknown]
    | ok info =>
      have hsaved := counters_saved t (networkRecord t.coordinator env info) env.saveNetwork
      cases hkey : env.networkKey with
      | ok key =>
        simp only [counters,hknown,networkRecord,hkey,Counters.ahead] at hsaved ⊢
        exact hsaved
      | error e =>
        simp only [counters,hknown,networkRecord,hkey,Counters.ahead] at hsaved ⊢
        exact hsaved

section Turns

/-- What the adapter and the store answer to the refresh an input ends with, if it does. -/
def refreshEnv (t : Task E) : Input E → Option Env
  | .tick env =>
    some (env (((t.expirePendingZdo (env 0).now).dueChecks (env 1).now).length + 2))
  | .request .stop env => some (env 0)
  | .handlesDropped env => some (env 0)
  | .adapterClosed env => some (env 0)
  | _ => none

theorem counters_shutdown (t : Task E) (env : Env) :
    (t.shutdown env).counters = t.counters.refresh env := by
  have hstop : (t.shutdown env).counters =
      ((t.emit .stopping).drainPending.refreshFrameCounter env).counters := rfl
  rw [hstop,counters_refresh,
    ((t.alters_emit .stopping).trans (alters_drainPending _)).keeps restsOn_counters (by decide)]

theorem counters_tick (t : Task E) (env : ℕ → Env) : (t.tick env).counters =
    t.counters.refresh
      (env (((t.expirePendingZdo (env 0).now).dueChecks (env 1).now).length + 2)) := by
  simp only [tick]
  rw [counters_refresh,((t.alters_expirePendingZdo _).trans (alters_runChecks _ _ _)).keeps
    restsOn_counters (by decide)]

/-- A turn refreshes the counter or leaves it alone. -/
theorem counters_step (t : Task E) (i : Input E) (hrun : t.stopped = false) :
    (t.step i).counters = match t.refreshEnv i with
      | some env => t.counters.refresh env
      | none => t.counters := by
  cases i with
  | request request env =>
    by_cases hstop : request = .stop
    · subst request
      have hend : (t.step (.request .stop env)).counters =
          ({ t with requests := t.requests ++ [Request.stop] }.shutdown (env 0)).counters := by
        simp only [step,hrun]
        rfl
      rw [hend,counters_shutdown]
      rfl
    · have hstep : t.step (.request request env) = { t with
          requests := t.requests ++ [request] }.handleRequest request t.requests.length env := by
        simp [step,hrun]
      rw [hstep,(alters_handleRequest _ hstop _ env).keeps restsOn_counters (by decide)]
      cases request <;> first | rfl | exact absurd rfl hstop
  | event event origin env =>
    have hsame := (t.alters_handleAdapterEvent event origin env).keeps restsOn_counters (by decide)
    simpa [step,hrun,refreshEnv] using hsame
  | tick env => simpa [step,hrun,refreshEnv] using counters_tick t env
  | abandon reply =>
    simp only [step,hrun]
    rfl
  | handlesDropped env => simpa [step,hrun,refreshEnv] using counters_shutdown t (env 0)
  | adapterClosed env => simpa [step,hrun,refreshEnv] using counters_shutdown t (env 0)

theorem counters_start (config : TaskConfig E) (env : Env) : (start config env).counters =
    Counters.complete ⟨config.networkKnown,0,config.store.network⟩
      (networkRecord config.coordinator env) env := by
  let t := (Task.new config).registerCoordinator env
  let t' := (t.devices.all.map fun e => e.info.ieee).foldl registerCustomClusters t
  have hregistered : Alters see [.devices,.addresses,.registry] (Task.new config) t' :=
    ((Task.new config).alters_registerCoordinator env).trans
      (Alters.foldl (fun t ieee => t.alters_registerCustomClusters ieee) _ _)
  have hcoordinator : t'.coordinator = config.coordinator := hregistered .coordinator (by decide)
  have hstart : (start config env).counters = (t'.persistNetworkIfNeeded env).counters := rfl
  rw [hstart,counters_persistNetworkIfNeeded,hregistered.keeps restsOn_counters (by decide),
    hcoordinator]
  rfl

end Turns

end Task
namespace System

variable {E : Engine}

/-- The counter of the record in the store, whether a task is running or not. -/
def storedCounter (s : System E) : UInt32 :=
  (s.store.network.map PersistedNetwork.frameCounter).getD 0

@[simp] theorem storedCounter_on (t : Task E) : (on t).storedCounter = t.counters.stored := rfl

section Resumed

/-- A complete record, stored by an earlier run of this coordinator. -/
def storedNetwork : PersistedNetwork where
  panId := 0x1a62
  extendedPanId := 1
  channel := 11
  nwkUpdateId := 0
  coordinatorIeee := ⟨0xc0⟩
  keySequence := 0
  frameCounter := 6024
  networkKey := some ⟨Vector.replicate 16 0x11⟩

def storeHolding (network : PersistedNetwork) : Store := { Store.new with network := some network }

def bareBuilder : ZigbeeBuilder Engine.bare where
  network := ⟨none,none,11,none,.fail⟩
  backup := none
  reachability := silencePolicy defaultSilenceLimit
  interviewOnJoin := false
  registry := ()

def resume : SystemInput Engine.bare := .start bareBuilder { coordinatorIeee := .ok ⟨0xc0⟩ }

/-- A tick at which the coordinator reports a live counter. -/
def tickAt (live : UInt32) : SystemInput Engine.bare :=
  .task (.tick fun _ => { networkInfo := .ok ⟨0x1a62,1,11,0,0,live⟩ })

/-- The task a start on a stored network runs. -/
def resumedTask (network : PersistedNetwork) : Task Engine.bare := Task.start {
  reachability := silencePolicy defaultSilenceLimit
  interviewOnJoin := false
  devices := []
  outcome := .resumed
  coordinator := ⟨0xc0⟩
  networkKnown := !network.needsCompleting
  registry := ()
  store := storeHolding network } {}

theorem run_resume : Runs.run step (off (storeHolding storedNetwork)) [resume] =
    on (resumedTask storedNetwork) := rfl

theorem counters_resumed : (resumedTask storedNetwork).counters = ⟨true,0,some storedNetwork⟩ := by
  rw [resumedTask,Task.counters_start]
  rfl

end Resumed

section Covering

def Bounded : System E → Prop
  | off _ => True
  | on t => t.counters.Bounded

theorem bounded_step (s : System E) (i : SystemInput E) (h : s.Bounded) : (s.step i).Bounded := by
  cases s with
  | off store =>
    cases i with
    | start builder answers =>
      simp only [step]
      split
      · rename_i config hconfig
        obtain ⟨hstore,-,hknown⟩ := ZigbeeBuilder.start_ok hconfig
        simp only [Bounded,Task.counters_start,hstore,hknown]
        exact (Counters.Bounded.start store.network).complete _ _
      · trivial
    | task i => trivial
    | crash => trivial
  | on t =>
    cases i with
    | start builder answers => exact h
    | crash => trivial
    | task i =>
      simp only [step,Bounded] at h ⊢
      by_cases hrun : t.stopped = false
      · rw [Task.counters_step t i hrun]
        split
        · exact h.refresh _
        · exact h
      · rw [Task.step_stopped (by simpa using hrun)]
        exact h

/-- In every state a runtime reaches, with stores and adapters failing as they may, the copy
of the counter is at most the stored one; and after every refresh of a known network that
the adapter and the store answer, the stored counter lies ahead of the live one just read. -/
theorem stored_covers_live (store : Store) (is : List (SystemInput E)) (t : Task E)
    (ht : Runs.run step (off store) is = on t) :
    t.persistedFrameCounter ≤ (on t).storedCounter ∧
    (∀ env info, t.networkKnown = true → env.networkInfo = .ok info → env.loadNetwork = none →
      env.saveNetwork = .done →
      let t' := t.refreshFrameCounter env
      info.frameCounter < (on t').storedCounter ∨ (on t').storedCounter = 0xffffffff) ∧
    ∀ i env info, t.stopped = false → t.refreshEnv i = some env → t.networkKnown = true →
      env.networkInfo = .ok info → env.loadNetwork = none → env.saveNetwork = .done →
      info.frameCounter < (on (t.step i)).storedCounter ∨
        (on (t.step i)).storedCounter = 0xffffffff := by
  have hbounded : t.counters.Bounded := by
    have hrun : (Runs.run step (off store) is).Bounded :=
      Runs.run_invariant step bounded_step (s := off store) trivial is
    rwa [ht] at hrun
  refine ⟨hbounded.copy,?_,?_⟩
  · intro env info hknown hinfo hload hsave
    have hahead := hbounded.ahead_of_live hknown hinfo hload hsave
    simpa only [storedCounter_on,Task.counters_refresh] using hahead
  · intro i env info hrun hi hknown hinfo hload hsave
    have hahead := hbounded.ahead_of_live hknown hinfo hload hsave
    have hstep : (t.step i).counters = t.counters.refresh env := by
      rw [Task.counters_step t i hrun,hi]
    simpa only [storedCounter_on,hstep] using hahead

/-- A resumed task that reads 7000 stores more than that. -/
theorem resumed_covers_live :
    Runs.run step (off (storeHolding storedNetwork)) [resume] = on (resumedTask storedNetwork) ∧
    let tick : Input Engine.bare := .tick fun _ => { networkInfo := .ok ⟨0x1a62,1,11,0,0,7000⟩ }
    7000 < (on ((resumedTask storedNetwork).step tick)).storedCounter ∨
      (on ((resumedTask storedNetwork).step tick)).storedCounter = 0xffffffff := by
  have hcovers := stored_covers_live (storeHolding storedNetwork) [resume] _ run_resume
  have hknown : (resumedTask storedNetwork).networkKnown = true :=
    congrArg Counters.known counters_resumed
  have hrun : (resumedTask storedNetwork).stopped = false := Task.stopped_start _ _
  exact ⟨run_resume,hcovers.2.2 _ _ ⟨0x1a62,1,11,0,0,7000⟩ hrun rfl hknown rfl rfl rfl⟩

end Covering

section Monotone

/-- The store does what the input asks of it. -/
def StoreSucceeds : SystemInput E → Prop
  | .start _ answers => answers.startup.saveNetwork = .done
  | .task input => ∀ t : Task E, ∀ env, t.refreshEnv input = some env →
      env.loadNetwork = none ∧ env.saveNetwork = .done
  | .crash => True

/-- A live counter that is stored without being compared with what was stored before it, by a
start that completes the record and by a task's first refresh, is at most the margin behind. -/
def Covered : System E → SystemInput E → Prop
  | off store, .start builder answers => ∀ config info, builder.start store answers = .ok config →
      config.networkKnown = false → answers.startup.networkInfo = .ok info →
      (off (E := E) store).storedCounter ≤ Counters.ahead info.frameCounter
  | on t, .task input => ∀ env info, t.stopped = false → t.refreshEnv input = some env →
      t.networkKnown = true → t.persistedFrameCounter = 0 → env.networkInfo = .ok info →
      (on t).storedCounter ≤ Counters.ahead info.frameCounter
  | _, _ => True

def Exact : System E → Prop
  | off _ => True
  | on t => t.counters.Exact

/-- The counters of a task as it is started. -/
theorem exact_start {builder : ZigbeeBuilder E} {store : Store} {answers : StartAnswers}
    {config : TaskConfig E} (h : builder.start store answers = .ok config) :
    Counters.Exact ⟨config.networkKnown,0,config.store.network⟩ := by
  obtain ⟨hstore,-,hknown⟩ := ZigbeeBuilder.start_ok h
  rw [hstore,hknown]
  exact ⟨.start store.network,Or.inl rfl⟩

theorem exact_step (s : System E) (i : SystemInput E) (hi : StoreSucceeds i) (h : s.Exact) :
    (s.step i).Exact := by
  cases s with
  | off store =>
    cases i with
    | start builder answers =>
      simp only [step]
      split
      · rename_i config hconfig
        simp only [Exact,Task.counters_start]
        exact (exact_start hconfig).complete hi
      · trivial
    | task i => trivial
    | crash => trivial
  | on t =>
    cases i with
    | start builder answers => exact h
    | crash => trivial
    | task i =>
      simp only [step,Exact] at h ⊢
      by_cases hrun : t.stopped = false
      · rw [Task.counters_step t i hrun]
        split
        · rename_i env henv
          exact h.refresh (hi t env henv).2
        · exact h
      · rw [Task.step_stopped (by simpa using hrun)]
        exact h

/-- A step keeps the stored counter from falling exactly when what it stores unseen covers it. -/
theorem storedCounter_le_iff (s : System E) (i : SystemInput E) (hi : StoreSucceeds i)
    (h : s.Exact) : s.storedCounter ≤ (s.step i).storedCounter ↔ s.Covered i := by
  cases s with
  | off store =>
    cases i with
    | start builder answers =>
      simp only [step,Covered]
      split
      · rename_i config hconfig
        have hstored : (off (E := E) store).storedCounter =
            Counters.stored ⟨config.networkKnown,0,config.store.network⟩ := by
          rw [(ZigbeeBuilder.start_ok hconfig).1]
          rfl
        rw [storedCounter_on,Task.counters_start,hstored,Counters.Exact.stored_le_complete_iff hi]
        constructor
        · intro hcover config' info he hknown hinfo
          obtain rfl := Except.ok.inj (hconfig.symm.trans he)
          exact hcover hknown info hinfo
        · intro hcover hknown info hinfo
          exact hcover config info hconfig hknown hinfo
      · rename_i e herror
        exact iff_of_true (UInt32.le_refl _) fun config info he => by simp [herror] at he
    | task i => exact iff_of_true (UInt32.le_refl _) trivial
    | crash => exact iff_of_true (UInt32.le_refl _) trivial
  | on t =>
    cases i with
    | start builder answers => exact iff_of_true (UInt32.le_refl _) trivial
    | crash => exact iff_of_true (UInt32.le_refl _) trivial
    | task i =>
      simp only [step,Covered,storedCounter_on]
      by_cases hrun : t.stopped = false
      · rw [Task.counters_step t i hrun]
        cases henv : t.refreshEnv i with
        | none => exact iff_of_true (UInt32.le_refl _) fun env info _ he => by simp at he
        | some env =>
          obtain ⟨hload,hsave⟩ := hi t env henv
          dsimp only
          rw [Counters.Exact.stored_le_refresh_iff h hload hsave]
          constructor
          · intro hcover env' info _ he hknown hzero hinfo
            obtain rfl := Option.some.inj he
            exact hcover hknown hzero info hinfo
          · intro hcover hknown hzero info hinfo
            exact hcover env info hrun rfl hknown hzero hinfo
      · rw [Task.step_stopped (by simpa using hrun)]
        exact iff_of_true (UInt32.le_refl _) fun env info he => absurd he hrun

/-- Over every life of a runtime on a store that does what it is asked, the stored counter never
goes back exactly when every counter stored unseen covers the one before it. -/
theorem storedCounter_monotone_iff (store : Store) (is : List (SystemInput E))
    (hstore : ∀ i ∈ is, StoreSucceeds i) :
    (∀ pre mid, pre <+: mid → mid <+: is →
      (Runs.run step (off store) pre).storedCounter ≤ (Runs.run step (off store) mid).storedCounter) ↔
      Runs.Meets step Covered (off store) is := by
  rw [Runs.monotone_iff_meets step storedCounter (fun _ => UInt32.le_refl _) UInt32.le_trans]
  have hoff : (off (E := E) store).Exact := trivial
  exact Runs.meets_congr step exact_step storedCounter_le_iff hoff hstore

theorem tickAt_succeeds (live : UInt32) : StoreSucceeds (tickAt live) := by
  intro t env henv
  obtain rfl := Option.some.inj henv
  exact ⟨rfl,rfl⟩

theorem counters_tickAt {t : Task Engine.bare} (hrun : t.stopped = false) (live : UInt32) :
    ∃ t', step (on t) (tickAt live) = on t' ∧ t'.counters =
      t.counters.refresh { networkInfo := .ok ⟨0x1a62,1,11,0,0,live⟩ } := by
  refine ⟨_,rfl,?_⟩
  rw [Task.counters_step t _ hrun]
  rfl

theorem resume_tick_succeeds (live : UInt32) : ∀ i ∈ [resume,tickAt live], StoreSucceeds i := by
  intro i hi
  rcases List.mem_pair.mp hi with rfl | rfl
  · rfl
  · exact tickAt_succeeds live

/-- A live counter above the stored one. -/
theorem resumed_monotone_iff : (∀ i ∈ [resume,tickAt 7000], StoreSucceeds i) ∧
    ((∀ pre mid, pre <+: mid → mid <+: [resume,tickAt 7000] →
      (Runs.run step (off (storeHolding storedNetwork)) pre).storedCounter ≤
        (Runs.run step (off (storeHolding storedNetwork)) mid).storedCounter) ↔
      Runs.Meets step Covered (off (storeHolding storedNetwork)) [resume,tickAt 7000]) :=
  ⟨resume_tick_succeeds 7000,storedCounter_monotone_iff _ _ (resume_tick_succeeds 7000)⟩

/-- A store holding 6024, and a coordinator that reports 100 at the first tick: 1124 is stored. -/
theorem first_refresh_rolls_back : (∀ i ∈ [resume,tickAt 100], StoreSucceeds i) ∧
    ¬ ∀ pre mid, pre <+: mid → mid <+: [resume,tickAt 100] →
      (Runs.run step (off (storeHolding storedNetwork)) pre).storedCounter ≤
        (Runs.run step (off (storeHolding storedNetwork)) mid).storedCounter := by
  refine ⟨resume_tick_succeeds 100,fun h => ?_⟩
  have hle := h [resume] [resume,tickAt 100] (by simp) List.prefix_rfl
  have hrun : (resumedTask storedNetwork).stopped = false := Task.stopped_start _ _
  obtain ⟨t',hstep,hcounters⟩ := counters_tickAt hrun 100
  have hlast : Runs.run step (off (storeHolding storedNetwork)) [resume,tickAt 100] = on t' := hstep
  rw [hlast,run_resume,storedCounter_on,storedCounter_on,hcounters,counters_resumed] at hle
  revert hle
  decide

end Monotone

end System
end Rszigbee
