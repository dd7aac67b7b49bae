import Rszigbee.Turns

/-! A runtime over its whole life: started on a store, run, stopped or killed, and started
again on what the store then holds. -/
namespace Rszigbee

/-- `ZigbeeBuilder`, with what starting reads of it. -/
structure ZigbeeBuilder (E : Engine) where
  network : NetworkConfig
  backup : Option Bytes
  reachability : ReachabilityPolicy
  interviewOnJoin : Bool
  registry : E.Registry

/-- What the adapter and the store answer while a runtime starts. -/
structure StartAnswers where
  adapterStart : Except AdapterError StartOutcome := .ok .resumed
  coordinatorIeee : Except AdapterError Ieee
  loadNetwork : Option StoreError := none
  loadDevices : Option StoreError := none
  startup : Env := {}

/-- The stored network, if it was formed by another coordinator. -/
def foreignNetwork (store : Store) (coordinator : Ieee) : Option PersistedNetwork :=
  match store.network with
  | some network => if network.coordinatorIeee ≠ coordinator then some network else none
  | none => none

/-- Everything up to the task: the adapter is started first, and only then is the store
asked what it holds. -/
def ZigbeeBuilder.start {E : Engine} (builder : ZigbeeBuilder E) (store : Store)
    (answers : StartAnswers) : Except RuntimeError (TaskConfig E) :=
  match answers.adapterStart with
  | .error e => .error (.adapter e)
  | .ok outcome =>
    match answers.coordinatorIeee with
    | .error e => .error (.adapter e)
    | .ok coordinator =>
      match answers.loadNetwork with
      | some e => .error (.store e)
      | none =>
        match foreignNetwork store coordinator with
        | some network => .error (.coordinatorMismatch network.coordinatorIeee coordinator)
        | none =>
          match answers.loadDevices with
          | some e => .error (.store e)
          | none => .ok {
              reachability := builder.reachability
              interviewOnJoin := builder.interviewOnJoin
              devices := store.devices.entries.map Sigma.snd
              outcome := outcome
              coordinator := coordinator
              networkKnown := store.network.any fun n => !n.needsCompleting
              registry := builder.registry
              store := store }

inductive System (E : Engine)
  | off (store : Store)
  | on (task : Task E)

inductive SystemInput (E : Engine)
  | start (builder : ZigbeeBuilder E) (answers : StartAnswers)
  | task (input : Input E)
  | crash

namespace System

variable {E : Engine}

def store : System E → Store
  | off store => store
  | on task => task.store

/-- A start that fails leaves the store as it was; a crash keeps what was written. -/
def step (s : System E) (input : SystemInput E) : System E :=
  match s,input with
  | off store,.start builder answers =>
    match builder.start store answers with
    | .ok config => on (Task.start config answers.startup)
    | .error _ => off store
  | on task,.task input => on (task.step input)
  | on task,.crash => off task.store
  | s,_ => s

end System

/-- What a start that succeeds makes of the builder and the store. -/
theorem ZigbeeBuilder.start_config {E : Engine} {builder : ZigbeeBuilder E} {store : Store}
    {answers : StartAnswers} {config : TaskConfig E} (h : builder.start store answers = .ok config) :
    ∃ outcome coordinator, config = {
      reachability := builder.reachability
      interviewOnJoin := builder.interviewOnJoin
      devices := store.devices.entries.map Sigma.snd
      outcome := outcome
      coordinator := coordinator
      networkKnown := store.network.any fun n => !n.needsCompleting
      registry := builder.registry
      store := store } := by
  unfold start at h
  split at h
  · simp at h
  · split at h
    · simp at h
    · split at h
      · simp at h
      · split at h
        · simp at h
        · split at h
          · simp at h
          · exact ⟨_,_,(Except.ok.inj h).symm⟩

/-- What a start hands to the task when it succeeds. -/
theorem ZigbeeBuilder.start_ok {E : Engine} {builder : ZigbeeBuilder E} {store : Store}
    {answers : StartAnswers} {config : TaskConfig E} (h : builder.start store answers = .ok config) :
    config.store = store ∧ config.devices = store.devices.entries.map Sigma.snd ∧
      config.networkKnown = store.network.any fun n => !n.needsCompleting := by
  obtain ⟨_,_,rfl⟩ := start_config h
  exact ⟨rfl,rfl,rfl⟩

/-- What a task goes by is what the builder was given. -/
theorem ZigbeeBuilder.start_settings {E : Engine} {builder : ZigbeeBuilder E} {store : Store}
    {answers : StartAnswers} {config : TaskConfig E} (h : builder.start store answers = .ok config) :
    config.reachability = builder.reachability ∧ config.registry = builder.registry := by
  obtain ⟨_,_,rfl⟩ := start_config h
  exact ⟨rfl,rfl⟩

end Rszigbee
