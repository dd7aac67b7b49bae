import Rszigbee.Handlers

/-! The loop: requests, adapter events and ticks, one at a time. -/
namespace Rszigbee

/-- What the builder assembles for a task. -/
structure TaskConfig (E : Engine) where
  reachability : ReachabilityPolicy
  interviewOnJoin : Bool
  devices : List PersistedDevice
  outcome : StartOutcome
  coordinator : Ieee
  networkKnown : Bool
  registry : E.Registry
  store : Store

/-- What the loop wakes up for. -/
inductive Input (E : Engine)
  | request (request : Request E) (env : ℕ → Env)
  | event (event : AdapterEvent) (origin : Option ℕ) (env : ℕ → Env)
  | tick (env : ℕ → Env)
  | abandon (reply : ℕ)
  | handlesDropped (env : ℕ → Env)
  | adapterClosed (env : ℕ → Env)

namespace Task

variable {E : Engine}

/-- The task as spawned. -/
def new (config : TaskConfig E) : Task E where
  reachability := config.reachability
  interviewOnJoin := config.interviewOnJoin
  coordinator := config.coordinator
  networkKnown := config.networkKnown
  devices := config.devices.foldl (fun devices stored =>
    devices.insert (entryFromPersisted stored)) .new
  registry := config.registry
  store := config.store

/-- What `run` does before its first select. -/
def startup (t : Task E) (outcome : StartOutcome) (env : Env) : Task E :=
  let t := t.registerCoordinator env
  let t := (t.devices.all.map fun e => e.info.ieee).foldl registerCustomClusters t
  (t.persistNetworkIfNeeded env).emit (.started outcome)

/-- Fails everything that waits. -/
def drainPending (t : Task E) : Task E :=
  let t := t.pendingZdo.keys.foldl
    (fun t key => t.settleZdo key (fun _ => .zdo (.error .stopped)) .shutdown) t
  t.pendingZcl.keys.foldl
    (fun t key => t.settleZcl key (fun _ => .zclRead (.error .stopped)) .shutdown) t

/-- The adapter's error comes before the store's. -/
def stopResult (env : Env) : Except RuntimeError Unit :=
  match env.stop,env.flush with
  | .error e,_ => .error (.adapter e)
  | .ok (),.error e => .error (.store e)
  | .ok (),.ok () => .ok ()

def shutdown (t : Task E) (env : Env) : Task E :=
  { ((t.emit .stopping).drainPending.refreshFrameCounter env) with stopped := true }

def tick (t : Task E) (env : ℕ → Env) : Task E :=
  let t := t.expirePendingZdo (env 0).now
  let due := t.dueChecks (env 1).now
  (runChecks due t fun k => env (k+2)).refreshFrameCounter (env (due.length+2))

def handleRequest (t : Task E) (request : Request E) (reply : ℕ) (env : ℕ → Env) : Task E :=
  match request with
  | .devices => t.answer reply (.devices t.devices.snapshot) .handled
  | .device ieee => t.answer reply (.device ((t.devices.get ieee).map Entry.info)) .handled
  | .network => t.answer reply (.network (env 0).networkInfo) .handled
  | .permitJoin duration via =>
    let (t,result) := t.permitJoin duration via (env 0)
    t.answer reply (.permitJoin result) .handled
  | .zclRead ieee endpoint cluster attributes =>
    t.zclRead ieee endpoint cluster attributes reply (env 0)
  | .zdo ieee cluster build => t.sendZdo ieee cluster build reply (env 0)
  | .command ieee command =>
    let (t,result) := t.runCommand ieee command reply (env 0)
    t.answer reply (.command result) .handled
  | .interview ieee =>
    if (t.devices.get ieee).isSome then t.spawnInterview ieee (some reply)
    else t.answer reply (.interview (.error (.unknownDevice ieee))) .handled
  | .interviewUpdate ieee update => t.applyInterviewUpdate ieee update env
  | .configure ieee =>
    if (t.devices.get ieee).isSome then
      let (t,outcome) := t.executeConfigurePlan ieee env
      t.answer reply (.configure (.ok outcome)) .handled
    else t.answer reply (.configure (.error (.unknownDevice ieee))) .handled
  | .definition ieee =>
    t.answer reply (.definition ((t.resolve ieee).map fun d => (E.model d,E.isComplete d))) .handled
  | .configurePlan ieee =>
    let plan := match t.resolve ieee,t.devices.get ieee with
      | some definition,some entry => E.configurePlan definition entry.info
      | _,_ => []
    t.answer reply (.configurePlan plan) .handled
  | .stop => (t.shutdown (env 0)).answer reply (.stop (stopResult (env 0))) .handled

def handleAdapterEvent (t : Task E) (event : AdapterEvent) (origin : Option ℕ) (env : ℕ → Env) :
    Task E :=
  match event with
  | .deviceJoined ieee nwk => t.onJoined ieee nwk (env 0)
  | .deviceLeft ieee nwk => t.onLeft ieee nwk (env 0)
  | .zcl rx => t.onZcl rx origin (env 0)
  | .zdo cluster nwk payload => t.onZdo cluster nwk payload (env 0)
  | .disconnected reason => t.emit (.adapterDisconnected reason)

/-- One turn of the loop; after a shutdown there is none. A request is logged when it is
received, and its reply channel is its place in the log. -/
def step (t : Task E) (input : Input E) : Task E :=
  if t.stopped then t
  else
    match input with
    | .request request env =>
      { t with requests := t.requests ++ [request] }.handleRequest request t.requests.length env
    | .event event origin env => t.handleAdapterEvent event origin env
    | .tick env => t.tick env
    | .abandon reply => { t with abandoned := t.abandoned ++ [reply] }
    | .handlesDropped env => t.shutdown (env 0)
    | .adapterClosed env => t.shutdown (env 0)

end Task
end Rszigbee
