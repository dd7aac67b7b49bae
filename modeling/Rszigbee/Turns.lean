import Rszigbee.Exchange

/-! What one turn of the loop does to the ledger, and that the books stay in order. -/
namespace Rszigbee
namespace Task

variable {E : Engine}

/-- A task as the builder spawns it, before its first turn. -/
def start (config : TaskConfig E) (env : Env) : Task E :=
  (Task.new config).startup config.outcome env

section Fresh

/-- A task spawned on an empty store. -/
def fresh : Task Engine.bare := start {
  reachability := silencePolicy defaultSilenceLimit
  interviewOnJoin := false
  devices := []
  outcome := .formed
  coordinator := ⟨0xc0⟩
  networkKnown := false
  registry := ()
  store := .new } {}

/-- Where no device resolves to a definition, no cluster is registered. -/
theorem registerCustomClusters_unresolved (h : ∀ info, E.resolve info = none) (ieees : List Ieee)
    (t : Task E) : ieees.foldl registerCustomClusters t = t := by
  induction ieees generalizing t with
  | nil => rfl
  | cons ieee ieees ih =>
    have hone : t.registerCustomClusters ieee = t := by
      have hnone : t.resolve ieee = none := by
        rw [resolve]
        cases t.devices.get ieee with
        | none => rfl
        | some e => exact h e.info
      rw [registerCustomClusters,hnone]
    rw [List.foldl_cons,hone,ih]

theorem registerCustomClusters_bare (ieees : List Ieee) (t : Task Engine.bare) :
    ieees.foldl registerCustomClusters t = t :=
  registerCustomClusters_unresolved (fun _ => rfl) ieees t

theorem fresh_eq : fresh = {
    reachability := silencePolicy defaultSilenceLimit
    interviewOnJoin := false
    coordinator := ⟨0xc0⟩
    networkKnown := false
    devices := Inventory.new.insert { newEntry ⟨0xc0⟩ .coordinator 0 with
      info := { (newEntry ⟨0xc0⟩ .coordinator 0).info with
        kind := .coordinator, powerSource := .mains }
      reachability := { (newEntry ⟨0xc0⟩ .coordinator 0).reachability with isSleepy := false } }
    registry := ()
    store := .new
    events := [.started .formed] } := by
  simp only [fresh,start,startup,registerCustomClusters_bare]
  rfl

/-- A device joins. -/
def joins (ieee : Ieee) (nwk : Nwk) : Input Engine.bare :=
  .event (.deviceJoined (some ieee) nwk) none fun _ => {}

end Fresh

section Logs

/-- What was received, and which callers went away. -/
def logs (t : Task E) : List (Request E) × List ℕ := (t.requests,t.abandoned)

theorem restsOn_logs : RestsOn see [.requests,.abandoned] (logs (E := E)) := by
  intro t u h
  exact Prod.ext (h .requests (by simp)) (h .abandoned (by simp))

theorem ledger_of_logs {t t' : Task E} (h : t'.logs = t.logs) :
    t'.ledger = t'.ledgerAt t.requests.length := by
  have hrequests : t'.requests = t.requests := congrArg Prod.fst h
  rw [ledger,hrequests]

theorem logs_handleRequest (t : Task E) (request : Request E) (reply : ℕ) (env : ℕ → Env) :
    (t.handleRequest request reply env).logs = t.logs := by
  by_cases hstop : request = .stop
  · subst hstop
    exact ((t.alters_shutdown (env 0)).trans (alters_answer _ _ _ _)).keeps restsOn_logs (by decide)
  · exact (t.alters_handleRequest hstop reply env).keeps restsOn_logs (by decide)

end Logs

section Turns

/-- The ledger once everyone who waited has been told that the task stops. -/
def drained (t : Task E) : Exchange E :=
  sweep t.ledger t.pendingZdo.keys t.pendingZcl.keys stoppedZdo stoppedZcl .shutdown

/-- The ledger once a tick at `now` has expired what it should. -/
def expiredAt (t : Task E) (now : Instant) : Exchange E :=
  sweep t.ledger (t.pendingZdo.keysWhere (t.expired now)) (t.pendingZcl.keysWhere (t.expired now))
    zdoTimedOut zclTimedOut (.timeout now)

/-- What each kind of input does to the ledger. -/
inductive Turn (t : Task E) : Input E → Exchange E → Prop
  | zdo (ieee : Ieee) (cluster : ZdoClusterId) (build : UInt8 → Nwk → Bytes) (env : ℕ → Env) :
    Turn t (.request (.zdo ieee cluster build) env)
      (t.ledger.step Waiter.reply (t.zdoOp ieee cluster build t.requests.length (env 0)))
  | read (ieee : Ieee) (endpoint : EndpointId) (cluster : ClusterId) (attributes : List AttrId)
      (env : ℕ → Env) : Turn t (.request (.zclRead ieee endpoint cluster attributes) env)
      (t.ledger.step Waiter.reply
        (t.readOp ieee endpoint cluster attributes t.requests.length (env 0)))
  | plain {request : Request E} (h : isPlain request) (env : ℕ → Env) {op : ExchangeOp E}
      (hop : Plain request op) : Turn t (.request request env) (t.ledger.step Waiter.reply op)
  | stop (env : ℕ → Env) {a : Answer E} (h : isExchange a.reply = false)
      (hfits : fits .stop a.reply) : Turn t (.request .stop env) (t.drained.step Waiter.reply (.refuse a))
  | frame {event : AdapterEvent} {origin : Option ℕ} {op : ExchangeOp E}
      (h : t.frameOp event origin = some op) (env : ℕ → Env) :
    Turn t (.event event origin env) (t.ledger.step Waiter.reply op)
  | silent {event : AdapterEvent} {origin : Option ℕ} (h : t.frameOp event origin = none)
      (env : ℕ → Env) : Turn t (.event event origin env) t.ledger
  | tick (env : ℕ → Env) : Turn t (.tick env) (t.expiredAt (env 0).now)
  | abandon (reply : ℕ) : Turn t (.abandon reply) t.ledger
  | handlesDropped (env : ℕ → Env) : Turn t (.handlesDropped env) t.drained
  | adapterClosed (env : ℕ → Env) : Turn t (.adapterClosed env) t.drained

theorem step_stopped {t : Task E} (h : t.stopped = true) (i : Input E) : t.step i = t := by
  simp [step,h]

theorem turn {t : Task E} (h : t.stopped = false) (i : Input E) : t.Turn i (t.step i).ledger := by
  cases i with
  | request request env =>
    have hstep : t.step (.request request env) =
        { t with requests := t.requests ++ [request] }.handleRequest request t.requests.length
          env := by
      simp [step,h]
    have hledger : (t.step (.request request env)).ledger = ({ t with
        requests := t.requests ++ [request] }.handleRequest request t.requests.length
          env).ledgerAt (t.requests.length + 1) := by
      rw [hstep,ledger_of_logs (logs_handleRequest _ _ _ _)]
      simp
    rw [hledger]
    by_cases hplain : isPlain request
    · obtain ⟨op,hop,he⟩ := ledgerAt_handleRequest { t with
        requests := t.requests ++ [request] } hplain t.requests.length env
      rw [he]
      exact .plain hplain env hop
    · cases request with
      | zdo ieee cluster build =>
        simp only [handleRequest]
        rw [ledgerAt_sendZdo]
        exact .zdo ieee cluster build env
      | zclRead ieee endpoint cluster attributes =>
        simp only [handleRequest]
        rw [ledgerAt_zclRead]
        exact .read ieee endpoint cluster attributes env
      | stop =>
        simp only [handleRequest]
        rw [ledgerAt_answer,ledgerAt_shutdown]
        exact .stop env rfl trivial
      | _ => simp [isPlain] at hplain
  | event event origin env =>
    have hstep : t.step (.event event origin env) = t.handleAdapterEvent event origin env := by
      simp [step,h]
    have hlogs := (t.alters_handleAdapterEvent event origin env).keeps restsOn_logs (by decide)
    rw [hstep,ledger_of_logs hlogs,ledgerAt_handleAdapterEvent]
    cases hop : t.frameOp event origin with
    | none => exact .silent hop env
    | some op => exact .frame hop env
  | tick env =>
    have hstep : t.step (.tick env) = t.tick env := by
      simp [step,h]
    rw [hstep,ledger_of_logs ((t.alters_tick env).keeps restsOn_logs (by decide)),ledgerAt_tick]
    exact .tick env
  | abandon reply =>
    have hstep : (t.step (.abandon reply)).ledger = t.ledger := by
      simp only [step,h]
      rfl
    rw [hstep]
    exact .abandon reply
  | handlesDropped env =>
    have hstep : t.step (.handlesDropped env) = t.shutdown (env 0) := by
      simp [step,h]
    rw [hstep,ledger_of_logs ((t.alters_shutdown _).keeps restsOn_logs (by decide)),
      ledgerAt_shutdown]
    exact .handlesDropped env
  | adapterClosed env =>
    have hstep : t.step (.adapterClosed env) = t.shutdown (env 0) := by
      simp [step,h]
    rw [hstep,ledger_of_logs ((t.alters_shutdown _).keeps restsOn_logs (by decide)),
      ledgerAt_shutdown]
    exact .adapterClosed env

/-- What an input adds to the logs. -/
def logged : Input E → List (Request E) × List ℕ
  | .request request _ => ([request],[])
  | .abandon reply => ([],[reply])
  | _ => ([],[])

theorem logs_step {t : Task E} (h : t.stopped = false) (i : Input E) :
    (t.step i).logs = (t.requests ++ (logged i).1,t.abandoned ++ (logged i).2) := by
  cases i with
  | request request env =>
    have hlog := logs_handleRequest { t with requests := t.requests ++ [request] } request
      t.requests.length env
    simpa [step,h,logged,logs] using hlog
  | event event origin env =>
    have hlog := (t.alters_handleAdapterEvent event origin env).keeps restsOn_logs (by decide)
    simpa [step,h,logged,logs] using hlog
  | tick env =>
    have hlog := (t.alters_tick env).keeps restsOn_logs (by decide)
    simpa [step,h,logged,logs] using hlog
  | abandon reply => simp [step,h,logged,logs]
  | handlesDropped env =>
    have hlog := (t.alters_shutdown (env 0)).keeps restsOn_logs (by decide)
    simpa [step,h,logged,logs] using hlog
  | adapterClosed env =>
    have hlog := (t.alters_shutdown (env 0)).keeps restsOn_logs (by decide)
    simpa [step,h,logged,logs] using hlog

end Turns

section Books

/-- The task's books are in order. -/
def Sound (t : Task E) : Prop := t.ledger.Sound Waiter.reply Question.form

theorem alters_start (config : TaskConfig E) (env : Env) :
    Alters see [.devices,.addresses,.registry,.network,.networkKnown,.storedCounter,.events]
      (Task.new config) (start config env) := alters_startup _ _ _

/-- A started task runs. -/
theorem stopped_start (config : TaskConfig E) (env : Env) : (start config env).stopped = false :=
  alters_start config env .stopped (by decide)

theorem ledger_start (config : TaskConfig E) (env : Env) :
    (start config env).ledger = Ledger.new := by
  rw [(alters_start config env).keeps restsOn_ledger (by decide)]
  refine Ledger.ext rfl ?_ ?_ rfl
  · ext ⟨id,q⟩
    cases q <;> simp [ledger,Asked,Task.new,Ledger.new]
  · funext k
    cases k <;> simp [ledger,ledgerAt,Task.new,Ledger.new]

theorem sound_start (config : TaskConfig E) (env : Env) : (start config env).Sound := by
  rw [Sound,ledger_start]
  exact Ledger.Sound.new

theorem faithful_zdoOp (t : Task E) (ieee : Ieee) (cluster : ZdoClusterId)
    (build : UInt8 → Nwk → Bytes) (env : Env) :
    (t.zdoOp ieee cluster build t.requests.length env).Faithful Waiter.reply Question.form
      t.ledger := by
  unfold zdoOp
  split
  · trivial
  · dsimp only
    split
    · trivial
    · exact ⟨rfl,rfl,⟨_,rfl⟩,rfl⟩
    · trivial

theorem faithful_readOp (t : Task E) (ieee : Ieee) (endpoint : EndpointId) (cluster : ClusterId)
    (attributes : List AttrId) (env : Env) :
    (t.readOp ieee endpoint cluster attributes t.requests.length env).Faithful Waiter.reply
      Question.form t.ledger := by
  unfold readOp
  split
  · trivial
  · dsimp only
    split
    · trivial
    · exact ⟨rfl,rfl,⟨_,rfl⟩,rfl⟩
    · trivial

theorem Plain.faithful {request : Request E} {op : ExchangeOp E} (h : Plain request op)
    (l : Exchange E) :
    op.Faithful Waiter.reply Question.form l := by
  cases h <;> trivial

theorem frameOp_settle {t : Task E} {event : AdapterEvent} {origin : Option ℕ}
    {op : ExchangeOp E} (h : t.frameOp event origin = some op) : ∃ k a, op = .settle k a := by
  unfold frameOp at h
  split at h
  · exact ⟨_,_,(Option.some.inj h).symm⟩
  · unfold readFrameOp at h
    split at h
    · simp at h
    · split at h
      · simp at h
      · exact ⟨_,_,(Option.some.inj h).symm⟩
  · simp at h

theorem sound_sweep {l : Exchange E} (h : l.Sound Waiter.reply Question.form)
    (zdo : List (ZdoClusterId × UInt8)) (zcl : List (ClusterId × UInt8))
    (zdoReply zclReply : Waiter → Reply E) (cause : Cause) :
    (sweep l zdo zcl zdoReply zclReply cause).Sound Waiter.reply Question.form :=
  (h.settleAll _ _).settleAll _ _

/-- Every turn keeps the books in order. -/
theorem sound_step (t : Task E) (i : Input E) (h : t.Sound) : (t.step i).Sound := by
  by_cases hs : t.stopped = true
  · rwa [step_stopped hs]
  · have hturn := turn (by simpa using hs) i
    unfold Sound
    generalize (t.step i).ledger = l at hturn
    cases hturn with
    | zdo ieee cluster build env => exact Ledger.Sound.step h (faithful_zdoOp t ieee cluster build _)
    | read ieee endpoint cluster attributes env =>
      exact Ledger.Sound.step h (faithful_readOp t ieee endpoint cluster attributes _)
    | plain hplain env hop => exact Ledger.Sound.step h (hop.faithful _)
    | stop env ha => exact Ledger.Sound.step (sound_sweep h _ _ _ _ _) trivial
    | frame hop env =>
      obtain ⟨k,a,rfl⟩ := frameOp_settle hop
      exact Ledger.Sound.step h trivial
    | silent hop env => exact h
    | tick env => exact sound_sweep h _ _ _ _ _
    | abandon reply => exact h
    | handlesDropped env => exact sound_sweep h _ _ _ _ _
    | adapterClosed env => exact sound_sweep h _ _ _ _ _

end Books

end Task
end Rszigbee
