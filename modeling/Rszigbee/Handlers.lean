import Rszigbee.Task

/-! What the task does for a request and with a received frame.
A sequence number is allocated immediately before the payload that carries it. -/
namespace Rszigbee
namespace Task

variable {E : Engine}

section Transport

/-- The attributes an inline answer to a read decodes to. -/
def decodedAttributes (t : Task E) (ieee : Ieee) (rx : ZclRx) : List (UInt16 × ZclValue) :=
  match E.zclMessage t.registry ieee rx with
  | .ok ⟨_,_,_,.attributes records,_⟩ => records
  | _ => []

def sendZdo (t : Task E) (ieee : Ieee) (cluster : ZdoClusterId) (build : UInt8 → Nwk → Bytes)
    (reply : ℕ) (env : Env) : Task E :=
  match t.devices.get ieee with
  | none => t.answer reply (.zdo (.error (.unknownDevice ieee))) .handled
  | some entry =>
    let nwk := entry.info.nwk
    let sequence := t.zdoSequence + 1
    let t := { t with zdoSequence := sequence }.transmitZdo (.zdo reply) sequence
      { dest := .unicast ieee nwk, cluster := cluster, payload := build sequence nwk } env
    match env.sendZdo with
    | .ok (some payload) => t.answer reply (.zdo (.ok payload)) .inline
    | .ok none =>
      { t with
        pendingZdo := t.pendingZdo.insert (cluster.response,sequence)
          ⟨reply,ieee,env.now + zdoTimeout⟩ }
    | .error e => t.answer reply (.zdo (.error (.adapter e))) .sendError

def zclRead (t : Task E) (ieee : Ieee) (endpoint : EndpointId) (cluster : ClusterId)
    (attributes : List AttrId) (reply : ℕ) (env : Env) : Task E :=
  match t.devices.get ieee with
  | none => t.answer reply (.zclRead (.error (.unknownDevice ieee))) .handled
  | some entry =>
    let tsn := t.zclSequence + 1
    let t := { t with zclSequence := tsn }.transmitZcl (.read reply) tsn {
      dest := .unicast ieee entry.info.nwk
      endpoint := endpoint
      sourceEndpoint := ⟨1⟩
      profile := .ha
      cluster := cluster
      frame := readAttributes tsn attributes
      options := { expectResponse := true } } env
    match env.sendZcl with
    | .ok (some rx) => t.answer reply (.zclRead (.ok (t.decodedAttributes ieee rx))) .inline
    | .ok none =>
      { t with
        pendingZcl := t.pendingZcl.insert (cluster,tsn) ⟨reply,ieee,env.now + zdoTimeout⟩ }
    | .error e => t.answer reply (.zclRead (.error (.adapter e))) .sendError

/-- Takes the request under a key out of the map, if there is one, and answers it. -/
def settleZdo (t : Task E) (key : ZdoClusterId × UInt8) (reply : PendingZdo → Reply E)
    (cause : Cause) : Task E :=
  match t.pendingZdo.lookup key with
  | none => t
  | some pending =>
    { t with pendingZdo := t.pendingZdo.erase key }.answer pending.reply (reply pending) cause

def settleZcl (t : Task E) (key : ClusterId × UInt8) (reply : PendingZcl → Reply E)
    (cause : Cause) : Task E :=
  match t.pendingZcl.lookup key with
  | none => t
  | some pending =>
    { t with pendingZcl := t.pendingZcl.erase key }.answer pending.reply (reply pending) cause

/-- Its deadline has passed, or its caller went away. -/
def expired (t : Task E) (now : Instant) (w : Waiter) : Bool :=
  w.deadline ≤ now || w.reply ∈ t.abandoned

def zdoTimedOut (w : PendingZdo) : Reply E := .zdo (.error (.zdoTimeout w.ieee zdoTimeout))

def zclTimedOut (w : PendingZcl) : Reply E := .zclRead (.error (.zclTimeout w.ieee zdoTimeout))

/-- Fails the requests whose deadline passed or whose caller went away. -/
def expirePendingZdo (t : Task E) (now : Instant) : Task E :=
  let t := (t.pendingZdo.keysWhere (t.expired now)).foldl
    (fun t key => t.settleZdo key zdoTimedOut (.timeout now)) t
  (t.pendingZcl.keysWhere (t.expired now)).foldl
    (fun t key => t.settleZcl key zclTimedOut (.timeout now)) t

/-- `encode_bind_req`. -/
def encodeBindReq (sequence : UInt8) (source : Ieee) (sourceEndpoint : EndpointId)
    (cluster : ClusterId) (destination : Ieee) (destinationEndpoint : EndpointId) : Bytes :=
  [sequence] ++ le64 source.raw ++ [sourceEndpoint.raw] ++ le16 cluster.raw ++ [0x03] ++
    le64 destination.raw ++ [destinationEndpoint.raw]

/-- Sends a `Bind_req`; what the adapter made of it is all that is waited for. -/
def bind (t : Task E) (ieee : Ieee) (nwk : Nwk) (endpoint : EndpointId) (cluster : ClusterId)
    (env : Env) : Task E × Except AdapterError Unit :=
  let sequence := t.zdoSequence + 1
  let t := { t with zdoSequence := sequence }.transmitZdo .bind sequence {
    dest := .unicast ieee nwk
    cluster := .bindReq
    payload := encodeBindReq sequence ieee endpoint cluster t.coordinator ⟨1⟩ } env
  (t,env.sendZdo.map fun _ => ())

/-- Sends a `configureReporting` command. -/
def configureReporting (t : Task E) (ieee : Ieee) (nwk : Nwk) (endpoint : EndpointId)
    (cluster : ClusterId) (records : List ReportRecord) (env : Env) :
    Task E × Except AdapterError Unit :=
  let tsn := t.zclSequence + 1
  let t := { t with zclSequence := tsn }
  match E.configureReporting tsn records with
  | .error e => (t,.error (.transport ("cannot encode reporting config: " ++ e)))
  | .ok frame =>
    let t := t.transmitZcl .reporting tsn {
      dest := .unicast ieee nwk
      endpoint := endpoint
      sourceEndpoint := ⟨1⟩
      profile := .ha
      cluster := cluster
      frame := frame } env
    (t,env.sendZcl.map fun _ => ())

end Transport

section Commands

def tuyaCluster : ClusterId := ⟨0xef00⟩

/-- `encode::planned`. -/
def plannedFrame (tsn : UInt8) (command : CommandId) (payload : Bytes) : Bytes :=
  ZclFrame.encode ⟨.specific tsn command,payload⟩

/-- Datapoints on the wire, under the next number of Tuya's own sequence. -/
def tuyaFrame (t : Task E) (tsn : UInt8) (points : List E.Datapoint) :
    Task E × Except CommandError (Option EndpointId × ClusterId × Bytes) :=
  let sequence := t.tuyaSequence + 1
  ({ t with tuyaSequence := sequence },
    .ok (some ⟨1⟩,tuyaCluster,plannedFrame tsn ⟨0x00⟩ (E.tuyaEncode sequence points)))

/-- Lowers a capability command: the datapoint table, then a behaviour, then the clusters. -/
def planCapabilityCommand (t : Task E) (ieee : Ieee) (command : E.Command) (tsn : UInt8) :
    Task E × Except CommandError (Option EndpointId × ClusterId × Bytes) :=
  match t.devices.get ieee,t.resolve ieee with
  | some entry,some definition =>
    match E.commandToDatapoint definition command with
    | some point => t.tuyaFrame tsn [point]
    | none =>
      match E.commandViaBehavior definition command entry.info with
      | some [] => (t,.error (.invalidValue ⟨"behavior"⟩
          "the device behaviour refused this command"))
      | some points => t.tuyaFrame tsn points
      | none =>
        match E.planCommand definition entry.info command with
        | .error e => (t,.error e)
        | .ok planned => (t,.ok (some planned.endpoint,planned.cluster,
            plannedFrame tsn planned.command planned.payload))
  | _,_ => (t,.error .noDefinition)

def planCommandFrame (t : Task E) (ieee : Ieee) (command : DeviceCommand E) (tsn : UInt8) :
    Task E × Except CommandError (Option EndpointId × ClusterId × Bytes) :=
  match command with
  | .zcl zcl =>
    match E.encodeCommand t.registry ieee tsn zcl with
    | .error e => (t,.error (.invalidValue ⟨"zcl"⟩ e))
    | .ok frame => (t,.ok (zcl.endpoint,zcl.cluster,frame))
  | .zclAttributes write =>
    match E.attributeWrite t.registry ieee tsn write with
    | .error e => (t,.error (.invalidValue ⟨"zcl-attributes"⟩ e))
    | .ok frame => (t,.ok (write.endpoint,write.cluster,frame))
  | .capability other => t.planCapabilityCommand ieee other tsn

/-- The endpoint to send to: the requested one if the device has it, else one that hosts the
cluster. -/
def commandEndpoint (endpoints : List EndpointInfo) (requested : Option EndpointId)
    (cluster : ClusterId) : Except CommandError EndpointId :=
  match requested with
  | some id =>
    if !endpoints.isEmpty && !endpoints.any fun e => e.id = id then .error (.unknownEndpoint id)
    else .ok id
  | none => .ok (((endpoints.find? fun e => e.hasInput cluster).map EndpointInfo.id).getD ⟨1⟩)

/-- What the adapter's answer to a command means for the caller and the device. -/
def commandResult (t : Task E) (ieee : Ieee) (env : Env) :
    Task E × Except CommandError (CommandOutcome E) :=
  match env.sendZcl with
  | .ok response =>
    (t.recordTx ieee env.now (.ok ()) env,.ok {
      optimisticState := none
      confirmed := if response.isSome then .acked else .noResponseRequested
      latency := env.now - env.started })
  | .error (.tx failure) =>
    ((t.recordTx ieee env.now (.error failure) env).emit (.commandFailed ieee none failure),
      .error (.delivery failure))
  | .error _ => (t,.error (.timeout (env.now - env.started)))

def runCommand (t : Task E) (ieee : Ieee) (command : DeviceCommand E) (reply : ℕ) (env : Env) :
    Task E × Except CommandError (CommandOutcome E) :=
  match t.devices.get ieee with
  | none => (t,.error (.unknownDevice ieee))
  | some entry =>
    let tsn := t.zclSequence + 1
    let t := { t with zclSequence := tsn }
    match t.planCommandFrame ieee command tsn with
    | (t,.error e) => (t,.error e)
    | (t,.ok (requested,cluster,frame)) =>
      match commandEndpoint entry.info.endpoints requested cluster with
      | .error e => (t,.error e)
      | .ok endpoint =>
        let t := t.transmitZcl (.command reply) tsn {
          dest := .unicast ieee entry.info.nwk
          endpoint := endpoint
          sourceEndpoint := ⟨1⟩
          profile := .ha
          cluster := cluster
          frame := frame } env
        t.commandResult ieee env

end Commands

section Provisioning

/-- Records network identity, once, when the store lacks it. -/
def persistNetworkIfNeeded (t : Task E) (env : Env) : Task E :=
  if t.networkKnown then t
  else
    match env.networkInfo with
    | .error _ => t
    | .ok info =>
      let networkKey := match env.networkKey with
        | .ok key => key
        | .error _ => none
      let counter := saturatingAdd info.frameCounter frameCounterMargin
      let record : PersistedNetwork := {
        panId := info.panId
        extendedPanId := info.extendedPanId
        channel := info.channel
        nwkUpdateId := info.nwkUpdateId
        coordinatorIeee := t.coordinator
        keySequence := info.keySequence
        frameCounter := counter
        networkKey := networkKey }
      let t := { t with store := t.store.saveNetwork record env.saveNetwork }
      if env.saveNetwork.isDone then
        { t with networkKnown := true, persistedFrameCounter := counter }
      else t

/-- Re-stores the frame counter once the live one has caught up. -/
def refreshFrameCounter (t : Task E) (env : Env) : Task E :=
  if !t.networkKnown then t
  else
    match env.networkInfo with
    | .error _ => t
    | .ok info =>
      if info.frameCounter < t.persistedFrameCounter then t
      else
        match env.loadNetwork,t.store.network with
        | none,some record =>
          let counter := saturatingAdd info.frameCounter frameCounterMargin
          let t := { t with
            store := t.store.saveNetwork { record with frameCounter := counter } env.saveNetwork }
          if env.saveNetwork.isDone then { t with persistedFrameCounter := counter } else t
        | _,_ => t

def permitJoin (t : Task E) (duration : Duration) (via : Option Ieee) (env : Env) :
    Task E × Except RuntimeError Unit :=
  match via.bind fun ieee => if (t.devices.get ieee).isSome then none else some ieee with
  | some ieee => (t,.error (.unknownDevice ieee))
  | none =>
    match env.permitJoin with
    | .error e => (t,.error (.adapter e))
    | .ok () =>
      let permitted := decide (duration ≠ 0)
      (t.emit (.permitJoinChanged permitted (if permitted then some (env.now + duration) else none)
        via),.ok ())

/-- What of a plan has been done. -/
structure PlanProgress where
  bound : List (EndpointId × ClusterId) := []
  outcome : ConfigureOutcome := {}

/-- One binding for each endpoint and cluster. -/
def bindStep (t : Task E) (ieee : Ieee) (nwk : Nwk) (step : ConfigureStep) (p : PlanProgress)
    (env : Env) : Task E × PlanProgress :=
  if (step.endpoint,step.cluster) ∈ p.bound then (t,p)
  else
    let bound := (step.endpoint,step.cluster)::p.bound
    match t.bind ieee nwk step.endpoint step.cluster env with
    | (t,.ok ()) => (t,⟨bound,{ p.outcome with bound := p.outcome.bound + 1 }⟩)
    | (t,.error _) => (t,⟨bound,{ p.outcome with failed := p.outcome.failed + 1 }⟩)

/-- Reporting for the step's attribute, under the plan's type or the registry's. -/
def reportStep (t : Task E) (ieee : Ieee) (nwk : Nwk) (step : ConfigureStep) (p : PlanProgress)
    (env : Env) : Task E × PlanProgress :=
  match step.attr with
  | none => (t,p)
  | some attr =>
    match step.attrType <|> E.attrType t.registry ieee step.cluster attr with
    | none => (t,{ p with outcome := { p.outcome with failed := p.outcome.failed + 1 } })
    | some ty =>
      match t.configureReporting ieee nwk step.endpoint step.cluster
          [⟨attr,ty,step.minInterval,step.maxInterval,step.minChange⟩] env with
      | (t,.ok ()) =>
        (t,{ p with outcome := { p.outcome with configured := p.outcome.configured + 1 } })
      | (t,.error _) =>
        (t,{ p with outcome := { p.outcome with failed := p.outcome.failed + 1 } })

def runPlan (ieee : Ieee) (nwk : Nwk) :
    List ConfigureStep → Task E → PlanProgress → (ℕ → Env) → Task E × PlanProgress
  | [], t, p, _ => (t,p)
  | step::rest, t, p, env =>
    let (t,p) := t.bindStep ieee nwk step p (env 0)
    let (t,p) := t.reportStep ieee nwk step p (env 1)
    runPlan ieee nwk rest t p fun k => env (k+2)

/-- Binds and configures reporting; a refused step does not stop the rest. -/
def executeConfigurePlan (t : Task E) (ieee : Ieee) (env : ℕ → Env) :
    Task E × ConfigureOutcome :=
  match t.resolve ieee,t.devices.get ieee with
  | some definition,some entry =>
    let (t,p) := runPlan ieee entry.info.nwk (E.configurePlan definition entry.info) t {} env
    (t,p.outcome)
  | _,_ => (t,{})

/-- What a finished interview learned, written into the record. -/
def finishInterview (outcome : InterviewOutcome) (e : Entry) : Entry :=
  { e with
    info := { e.info with
      interview := outcome.state
      endpoints :=
        if outcome.endpoints.isEmpty then e.info.endpoints
        else outcome.endpoints.mergeSort fun a b => a.id.raw ≤ b.id.raw
      basic := outcome.basic.getD e.info.basic } }

/-- Applies one interview update, the only place interview results are written. -/
def applyInterviewUpdate (t : Task E) (ieee : Ieee) (update : InterviewUpdate) (env : ℕ → Env) :
    Task E :=
  match update with
  | .started =>
    ((t.modifyDevice ieee fun e =>
      { e with info := { e.info with interview := .inProgress } }).emit
        (.interviewStarted ieee)).persist ieee (env 0)
  | .nodeDescriptor kind power sleepy =>
    (t.modifyDevice ieee fun e =>
      { e with
        info := { e.info with kind := kind, powerSource := power }
        reachability := { e.reachability with isSleepy := sleepy } }).persist ieee (env 0)
  | .step step => t.emit (.interviewProgress ieee step)
  | .finished outcome =>
    let t := ((t.modifyDevice ieee (finishInterview outcome)).persist ieee (env 0)).emit
      (.interviewFinished ieee outcome.state)
    let resolved := t.resolve ieee
    let t := t.emit (.definitionResolved ieee (resolved.map E.model) .bundled)
    if resolved.isSome then
      let t := (t.registerCustomClusters ieee).applyDefinitionMetadata ieee (env 1)
      (t.executeConfigurePlan ieee fun k => env (k+2)).1
    else t

end Provisioning

section Inbound

/-- How a frame answers an outstanding attribute read. -/
inductive ReadAnswer
  | attributes
  | refused (status : UInt8)
  deriving DecidableEq

/-- `readAttributesResponse`. -/
def ReadAnswer.readResponse : UInt8 := 0x01

/-- `defaultResponse`. -/
def ReadAnswer.defaultResponse : UInt8 := 0x0b

/-- Classifies a frame; the status of a default response is its second payload byte. -/
def ReadAnswer.of (frame : ZclFrame) : Option ReadAnswer :=
  if frame.header.direction ≠ .serverToClient then none
  else if frame.header.frameType ≠ .global then none
  else if frame.header.command.raw = ReadAnswer.readResponse then some .attributes
  else if frame.header.command.raw = ReadAnswer.defaultResponse then
    match frame.payload with
    | _::status::_ => if status ≠ 0 then some (.refused status) else none
    | _ => none
  else none

/-- The endpoint to report an event against: none on a single-endpoint device. -/
def reportedEndpoint (t : Task E) (ieee : Ieee) (endpoint : EndpointId) : Option EndpointId :=
  match t.devices.get ieee with
  | some entry => if entry.info.endpoints.length > 1 then some endpoint else none
  | none => none

/-- Turns reported attributes into a capability state delta. -/
def publishState (t : Task E) (ieee : Ieee) (endpoint : EndpointId) (cluster : ClusterId)
    (attributes : List (UInt16 × ZclValue)) : Task E :=
  match t.resolve ieee with
  | none => t
  | some definition =>
    let changes := attributes.foldl (fun changes a =>
      match E.reportToState definition cluster a.1 a.2 with
      | some (capability,value) => E.setChange changes capability value
      | none => changes) E.noChanges
    if E.isEmpty changes then t
    else t.emit (.stateChanged ieee (t.reportedEndpoint ieee endpoint) changes)

/-- Emits an action for a received cluster command, if one is named. -/
def publishAction (t : Task E) (ieee : Ieee) (endpoint : EndpointId) (cluster : ClusterId)
    (id : UInt8) (params : List (String × ZclValue)) : Task E :=
  match (t.resolve ieee).bind fun d => E.commandToAction d cluster id params with
  | none => t
  | some (capability,action) =>
    t.emit (.action ieee (t.reportedEndpoint ieee endpoint) capability action)

/-- Decodes a Tuya datapoint report into capability state. -/
def publishTuya (t : Task E) (ieee : Ieee) (endpoint : EndpointId) (frame : Bytes) : Task E :=
  match ZclFrame.decode frame with
  | .error _ => t
  | .ok parsed =>
    match E.tuyaDecode parsed.payload,t.devices.get ieee,t.resolve ieee with
    | some (_,datapoints),some entry,some definition =>
      if datapoints.isEmpty then t
      else
        let changes := E.datapointsToState definition datapoints entry.info
        if E.isEmpty changes then t
        else t.emit (.stateChanged ieee (t.reportedEndpoint ieee endpoint) changes)
    | _,_,_ => t

def otaCluster : ClusterId := ⟨0x0019⟩

def queryNextImageRequest : UInt8 := 0x01

/-- `encode::ota_no_image`. -/
def otaNoImage (tsn : UInt8) : Bytes :=
  ZclFrame.encode ⟨{ ZclHeader.specific tsn ⟨0x02⟩ with
    direction := .serverToClient
    disableDefaultResponse := true },[0x98]⟩

/-- Tells a device asking for firmware that there is none. -/
def answerOtaQuery (t : Task E) (ieee : Ieee) (rx : ZclRx) (env : Env) : Task E :=
  match ZclFrame.decode rx.frame,t.devices.get ieee with
  | .ok frame,some entry =>
    if frame.header.command.raw ≠ queryNextImageRequest ∨ frame.header.frameType ≠ .specific then t
    else
      t.transmitZcl .ota frame.header.tsn {
        dest := .unicast ieee entry.info.nwk
        endpoint := rx.endpoint
        sourceEndpoint := ⟨1⟩
        profile := .ha
        cluster := otaCluster
        frame := otaNoImage frame.header.tsn } env
  | _,_ => t

/-- `tuya::is_report`. -/
def isTuyaReport (id : UInt8) : Bool := id ∈ ([0x01,0x02,0x06,0x05] : List UInt8)

def publish (t : Task E) (ieee : Ieee) (rx : ZclRx) (kind : ZclMessageKind) : Task E :=
  match kind with
  | .attributes attributes => t.publishState ieee rx.endpoint rx.cluster attributes
  | .command id _ params =>
    if rx.cluster = tuyaCluster ∧ isTuyaReport id then t.publishTuya ieee rx.endpoint rx.frame
    else t.publishAction ieee rx.endpoint rx.cluster id params
  | .defaultResponse _ _ => t

/-- What a frame says is published as at most one event: a change of state or an action. -/
theorem publish_cases (t : Task E) (ieee : Ieee) (rx : ZclRx) (kind : ZclMessageKind) :
    t.publish ieee rx kind = t ∨
    (∃ endpoint changes, t.publish ieee rx kind = t.emit (.stateChanged ieee endpoint changes)) ∨
    ∃ endpoint capability action,
      t.publish ieee rx kind = t.emit (.action ieee endpoint capability action) := by
  cases kind with
  | attributes attributes =>
    simp only [publish,publishState]
    split
    · exact .inl rfl
    · split
      · exact .inl rfl
      · exact .inr (.inl ⟨_,_,rfl⟩)
  | command id name params =>
    simp only [publish]
    split
    · simp only [publishTuya]
      split
      · exact .inl rfl
      · split
        · split
          · exact .inl rfl
          · split
            · exact .inl rfl
            · exact .inr (.inl ⟨_,_,rfl⟩)
        · exact .inl rfl
    · simp only [publishAction]
      split
      · exact .inl rfl
      · exact .inr (.inr ⟨_,_,_,rfl⟩)
  | defaultResponse command status => exact .inl rfl

/-- A frame that answers no read: decoded, then reported. -/
def reportZcl (t : Task E) (ieee : Ieee) (rx : ZclRx) (env : Env) : Task E :=
  let t := if rx.cluster = otaCluster then t.answerOtaQuery ieee rx env else t
  match E.zclMessage t.registry ieee rx with
  | .ok message =>
    ((t.touch ieee env.wall .message env).publish ieee rx message.kind).emit (.zclMessage message)
  | .error reason =>
    (t.touch ieee env.wall .messageWithoutPayload env).emit
      (.unparsedFrame ieee rx.endpoint rx.cluster rx.frame reason)

/-- A frame that looks like the answer to a read someone waits for. -/
def readAnswered (t : Task E) (rx : ZclRx) : Option (ZclFrame × ReadAnswer) :=
  match ZclFrame.decode rx.frame with
  | .error _ => none
  | .ok frame =>
    match ReadAnswer.of frame with
    | none => none
    | some answer =>
      if (t.pendingZcl.lookup (rx.cluster,frame.header.tsn)).isSome then some (frame,answer)
      else none

def readResult (t : Task E) (ieee : Ieee) (rx : ZclRx) :
    ReadAnswer → Except RuntimeError (List (UInt16 × ZclValue))
  | .attributes => .ok (t.decodedAttributes ieee rx)
  | .refused status => .error (.readRefused ieee status)

/-- The transmission a frame answers, if it is one of this task's. -/
def transmissionOf (t : Task E) (origin : Option ℕ) : Option (ℕ × Purpose) :=
  origin.bind fun i => (t.sentZcl[i]?).map fun s => (i,s.purpose)

def completeRead (t : Task E) (ieee : Ieee) (rx : ZclRx) (frame : ZclFrame) (answer : ReadAnswer)
    (origin : Option ℕ) : Task E :=
  t.settleZcl (rx.cluster,frame.header.tsn) (fun _ => .zclRead (t.readResult ieee rx answer))
    (.zclFrame ieee rx.cluster frame (t.transmissionOf origin))

/-- The device a frame is attributed to. -/
def senderOf (t : Task E) (rx : ZclRx) : Option Ieee := rx.ieee <|> t.devices.resolve rx.nwk

/-- A received ZCL frame; `origin` is the transmission it answers, when it answers one. -/
def onZcl (t : Task E) (rx : ZclRx) (origin : Option ℕ) (env : Env) : Task E :=
  match t.senderOf rx with
  | none => t
  | some ieee =>
    let t := (t.readdress ieee rx.nwk).modifyDevice ieee fun e =>
      { e with info := { e.info with linkQuality := rx.linkQuality <|> e.info.linkQuality } }
    match t.readAnswered rx with
    | some (frame,answer) =>
      (t.completeRead ieee rx frame answer origin).touch ieee env.wall .message env
    | none => t.reportZcl ieee rx env

/-- Completes the ZDO request a payload matches by cluster and first byte. -/
def completeZdo (t : Task E) (cluster : ZdoClusterId) (nwk : Nwk) (payload : Bytes) : Task E :=
  match payload with
  | [] => t
  | sequence::_ =>
    t.settleZdo (cluster,sequence) (fun _ => .zdo (.ok payload)) (.zdoFrame cluster nwk payload)

def onZdo (t : Task E) (cluster : ZdoClusterId) (nwk : Nwk) (payload : Bytes) (env : Env) :
    Task E :=
  let t := t.completeZdo cluster nwk payload
  let t := match t.devices.resolve nwk with
    | some ieee => t.touch ieee env.wall .message env
    | none => t
  t.emit (.zdoResponse nwk cluster payload)

end Inbound

end Task
end Rszigbee
