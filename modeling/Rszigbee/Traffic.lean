import Rszigbee.Radio
import Rszigbee.Silence
import Rszigbee.Transmit

/-! What each turn of the loop puts on the air, to whom and for what; and from it what a whole
run does. -/
namespace Rszigbee

variable {E : Engine}

/-- What the loop ends with. -/
def Input.stops : Input E → Bool
  | .request .stop _ => true
  | .handlesDropped _ => true
  | .adapterClosed _ => true
  | _ => false

namespace Task

open Runs

section Probes

/-- What a probe of a device goes by. -/
def target (t : Task E) (ieee : Ieee) : Option (Nwk × List EndpointInfo) :=
  (t.devices.get ieee).map fun e => (e.info.nwk,e.info.endpoints)

def probeTx (ieee : Ieee) (allowRecovery : Bool) (target : Nwk × List EndpointInfo) : ZclTx where
  dest := .unicast ieee target.1
  endpoint := (target.2.head?.map EndpointInfo.id).getD ⟨1⟩
  sourceEndpoint := ⟨1⟩
  profile := .ha
  cluster := probeCluster
  frame := probeFrame 0
  options := { expectResponse := true, disableRecovery := !allowRecovery }

/-- The probe a check makes of a device in the table. -/
def checkTx (t : Task E) : Ieee × NextCheck → Option ZclTx
  | (ieee,.probe _ _ allowRecovery) => (t.target ieee).map (probeTx ieee allowRecovery)
  | _ => none

/-- The probes that are due. -/
def dueProbes (t : Task E) (now : Instant) : List ZclTx := (t.dueChecks now).filterMap t.checkTx

theorem target_modifyDevice (t : Task E) (ieee : Ieee) {f : Entry → Entry}
    (h : ∀ e, (f e).info = e.info) : (t.modifyDevice ieee f).target = t.target := by
  funext device
  exact Inventory.map_get_modify _ _ _ fun e => by rw [h]

theorem target_assess (t : Task E) (ieee : Ieee) (evidence : Evidence) (env : Env) :
    (t.assess ieee evidence env).target = t.target := by
  unfold assess
  split
  · rfl
  · dsimp only
    split
    · exact target_modifyDevice t ieee fun _ => rfl
    · exact target_modifyDevice t ieee fun _ => rfl

theorem target_runCheck (t : Task E) (ieee : Ieee) (next : NextCheck) (env : Env) :
    (t.runCheck ieee next env).target = t.target := by
  cases next with
  | probe due attempts recover =>
    show (t.probe ieee recover env).target = t.target
    unfold probe
    split
    · rfl
    · rw [target_assess]
      exact target_modifyDevice (t.transmitZcl .probe 0 _ env) ieee fun _ => rfl
  | reassess due => exact target_assess t ieee .elapsed env
  | awaitTraffic => rfl

theorem zclAddressed_probe {t : Task E} {ieee : Ieee} {e : Entry} (he : t.devices.get ieee = some e)
    (recover : Bool) (n : UInt8) (now : Instant) : ZclAddressed t.devices.nwkOf
      ⟨.probe,n,probeTx ieee recover (e.info.nwk,e.info.endpoints),now⟩ where
  recorded := ⟨ieee,_,Inventory.nwkOf_eq_some.mpr ⟨e,he,rfl⟩,rfl⟩
  source := rfl
  profile := rfl
  recovery _ := rfl

/-- A check sends its probe and nothing else. -/
theorem airs_runCheck (t : Task E) (ieee : Ieee) (next : NextCheck) (env : Env) :
    Airs t (t.runCheck ieee next env)
      ((t.checkTx (ieee,next)).map fun tx => ⟨.probe,0,tx,env.now⟩).toList [] := by
  cases next with
  | probe due attempts recover =>
    show Airs t (t.probe ieee recover env) _ _
    rw [probe,checkTx,target]
    cases he : t.devices.get ieee with
    | none => exact .of_radio rfl
    | some e =>
      have hsent := Airs.transmitZcl t .probe 0 _ env (zclAddressed_probe he recover 0 env.now)
        ⟨ieee,_,rfl,.probe,rfl,rfl⟩
      have hnoted (u : Task E) {f : Entry → Entry} (hf : ∀ e, (f e).info.nwk = e.info.nwk)
          (evidence : Evidence) : ((u.modifyDevice ieee f).assess ieee evidence env).radio = u.radio :=
        ((alters_modifyDevice u ieee hf).trans
          (alters_assess _ ieee evidence env)).keeps restsOn_radio (by decide)
      exact hsent.congr rfl (hnoted _ (fun _ => by rfl) _)
  | reassess due =>
    exact .of_radio ((t.alters_assess ieee .elapsed env).keeps restsOn_radio (by decide))
  | awaitTraffic => exact .of_radio rfl

theorem airs_runChecks (due : List (Ieee × NextCheck)) (t : Task E) (env : ℕ → Env) :
    ∃ zs, Airs t (runChecks due t env) zs [] ∧ (∀ s ∈ zs, s.purpose = .probe) ∧
      zs.map Sent.tx = due.filterMap t.checkTx := by
  induction due generalizing t env with
  | nil => exact ⟨[],.of_radio rfl,by simp,rfl⟩
  | cons d due ih =>
    obtain ⟨ieee,next⟩ := d
    have hfirst := t.airs_runCheck ieee next (env 0)
    obtain ⟨zs,hrest,hprobes,htx⟩ := ih (t.runCheck ieee next (env 0)) fun k => env (k+1)
    have hcheck : (t.runCheck ieee next (env 0)).checkTx = t.checkTx := by
      funext d'
      simp only [checkTx,target_runCheck]
    refine ⟨_,hfirst.trans hrest,fun s hs => ?_,?_⟩
    · rcases List.mem_append.mp hs with hs | hs
      · obtain ⟨tx,-,rfl⟩ := Option.map_eq_some_iff.mp (Option.mem_toList.mp hs)
        rfl
      · exact hprobes s hs
    · rw [List.map_append,htx,hcheck]
      cases h : t.checkTx (ieee,next) with
      | none => simp [h]
      | some tx => simp [h]

theorem airs_tick (t : Task E) (env : ℕ → Env) :
    ∃ zs, Airs t (t.tick env) zs [] ∧ (∀ s ∈ zs, s.purpose = .probe) ∧
      zs.map Sent.tx = t.dueProbes (env 1).now := by
  have hdevices : (t.expirePendingZdo (env 0).now).devices = t.devices :=
    t.alters_expirePendingZdo (env 0).now .devices (by decide)
  have hdue : (t.expirePendingZdo (env 0).now).dueChecks (env 1).now = t.dueChecks (env 1).now := by
    simp only [dueChecks,hdevices]
  have hcheck : (t.expirePendingZdo (env 0).now).checkTx = t.checkTx := by
    funext d
    simp only [checkTx,target,hdevices]
  obtain ⟨zs,hairs,hprobes,htx⟩ := airs_runChecks (t.dueChecks (env 1).now)
    (t.expirePendingZdo (env 0).now) fun k => env (k+2)
  rw [hcheck] at htx
  refine ⟨zs,hairs.congr ((t.alters_expirePendingZdo _).keeps restsOn_radio (by decide)) ?_,
    hprobes,htx⟩
  rw [tick,hdue]
  exact (alters_refreshFrameCounter _ _).keeps restsOn_radio (by decide)

end Probes

section Requests

/-- The caller a frame is sent for. -/
def callerOf : Purpose → Option ℕ
  | .zdo reply => some reply
  | .read reply => some reply
  | .command reply => some reply
  | _ => none

/-- The ZCL frame is what a caller asked for: the read itself, or one for its command, to the
device it names. -/
def AsksZcl (s : Sent ZclTx) : Request E → Prop
  | .zclRead ieee endpoint cluster attributes => (∃ n, s.purpose = .read n) ∧ ∃ nwk, s.tx = {
      dest := .unicast ieee nwk
      endpoint := endpoint
      sourceEndpoint := ⟨1⟩
      profile := .ha
      cluster := cluster
      frame := readAttributes s.sequence attributes
      options := { expectResponse := true } }
  | .command ieee _ => (∃ n, s.purpose = .command n) ∧ ∃ nwk, s.tx.dest = .unicast ieee nwk
  | _ => False

/-- The ZDO request is the one a caller asked for. -/
def AsksZdo (s : Sent ZdoTx) : Request E → Prop
  | .zdo ieee cluster build => (∃ n, s.purpose = .zdo n) ∧ ∃ nwk, s.tx = {
      dest := .unicast ieee nwk
      cluster := cluster
      payload := build s.sequence nwk }
  | _ => False

theorem airs_zclRead (t : Task E) (ieee : Ieee) (endpoint : EndpointId) (cluster : ClusterId)
    (attributes : List AttrId) (reply : ℕ) (env : Env) :
    ∃ zs, Airs t (t.zclRead ieee endpoint cluster attributes reply env) zs [] ∧
      (zs.map Sent.purpose).Sublist [.read reply] ∧
      ∀ s ∈ zs, AsksZcl s (.zclRead ieee endpoint cluster attributes : Request E) := by
  rw [zclRead]
  cases he : t.devices.get ieee with
  | none => exact ⟨[],.of_radio rfl,by simp,by simp⟩
  | some e =>
    let u := { t with zclSequence := t.zclSequence + 1 }
    have hsent := Airs.transmitZcl u (.read reply) (t.zclSequence + 1)
      ⟨.unicast ieee e.info.nwk,endpoint,⟨1⟩,.ha,cluster,
        readAttributes (t.zclSequence + 1) attributes,{ expectResponse := true }⟩ env
      ⟨⟨ieee,_,Inventory.nwkOf_eq_some.mpr ⟨e,he,rfl⟩,rfl⟩,rfl,rfl,by simp⟩
      ⟨ieee,_,rfl,.readAttributes cluster attributes,rfl,rfl⟩
    refine ⟨_,hsent.congr rfl ?_,.refl _,fun s hs => ?_⟩
    · cases env.sendZcl with
      | error e => rfl
      | ok answer =>
        cases answer with
        | none => rfl
        | some rx => rfl
    · rw [List.mem_singleton.mp hs]
      exact ⟨⟨reply,rfl⟩,e.info.nwk,rfl⟩

theorem airs_sendZdo (t : Task E) (ieee : Ieee) (cluster : ZdoClusterId)
    (build : UInt8 → Nwk → Bytes) (reply : ℕ) (env : Env) :
    ∃ ds, Airs t (t.sendZdo ieee cluster build reply env) [] ds ∧
      (ds.map Sent.purpose).Sublist [.zdo reply] ∧
      ∀ s ∈ ds, AsksZdo s (.zdo ieee cluster build : Request E) := by
  rw [sendZdo]
  cases he : t.devices.get ieee with
  | none => exact ⟨[],.of_radio rfl,by simp,by simp⟩
  | some e =>
    let u := { t with zdoSequence := t.zdoSequence + 1 }
    have hsent := Airs.transmitZdo u (.zdo reply) (t.zdoSequence + 1)
      ⟨.unicast ieee e.info.nwk,cluster,build (t.zdoSequence + 1) e.info.nwk,{}⟩ env
      ⟨ieee,_,Inventory.nwkOf_eq_some.mpr ⟨e,he,rfl⟩,rfl⟩
    refine ⟨_,hsent.congr rfl ?_,.refl _,fun s hs => ?_⟩
    · cases env.sendZdo with
      | error e => rfl
      | ok answer =>
        cases answer with
        | none => rfl
        | some payload => rfl
    · rw [List.mem_singleton.mp hs]
      exact ⟨⟨reply,rfl⟩,e.info.nwk,rfl⟩

/-- The datapoints are sent as a planned command on Tuya's own cluster. -/
theorem tuyaFrame_built (t : Task E) (tsn : UInt8) (points : List E.Datapoint) :
    ∃ payload, (t.tuyaFrame tsn points).2 =
      .ok (some ⟨1⟩,tuyaCluster,plannedFrame tsn ⟨0x00⟩ payload) := ⟨_,rfl⟩

theorem planCapabilityCommand_built {t : Task E} {ieee : Ieee} {command : E.Command}
    {tsn : UInt8} {endpoint : Option EndpointId} {cluster : ClusterId} {frame : Bytes}
    (h : (t.planCapabilityCommand ieee command tsn).2 = .ok (endpoint,cluster,frame)) :
    ∃ id payload, frame = plannedFrame tsn id payload := by
  unfold planCapabilityCommand at h
  split at h
  · split at h
    · obtain ⟨payload,hframe⟩ := tuyaFrame_built t tsn [_]
      cases hframe.symm.trans h
      exact ⟨_,payload,rfl⟩
    · split at h
      · cases h
      · obtain ⟨payload,hframe⟩ := tuyaFrame_built t tsn _
        cases hframe.symm.trans h
        exact ⟨_,payload,rfl⟩
      · split at h
        · cases h
        · cases h
          exact ⟨_,_,rfl⟩
  · cases h

/-- The frame of a device command is built for its cluster, with the registry as it is. -/
theorem planCommandFrame_built {t : Task E} {ieee : Ieee} {command : DeviceCommand E}
    {tsn : UInt8} {endpoint : Option EndpointId} {cluster : ClusterId} {frame : Bytes}
    (h : (t.planCommandFrame ieee command tsn).2 = .ok (endpoint,cluster,frame)) :
    ∃ o : Outgoing, o.cluster = cluster ∧ o.frame E t.registry ieee tsn = .ok frame := by
  cases command with
  | zcl request =>
    unfold planCommandFrame at h
    dsimp only at h
    split at h
    · cases h
    · rename_i hframe
      cases h
      exact ⟨.command request,rfl,hframe⟩
  | zclAttributes request =>
    unfold planCommandFrame at h
    dsimp only at h
    split at h
    · cases h
    · rename_i hframe
      cases h
      exact ⟨.attributeWrite request,rfl,hframe⟩
  | capability other =>
    obtain ⟨id,payload,rfl⟩ := planCapabilityCommand_built h
    exact ⟨.planned cluster id payload,rfl,rfl⟩

theorem airs_runCommand (t : Task E) (ieee : Ieee) (command : DeviceCommand E) (reply : ℕ)
    (env : Env) : ∃ zs, Airs t (t.runCommand ieee command reply env).1 zs [] ∧
      (zs.map Sent.purpose).Sublist [.command reply] ∧
      ∀ s ∈ zs, AsksZcl s (.command ieee command) := by
  rw [runCommand]
  cases he : t.devices.get ieee with
  | none => exact ⟨[],.of_radio rfl,by simp,by simp⟩
  | some e =>
    dsimp only
    have hplan : (planCommandFrame { t with zclSequence := t.zclSequence + 1 } ieee command
        (t.zclSequence + 1)).1.radio = t.radio :=
      (alters_planCommandFrame _ ieee command _).keeps restsOn_radio (by decide)
    have hbuilt {planned : Option EndpointId × ClusterId × Bytes}
        (h : (planCommandFrame { t with zclSequence := t.zclSequence + 1 } ieee command
          (t.zclSequence + 1)).2 = .ok planned) : ∃ o : Outgoing, o.cluster = planned.2.1 ∧
            o.frame E t.registry ieee (t.zclSequence + 1) = .ok planned.2.2 :=
      planCommandFrame_built (t := { t with zclSequence := t.zclSequence + 1 }) h
    generalize planCommandFrame { t with zclSequence := t.zclSequence + 1 } ieee command
      (t.zclSequence + 1) = planned at hplan hbuilt
    obtain ⟨u,result⟩ := planned
    cases result with
    | error e => exact ⟨[],.of_radio hplan,by simp,by simp⟩
    | ok plan =>
      obtain ⟨requested,cluster,frame⟩ := plan
      dsimp only
      cases commandEndpoint e.info.endpoints requested cluster with
      | error e => exact ⟨[],.of_radio hplan,by simp,by simp⟩
      | ok endpoint =>
        have hknown : u.devices.nwkOf ieee = some e.info.nwk := by
          have hnwk : u.devices.nwkOf = t.devices.nwkOf := congrArg (fun r => r.2.2.1) hplan
          rw [hnwk]
          exact Inventory.nwkOf_eq_some.mpr ⟨e,he,rfl⟩
        have hregistry : u.registry = t.registry := congrArg (fun r => r.2.2.2.1) hplan
        obtain ⟨o,ho,hframe⟩ := hbuilt rfl
        rw [← hregistry] at hframe
        have hsent := Airs.transmitZcl u (.command reply) (t.zclSequence + 1)
          ⟨.unicast ieee e.info.nwk,endpoint,⟨1⟩,.ha,cluster,frame,{}⟩ env
          ⟨⟨ieee,_,hknown,rfl⟩,rfl,rfl,by simp⟩ ⟨ieee,_,rfl,o,ho,hframe⟩
        have hsaid := (alters_commandResult (u.transmitZcl (.command reply) (t.zclSequence + 1)
          ⟨.unicast ieee e.info.nwk,endpoint,⟨1⟩,.ha,cluster,frame,{}⟩ env) ieee env).keeps
            restsOn_radio (by decide)
        refine ⟨_,hsent.congr hplan hsaid,.refl _,fun s hs => ?_⟩
        rw [List.mem_singleton.mp hs]
        exact ⟨⟨reply,rfl⟩,e.info.nwk,rfl⟩

/-- What provisioning sends: bindings and reporting configurations, for no caller. -/
def Provisions (t u : Task E) : Prop :=
  ∃ zs ds, Airs t u zs ds ∧ (∀ s ∈ zs, s.purpose = .reporting) ∧ ∀ s ∈ ds, s.purpose = .bind

theorem Provisions.of_radio {t u : Task E} (h : u.radio = t.radio) : Provisions t u :=
  ⟨[],[],.of_radio h,by simp,by simp⟩

theorem Provisions.trans {t u v : Task E} (h : Provisions t u) (h' : Provisions u v) :
    Provisions t v := by
  obtain ⟨zs,ds,hairs,hz,hd⟩ := h
  obtain ⟨zs',ds',hairs',hz',hd'⟩ := h'
  exact ⟨zs ++ zs',ds ++ ds',hairs.trans hairs',
    fun s hs => (List.mem_append.mp hs).elim (hz s) (hz' s),
    fun s hs => (List.mem_append.mp hs).elim (hd s) (hd' s)⟩

theorem Provisions.nwkOf {t u : Task E} (h : Provisions t u) :
    u.devices.nwkOf = t.devices.nwkOf := by
  obtain ⟨zs,ds,hairs,-⟩ := h
  exact hairs.nwkOf

section Plan

variable {t : Task E} {ieee : Ieee} {nwk : Nwk} (hnwk : t.devices.nwkOf ieee = some nwk)

include hnwk

theorem provisions_bind (endpoint : EndpointId) (cluster : ClusterId) (env : Env) :
    Provisions t (t.bind ieee nwk endpoint cluster env).1 := by
  let u := { t with zdoSequence := t.zdoSequence + 1 }
  have hsent := Airs.transmitZdo u .bind (t.zdoSequence + 1)
    ⟨.unicast ieee nwk,.bindReq,
      encodeBindReq (t.zdoSequence + 1) ieee endpoint cluster t.coordinator ⟨1⟩,{}⟩ env
    ⟨ieee,nwk,hnwk,rfl⟩
  exact ⟨_,_,hsent.congr rfl rfl,by simp,by simp⟩

theorem provisions_configureReporting (endpoint : EndpointId) (cluster : ClusterId)
    (records : List ReportRecord) (env : Env) :
    Provisions t (t.configureReporting ieee nwk endpoint cluster records env).1 := by
  rw [configureReporting]
  dsimp only
  cases hframe : E.configureReporting (t.zclSequence + 1) records with
  | error e => exact .of_radio rfl
  | ok frame =>
    let u := { t with zclSequence := t.zclSequence + 1 }
    have hsent := Airs.transmitZcl u .reporting (t.zclSequence + 1)
      ⟨.unicast ieee nwk,endpoint,⟨1⟩,.ha,cluster,frame,{}⟩ env
      ⟨⟨ieee,nwk,hnwk,rfl⟩,rfl,rfl,by simp⟩
      ⟨ieee,nwk,rfl,.configureReporting cluster records,rfl,hframe⟩
    exact ⟨_,_,hsent.congr rfl rfl,by simp,by simp⟩

theorem provisions_bindStep (step : ConfigureStep) (p : PlanProgress) (env : Env) :
    Provisions t (t.bindStep ieee nwk step p env).1 := by
  unfold bindStep
  split
  · exact .of_radio rfl
  · have hbind := provisions_bind hnwk step.endpoint step.cluster env
    dsimp only
    split
    · rename_i h
      rwa [h] at hbind
    · rename_i h
      rwa [h] at hbind

theorem provisions_reportStep (step : ConfigureStep) (p : PlanProgress) (env : Env) :
    Provisions t (t.reportStep ieee nwk step p env).1 := by
  unfold reportStep
  split
  · exact .of_radio rfl
  · split
    · exact .of_radio rfl
    · rename_i attr _ _ ty _
      have hreport := provisions_configureReporting hnwk step.endpoint step.cluster
        [⟨attr,ty,step.minInterval,step.maxInterval,step.minChange⟩] env
      split
      · rename_i h
        rwa [h] at hreport
      · rename_i h
        rwa [h] at hreport

theorem provisions_runPlan (steps : List ConfigureStep) (p : PlanProgress) (env : ℕ → Env) :
    Provisions t (runPlan ieee nwk steps t p env).1 := by
  induction steps generalizing t p env with
  | nil => exact .of_radio rfl
  | cons step steps ih =>
    have hbind := provisions_bindStep hnwk step p (env 0)
    have hbound : (t.bindStep ieee nwk step p (env 0)).1.devices.nwkOf ieee = some nwk := by
      rw [hbind.nwkOf,hnwk]
    have hreport := provisions_reportStep hbound step (t.bindStep ieee nwk step p (env 0)).2 (env 1)
    rw [runPlan]
    exact (hbind.trans hreport).trans (ih (by rw [hreport.nwkOf,hbound]) _ _)

end Plan

theorem provisions_executeConfigurePlan (t : Task E) (ieee : Ieee) (env : ℕ → Env) :
    Provisions t (t.executeConfigurePlan ieee env).1 := by
  unfold executeConfigurePlan
  split
  · rename_i definition e _ he
    exact provisions_runPlan (Inventory.nwkOf_eq_some.mpr ⟨e,he,rfl⟩) _ _ _
  · exact .of_radio rfl

/-- The end of an interview registers clusters before anything is sent. -/
theorem provisions_applyInterviewUpdate (t : Task E) (ieee : Ieee) (update : InterviewUpdate)
    (env : ℕ → Env) :
    ∃ m : Task E, m.sent = t.sent ∧ Provisions m (t.applyInterviewUpdate ieee update env) := by
  have hsilent (hopen : ∀ outcome, update ≠ .finished outcome) :
      Provisions t (t.applyInterviewUpdate ieee update env) :=
    .of_radio ((t.alters_update ieee env hopen).keeps restsOn_radio (by decide))
  cases update with
  | finished outcome =>
    let u := ((t.modifyDevice ieee (finishInterview outcome)).persist ieee (env 0)).emit
      (.interviewFinished ieee outcome.state)
    have hu : u.sent = t.sent := by
      have hwritten := ((alters_modifyDevice t ieee (f := finishInterview outcome) fun _ =>
        by rfl).trans (alters_persist _ ieee (env 0))).trans
          (alters_emit _ (.interviewFinished ieee outcome.state))
      exact hwritten.keeps restsOn_sent (by decide)
    have hresolved (event : Event E) : (((u.emit event).registerCustomClusters
        ieee).applyDefinitionMetadata ieee (env 1)).sent = u.sent :=
      (((alters_emit u event).trans (alters_registerCustomClusters _ ieee)).trans
        (alters_applyDefinitionMetadata _ ieee (env 1))).keeps restsOn_sent (by decide)
    unfold applyInterviewUpdate
    dsimp only
    split
    · exact ⟨_,(hresolved _).trans hu,provisions_executeConfigurePlan _ _ _⟩
    · exact ⟨_,((alters_emit u _).keeps restsOn_sent (by decide)).trans hu,.of_radio rfl⟩
  | _ => exact ⟨t,rfl,hsilent fun _ he => by cases he⟩

end Requests

section Inbound

/-- The transaction number of a request for the next firmware image. -/
def imageQuery (rx : ZclRx) : Option UInt8 :=
  match ZclFrame.decode rx.frame with
  | .ok frame =>
    if rx.cluster = otaCluster ∧ frame.header.frameType = .specific ∧
        frame.header.command.raw = queryNextImageRequest then
      some frame.header.tsn
    else none
  | .error _ => none

/-- The answer that there is none, back to where the request came from. -/
def noImageTx (ieee : Ieee) (rx : ZclRx) (tsn : UInt8) : ZclTx where
  dest := .unicast ieee rx.nwk
  endpoint := rx.endpoint
  sourceEndpoint := ⟨1⟩
  profile := .ha
  cluster := otaCluster
  frame := otaNoImage tsn

/-- A received frame's answer, if it asks a device of the table's firmware question. -/
def imageReply (t : Task E) (rx : ZclRx) : Option ZclTx :=
  (t.senderOf rx).bind fun ieee =>
    if (t.devices.get ieee).isSome then (imageQuery rx).map (noImageTx ieee rx) else none

theorem readAnswered_query {t : Task E} {rx : ZclRx} {tsn : UInt8} (h : imageQuery rx = some tsn) :
    t.readAnswered rx = none := by
  rw [imageQuery] at h
  rw [readAnswered]
  cases hframe : ZclFrame.decode rx.frame with
  | error e => rfl
  | ok frame =>
    rw [hframe] at h
    dsimp only at h ⊢
    split at h
    · rename_i hquery
      have hnone : ReadAnswer.of frame = none := by
        rw [ReadAnswer.of]
        split
        · rfl
        · rw [if_pos (by simp [hquery.2.1])]
      rw [hnone]
    · cases h

/-- A frame's sender is at the address the frame came from. -/
theorem nwkOf_readdress (t : Task E) (ieee : Ieee) (nwk : Nwk) :
    (t.readdress ieee nwk).devices.nwkOf ieee =
      if (t.devices.get ieee).isSome then some nwk else none := by
  have hdevices : (t.readdress ieee nwk).devices = (t.devices.setNwk ieee nwk).1 :=
    (congrArg View.devices (t.view_readdress ieee nwk)).trans (View.readdress_devices _ _ _)
  rw [hdevices]
  cases hp : t.devices.nwkOf ieee with
  | none =>
    have hnone : t.devices.get ieee = none := by simpa [Inventory.nwkOf] using hp
    rw [Inventory.setNwk_unchanged _ _ _ (.inl hp),hp,hnone]
    rfl
  | some p =>
    obtain ⟨e,hg,-⟩ := Inventory.nwkOf_eq_some.mp hp
    rw [hg]
    by_cases hm : p = nwk
    · rw [Inventory.setNwk_unchanged _ _ _ (.inr (hm ▸ hp)),hp,hm]
      rfl
    · rw [Inventory.Exclusive.nwkOf_setNwk hp hm,if_pos rfl]
      rfl

theorem airs_answerOtaQuery {t : Task E} {ieee : Ieee} {rx : ZclRx} (env : Env)
    (hnwk : ∀ n, t.devices.nwkOf ieee = some n → n = rx.nwk) (hota : rx.cluster = otaCluster) :
    ∃ zs, Airs t (t.answerOtaQuery ieee rx env) zs [] ∧ (∀ s ∈ zs, s.purpose = .ota) ∧
      zs.map Sent.tx = (if (t.devices.get ieee).isSome then
        (imageQuery rx).map (noImageTx ieee rx) else none).toList := by
  rw [answerOtaQuery,imageQuery]
  cases ZclFrame.decode rx.frame with
  | error e => exact ⟨[],.of_radio rfl,by simp,by simp⟩
  | ok frame =>
    cases he : t.devices.get ieee with
    | none => exact ⟨[],.of_radio rfl,by simp,by simp⟩
    | some e =>
      have hknown : t.devices.nwkOf ieee = some e.info.nwk :=
        Inventory.nwkOf_eq_some.mpr ⟨e,he,rfl⟩
      have hfrom : e.info.nwk = rx.nwk := hnwk _ hknown
      dsimp only
      by_cases hquery : frame.header.command.raw ≠ queryNextImageRequest ∨
          frame.header.frameType ≠ .specific
      · rw [if_pos hquery]
        refine ⟨[],.of_radio rfl,by simp,?_⟩
        have hno : ¬ (rx.cluster = otaCluster ∧ frame.header.frameType = .specific ∧
            frame.header.command.raw = queryNextImageRequest) := by
          rintro ⟨-,htype,hcommand⟩
          rcases hquery with h | h
          · exact h hcommand
          · exact h htype
        simp [hno]
      · rw [if_neg hquery]
        obtain ⟨hcommand,htype⟩ : frame.header.command.raw = queryNextImageRequest ∧
            frame.header.frameType = .specific := by
          simpa only [not_or,not_not] using hquery
        have hsent := Airs.transmitZcl t .ota frame.header.tsn
          ⟨.unicast ieee e.info.nwk,rx.endpoint,⟨1⟩,.ha,otaCluster,otaNoImage frame.header.tsn,{}⟩
          env ⟨⟨ieee,_,hknown,rfl⟩,rfl,rfl,by simp⟩ ⟨ieee,_,rfl,.otaNoImage,rfl,rfl⟩
        refine ⟨_,hsent,by simp,?_⟩
        simp [hota,htype,hcommand,noImageTx,hfrom]

/-- A received frame may move its sender; the only thing sent is the answer to its question. -/
theorem airs_onZcl (t : Task E) (rx : ZclRx) (origin : Option ℕ) (env : Env) :
    ∃ m zs, m.sent = t.sent ∧ Airs m (t.onZcl rx origin env) zs [] ∧
      (∀ s ∈ zs, s.purpose = .ota) ∧ zs.map Sent.tx = (t.imageReply rx).toList := by
  rw [onZcl,imageReply]
  cases hsender : t.senderOf rx with
  | none => exact ⟨t,[],rfl,.of_radio rfl,by simp,rfl⟩
  | some ieee =>
    dsimp only
    let m := (t.readdress ieee rx.nwk).modifyDevice ieee fun e =>
      { e with info := { e.info with linkQuality := rx.linkQuality <|> e.info.linkQuality } }
    have hlinked : Alters see [.devices] (t.readdress ieee rx.nwk) m :=
      alters_modifyDevice _ ieee fun _ => by rfl
    have hsent : m.sent = t.sent :=
      ((t.alters_readdress ieee rx.nwk).trans hlinked).keeps restsOn_sent (by decide)
    have hnwkOf : m.devices.nwkOf ieee =
        if (t.devices.get ieee).isSome then some rx.nwk else none :=
      (congrFun (hlinked .addresses (by decide)) ieee).trans (nwkOf_readdress t ieee rx.nwk)
    have hknown : (m.devices.get ieee).isSome = (t.devices.get ieee).isSome := by
      have hmap : (m.devices.get ieee).isSome = (m.devices.nwkOf ieee).isSome := by
        simp [Inventory.nwkOf]
      rw [hmap,hnwkOf]
      cases (t.devices.get ieee).isSome <;> rfl
    have hat : ∀ n, m.devices.nwkOf ieee = some n → n = rx.nwk := by
      intro n hn
      rw [hnwkOf] at hn
      split at hn
      · exact (Option.some.inj hn).symm
      · cases hn
    have hreported : ∃ zs, Airs m (m.reportZcl ieee rx env) zs [] ∧ (∀ s ∈ zs, s.purpose = .ota) ∧
        zs.map Sent.tx = (if (t.devices.get ieee).isSome then
          (imageQuery rx).map (noImageTx ieee rx) else none).toList := by
      have hnoted := (m.alters_noted ieee rx env).keeps restsOn_radio (by decide)
      rw [← hknown]
      by_cases hota : rx.cluster = otaCluster
      · obtain ⟨zs,hairs,hpurpose,htx⟩ := airs_answerOtaQuery env hat hota
        rw [if_pos hota] at hnoted
        exact ⟨zs,hairs.congr rfl hnoted,hpurpose,htx⟩
      · have hnone : imageQuery rx = none := by
          rw [imageQuery]
          split
          · rw [if_neg fun h => hota h.1]
          · rfl
        rw [if_neg hota] at hnoted
        exact ⟨[],.of_radio hnoted,by simp,by simp [hnone]⟩
    cases hanswer : m.readAnswered rx with
    | none =>
      obtain ⟨zs,hairs,hpurpose,htx⟩ := hreported
      exact ⟨m,zs,hsent,hairs.congr rfl (by simp only [m]),hpurpose,htx⟩
    | some answered =>
      have hnone : imageQuery rx = none := by
        by_contra hquery
        obtain ⟨tsn,htsn⟩ := Option.ne_none_iff_exists'.mp hquery
        rw [readAnswered_query htsn] at hanswer
        cases hanswer
      have hdone : ((m.completeRead ieee rx answered.1 answered.2 origin).touch ieee env.wall
          .message env).radio = m.radio :=
        ((m.alters_settleZcl _ _ _).trans (alters_touch _ _ _ _ _)).keeps restsOn_radio (by decide)
      exact ⟨m,[],hsent,.of_radio hdone,by simp,by simp [hnone]⟩

end Inbound

section Turns

/-- The firmware question a turn has to answer. -/
def imageReplies (t : Task E) : Input E → List ZclTx
  | .event (.zcl rx) _ _ => if t.stopped then [] else (t.imageReply rx).toList
  | _ => []

/-- The probes a turn has to make. -/
def probesAt (t : Task E) : Input E → List ZclTx
  | .tick env => if t.stopped then [] else t.dueProbes (env 1).now
  | _ => []

/-- The caller a turn works for. -/
def callersAt (t : Task E) : Input E → List ℕ
  | .request _ _ => if t.stopped then [] else [t.requests.length]
  | _ => []

def sentFor {Tx : Type} (p : Purpose) (sent : List (Sent Tx)) : List Tx :=
  (sent.filter fun s => s.purpose = p).map Sent.tx

def callers {Tx : Type} (sent : List (Sent Tx)) : List ℕ :=
  sent.filterMap fun s => callerOf s.purpose

/-- What is sent for a caller is what it asked for. -/
def Serves (request : Request E) (zs : List (Sent ZclTx)) (ds : List (Sent ZdoTx)) : Prop :=
  (∀ s ∈ zs, ∀ n, callerOf s.purpose = some n → AsksZcl s request) ∧
    ∀ s ∈ ds, ∀ n, callerOf s.purpose = some n → AsksZdo s request

/-- What a turn sends, by what it is sent for. -/
structure Dispatch (t : Task E) (i : Input E) (zs : List (Sent ZclTx)) (ds : List (Sent ZdoTx)) :
    Prop where
  ota : sentFor .ota zs = t.imageReplies i
  probes : sentFor .probe zs = t.probesAt i
  callers : (callers zs ++ callers ds).Sublist (t.callersAt i)
  serves : ∀ request env, i = .request request env → Serves request zs ds

theorem sentFor_all {Tx : Type} {p q : Purpose} {sent : List (Sent Tx)}
    (h : ∀ s ∈ sent, s.purpose = p) :
    sentFor q sent = if p = q then sent.map Sent.tx else [] := by
  rw [sentFor]
  split
  · rename_i hp
    rw [List.filter_eq_self.mpr fun s hs => by simp [h s hs,hp]]
  · rename_i hp
    rw [List.filter_eq_nil_iff.mpr fun s hs => by simp [h s hs,hp]]
    rfl

theorem callers_all {Tx : Type} {p : Purpose} {sent : List (Sent Tx)}
    (h : ∀ s ∈ sent, s.purpose = p) (hp : callerOf p = none) : callers sent = [] := by
  rw [callers,List.filterMap_eq_nil_iff]
  intro s hs
  rw [h s hs,hp]

/-- One frame at most, for the caller. -/
theorem callers_sublist {Tx : Type} {p : Purpose} {n : ℕ} {sent : List (Sent Tx)}
    (h : (sent.map Sent.purpose).Sublist [p]) (hp : callerOf p = some n) :
    (callers sent).Sublist [n] := by
  have hcallers : callers sent = (sent.map Sent.purpose).filterMap callerOf := by
    rw [callers,List.filterMap_map]
    rfl
  have hone : [p].filterMap callerOf = [n] := by simp [hp]
  rw [hcallers,← hone]
  exact h.filterMap _

theorem purpose_of_sublist {Tx : Type} {p : Purpose} {sent : List (Sent Tx)}
    (h : (sent.map Sent.purpose).Sublist [p]) : ∀ s ∈ sent, s.purpose = p := by
  intro s hs
  exact List.mem_singleton.mp (h.subset (List.mem_map_of_mem hs))

/-- What is sent for no caller serves whatever was asked. -/
theorem serves_all {p q : Purpose} {zs : List (Sent ZclTx)} {ds : List (Sent ZdoTx)}
    (hz : ∀ s ∈ zs, s.purpose = p) (hp : callerOf p = none) (hd : ∀ s ∈ ds, s.purpose = q)
    (hq : callerOf q = none) (request : Request E) : Serves request zs ds := by
  constructor
  · intro s hs n hn
    rw [hz s hs,hp] at hn
    cases hn
  · intro s hs n hn
    rw [hd s hs,hq] at hn
    cases hn

theorem airs_handleRequest (t : Task E) {request : Request E} (h : request ≠ .stop) (reply : ℕ)
    (env : ℕ → Env) : ∃ m zs ds, m.sent = t.sent ∧
      Airs m (t.handleRequest request reply env) zs ds ∧ sentFor .ota zs = [] ∧
        sentFor .probe zs = [] ∧ (callers zs ++ callers ds).Sublist [reply] ∧
          Serves request zs ds := by
  have hsilent {u : Task E} (h : u.radio = t.radio) : ∃ m zs ds, m.sent = t.sent ∧
      Airs m u zs ds ∧ sentFor .ota zs = [] ∧ sentFor .probe zs = [] ∧
        (callers zs ++ callers ds).Sublist [reply] ∧ Serves request zs ds :=
    ⟨t,[],[],rfl,.of_radio h,rfl,rfl,by simp [callers],by simp [Serves]⟩
  have hprovisions {m u v : Task E} (hm : m.sent = t.sent) (h : Provisions m u)
      (hv : v.radio = u.radio) : ∃ m zs ds, m.sent = t.sent ∧ Airs m v zs ds ∧
        sentFor .ota zs = [] ∧ sentFor .probe zs = [] ∧
          (callers zs ++ callers ds).Sublist [reply] ∧ Serves request zs ds := by
    obtain ⟨zs,ds,hairs,hz,hd⟩ := h
    refine ⟨m,zs,ds,hm,hairs.congr rfl hv,?_,?_,?_,serves_all hz rfl hd rfl request⟩
    · rw [sentFor_all hz,if_neg (by simp)]
    · rw [sentFor_all hz,if_neg (by simp)]
    · rw [callers_all hz rfl,callers_all hd rfl]
      simp
  cases request with
  | devices => exact hsilent rfl
  | device ieee => exact hsilent rfl
  | network => exact hsilent rfl
  | permitJoin duration via =>
    exact hsilent ((t.alters_permitJoin duration via (env 0)).keeps restsOn_radio (by decide))
  | zclRead ieee endpoint cluster attributes =>
    obtain ⟨zs,hairs,hone,hasks⟩ := t.airs_zclRead ieee endpoint cluster attributes reply (env 0)
    have hread := purpose_of_sublist hone
    refine ⟨t,zs,[],rfl,hairs,?_,?_,?_,fun s hs _ _ => hasks s hs,by simp⟩
    · rw [sentFor_all hread,if_neg (by simp)]
    · rw [sentFor_all hread,if_neg (by simp)]
    · simpa [callers] using callers_sublist hone rfl
  | zdo ieee cluster build =>
    obtain ⟨ds,hairs,hone,hasks⟩ := t.airs_sendZdo ieee cluster build reply (env 0)
    exact ⟨t,[],ds,rfl,hairs,rfl,rfl,by simpa [callers] using callers_sublist hone rfl,by simp,
      fun s hs _ _ => hasks s hs⟩
  | command ieee command =>
    obtain ⟨zs,hairs,hone,hasks⟩ := t.airs_runCommand ieee command reply (env 0)
    have hcommand := purpose_of_sublist hone
    refine ⟨t,zs,[],rfl,hairs.congr rfl rfl,?_,?_,?_,fun s hs _ _ => hasks s hs,by simp⟩
    · rw [sentFor_all hcommand,if_neg (by simp)]
    · rw [sentFor_all hcommand,if_neg (by simp)]
    · simpa [callers] using callers_sublist hone rfl
  | interview ieee =>
    rw [handleRequest]
    split
    · exact hsilent rfl
    · exact hsilent rfl
  | interviewUpdate ieee update =>
    obtain ⟨m,hm,hprovided⟩ := t.provisions_applyInterviewUpdate ieee update env
    exact hprovisions hm hprovided rfl
  | configure ieee =>
    rw [handleRequest]
    split
    · exact hprovisions rfl (t.provisions_executeConfigurePlan ieee env) rfl
    · exact hsilent rfl
  | definition ieee => exact hsilent rfl
  | configurePlan ieee => exact hsilent rfl
  | stop => exact absurd rfl h

/-- No request moves a device. -/
theorem nwkOf_request {t : Task E} (hrun : t.stopped = false) {request : Request E}
    (h : request ≠ .stop) (env : ℕ → Env) :
    (t.step (.request request env)).devices.nwkOf = t.devices.nwkOf := by
  have hmoves := (t.alters_received request).trans
    (alters_handleRequest _ h t.requests.length env)
  have hstep : t.step (.request request env) =
      { t with requests := t.requests ++ [request] }.handleRequest request t.requests.length
        env := by
    simp [step,hrun]
  rw [hstep]
  exact hmoves .addresses (by decide)

/-- A turn may move a device, and then sends what it has to send to addresses on record. -/
theorem outgoing_step (t : Task E) (i : Input E) :
    ∃ m zs ds, m.sent = (t.sentZcl,t.sentZdo,t.stopped || i.stops) ∧ Airs m (t.step i) zs ds ∧
      t.Dispatch i zs ds := by
  have hsilent {u m : Task E} (hm : m.sent = (t.sentZcl,t.sentZdo,t.stopped || i.stops))
      (h : u.radio = m.radio) (hota : t.imageReplies i = []) (hprobes : t.probesAt i = []) :
      ∃ m zs ds, m.sent = (t.sentZcl,t.sentZdo,t.stopped || i.stops) ∧ Airs m u zs ds ∧
        t.Dispatch i zs ds :=
    ⟨m,[],[],hm,.of_radio h,hota.symm,hprobes.symm,by simp [callers],by simp [Serves]⟩
  by_cases hstopped : t.stopped = true
  · rw [step_stopped hstopped]
    refine hsilent (m := t) ?_ rfl ?_ ?_
    · rw [sent,hstopped,Bool.true_or]
    · unfold imageReplies
      split <;> simp [hstopped]
    · unfold probesAt
      split <;> simp [hstopped]
  · have hrun : t.stopped = false := by simpa using hstopped
    unfold step
    rw [if_neg hstopped]
    cases i with
    | request request env =>
      by_cases hstop : request = .stop
      · subst hstop
        refine hsilent ?_ rfl rfl rfl
        rw [Input.stops,Bool.or_true]
        exact sent_shutdown { t with requests := t.requests ++ [.stop] } (env 0)
      · obtain ⟨m,zs,ds,hm,hairs,hota,hprobes,hcallers,hserves⟩ := airs_handleRequest
          { t with requests := t.requests ++ [request] } hstop t.requests.length env
        refine ⟨m,zs,ds,hm.trans ?_,hairs,hota,hprobes,?_,fun request' env' hinput => ?_⟩
        · have hgoes : (Input.request request env).stops = false := by
            cases request <;> first | rfl | exact absurd rfl hstop
          rw [hgoes,Bool.or_false,sent]
        · simpa [callersAt,hrun] using hcallers
        · obtain ⟨rfl,-⟩ := Input.request.inj hinput
          exact hserves
    | event event origin env =>
      have hgoes : t.sent =
          (t.sentZcl,t.sentZdo,t.stopped || (Input.event event origin env : Input E).stops) := by
        simp [Input.stops,sent]
      cases event with
      | deviceJoined ieee nwk =>
        have hjoined := (t.alters_onJoined ieee nwk (env 0)).keeps restsOn_sent (by decide)
        exact hsilent (hjoined.trans hgoes) rfl rfl rfl
      | deviceLeft ieee nwk =>
        have hleft := (t.alters_onLeft ieee nwk (env 0)).keeps restsOn_sent (by decide)
        exact hsilent (hleft.trans hgoes) rfl rfl rfl
      | zcl rx =>
        obtain ⟨m,zs,hm,hairs,hpurpose,htx⟩ := t.airs_onZcl rx origin (env 0)
        refine ⟨m,zs,[],hm.trans hgoes,hairs,?_,?_,?_,by simp⟩
        · rw [sentFor_all hpurpose,if_pos rfl,htx,imageReplies,if_neg hstopped]
        · rw [sentFor_all hpurpose,if_neg (by simp)]
          rfl
        · rw [callers_all hpurpose rfl]
          simp [callers]
      | zdo cluster nwk payload =>
        have hheard := (t.alters_onZdo cluster nwk payload (env 0)).keeps restsOn_radio (by decide)
        exact hsilent hgoes hheard rfl rfl
      | disconnected reason =>
        exact hsilent hgoes ((t.alters_emit _).keeps restsOn_radio (by decide)) rfl rfl
    | tick env =>
      obtain ⟨zs,hairs,hpurpose,htx⟩ := t.airs_tick env
      refine ⟨t,zs,[],?_,hairs,?_,?_,?_,by simp⟩
      · simp [Input.stops,sent]
      · rw [sentFor_all hpurpose,if_neg (by simp)]
        rfl
      · rw [sentFor_all hpurpose,if_pos rfl,htx,probesAt,if_neg hstopped]
      · rw [callers_all hpurpose rfl]
        simp [callers]
    | abandon reply =>
      refine hsilent (m := t) ?_ rfl rfl rfl
      simp [Input.stops,sent]
    | handlesDropped env =>
      refine hsilent (m := t.shutdown (env 0)) ?_ rfl rfl rfl
      rw [Input.stops,Bool.or_true,sent_shutdown]
    | adapterClosed env =>
      refine hsilent (m := t.shutdown (env 0)) ?_ rfl rfl rfl
      rw [Input.stops,Bool.or_true,sent_shutdown]

/-- A loop ends at what ends it, and at nothing else. -/
theorem stopped_step (t : Task E) (i : Input E) : (t.step i).stopped = (t.stopped || i.stops) := by
  obtain ⟨m,zs,ds,hm,hairs,-⟩ := t.outgoing_step i
  exact hairs.stopped.trans (congrArg (fun r => r.2.2) hm)

end Turns

section Runs

variable (config : TaskConfig E) (env : Env) (is : List (Input E))

theorem sent_start : (start config env).sent = ([],[],false) :=
  (alters_start config env).keeps restsOn_sent (by decide)

/-- A turn extends both logs by what it sends. -/
theorem sent_step (t : Task E) (i : Input E) : ∃ zs ds,
    (t.step i).sentZcl = t.sentZcl ++ zs ∧ (t.step i).sentZdo = t.sentZdo ++ ds ∧
      t.Dispatch i zs ds ∧ (∀ s ∈ zs, ZclAddressed (t.step i).devices.nwkOf s) ∧
      (∀ s ∈ ds, ZdoAddressed (t.step i).devices.nwkOf s) ∧
        ∀ s ∈ zs, Composed (t.step i).registry s := by
  obtain ⟨m,zs,ds,hm,hairs,hout⟩ := t.outgoing_step i
  have hzcl : m.sentZcl = t.sentZcl := congrArg Prod.fst hm
  have hzdo : m.sentZdo = t.sentZdo := congrArg (fun r => r.2.1) hm
  refine ⟨zs,ds,hzcl ▸ hairs.sentZcl,hzdo ▸ hairs.sentZdo,hout,?_,?_,?_⟩
  · rw [hairs.nwkOf]
    exact hairs.zcl
  · rw [hairs.nwkOf]
    exact hairs.zdo
  · rw [hairs.registry]
    exact hairs.composed

theorem sentFor_append {Tx : Type} (p : Purpose) (xs ys : List (Sent Tx)) :
    sentFor p (xs ++ ys) = sentFor p xs ++ sentFor p ys := by
  rw [sentFor,List.filter_append,List.map_append]
  rfl

/-- What a run has sent for a purpose, when each turn's share of it is known. -/
theorem sentFor_run {p : Purpose} {f : Task E → Input E → List ZclTx}
    (h : ∀ {t : Task E} {i zs ds}, t.Dispatch i zs ds → sentFor p zs = f t i) :
    sentFor p (run step (start config env) is).sentZcl = gathered step f (start config env) is := by
  have hstart : (start config env).sentZcl = [] := congrArg Prod.fst (sent_start config env)
  have hstep (t : Task E) (i : Input E) :
      sentFor p (t.step i).sentZcl = sentFor p t.sentZcl ++ f t i := by
    obtain ⟨zs,ds,hzcl,-,hout,-⟩ := t.sent_step i
    rw [hzcl,sentFor_append,h hout]
  rw [run_gathered step (fun t => sentFor p t.sentZcl) f hstep,hstart]
  rfl

/-- In every run the task tells each device of its table that asks for a firmware image, once,
that there is none. -/
theorem images_answered : sentFor .ota (run step (start config env) is).sentZcl =
    gathered step imageReplies (start config env) is :=
  sentFor_run config env is fun h => h.ota

/-- In every run the probes sent are those the availability policy had scheduled, each on the
tick that found it due. -/
theorem probes_scheduled : sentFor .probe (run step (start config env) is).sentZcl =
    gathered step probesAt (start config env) is :=
  sentFor_run config env is fun h => h.probes

/-- A policy that only ever waits and reassesses has nothing probed. -/
theorem probesAt_silent {limit : Duration} {w : Watched E} (h : w.Good limit) (i : Input E) :
    w.task.probesAt i = [] := by
  cases i with
  | tick env =>
    rw [probesAt]
    split
    · rfl
    · rw [dueProbes,List.filterMap_eq_nil_iff]
      rintro ⟨ieee,next⟩ hdue
      obtain ⟨⟨e,he,rfl⟩,-⟩ := (mem_dueChecks h.sound.keyed).mp hdue
      have hwatch : w.task.watch ieee = some e.watch := by
        rw [watch,he]
        rfl
      have hkept := h.kept ieee e.watch hwatch
      by_cases hreach : e.watch.verdict = .reachable
      · obtain ⟨due,hnext⟩ := hkept.scheduled hreach
        have hthis : e.nextCheck = .reassess due := hnext
        rw [hthis,checkTx]
        simp
      · have hthis : e.nextCheck = .awaitTraffic := hkept.unscheduled hreach
        rw [hthis,checkTx]
        simp
  | _ => rfl

/-- Under the default policy no run ever probes a device. -/
theorem never_probed (limit : Duration) : sentFor .probe (run step
    (start { config with reachability := silencePolicy limit } env) is).sentZcl = [] := by
  let w := Watched.start limit config env
  have hgood : w.Good limit := Watched.good_start limit config env
  have hnone (is : List (Input E)) (w : Watched E) (h : w.Good limit) :
      gathered step probesAt w.task is = [] := by
    induction is generalizing w with
    | nil => rfl
    | cons i is ih =>
      rw [gathered,probesAt_silent h i]
      exact ih (w.step i) (Watched.good_step i h)
  rw [sentFor_run { config with reachability := silencePolicy limit } env is fun h => h.probes]
  exact hnone is w hgood

/-- What is sent for callers so far is what requests received so far ask for, once each. -/
structure Served (t : Task E) : Prop where
  nodup : (callers t.sentZcl ++ callers t.sentZdo).Nodup
  ordered : (callers t.sentZcl).Pairwise (· < ·) ∧ (callers t.sentZdo).Pairwise (· < ·)
  zcl : ∀ s ∈ t.sentZcl, ∀ n, callerOf s.purpose = some n →
    ∃ request, t.requests[n]? = some request ∧ AsksZcl s request
  zdo : ∀ s ∈ t.sentZdo, ∀ n, callerOf s.purpose = some n →
    ∃ request, t.requests[n]? = some request ∧ AsksZdo s request

theorem mem_callers {Tx : Type} {sent : List (Sent Tx)} {n : ℕ} :
    n ∈ callers sent ↔ ∃ s ∈ sent, callerOf s.purpose = some n := List.mem_filterMap

theorem Served.received {t : Task E} (h : t.Served) {n : ℕ}
    (hn : n ∈ callers t.sentZcl ++ callers t.sentZdo) : n < t.requests.length := by
  rcases List.mem_append.mp hn with hn | hn
  · obtain ⟨s,hs,hcaller⟩ := mem_callers.mp hn
    obtain ⟨request,hrequest,-⟩ := h.zcl s hs n hcaller
    exact (List.getElem?_eq_some_iff.mp hrequest).1
  · obtain ⟨s,hs,hcaller⟩ := mem_callers.mp hn
    obtain ⟨request,hrequest,-⟩ := h.zdo s hs n hcaller
    exact (List.getElem?_eq_some_iff.mp hrequest).1

theorem callers_append {Tx : Type} (xs ys : List (Sent Tx)) :
    callers (xs ++ ys) = callers xs ++ callers ys := List.filterMap_append

/-- Appending nothing, or a number above all of them, keeps a list of numbers in order. -/
theorem pairwise_append_above {xs ys : List ℕ} {n : ℕ} (hxs : xs.Pairwise (· < ·))
    (hbelow : ∀ x ∈ xs, x < n) (hys : ys.Sublist [n]) : (xs ++ ys).Pairwise (· < ·) := by
  refine List.pairwise_append.mpr ⟨hxs,(List.pairwise_singleton _ n).sublist hys,?_⟩
  intro x hx y hy
  rw [List.mem_singleton.mp (hys.subset hy)]
  exact hbelow x hx

/-- The requests a turn leaves: those there were, and the one it received, if any. -/
theorem requests_step (t : Task E) (i : Input E) : t.requests <+: (t.step i).requests ∧
    ∀ n ∈ t.callersAt i, ∃ request env, i = .request request env ∧
      (t.step i).requests[n]? = some request := by
  by_cases hstopped : t.stopped = true
  · rw [step_stopped hstopped]
    refine ⟨List.prefix_rfl,fun n hn => ?_⟩
    unfold callersAt at hn
    split at hn <;> simp [hstopped] at hn
  · have hrun : t.stopped = false := by simpa using hstopped
    have hrequests : (t.step i).requests = t.requests ++ (logged i).1 :=
      congrArg Prod.fst (logs_step hrun i)
    rw [hrequests]
    refine ⟨List.prefix_append _ _,fun n hn => ?_⟩
    cases i with
    | request request env =>
      obtain rfl : n = t.requests.length := by simpa [callersAt,hrun] using hn
      exact ⟨request,env,rfl,List.getElem?_concat_length⟩
    | _ => simp [callersAt] at hn

/-- Each log grows by frames that the request of the turn asks for. -/
theorem asked_step {Tx : Type} {asks : Sent Tx → Request E → Prop} {t : Task E} {i : Input E}
    {old new : List (Sent Tx)}
    (hold : ∀ s ∈ old, ∀ n, callerOf s.purpose = some n →
      ∃ request, t.requests[n]? = some request ∧ asks s request)
    (hcallers : callers new ⊆ t.callersAt i)
    (hnew : ∀ request env, i = .request request env →
      ∀ s ∈ new, ∀ n, callerOf s.purpose = some n → asks s request) :
    ∀ s ∈ old ++ new, ∀ n, callerOf s.purpose = some n →
      ∃ request, (t.step i).requests[n]? = some request ∧ asks s request := by
  obtain ⟨⟨more,hmore⟩,hreceived⟩ := t.requests_step i
  intro s hs n hn
  rcases List.mem_append.mp hs with hs | hs
  · obtain ⟨request,hrequest,hasks⟩ := hold s hs n hn
    refine ⟨request,?_,hasks⟩
    rw [← hmore,List.getElem?_append_left (List.getElem?_eq_some_iff.mp hrequest).1]
    exact hrequest
  · obtain ⟨request,env,hinput,hrequest⟩ := hreceived n (hcallers (mem_callers.mpr ⟨s,hs,hn⟩))
    exact ⟨request,hrequest,hnew request env hinput s hs n hn⟩

theorem served_step {t : Task E} (h : t.Served) (i : Input E) : (t.step i).Served := by
  obtain ⟨zs,ds,hzcl,hzdo,hout,-⟩ := t.sent_step i
  have hone : (t.callersAt i).Sublist [t.requests.length] := by
    unfold callersAt
    split
    · split <;> simp
    · simp
  have hnew : (callers zs ++ callers ds).Sublist [t.requests.length] := hout.callers.trans hone
  have hzs : (callers zs).Sublist (t.callersAt i) :=
    (List.sublist_append_left _ _).trans hout.callers
  have hds : (callers ds).Sublist (t.callersAt i) :=
    (List.sublist_append_right _ _).trans hout.callers
  -- The order of the two logs does not matter to who is in them.
  have hperm : (callers (t.sentZcl ++ zs) ++ callers (t.sentZdo ++ ds)).Perm
      ((callers t.sentZcl ++ callers t.sentZdo) ++ (callers zs ++ callers ds)) := by
    rw [callers_append,callers_append,List.append_assoc,List.append_assoc]
    exact (List.perm_append_comm_assoc _ _ _).append_left _
  refine ⟨?_,⟨?_,?_⟩,?_,?_⟩
  · rw [hzcl,hzdo,hperm.nodup_iff]
    refine List.nodup_append.mpr ⟨h.nodup,(List.nodup_singleton _).sublist hnew,?_⟩
    rintro n hn m hm rfl
    have hlast : n = t.requests.length := List.mem_singleton.mp (hnew.subset hm)
    exact absurd (h.received hn) (by omega)
  · rw [hzcl,callers_append]
    exact pairwise_append_above h.ordered.1
      (fun n hn => h.received (List.mem_append_left _ hn)) (hzs.trans hone)
  · rw [hzdo,callers_append]
    exact pairwise_append_above h.ordered.2
      (fun n hn => h.received (List.mem_append_right _ hn)) (hds.trans hone)
  · rw [hzcl]
    exact asked_step h.zcl hzs.subset fun request env hinput =>
      (hout.serves request env hinput).1
  · rw [hzdo]
    exact asked_step h.zdo hds.subset fun request env hinput =>
      (hout.serves request env hinput).2

/-- In every run each frame that is sent for a read, a ZDO request or a command is what one received
request of that kind asks for, to the device it names; no request has two, and those of a log stand
in the order their requests were received. -/
theorem served_once : (run step (start config env) is).Served := by
  have hsent := sent_start config env
  have hzcl : (start config env).sentZcl = [] := congrArg Prod.fst hsent
  have hzdo : (start config env).sentZdo = [] := congrArg (fun r => r.2.1) hsent
  have hstart : (start config env).Served := by
    refine ⟨?_,⟨?_,?_⟩,?_,?_⟩ <;> simp [hzcl,hzdo,callers]
  exact run_invariant (P := Served) step (fun _ i h => served_step h i) hstart is

/-- What the Ember adapter hands to the NCP for a ZCL frame to a recorded address. -/
def unicastTo (nwk : Nwk) (tag : Ember.MessageTag) (tx : ZclTx) : Ember.Send :=
  .sendUnicast nwk.raw {
    profileId := 0x0104
    clusterId := tx.cluster.raw
    sourceEndpoint := 1
    destinationEndpoint := tx.endpoint.raw
    options := if tx.options.disableRecovery then [.retry] else [.retry,.enableRouteDiscovery]
    groupId := 0
    sequence := 0 } tag tx.frame

/-- The turn of a run that makes a log longer than `k` leaves the addresses as `P` has it. -/
def SentWhen {Tx : Type} (log : Task E → List (Sent Tx)) (t : Task E) (is : List (Input E)) (k : ℕ)
    (P : (Ieee → Option Nwk) → Prop) : Prop :=
  ∃ pre i post, is = pre ++ i::post ∧ (log (run step t pre)).length ≤ k ∧
    k < (log (run step t (pre ++ [i]))).length ∧ P (run step t (pre ++ [i])).devices.nwkOf

/-- What every turn's additions to a log are like, each entry of a log that began empty is. -/
theorem sentWhen {Tx : Type} {log : Task E → List (Sent Tx)} {t : Task E} {is : List (Input E)}
    {Q : (Ieee → Option Nwk) → Sent Tx → Prop}
    (hstep : ∀ (t : Task E) (i : Input E), ∃ xs, log (t.step i) = log t ++ xs ∧
      ∀ s ∈ xs, Q (t.step i).devices.nwkOf s) (hstart : log t = []) {k : ℕ} {s : Sent Tx}
    (hk : (log (run step t is))[k]? = some s) : SentWhen log t is k fun nwkOf => Q nwkOf s := by
  have hgrows (t : Task E) (i : Input E) : log t <+: log (t.step i) := by
    obtain ⟨xs,hxs,-⟩ := hstep t i
    rw [hxs]
    exact List.prefix_append _ _
  rcases entered_by step hgrows hk with hold | ⟨pre,i,post,he,hlen,hthere⟩
  · simp [hstart] at hold
  · obtain ⟨hk',-⟩ := List.getElem?_eq_some_iff.mp hthere
    have hturn : run step t (pre ++ [i]) = (run step t pre).step i := run_concat _ _ _ _
    obtain ⟨xs,hxs,hq⟩ := hstep (run step t pre) i
    refine ⟨pre,i,post,he,hlen,hk',?_⟩
    rw [hturn] at hthere ⊢
    rw [hxs,List.getElem?_append_right hlen] at hthere
    exact hq s (List.mem_of_getElem? hthere)

theorem SentWhen.mono {Tx : Type} {log : Task E → List (Sent Tx)} {t : Task E}
    {is : List (Input E)} {k : ℕ} {P Q : (Ieee → Option Nwk) → Prop} (h : SentWhen log t is k P)
    (hpq : ∀ nwkOf, P nwkOf → Q nwkOf) : SentWhen log t is k Q := by
  obtain ⟨pre,i,post,he,hlen,hk,hp⟩ := h
  exact ⟨pre,i,post,he,hlen,hk,hpq _ hp⟩

open Ember in
/-- In every run each frame the task sends is for a device that the table has, when the turn that
sent it ends, at the address it was sent to. Of a frame that fits, a connected Ember adapter makes
one EZSP unicast there: for ZCL on the home automation profile from endpoint 1, with retries, and
with route discovery except for a probe; for ZDO on profile and endpoint 0. -/
theorem sent_to_recorded :
    (∀ k s, (run step (start config env) is).sentZcl[k]? = some s →
      SentWhen Task.sentZcl (start config env) is k fun nwkOf =>
        ∃ ieee nwk, nwkOf ieee = some nwk ∧ s.tx.dest = .unicast ieee nwk ∧
          (s.tx.options.disableRecovery = true → s.purpose = .probe) ∧
          ∀ z adapter tag taker, (EmberAdapter.sendZcl z adapter tag s.tx).2.issued taker =
            if s.tx.frame.length ≤ maxApsPayload ∧ adapter.session.isSome then
              [unicastTo nwk tag.next s.tx]
            else []) ∧
    ∀ k s, (run step (start config env) is).sentZdo[k]? = some s →
      SentWhen Task.sentZdo (start config env) is k fun nwkOf =>
        ∃ ieee nwk, nwkOf ieee = some nwk ∧ s.tx.dest = .unicast ieee nwk ∧
          ∀ z adapter tag taker, s.tx.payload.length ≤ maxApsPayload →
            (EmberAdapter.sendZdo z adapter tag s.tx).2.issued taker =
              if adapter.session.isSome then
                [EmberAdapter.zdoFrame tag.next s.tx.cluster nwk s.tx.payload]
              else [] := by
  have hstart := sent_start config env
  constructor
  · intro k s hk
    have hsent : SentWhen Task.sentZcl (start config env) is k fun nwkOf =>
        ZclAddressed nwkOf s := by
      refine sentWhen (fun t i => ?_) (congrArg Prod.fst hstart) hk
      obtain ⟨zs,ds,hzcl,-,-,haddressed,-⟩ := t.sent_step i
      exact ⟨zs,hzcl,haddressed⟩
    refine hsent.mono fun nwkOf h => ?_
    obtain ⟨⟨ieee,nwk,hnwk,hdest⟩,hsource,hprofile,hrecovery⟩ := h
    refine ⟨ieee,nwk,hnwk,hdest,hrecovery,fun z adapter tag taker => ?_⟩
    have hframe : EmberAdapter.zclFrame tag.next s.tx = unicastTo nwk tag.next s.tx := by
      rw [EmberAdapter.zclFrame,EmberAdapter.apsFrameFor,hdest,hsource,hprofile]
      rfl
    rw [EmberAdapter.issued_sendZcl,hframe]
  · intro k s hk
    have hsent : SentWhen Task.sentZdo (start config env) is k fun nwkOf =>
        ZdoAddressed nwkOf s := by
      refine sentWhen (fun t i => ?_) (congrArg (fun r => r.2.1) hstart) hk
      obtain ⟨zs,ds,-,hzdo,-,-,haddressed,-⟩ := t.sent_step i
      exact ⟨ds,hzdo,haddressed⟩
    refine hsent.mono fun nwkOf h => ?_
    obtain ⟨ieee,nwk,hnwk,hdest⟩ := h
    refine ⟨ieee,nwk,hnwk,hdest,fun z adapter tag taker hfits => ?_⟩
    obtain ⟨purpose,sequence,⟨dest,cluster,payload,options⟩,sentAt⟩ := s
    cases hdest
    exact (EmberAdapter.sendZdo_unicast z adapter tag taker cluster options hfits).2

end Runs

end Task
end Rszigbee
