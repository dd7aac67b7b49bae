import Rszigbee.Footprint
import Rszigbee.Loop

/-! What each handler of the task changes, one statement for each. Whatever is read from other
parts of the state is the same after the handler as before. -/
namespace Rszigbee

/-- A request as it went on the air. -/
inductive Question
  | zdo (sent : Sent ZdoTx)
  | read (index : ℕ) (sent : Sent ZclTx)
  deriving DecidableEq

namespace Task

variable {E : Engine}

/-- Who asked what, by the transmissions made for it. -/
def Asked (t : Task E) (id : ℕ) : Question → Prop
  | .zdo s => s ∈ t.sentZdo ∧ s.purpose = .zdo id
  | .read i s => t.sentZcl[i]? = some s ∧ s.purpose = .read id

/-- The parts of the state. The store has two, and two follow from others: where the devices are,
and who asked what. -/
inductive Part
  | policy | interviewOnJoin | coordinator | networkKnown | storedCounter
  | devices | addresses
  | pendingZdo | pendingZcl | zdoSequence | zclSequence | tuyaSequence
  | registry | network | stored
  | stopped | events | requests | replies | sentZdo | sentZcl | asked | interviews | abandoned
  deriving DecidableEq

def Part.Seen (E : Engine) : Part → Type
  | policy => ReachabilityPolicy
  | interviewOnJoin => Bool
  | coordinator => Ieee
  | networkKnown => Bool
  | storedCounter => UInt32
  | devices => Inventory
  | addresses => Ieee → Option Nwk
  | pendingZdo => Table (ZdoClusterId × UInt8) PendingZdo
  | pendingZcl => Table (ClusterId × UInt8) PendingZcl
  | zdoSequence => UInt8
  | zclSequence => UInt8
  | tuyaSequence => UInt16
  | registry => E.Registry
  | network => Option PersistedNetwork
  | stored => Table Ieee PersistedDevice
  | stopped => Bool
  | events => List (Event E)
  | requests => List (Request E)
  | replies => List (Answer E)
  | sentZdo => List (Sent ZdoTx)
  | sentZcl => List (Sent ZclTx)
  | asked => ℕ → Question → Prop
  | interviews => List (Ieee × Option ℕ)
  | abandoned => List ℕ

noncomputable def see : (part : Part) → Task E → part.Seen E
  | .policy, t => t.reachability
  | .interviewOnJoin, t => t.interviewOnJoin
  | .coordinator, t => t.coordinator
  | .networkKnown, t => t.networkKnown
  | .storedCounter, t => t.persistedFrameCounter
  | .devices, t => t.devices
  | .addresses, t => t.devices.nwkOf
  | .pendingZdo, t => t.pendingZdo
  | .pendingZcl, t => t.pendingZcl
  | .zdoSequence, t => t.zdoSequence
  | .zclSequence, t => t.zclSequence
  | .tuyaSequence, t => t.tuyaSequence
  | .registry, t => t.registry
  | .network, t => t.store.network
  | .stored, t => t.store.devices
  | .stopped, t => t.stopped
  | .events, t => t.events
  | .requests, t => t.requests
  | .replies, t => t.replies
  | .sentZdo, t => t.sentZdo
  | .sentZcl, t => t.sentZcl
  | .asked, t => t.Asked
  | .interviews, t => t.interviews
  | .abandoned, t => t.abandoned

section Writes

theorem alters_emit (t : Task E) (event : Event E) : Alters see [.events] t (t.emit event) := by
  intro part hpart
  cases part with
  | events => simp at hpart
  | _ => rfl

theorem alters_answer (t : Task E) (id : ℕ) (reply : Reply E) (cause : Cause) :
    Alters see [.replies] t (t.answer id reply cause) := by
  intro part hpart
  cases part with
  | replies => simp at hpart
  | _ => rfl

/-- A device that is changed in place stays where it is. -/
theorem alters_modifyDevice (t : Task E) (ieee : Ieee) {f : Entry → Entry}
    (h : ∀ e, (f e).info.nwk = e.info.nwk) : Alters see [.devices] t (t.modifyDevice ieee f) := by
  intro part hpart
  cases part with
  | devices => simp at hpart
  | addresses =>
    funext device
    exact Inventory.map_get_modify _ _ _ h
  | _ => rfl

theorem alters_withDevices (t : Task E) (inv : Inventory) :
    Alters see [.devices,.addresses] t { t with devices := inv } := by
  intro part hpart
  cases part with
  | devices => simp at hpart
  | addresses => simp at hpart
  | _ => rfl

theorem alters_pendingZdo (t : Task E) (pending : Table (ZdoClusterId × UInt8) PendingZdo) :
    Alters see [.pendingZdo] t { t with pendingZdo := pending } := by
  intro part hpart
  cases part with
  | pendingZdo => simp at hpart
  | _ => rfl

theorem alters_pendingZcl (t : Task E) (pending : Table (ClusterId × UInt8) PendingZcl) :
    Alters see [.pendingZcl] t { t with pendingZcl := pending } := by
  intro part hpart
  cases part with
  | pendingZcl => simp at hpart
  | _ => rfl

theorem alters_zdoSequence (t : Task E) (n : UInt8) :
    Alters see [.zdoSequence] t { t with zdoSequence := n } := by
  intro part hpart
  cases part with
  | zdoSequence => simp at hpart
  | _ => rfl

theorem alters_zclSequence (t : Task E) (n : UInt8) :
    Alters see [.zclSequence] t { t with zclSequence := n } := by
  intro part hpart
  cases part with
  | zclSequence => simp at hpart
  | _ => rfl

theorem alters_spawnInterview (t : Task E) (ieee : Ieee) (reply : Option ℕ) :
    Alters see [.interviews] t (t.spawnInterview ieee reply) := by
  intro part hpart
  cases part with
  | interviews => simp at hpart
  | _ => rfl

theorem alters_storeDevice (t : Task E) {store : Store} (h : store.network = t.store.network) :
    Alters see [.stored] t { t with store := store } := by
  intro part hpart
  cases part with
  | stored => simp at hpart
  | network => exact h
  | _ => rfl

theorem alters_storeNetwork (t : Task E) (network : PersistedNetwork) (answer : WriteAnswer) :
    Alters see [.network] t { t with store := t.store.saveNetwork network answer } := by
  intro part hpart
  cases part with
  | network => simp at hpart
  | stored => exact Store.saveNetwork_devices _ _ _
  | _ => rfl

theorem alters_storedCounter (t : Task E) (known : Bool) (counter : UInt32) :
    Alters see [.networkKnown,.storedCounter] t
      { t with networkKnown := known, persistedFrameCounter := counter } := by
  intro part hpart
  cases part with
  | networkKnown => simp at hpart
  | storedCounter => simp at hpart
  | _ => rfl

end Writes

section Transmissions

/-- The caller a transmission is made for and who waits for its answer. -/
def awaited : Purpose → Option ℕ
  | .zdo id => some id
  | .read id => some id
  | _ => none

theorem asked_transmitZdo (t : Task E) (p : Purpose) (n : UInt8) (tx : ZdoTx) (env : Env)
    (id : ℕ) (q : Question) : (t.transmitZdo p n tx env).Asked id q ↔
      t.Asked id q ∨ p = .zdo id ∧ q = .zdo ⟨p,n,tx,env.now⟩ := by
  cases q with
  | read i s => simp [Asked,transmitZdo]
  | zdo s =>
    simp only [Asked,transmitZdo,List.mem_append,List.mem_singleton,Question.zdo.injEq]
    constructor
    · rintro ⟨hs | rfl,hp⟩
      · exact Or.inl ⟨hs,hp⟩
      · exact Or.inr ⟨hp,rfl⟩
    · rintro (⟨hs,hp⟩ | ⟨hp,rfl⟩)
      · exact ⟨Or.inl hs,hp⟩
      · exact ⟨Or.inr rfl,hp⟩

theorem asked_transmitZcl (t : Task E) (p : Purpose) (n : UInt8) (tx : ZclTx) (env : Env)
    (id : ℕ) (q : Question) : (t.transmitZcl p n tx env).Asked id q ↔
      t.Asked id q ∨ p = .read id ∧ q = .read t.sentZcl.length ⟨p,n,tx,env.now⟩ := by
  cases q with
  | zdo s => simp [Asked,transmitZcl]
  | read i s =>
    simp only [Asked,transmitZcl,getElem?_concat,Question.read.injEq]
    by_cases hi : i = t.sentZcl.length
    · subst i
      simp only [if_true,Option.some.injEq,List.getElem?_length,true_and]
      constructor
      · rintro ⟨rfl,hp⟩
        exact Or.inr ⟨hp,rfl⟩
      · rintro (⟨h,-⟩ | ⟨hp,rfl⟩)
        · simp at h
        · exact ⟨rfl,hp⟩
    · simp [hi]

theorem alters_transmitZdo (t : Task E) (p : Purpose) (n : UInt8) (tx : ZdoTx) (env : Env) :
    Alters see [.sentZdo,.asked] t (t.transmitZdo p n tx env) := by
  intro part hpart
  cases part with
  | sentZdo => simp at hpart
  | asked => simp at hpart
  | _ => rfl

theorem alters_transmitZcl (t : Task E) (p : Purpose) (n : UInt8) (tx : ZclTx) (env : Env) :
    Alters see [.sentZcl,.asked] t (t.transmitZcl p n tx env) := by
  intro part hpart
  cases part with
  | sentZcl => simp at hpart
  | asked => simp at hpart
  | _ => rfl

/-- Nobody waits for the answer to such a transmission. -/
theorem alters_tellZdo (t : Task E) {p : Purpose} (h : awaited p = none) (n : UInt8) (tx : ZdoTx)
    (env : Env) : Alters see [.sentZdo] t (t.transmitZdo p n tx env) := by
  intro part hpart
  cases part with
  | sentZdo => simp at hpart
  | asked =>
    funext id q
    refine propext ((asked_transmitZdo t p n tx env id q).trans (or_iff_left ?_))
    rintro ⟨rfl,-⟩
    cases h
  | _ => rfl

theorem alters_tellZcl (t : Task E) {p : Purpose} (h : awaited p = none) (n : UInt8) (tx : ZclTx)
    (env : Env) : Alters see [.sentZcl] t (t.transmitZcl p n tx env) := by
  intro part hpart
  cases part with
  | sentZcl => simp at hpart
  | asked =>
    funext id q
    refine propext ((asked_transmitZcl t p n tx env id q).trans (or_iff_left ?_))
    rintro ⟨rfl,-⟩
    cases h
  | _ => rfl

end Transmissions

section Availability

theorem alters_assess (t : Task E) (ieee : Ieee) (evidence : Evidence) (env : Env) :
    Alters see [.devices,.events] t (t.assess ieee evidence env) := by
  unfold assess
  split
  · exact .refl _ _
  · dsimp only
    split
    · exact (alters_modifyDevice t ieee fun _ => by rfl).trans (alters_emit _ _)
    · exact (alters_modifyDevice t ieee fun _ => by rfl).mono (by decide)

theorem alters_touch (t : Task E) (ieee : Ieee) (seen : SystemTime) (reason : LastSeenReason)
    (env : Env) : Alters see [.devices,.events] t (t.touch ieee seen reason env) := by
  unfold touch
  split
  · exact .refl _ _
  · have hnoted := (alters_modifyDevice t ieee (f := fun e =>
      { e with
        info := { e.info with lastSeen := some seen }
        reachability := e.reachability.recordTraffic seen }) fun _ => by rfl).trans
          (alters_emit _ (.lastSeenChanged ieee seen reason))
    exact hnoted.both (alters_assess _ _ _ _)

theorem alters_recordTx (t : Task E) (ieee : Ieee) (now : Instant)
    (result : Except TxFailure Unit) (env : Env) :
    Alters see [.devices,.events] t (t.recordTx ieee now result env) :=
  ((alters_modifyDevice t ieee fun _ => by rfl).mono (by decide)).both (alters_assess _ _ _ _)

theorem alters_probe (t : Task E) (ieee : Ieee) (allowRecovery : Bool) (env : Env) :
    Alters see [.sentZcl,.devices,.events] t (t.probe ieee allowRecovery env) := by
  unfold probe
  split
  · exact .refl _ _
  · exact (((t.alters_tellZcl rfl _ _ _).trans (alters_modifyDevice _ ieee fun _ => by rfl)).trans
      (alters_assess _ _ _ _)).mono (by decide)

theorem alters_runCheck (t : Task E) (ieee : Ieee) (next : NextCheck) (env : Env) :
    Alters see [.sentZcl,.devices,.events] t (t.runCheck ieee next env) := by
  cases next with
  | probe due attempts recover => exact t.alters_probe ieee recover env
  | reassess due => exact (t.alters_assess ieee .elapsed env).mono (by decide)
  | awaitTraffic => exact .refl _ _

theorem alters_runChecks (due : List (Ieee × NextCheck)) (t : Task E) (env : ℕ → Env) :
    Alters see [.sentZcl,.devices,.events] t (runChecks due t env) := by
  induction due generalizing t env with
  | nil => exact .refl _ _
  | cons d due ih => exact (t.alters_runCheck d.1 d.2 (env 0)).both (ih _ _)

end Availability

section Devices

theorem alters_persist (t : Task E) (ieee : Ieee) (env : Env) :
    Alters see [.stored] t (t.persist ieee env) := by
  unfold persist
  split
  · exact .refl _ _
  · exact t.alters_storeDevice (Store.upsertDevice_network _ _ _)

theorem alters_registerCustomClusters (t : Task E) (ieee : Ieee) :
    Alters see [.registry] t (t.registerCustomClusters ieee) := by
  unfold registerCustomClusters
  split
  · exact .refl _ _
  · intro part hpart
    cases part with
    | registry => simp at hpart
    | _ => rfl

theorem alters_applyDefinitionMetadata (t : Task E) (ieee : Ieee) (env : Env) :
    Alters see [.devices,.stored] t (t.applyDefinitionMetadata ieee env) := by
  unfold applyDefinitionMetadata
  split
  · exact .refl _ _
  · split
    · exact (t.alters_persist ieee env).mono (by decide)
    · split
      · exact .refl _ _
      · exact (alters_modifyDevice t ieee fun _ => by rfl).trans (alters_persist _ _ _)

theorem alters_registerCoordinator (t : Task E) (env : Env) :
    Alters see [.devices,.addresses] t (t.registerCoordinator env) := by
  unfold registerCoordinator
  split
  · exact .refl _ _
  · exact alters_withDevices _ _

theorem alters_readdress (t : Task E) (ieee : Ieee) (nwk : Nwk) :
    Alters see [.devices,.addresses,.events] t (t.readdress ieee nwk) := by
  unfold readdress
  split
  · exact (alters_withDevices _ _).trans (alters_emit _ _)
  · exact (alters_withDevices _ _).mono (by decide)

theorem alters_onJoined (t : Task E) (ieee : Option Ieee) (nwk : Nwk) (env : Env) :
    Alters see [.devices,.addresses,.events,.stored,.interviews] t (t.onJoined ieee nwk env) := by
  unfold onJoined
  split
  · exact .refl _ _
  · rename_i ieee _
    have hentered : Alters see [.devices,.addresses,.events] t
        (if (t.devices.get ieee).isSome then (t.readdress ieee nwk).emit (.deviceAnnounced ieee)
        else { t with devices := t.devices.insert (newEntry ieee nwk env.wall) }.emit
          (.deviceJoined ieee nwk)) := by
      split
      · exact (t.alters_readdress ieee nwk).both ((alters_emit _ _).mono (by decide))
      · exact (alters_withDevices _ _).trans (alters_emit _ _)
    have hannounced (w : Task E) : Alters see [.devices,.events,.stored,.interviews] w
        (let w := (w.touch ieee env.wall .announce env).persist ieee env
          if w.interviewOnJoin ∧ (w.devices.get ieee).any (·.info.interview ≠ .successful) then
            w.spawnInterview ieee none
          else w) := by
      have hstored := (w.alters_touch ieee env.wall .announce env).trans
        (alters_persist _ ieee env)
      dsimp only
      split
      · exact hstored.trans (alters_spawnInterview _ ieee none)
      · exact hstored.mono (by decide)
    exact (hentered.trans (hannounced _)).mono (by decide)

theorem alters_onLeft (t : Task E) (ieee : Option Ieee) (nwk : Option Nwk) (env : Env) :
    Alters see [.devices,.addresses,.stored,.events] t (t.onLeft ieee nwk env) := by
  unfold onLeft
  split
  · exact .refl _ _
  · rename_i ieee _
    have hgone := (alters_withDevices t (t.devices.remove ieee).1).trans
      (alters_storeDevice _ (Store.deleteDevice_network t.store ieee env.deleteDevice))
    exact hgone.trans (alters_emit _ _)

end Devices

section Requests

theorem alters_sendZdo (t : Task E) (ieee : Ieee) (cluster : ZdoClusterId)
    (build : UInt8 → Nwk → Bytes) (reply : ℕ) (env : Env) :
    Alters see [.zdoSequence,.sentZdo,.asked,.pendingZdo,.replies] t
      (t.sendZdo ieee cluster build reply env) := by
  unfold sendZdo
  split
  · exact (alters_answer _ _ _ _).mono (by decide)
  · dsimp only
    have hsent (tx : ZdoTx) := (t.alters_zdoSequence (t.zdoSequence + 1)).trans
      (alters_transmitZdo _ (.zdo reply) (t.zdoSequence + 1) tx env)
    split
    · exact ((hsent _).trans (alters_answer _ _ _ _)).mono (by decide)
    · exact ((hsent _).trans (alters_pendingZdo _ _)).mono (by decide)
    · exact ((hsent _).trans (alters_answer _ _ _ _)).mono (by decide)

theorem alters_zclRead (t : Task E) (ieee : Ieee) (endpoint : EndpointId) (cluster : ClusterId)
    (attributes : List AttrId) (reply : ℕ) (env : Env) :
    Alters see [.zclSequence,.sentZcl,.asked,.pendingZcl,.replies] t
      (t.zclRead ieee endpoint cluster attributes reply env) := by
  unfold zclRead
  split
  · exact (alters_answer _ _ _ _).mono (by decide)
  · dsimp only
    have hsent (tx : ZclTx) := (t.alters_zclSequence (t.zclSequence + 1)).trans
      (alters_transmitZcl _ (.read reply) (t.zclSequence + 1) tx env)
    split
    · exact ((hsent _).trans (alters_answer _ _ _ _)).mono (by decide)
    · exact ((hsent _).trans (alters_pendingZcl _ _)).mono (by decide)
    · exact ((hsent _).trans (alters_answer _ _ _ _)).mono (by decide)

theorem alters_settleZdo (t : Task E) (key : ZdoClusterId × UInt8) (reply : PendingZdo → Reply E)
    (cause : Cause) : Alters see [.pendingZdo,.replies] t (t.settleZdo key reply cause) := by
  unfold settleZdo
  split
  · exact .refl _ _
  · exact (alters_pendingZdo _ _).trans (alters_answer _ _ _ _)

theorem alters_settleZcl (t : Task E) (key : ClusterId × UInt8) (reply : PendingZcl → Reply E)
    (cause : Cause) : Alters see [.pendingZcl,.replies] t (t.settleZcl key reply cause) := by
  unfold settleZcl
  split
  · exact .refl _ _
  · exact (alters_pendingZcl _ _).trans (alters_answer _ _ _ _)

theorem alters_expirePendingZdo (t : Task E) (now : Instant) :
    Alters see [.pendingZdo,.pendingZcl,.replies] t (t.expirePendingZdo now) :=
  ((Alters.foldl (fun t key => t.alters_settleZdo key _ _) _ t).trans
    (Alters.foldl (fun t key => t.alters_settleZcl key _ _) _ _)).mono (by decide)

theorem alters_drainPending (t : Task E) :
    Alters see [.pendingZdo,.pendingZcl,.replies] t t.drainPending :=
  ((Alters.foldl (fun t key => t.alters_settleZdo key _ _) _ t).trans
    (Alters.foldl (fun t key => t.alters_settleZcl key _ _) _ _)).mono (by decide)

theorem alters_bind (t : Task E) (ieee : Ieee) (nwk : Nwk) (endpoint : EndpointId)
    (cluster : ClusterId) (env : Env) :
    Alters see [.zdoSequence,.sentZdo] t (t.bind ieee nwk endpoint cluster env).1 :=
  (t.alters_zdoSequence _).trans (alters_tellZdo _ rfl _ _ _)

theorem alters_configureReporting (t : Task E) (ieee : Ieee) (nwk : Nwk) (endpoint : EndpointId)
    (cluster : ClusterId) (records : List ReportRecord) (env : Env) :
    Alters see [.zclSequence,.sentZcl] t
      (t.configureReporting ieee nwk endpoint cluster records env).1 := by
  have hnumbered := t.alters_zclSequence (t.zclSequence + 1)
  unfold configureReporting
  dsimp only
  split
  · exact hnumbered.mono (by decide)
  · exact hnumbered.trans (alters_tellZcl _ rfl _ _ _)

theorem alters_tuyaFrame (t : Task E) (tsn : UInt8) (points : List E.Datapoint) :
    Alters see [.tuyaSequence] t (t.tuyaFrame tsn points).1 := by
  intro part hpart
  cases part with
  | tuyaSequence => simp at hpart
  | _ => rfl

theorem alters_planCommandFrame (t : Task E) (ieee : Ieee) (command : DeviceCommand E)
    (tsn : UInt8) : Alters see [.tuyaSequence] t (t.planCommandFrame ieee command tsn).1 := by
  have hcapability (other : E.Command) :
      Alters see [.tuyaSequence] t (t.planCapabilityCommand ieee other tsn).1 := by
    unfold planCapabilityCommand
    split
    · split
      · exact alters_tuyaFrame _ _ _
      · split
        · exact .refl _ _
        · exact alters_tuyaFrame _ _ _
        · split
          · exact .refl _ _
          · exact .refl _ _
    · exact .refl _ _
  unfold planCommandFrame
  split
  · split
    · exact .refl _ _
    · exact .refl _ _
  · split
    · exact .refl _ _
    · exact .refl _ _
  · exact hcapability _

theorem alters_commandResult (t : Task E) (ieee : Ieee) (env : Env) :
    Alters see [.devices,.events] t (t.commandResult ieee env).1 := by
  unfold commandResult
  split
  · exact alters_recordTx _ _ _ _ _
  · exact (alters_recordTx _ _ _ _ _).both ((alters_emit _ _).mono (by decide))
  · exact .refl _ _

theorem alters_runCommand (t : Task E) (ieee : Ieee) (command : DeviceCommand E) (reply : ℕ)
    (env : Env) : Alters see [.zclSequence,.tuyaSequence,.sentZcl,.devices,.events] t
      (t.runCommand ieee command reply env).1 := by
  unfold runCommand
  split
  · exact .refl _ _
  · dsimp only
    have hplan := (t.alters_zclSequence (t.zclSequence + 1)).trans
      (alters_planCommandFrame _ ieee command (t.zclSequence + 1))
    split
    · rename_i h
      rw [h] at hplan
      exact hplan.mono (by decide)
    · rename_i h
      rw [h] at hplan
      split
      · exact hplan.mono (by decide)
      · exact ((hplan.trans (alters_tellZcl _ rfl _ _ _)).trans
          (alters_commandResult _ _ _)).mono (by decide)

theorem alters_permitJoin (t : Task E) (duration : Duration) (via : Option Ieee) (env : Env) :
    Alters see [.events] t (t.permitJoin duration via env).1 := by
  unfold permitJoin
  split
  · exact .refl _ _
  · split
    · exact .refl _ _
    · exact alters_emit _ _

end Requests

section Provisioning

theorem alters_persistNetworkIfNeeded (t : Task E) (env : Env) :
    Alters see [.network,.networkKnown,.storedCounter] t (t.persistNetworkIfNeeded env) := by
  unfold persistNetworkIfNeeded
  split
  · exact .refl _ _
  · split
    · exact .refl _ _
    · dsimp only
      split
      · exact (alters_storeNetwork _ _ _).trans (alters_storedCounter _ _ _)
      · exact (alters_storeNetwork _ _ _).mono (by decide)

theorem alters_refreshFrameCounter (t : Task E) (env : Env) :
    Alters see [.network,.storedCounter] t (t.refreshFrameCounter env) := by
  unfold refreshFrameCounter
  split
  · exact .refl _ _
  · split
    · exact .refl _ _
    · split
      · exact .refl _ _
      · split
        · dsimp only
          have hwritten (u : Task E) (counter : UInt32) : Alters see [.storedCounter] u
              { u with persistedFrameCounter := counter } := by
            intro part hpart
            cases part with
            | storedCounter => simp at hpart
            | _ => rfl
          split
          · exact (alters_storeNetwork _ _ _).trans (hwritten _ _)
          · exact (alters_storeNetwork _ _ _).mono (by decide)
        · exact .refl _ _

theorem alters_bindStep (t : Task E) (ieee : Ieee) (nwk : Nwk) (step : ConfigureStep)
    (p : PlanProgress) (env : Env) :
    Alters see [.zdoSequence,.sentZdo] t (t.bindStep ieee nwk step p env).1 := by
  have hbind := t.alters_bind ieee nwk step.endpoint step.cluster env
  unfold bindStep
  split
  · exact .refl _ _
  · dsimp only
    split
    · rename_i h
      rwa [h] at hbind
    · rename_i h
      rwa [h] at hbind

theorem alters_reportStep (t : Task E) (ieee : Ieee) (nwk : Nwk) (step : ConfigureStep)
    (p : PlanProgress) (env : Env) :
    Alters see [.zclSequence,.sentZcl] t (t.reportStep ieee nwk step p env).1 := by
  unfold reportStep
  split
  · exact .refl _ _
  · split
    · exact .refl _ _
    · rename_i attr _ _ ty _
      have hreport := t.alters_configureReporting ieee nwk step.endpoint step.cluster
        [⟨attr,ty,step.minInterval,step.maxInterval,step.minChange⟩] env
      split
      · rename_i h
        rwa [h] at hreport
      · rename_i h
        rwa [h] at hreport

theorem alters_runPlan (ieee : Ieee) (nwk : Nwk) (steps : List ConfigureStep) (t : Task E)
    (p : PlanProgress) (env : ℕ → Env) :
    Alters see [.zdoSequence,.sentZdo,.zclSequence,.sentZcl] t
      (runPlan ieee nwk steps t p env).1 := by
  induction steps generalizing t p env with
  | nil => exact .refl _ _
  | cons step steps ih =>
    have hstep := (t.alters_bindStep ieee nwk step p (env 0)).trans
      (alters_reportStep _ ieee nwk step (t.bindStep ieee nwk step p (env 0)).2 (env 1))
    exact hstep.both (ih _ _ _)

theorem alters_executeConfigurePlan (t : Task E) (ieee : Ieee) (env : ℕ → Env) :
    Alters see [.zdoSequence,.sentZdo,.zclSequence,.sentZcl] t
      (t.executeConfigurePlan ieee env).1 := by
  unfold executeConfigurePlan
  split
  · exact alters_runPlan _ _ _ _ _ _
  · exact .refl _ _

/-- What an interview tells before it is over is written down and nothing else. -/
theorem alters_update (t : Task E) (ieee : Ieee) {update : InterviewUpdate} (env : ℕ → Env)
    (h : ∀ outcome, update ≠ .finished outcome) :
    Alters see [.devices,.events,.stored] t (t.applyInterviewUpdate ieee update env) := by
  cases update with
  | started =>
    exact ((alters_modifyDevice t ieee fun _ => by rfl).trans (alters_emit _ _)).trans
      (alters_persist _ _ _)
  | nodeDescriptor kind power sleepy =>
    exact ((alters_modifyDevice t ieee fun _ => by rfl).trans
      (alters_persist _ _ _)).mono (by decide)
  | step step => exact (alters_emit _ _).mono (by decide)
  | finished outcome => exact absurd rfl (h outcome)

/-- Once it is over, the clusters its definition declares are known and its plan is carried out. -/
theorem alters_applyInterviewUpdate (t : Task E) (ieee : Ieee) (update : InterviewUpdate)
    (env : ℕ → Env) :
    Alters see [.devices,.events,.stored,.registry,.zdoSequence,.sentZdo,.zclSequence,.sentZcl] t
      (t.applyInterviewUpdate ieee update env) := by
  cases update with
  | finished outcome =>
    have hwritten :=
      ((alters_modifyDevice t ieee (f := finishInterview outcome) fun _ => by rfl).trans
        (alters_persist _ ieee (env 0))).trans (alters_emit _ (.interviewFinished ieee outcome.state))
    have hresolved (event : Event E) := hwritten.trans (alters_emit _ event)
    unfold applyInterviewUpdate
    dsimp only
    split
    · exact ((((hresolved _).trans (alters_registerCustomClusters _ _)).trans
        (alters_applyDefinitionMetadata _ _ _)).trans
          (alters_executeConfigurePlan _ _ _)).mono (by decide)
    · exact (hresolved _).mono (by decide)
  | _ => exact (t.alters_update ieee env fun _ he => by cases he).mono (by decide)

end Provisioning

section Inbound

theorem alters_publish (t : Task E) (ieee : Ieee) (rx : ZclRx) (kind : ZclMessageKind) :
    Alters see [.events] t (t.publish ieee rx kind) := by
  rcases t.publish_cases ieee rx kind with h | ⟨_,_,h⟩ | ⟨_,_,_,h⟩
  · rw [h]
    exact .refl _ _
  · rw [h]
    exact alters_emit _ _
  · rw [h]
    exact alters_emit _ _

theorem alters_answerOtaQuery (t : Task E) (ieee : Ieee) (rx : ZclRx) (env : Env) :
    Alters see [.sentZcl] t (t.answerOtaQuery ieee rx env) := by
  unfold answerOtaQuery
  split
  · split
    · exact .refl _ _
    · exact alters_tellZcl _ rfl _ _ _
  · exact .refl _ _

/-- Once a firmware question is answered, the frame is only noted. -/
theorem alters_noted (t : Task E) (ieee : Ieee) (rx : ZclRx) (env : Env) :
    Alters see [.devices,.events]
      (if rx.cluster = otaCluster then t.answerOtaQuery ieee rx env else t)
      (t.reportZcl ieee rx env) := by
  unfold reportZcl
  dsimp only
  generalize (if rx.cluster = otaCluster then t.answerOtaQuery ieee rx env else t) = u
  split
  · exact (((alters_touch _ _ _ _ _).trans (alters_publish _ _ _ _)).trans
      (alters_emit _ _)).mono (by decide)
  · exact ((alters_touch _ _ _ _ _).trans (alters_emit _ _)).mono (by decide)

theorem alters_reportZcl (t : Task E) (ieee : Ieee) (rx : ZclRx) (env : Env) :
    Alters see [.sentZcl,.devices,.events] t (t.reportZcl ieee rx env) := by
  have hota : Alters see [.sentZcl] t
      (if rx.cluster = otaCluster then t.answerOtaQuery ieee rx env else t) := by
    split
    · exact alters_answerOtaQuery _ _ _ _
    · exact .refl _ _
  exact hota.trans (t.alters_noted ieee rx env)

theorem alters_onZcl (t : Task E) (rx : ZclRx) (origin : Option ℕ) (env : Env) :
    Alters see [.devices,.addresses,.events,.pendingZcl,.replies,.sentZcl] t
      (t.onZcl rx origin env) := by
  unfold onZcl
  split
  · exact .refl _ _
  · rename_i ieee _
    have hheard := (t.alters_readdress ieee rx.nwk).trans (alters_modifyDevice _ ieee (f := fun e =>
      { e with info := { e.info with linkQuality := rx.linkQuality <|> e.info.linkQuality } })
        fun _ => rfl)
    dsimp only
    split
    · exact ((hheard.trans (alters_settleZcl _ _ _ _)).trans
        (alters_touch _ _ _ _ _)).mono (by decide)
    · exact (hheard.trans (alters_reportZcl _ _ _ _)).mono (by decide)

theorem alters_completeZdo (t : Task E) (cluster : ZdoClusterId) (nwk : Nwk) (payload : Bytes) :
    Alters see [.pendingZdo,.replies] t (t.completeZdo cluster nwk payload) := by
  cases payload with
  | nil => exact .refl _ _
  | cons sequence rest => exact alters_settleZdo _ _ _ _

theorem alters_onZdo (t : Task E) (cluster : ZdoClusterId) (nwk : Nwk) (payload : Bytes)
    (env : Env) : Alters see [.pendingZdo,.replies,.devices,.events] t
      (t.onZdo cluster nwk payload env) := by
  have hdone := t.alters_completeZdo cluster nwk payload
  unfold onZdo
  dsimp only
  split
  · exact ((hdone.trans (alters_touch _ _ _ _ _)).trans (alters_emit _ _)).mono (by decide)
  · exact (hdone.trans (alters_emit _ _)).mono (by decide)

end Inbound

section Turns

/-- Nothing that is asked, but to stop, ends the loop or touches the network record, and only
the end of an interview touches the registry. -/
theorem alters_unfinished (t : Task E) {request : Request E} (h : request ≠ .stop)
    (hupdate : ∀ ieee outcome, request ≠ .interviewUpdate ieee (.finished outcome)) (reply : ℕ)
    (env : ℕ → Env) :
    Alters see [.events,.replies,.devices,.stored,.interviews,.asked,.pendingZdo,.pendingZcl,
      .zdoSequence,.zclSequence,.tuyaSequence,.sentZdo,.sentZcl] t
      (t.handleRequest request reply env) := by
  cases request with
  | stop => exact absurd rfl h
  | permitJoin duration via =>
    exact ((t.alters_permitJoin duration via _).trans (alters_answer _ _ _ _)).mono (by decide)
  | zclRead ieee endpoint cluster attributes =>
    exact (t.alters_zclRead ieee endpoint cluster attributes reply _).mono (by decide)
  | zdo ieee cluster build => exact (t.alters_sendZdo ieee cluster build reply _).mono (by decide)
  | command ieee command =>
    exact ((t.alters_runCommand ieee command reply _).trans
      (alters_answer _ _ _ _)).mono (by decide)
  | interview ieee =>
    unfold handleRequest
    dsimp only
    split
    · exact (t.alters_spawnInterview ieee _).mono (by decide)
    · exact (alters_answer _ _ _ _).mono (by decide)
  | interviewUpdate ieee update =>
    have hopen (outcome : InterviewOutcome) : update ≠ .finished outcome := by
      rintro rfl
      exact hupdate ieee outcome rfl
    exact (t.alters_update ieee env hopen).mono (by decide)
  | configure ieee =>
    unfold handleRequest
    dsimp only
    split
    · exact ((t.alters_executeConfigurePlan ieee env).trans
        (alters_answer _ _ _ _)).mono (by decide)
    · exact (alters_answer _ _ _ _).mono (by decide)
  | _ => exact (alters_answer _ _ _ _).mono (by decide)

theorem alters_handleRequest (t : Task E) {request : Request E} (h : request ≠ .stop) (reply : ℕ)
    (env : ℕ → Env) :
    Alters see [.events,.replies,.devices,.stored,.registry,.interviews,.asked,.pendingZdo,
      .pendingZcl,.zdoSequence,.zclSequence,.tuyaSequence,.sentZdo,.sentZcl] t
      (t.handleRequest request reply env) := by
  by_cases hfinished : ∃ ieee outcome, request = .interviewUpdate ieee (.finished outcome)
  · obtain ⟨ieee,outcome,rfl⟩ := hfinished
    exact (t.alters_applyInterviewUpdate ieee (.finished outcome) env).mono (by decide)
  · have hupdate (ieee : Ieee) (outcome : InterviewOutcome) :
        request ≠ .interviewUpdate ieee (.finished outcome) :=
      fun he => hfinished ⟨ieee,outcome,he⟩
    exact (t.alters_unfinished h hupdate reply env).mono (by decide)

theorem alters_handleAdapterEvent (t : Task E) (event : AdapterEvent) (origin : Option ℕ)
    (env : ℕ → Env) :
    Alters see [.devices,.addresses,.events,.stored,.interviews,.pendingZdo,.pendingZcl,.replies,
      .sentZcl] t (t.handleAdapterEvent event origin env) := by
  cases event with
  | deviceJoined ieee nwk => exact (t.alters_onJoined ieee nwk _).mono (by decide)
  | deviceLeft ieee nwk => exact (t.alters_onLeft ieee nwk _).mono (by decide)
  | zcl rx => exact (t.alters_onZcl rx origin _).mono (by decide)
  | zdo cluster nwk payload => exact (t.alters_onZdo cluster nwk payload _).mono (by decide)
  | disconnected reason => exact (t.alters_emit _).mono (by decide)

theorem alters_startup (t : Task E) (outcome : StartOutcome) (env : Env) :
    Alters see [.devices,.addresses,.registry,.network,.networkKnown,.storedCounter,.events] t
      (t.startup outcome env) :=
  (((t.alters_registerCoordinator env).trans
    (Alters.foldl (fun t ieee => t.alters_registerCustomClusters ieee) _ _)).trans
      (alters_persistNetworkIfNeeded _ env)).trans (alters_emit _ _)

theorem alters_shutdown (t : Task E) (env : Env) :
    Alters see [.events,.pendingZdo,.pendingZcl,.replies,.network,.storedCounter,.stopped] t
      (t.shutdown env) := by
  have hstopped (u : Task E) : Alters see [.stopped] u { u with stopped := true } := by
    intro part hpart
    cases part with
    | stopped => simp at hpart
    | _ => rfl
  have hdrained := ((t.alters_emit .stopping).trans (alters_drainPending _)).trans
    (alters_refreshFrameCounter _ env)
  exact hdrained.trans (hstopped _)

theorem alters_tick (t : Task E) (env : ℕ → Env) :
    Alters see [.pendingZdo,.pendingZcl,.replies,.sentZcl,.devices,.events,.network,
      .storedCounter] t (t.tick env) :=
  ((t.alters_expirePendingZdo _).trans (alters_runChecks _ _ _)).trans
    (alters_refreshFrameCounter _ _)

theorem alters_received (t : Task E) (request : Request E) :
    Alters see [.requests] t { t with requests := t.requests ++ [request] } := by
  intro part hpart
  cases part with
  | requests => simp at hpart
  | _ => rfl

/-- What the loop was given stays as it is, and so does the registry but for the end of an
interview. -/
theorem alters_step (t : Task E) {i : Input E}
    (h : ∀ ieee outcome env, i ≠ .request (.interviewUpdate ieee (.finished outcome)) env) :
    Alters see [.requests,.events,.replies,.devices,.addresses,.stored,.network,.networkKnown,
      .storedCounter,.interviews,.asked,.pendingZdo,.pendingZcl,.zdoSequence,.zclSequence,
      .tuyaSequence,.sentZdo,.sentZcl,.stopped,.abandoned] t (t.step i) := by
  unfold step
  split
  · exact .refl _ _
  · cases i with
    | request request env =>
      have hreceived := t.alters_received request
      by_cases hstop : request = .stop
      · subst hstop
        exact ((hreceived.trans (alters_shutdown _ _)).trans
          (alters_answer _ _ _ _)).mono (by decide)
      · have hupdate (ieee : Ieee) (outcome : InterviewOutcome) :
            request ≠ .interviewUpdate ieee (.finished outcome) :=
          fun he => h ieee outcome env (by rw [he])
        exact (hreceived.trans (alters_unfinished _ hstop hupdate _ _)).mono (by decide)
    | event event origin env =>
      exact (t.alters_handleAdapterEvent event origin env).mono (by decide)
    | tick env => exact (t.alters_tick env).mono (by decide)
    | abandon reply =>
      intro part hpart
      cases part with
      | abandoned => simp at hpart
      | _ => rfl
    | handlesDropped env => exact (t.alters_shutdown (env 0)).mono (by decide)
    | adapterClosed env => exact (t.alters_shutdown (env 0)).mono (by decide)

end Turns

end Task
end Rszigbee
