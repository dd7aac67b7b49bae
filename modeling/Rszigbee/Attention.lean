import Rszigbee.Liveness
import Rszigbee.Settings
import Rszigbee.Watch

/-! Which devices a turn hears and which it assesses, and what that makes of them under
`SilencePolicy`. -/
namespace Rszigbee

/-- The clocks as a handler reads them. -/
def Env.read (env : Env) : Clocks := ⟨env.now,env.wall⟩

/-- The clocks as the assessment after it reads them. -/
def Env.assessed (env : Env) : Clocks := ⟨env.assessedAt,env.assessedWall⟩

namespace Task

variable {E : Engine} {limit : Duration}

def watch (t : Task E) (j : Ieee) : Option Watch := (t.devices.get j).map Entry.watch

section Handlers

theorem watch_congr {t t' : Task E} (h : t'.view = t.view) (j : Ieee) : t'.watch j = t.watch j :=
  congrArg (fun v => (v.devices.get j).map Entry.watch) h

theorem restsOn_watch (j : Ieee) : RestsOn see [.devices] fun t : Task E => t.watch j := by
  intro t u h
  have hdevices : u.devices = t.devices := h .devices (by simp)
  simp only [watch,hdevices]

theorem watch_modifyDevice {f : Entry → Entry} {g : Watch → Watch}
    (h : ∀ e, (f e).watch = g e.watch) (t : Task E) (ieee j : Ieee) :
    (t.modifyDevice ieee f).watch j = if j = ieee then (t.watch j).map g else t.watch j := by
  rw [watch,watch,get_modifyDevice]
  split
  · rw [Option.map_map,Option.map_map]
    congr 1
    funext e
    exact h e
  · rfl

theorem watch_unmodified {f : Entry → Entry} (h : ∀ e, (f e).watch = e.watch) (t : Task E)
    (ieee j : Ieee) : (t.modifyDevice ieee f).watch j = t.watch j := by
  rw [watch_modifyDevice (g := id) h]
  simp

/-- Nothing is made of a device that is not in the table. -/
theorem watch_absent {t : Task E} {ieee : Ieee} (h : t.devices.get ieee = none)
    (f : Watch → Watch) (j : Ieee) :
    (if j = ieee then (t.watch j).map f else t.watch j) = t.watch j := by
  split
  · rename_i hj
    simp [watch,hj,h]
  · rfl

variable {t : Task E} (hpolicy : t.reachability = silencePolicy limit)

include hpolicy

theorem watch_assess (ieee : Ieee) (evidence : Evidence) (env : Env) (j : Ieee) :
    (t.assess ieee evidence env).watch j =
      if j = ieee then (t.watch j).map (Watch.look limit env.assessed) else t.watch j := by
  have hdevices : ∀ e, t.devices.get ieee = some e →
      (t.assess ieee evidence env).devices = (t.modifyDevice ieee fun e' => { e' with
        reachability := { e'.reachability with
          state := (silencePolicy limit
            ⟨e.info,e.reachability,env.assessedAt,env.assessedWall⟩).verdict }
        nextCheck := (silencePolicy limit
          ⟨e.info,e.reachability,env.assessedAt,env.assessedWall⟩).next }).devices := by
    intro e he
    rw [assess,he,hpolicy]
    dsimp only
    split <;> rfl
  cases he : t.devices.get ieee with
  | none =>
    have hsame : t.assess ieee evidence env = t := by
      rw [assess,he]
    rw [hsame,watch_absent he]
  | some e =>
    rw [watch,hdevices e he,get_modifyDevice]
    split
    · rename_i hj
      rw [watch,hj,he]
      exact congrArg some (Watch.watch_silencePolicy limit env.assessedAt env.assessedWall e)
    · rfl

theorem watch_touch (ieee : Ieee) (seen : SystemTime) (reason : LastSeenReason) (env : Env)
    (j : Ieee) : (t.touch ieee seen reason env).watch j = if j = ieee then
      (t.watch j).map fun w => (w.hear seen).look limit env.assessed else t.watch j := by
  rw [touch]
  cases he : t.devices.get ieee with
  | none => exact (watch_absent he _ j).symm
  | some e =>
    let u := (t.modifyDevice ieee (Mark.heard seen).write).emit (.lastSeenChanged ieee seen reason)
    have hheard : u.watch j = if j = ieee then (t.watch j).map (Watch.hear seen) else t.watch j :=
      t.watch_modifyDevice (fun _ => rfl) ieee j
    refine (watch_assess (t := u) hpolicy ieee .traffic env j).trans ?_
    rw [hheard]
    split
    · rw [Option.map_map]
      rfl
    · rfl

theorem watch_recordTx (ieee : Ieee) (now : Instant) (result : Except TxFailure Unit) (env : Env)
    (j : Ieee) : (t.recordTx ieee now result env).watch j =
      if j = ieee then (t.watch j).map (Watch.look limit env.assessed) else t.watch j := by
  let u := t.modifyDevice ieee (Mark.transmitted now result).write
  have hsame : u.watch j = t.watch j :=
    t.watch_unmodified (fun e => by cases result <;> rfl) ieee j
  rw [← hsame]
  exact watch_assess (t := u) hpolicy ieee _ env j

theorem watch_probe (ieee : Ieee) (allowRecovery : Bool) (env : Env) (j : Ieee) :
    (t.probe ieee allowRecovery env).watch j =
      if j = ieee then (t.watch j).map (Watch.look limit env.assessed) else t.watch j := by
  rw [probe]
  cases he : t.devices.get ieee with
  | none => exact (watch_absent he _ j).symm
  | some e =>
    let u := t.modifyDevice ieee (Mark.probed env.now (probeResult env.sendZcl)).write
    have hmark : ∀ e, (Mark.write (.probed env.now (probeResult env.sendZcl)) e).watch = e.watch :=
      fun _ => rfl
    have hsame : u.watch j = t.watch j := t.watch_unmodified hmark ieee j
    rw [← hsame]
    exact watch_assess (t := u.transmitZcl .probe 0 _ env) hpolicy ieee _ env j

theorem watch_runCheck (ieee : Ieee) {next : NextCheck} (hnext : next ≠ .awaitTraffic) (env : Env)
    (j : Ieee) : (t.runCheck ieee next env).watch j =
      if j = ieee then (t.watch j).map (Watch.look limit env.assessed) else t.watch j := by
  cases next with
  | probe due attempts recover => exact watch_probe hpolicy ieee recover env j
  | reassess due => exact watch_assess hpolicy ieee .elapsed env j
  | awaitTraffic => exact absurd rfl hnext

theorem watch_runChecks (due : List (Ieee × NextCheck)) (env : ℕ → Env)
    (hdue : ∀ d ∈ due, d.2 ≠ .awaitTraffic) (hdistinct : due.Pairwise fun d d' => d.1 ≠ d'.1)
    (j : Ieee) : (runChecks due t env).watch j =
      (t.watch j).map (((due.findIdx? fun d => d.1 = j).map fun k => (env k).assessed).elim id
        (Watch.look limit)) := by
  induction due generalizing t env with
  | nil => simp [runChecks]
  | cons d due ih =>
    obtain ⟨hfirst,hrest⟩ := List.pairwise_cons.mp hdistinct
    let u := t.runCheck d.1 d.2 (env 0)
    have hu : u.reachability = silencePolicy limit :=
      (t.alters_runCheck d.1 d.2 (env 0) .policy (by decide)).trans hpolicy
    have hlook := watch_runCheck hpolicy d.1 (hdue d (by simp)) (env 0) j
    rw [runChecks,ih hu _ (fun d' hd' => hdue d' (by simp [hd'])) hrest,hlook,List.findIdx?_cons]
    by_cases hj : d.1 = j
    · -- The rest of the list is about other devices.
      have hnone : (due.findIdx? fun d' => d'.1 = j) = none := by
        rw [List.findIdx?_eq_none_iff]
        intro d' hd'
        simpa [← hj] using (hfirst d' hd').symm
      simp [hj,hnone]
    · simp [hj,Ne.symm hj,Function.comp_def]

end Handlers

section Turns

/-- The frame of a device that an input has recorded: it joins or announces itself, or a message
of it comes in while it is known. -/
def hears (t : Task E) (i : Input E) (j : Ieee) : Option Env :=
  if t.stopped then none
  else
    match i with
    | .event (.deviceJoined ieee nwk) _ env =>
      if (ieee <|> t.devices.resolve nwk) = some j then some (env 0) else none
    | .event (.zcl rx) _ env =>
      if t.senderOf rx = some j ∧ (t.devices.get j).isSome then some (env 0) else none
    | .event (.zdo _ nwk _) _ env => if t.devices.resolve nwk = some j then some (env 0) else none
    | _ => none

/-- What an input has a device assessed on: a command that says something of it, a check that
is due, or a frame. -/
def assesses (t : Task E) (i : Input E) (j : Ieee) : Option Env :=
  if t.stopped then none
  else
    match i with
    | .request (.command ieee command) env =>
      if j = ieee ∧ (commandTx { t with requests := t.requests ++ [.command ieee command] } ieee
        command).isSome ∧ (commandEvidence (env 0).sendZcl).isSome then some (env 0) else none
    | .tick env =>
      ((t.dueChecks (env 1).now).findIdx? fun d => d.1 = j).map fun k => env (k+2)
    | _ => t.hears i j

/-- What an input makes of a device: it is heard, then assessed. -/
def attend (limit : Duration) (t : Task E) (i : Input E) (j : Ieee) (w : Watch) : Watch :=
  let heard := (t.hears i j).elim w fun env => w.hear env.wall
  (t.assesses i j).elim heard fun env => heard.look limit env.assessed

theorem map_attend_aside {t : Task E} {i : Input E} {j : Ieee} (hhears : t.hears i j = none)
    (hassesses : t.assesses i j = none) (o : Option Entry) :
    (o.map fun e => t.attend limit i j e.watch) = o.map Entry.watch := by
  simp [attend,hhears,hassesses]

theorem map_attend_checked {t : Task E} {i : Input E} {j : Ieee} {env : Env}
    (hhears : t.hears i j = none) (hassesses : t.assesses i j = some env) (o : Option Entry) :
    (o.map fun e => t.attend limit i j e.watch) =
      (o.map Entry.watch).map (Watch.look limit env.assessed) := by
  simp [attend,hhears,hassesses,Function.comp_def]

theorem map_attend_heard {t : Task E} {i : Input E} {j : Ieee} {p : Prop} [Decidable p] {env : Env}
    (hhears : t.hears i j = if p then some env else none)
    (hassesses : t.assesses i j = t.hears i j) (o : Option Entry) :
    (o.map fun e => t.attend limit i j e.watch) = if p then
      (o.map Entry.watch).map fun w => (w.hear env.wall).look limit env.assessed
    else o.map Entry.watch := by
  rw [hhears] at hassesses
  split
  · simp_all [attend,Function.comp_def]
  · simp_all [attend]

theorem watch_updated (update : InterviewUpdate) (e : Entry) :
    (updated E update e).watch = e.watch := by
  cases update with
  | finished outcome =>
    simp only [updated,withMetadata]
    split
    · rfl
    · split <;> rfl
  | _ => rfl

theorem watch_shutdown (t : Task E) (env : Env) (j : Ieee) :
    (t.shutdown env).watch j = t.watch j :=
  (t.alters_shutdown env).keeps (restsOn_watch j) (by decide)

theorem watch_readdress (t : Task E) (ieee : Ieee) (nwk : Nwk) (j : Ieee) :
    (t.readdress ieee nwk).watch j = t.watch j := by
  have hget : (t.readdress ieee nwk).devices.get j = (t.view.readdress ieee nwk).devices.get j :=
    congrArg (fun v => v.devices.get j) (t.view_readdress ieee nwk)
  rw [watch,watch,hget,View.readdress_get]
  by_cases hj : j = ieee
  · rw [if_pos hj,hj,Option.map_map]
    rfl
  · rw [if_neg hj]
    rfl

theorem watch_publish (t : Task E) (ieee : Ieee) (rx : ZclRx) (kind : ZclMessageKind) (j : Ieee) :
    (t.publish ieee rx kind).watch j = t.watch j :=
  (t.alters_publish ieee rx kind).keeps (restsOn_watch j) (by decide)

/-- The task once a device that joins is in the table. -/
def entered (t : Task E) (ieee : Ieee) (nwk : Nwk) (wall : SystemTime) : Task E :=
  if (t.devices.get ieee).isSome then (t.readdress ieee nwk).emit (.deviceAnnounced ieee)
  else { t with devices := t.devices.insert (newEntry ieee nwk wall) }.emit (.deviceJoined ieee nwk)

theorem alters_entered (t : Task E) (ieee : Ieee) (nwk : Nwk) (wall : SystemTime) :
    Alters see [.devices,.addresses,.events] t (t.entered ieee nwk wall) := by
  rw [entered]
  split
  · exact ((t.alters_readdress ieee nwk).trans (alters_emit _ _)).mono (by decide)
  · exact (t.alters_withDevices _).trans (alters_emit _ _)

theorem watch_entered (t : Task E) (ieee : Ieee) (nwk : Nwk) (wall : SystemTime) (j : Ieee) :
    (t.entered ieee nwk wall).watch j = if j = ieee then
      some ((t.devices.get j).getD (newEntry j nwk wall)).watch else t.watch j := by
  rw [entered]
  split
  · rename_i hknown
    obtain ⟨e,he⟩ := Option.isSome_iff_exists.mp hknown
    refine (t.watch_readdress ieee nwk j).trans ?_
    split
    · rename_i hj
      simp [watch,hj,he]
    · rfl
  · rename_i hunknown
    have hnone : t.devices.get ieee = none := by simpa using hunknown
    have hieee : (newEntry ieee nwk wall).info.ieee = ieee := rfl
    show ((t.devices.insert (newEntry ieee nwk wall)).get j).map Entry.watch = _
    rw [Inventory.insert_get,hieee]
    split
    · rename_i hj
      rw [hj,hnone]
      rfl
    · rfl

variable {t : Task E} (hpolicy : t.reachability = silencePolicy limit)

include hpolicy

theorem watch_onJoined (ieee : Option Ieee) (nwk : Nwk) (env : Env) (j : Ieee) :
    (t.onJoined ieee nwk env).watch j = if (ieee <|> t.devices.resolve nwk) = some j then
      some ((((t.devices.get j).getD (newEntry j nwk env.wall)).watch.hear env.wall).look limit
        env.assessed) else t.watch j := by
  rw [onJoined]
  cases ha : ieee <|> t.devices.resolve nwk with
  | none => exact (if_neg (by simp)).symm
  | some a =>
    let u := t.entered a nwk env.wall
    have hu : u.reachability = silencePolicy limit :=
      (t.alters_entered a nwk env.wall .policy (by decide)).trans hpolicy
    let v := u.touch a env.wall .announce env
    have hdevices (o : Option ℕ) : (if (v.persist a env).interviewOnJoin ∧
        ((v.persist a env).devices.get a).any (·.info.interview ≠ .successful) then
          (v.persist a env).spawnInterview a o else v.persist a env).watch j = v.watch j := by
      have hpersist : (v.persist a env).watch j = v.watch j := by
        rw [watch,devices_persist,watch]
      split <;> exact hpersist
    refine (hdevices none).trans ((watch_touch hu a env.wall .announce env j).trans ?_)
    rw [watch_entered]
    by_cases hj : j = a
    · rw [if_pos hj,if_pos hj,if_pos (congrArg some hj.symm)]
      rfl
    · rw [if_neg hj,if_neg hj,if_neg fun h => hj (Option.some.inj h).symm]

theorem watch_reportZcl (ieee : Ieee) (rx : ZclRx) (env : Env) (j : Ieee) :
    (t.reportZcl ieee rx env).watch j = if j = ieee then
      (t.watch j).map fun w => (w.hear env.wall).look limit env.assessed else t.watch j := by
  let u := if rx.cluster = otaCluster then t.answerOtaQuery ieee rx env else t
  have hota : Alters see [.sentZcl] t u := by
    show Alters see [.sentZcl] t (if rx.cluster = otaCluster then t.answerOtaQuery ieee rx env else t)
    split
    · exact t.alters_answerOtaQuery ieee rx env
    · exact .refl _ _
  have hu : u.reachability = silencePolicy limit := (hota .policy (by decide)).trans hpolicy
  rw [reportZcl,← hota.keeps (restsOn_watch j) (by decide)]
  split
  · exact (watch_publish _ ieee rx _ j).trans (watch_touch (t := u) hu ieee env.wall .message env j)
  · exact watch_touch (t := u) hu ieee env.wall .messageWithoutPayload env j

theorem watch_onZcl (rx : ZclRx) (origin : Option ℕ) (env : Env) (j : Ieee) :
    (t.onZcl rx origin env).watch j = if t.senderOf rx = some j ∧ (t.devices.get j).isSome then
      (t.watch j).map fun w => (w.hear env.wall).look limit env.assessed else t.watch j := by
  rw [onZcl]
  cases ha : t.senderOf rx with
  | none => exact (if_neg (by simp)).symm
  | some a =>
    let u := (t.readdress a rx.nwk).modifyDevice a (Mark.link rx.linkQuality).write
    have hu : u.reachability = silencePolicy limit :=
      (t.alters_readdress a rx.nwk .policy (by decide)).trans hpolicy
    have hlink : ∀ e, (Mark.write (.link rx.linkQuality) e).watch = e.watch := fun _ => rfl
    have hwatch : u.watch j = t.watch j :=
      (watch_unmodified hlink _ a j).trans (t.watch_readdress a rx.nwk j)
    have htouched {v : Task E} (hv : v.watch j = if j = a then
        (u.watch j).map fun w => (w.hear env.wall).look limit env.assessed else u.watch j) :
        v.watch j = if some a = some j ∧ (t.devices.get j).isSome then
          (t.watch j).map fun w => (w.hear env.wall).look limit env.assessed else t.watch j := by
      rw [hv,hwatch]
      cases hget : t.devices.get j with
      | none => simp [watch,hget]
      | some e => simp [eq_comm]
    dsimp only
    split
    · rename_i frame answer _
      let v := u.completeRead a rx frame answer origin
      have hsettled : Alters see [.pendingZcl,.replies] u v := u.alters_settleZcl _ _ _
      have hv : v.reachability = silencePolicy limit := (hsettled .policy (by decide)).trans hu
      refine htouched ?_
      rw [← hsettled.keeps (restsOn_watch j) (by decide)]
      exact watch_touch (t := v) hv a env.wall .message env j
    · exact htouched (watch_reportZcl (t := u) hu a rx env j)

theorem watch_onZdo (cluster : ZdoClusterId) (nwk : Nwk) (payload : Bytes) (env : Env) (j : Ieee) :
    (t.onZdo cluster nwk payload env).watch j = if t.devices.resolve nwk = some j then
      (t.watch j).map fun w => (w.hear env.wall).look limit env.assessed else t.watch j := by
  let u := t.completeZdo cluster nwk payload
  have hdone := t.alters_completeZdo cluster nwk payload
  have hu : u.reachability = silencePolicy limit := (hdone .policy (by decide)).trans hpolicy
  have hdevices : u.devices = t.devices := hdone .devices (by decide)
  have hwatch : u.watch j = t.watch j := hdone.keeps (restsOn_watch j) (by decide)
  rw [onZdo,hdevices,← hwatch]
  cases t.devices.resolve nwk with
  | none => exact (if_neg (by simp)).symm
  | some a =>
    refine (watch_touch (t := u) hu a env.wall .message env j).trans ?_
    simp [eq_comm]

theorem watch_runCommand (ieee : Ieee) (command : DeviceCommand E) (reply : ℕ) (env : Env)
    (j : Ieee) : (t.runCommand ieee command reply env).1.watch j =
      if j = ieee ∧ (t.commandTx ieee command).isSome ∧ (commandEvidence env.sendZcl).isSome then
        (t.watch j).map (Watch.look limit env.assessed) else t.watch j := by
  rcases t.runCommand_cases ieee command reply env with ⟨hnone,hview⟩ | ⟨tx,u,hsome,hview,hrun⟩
  · rw [watch_congr hview,hnone]
    simp
  · have hu : u.reachability = silencePolicy limit := by
      have hsaid := u.alters_commandResult ieee env .policy (by decide)
      have hasked := t.alters_runCommand ieee command reply env .policy (by decide)
      rw [hrun,hsaid] at hasked
      exact hasked.trans hpolicy
    rw [hrun,hsome,commandResult,← watch_congr hview]
    cases env.sendZcl with
    | ok response =>
      simpa [commandEvidence] using watch_recordTx (t := u) hu ieee env.now (.ok ()) env j
    | error e =>
      cases e with
      | tx failure =>
        refine (watch_recordTx (t := u) hu ieee env.now (.error failure) env j).trans ?_
        simp [commandEvidence]
      | _ => simp [commandEvidence]

theorem watch_tick (hsound : t.devices.Sound) (env : ℕ → Env) (j : Ieee) : (t.tick env).watch j =
    (t.watch j).map ((((t.dueChecks (env 1).now).findIdx? fun d => d.1 = j).map fun k =>
      (env (k+2)).assessed).elim id (Watch.look limit)) := by
  let u := t.expirePendingZdo (env 0).now
  have hexpired := t.alters_expirePendingZdo (env 0).now
  have hu : u.reachability = silencePolicy limit := (hexpired .policy (by decide)).trans hpolicy
  have hdue : ∀ d ∈ t.dueChecks (env 1).now, d.2 ≠ .awaitTraffic := by
    rintro ⟨ieee,next⟩ hd rfl
    simpa [checkTime] using ((mem_dueChecks hsound.keyed).mp hd).2
  rw [watch_congr (t.view_tick env),← hexpired.keeps (restsOn_watch j) (by decide)]
  exact watch_runChecks (t := u) hu _ (fun k => env (k+2)) hdue (due_distinct hsound.keyed _) j

theorem watch_request (hrun : t.stopped = false) (request : Request E) (env : ℕ → Env) (j : Ieee) :
    ({ t with requests := t.requests ++ [request] }.handleRequest request t.requests.length
      env).watch j = (t.entryAfter (.request request env) j).map fun e =>
        t.attend limit (.request request env) j e.watch := by
  let u := { t with requests := t.requests ++ [request] }
  have hhears : t.hears (.request request env) j = none := by
    simp [hears,hrun]
  have haside (h : t.assesses (.request request env) j = none)
      (hentry : t.entryAfter (.request request env) j = t.devices.get j)
      (hwatch : (u.handleRequest request t.requests.length env).watch j = u.watch j) :
      (u.handleRequest request t.requests.length env).watch j =
        (t.entryAfter (.request request env) j).map fun e =>
          t.attend limit (.request request env) j e.watch := by
    rw [map_attend_aside hhears h,hwatch,hentry]
    rfl
  have hquiet : (∀ ieee command, request ≠ .command ieee command) →
      t.assesses (.request request env) j = none := by
    intro hno
    cases request with
    | command ieee command => exact absurd rfl (hno ieee command)
    | _ => simp [assesses,hhears]
  cases request with
  | command ieee command =>
    refine (watch_runCommand (t := u) hpolicy ieee command t.requests.length (env 0) j).trans ?_
    split
    · rename_i hsaid
      have hassesses : t.assesses (.request (.command ieee command) env) j = some (env 0) := by
        rw [assesses,if_neg (by simp [hrun])]
        exact if_pos hsaid
      rw [map_attend_checked hhears hassesses]
      rfl
    · rename_i hsaid
      have hassesses : t.assesses (.request (.command ieee command) env) j = none := by
        rw [assesses,if_neg (by simp [hrun])]
        exact if_neg hsaid
      rw [map_attend_aside hhears hassesses]
      rfl
  | interviewUpdate ieee update =>
    rw [map_attend_aside hhears (hquiet (by simp))]
    show ((u.applyInterviewUpdate ieee update env).devices.get j).map Entry.watch = _
    rw [get_applyInterviewUpdate,entryAfter]
  | permitJoin duration via =>
    refine haside (hquiet (by simp)) rfl ?_
    exact (u.alters_permitJoin duration via (env 0)).keeps (restsOn_watch j) (by decide)
  | zclRead ieee endpoint cluster attributes =>
    exact haside (hquiet (by simp)) rfl
      ((u.alters_zclRead _ _ _ _ _ _).keeps (restsOn_watch j) (by decide))
  | zdo ieee cluster build =>
    exact haside (hquiet (by simp)) rfl
      ((u.alters_sendZdo _ _ _ _ _).keeps (restsOn_watch j) (by decide))
  | stop => exact haside (hquiet (by simp)) rfl (u.watch_shutdown (env 0) j)
  | interview ieee =>
    refine haside (hquiet (by simp)) rfl ?_
    simp only [handleRequest]
    split <;> rfl
  | configure ieee =>
    refine haside (hquiet (by simp)) rfl ?_
    simp only [handleRequest]
    split
    · exact (u.alters_executeConfigurePlan ieee env).keeps (restsOn_watch j) (by decide)
    · rfl
  | _ => exact haside (hquiet (by simp)) rfl rfl

theorem watch_event (hrun : t.stopped = false) (event : AdapterEvent) (origin : Option ℕ)
    (env : ℕ → Env) (j : Ieee) : (t.handleAdapterEvent event origin env).watch j =
      (t.entryAfter (.event event origin env) j).map fun e =>
        t.attend limit (.event event origin env) j e.watch := by
  have hassesses : t.assesses (.event event origin env) j = t.hears (.event event origin env) j := by
    simp [assesses,hears,hrun]
  have hnone (h : t.hears (.event event origin env) j = none) :
      t.assesses (.event event origin env) j = none := hassesses.trans h
  cases event with
  | deviceJoined ieee nwk =>
    have hhears : t.hears (.event (.deviceJoined ieee nwk) origin env) j =
        if (ieee <|> t.devices.resolve nwk) = some j then some (env 0) else none :=
      if_neg (by simp [hrun])
    rw [map_attend_heard hhears hassesses,entryAfter]
    refine (watch_onJoined hpolicy ieee nwk (env 0) j).trans ?_
    split <;> rfl
  | deviceLeft ieee nwk =>
    have hhears : t.hears (.event (.deviceLeft ieee nwk) origin env) j = none :=
      if_neg (by simp [hrun])
    rw [map_attend_aside hhears (hnone hhears),entryAfter]
    show (t.onLeft ieee nwk (env 0)).watch j = _
    rw [onLeft]
    cases ha : ieee <|> nwk.bind t.devices.resolve with
    | none => rfl
    | some a =>
      show ((t.devices.remove a).1.get j).map Entry.watch = _
      rw [Inventory.remove_get]
      simp [eq_comm]
  | zcl rx =>
    have hhears : t.hears (.event (.zcl rx) origin env) j =
        if t.senderOf rx = some j ∧ (t.devices.get j).isSome then some (env 0) else none :=
      if_neg (by simp [hrun])
    rw [map_attend_heard hhears hassesses]
    exact watch_onZcl hpolicy rx origin (env 0) j
  | zdo cluster nwk payload =>
    have hhears : t.hears (.event (.zdo cluster nwk payload) origin env) j =
        if t.devices.resolve nwk = some j then some (env 0) else none :=
      if_neg (by simp [hrun])
    rw [map_attend_heard hhears hassesses]
    exact watch_onZdo hpolicy cluster nwk payload (env 0) j
  | disconnected reason =>
    have hhears : t.hears (.event (.disconnected reason) origin env) j = none :=
      if_neg (by simp [hrun])
    rw [map_attend_aside hhears (hnone hhears)]
    rfl

/-- What a turn makes of each device: it is heard or assessed, or it is left alone. -/
theorem watch_step (hrun : t.stopped = false) (hsound : t.devices.Sound) (i : Input E) (j : Ieee) :
    (t.step i).watch j = (t.entryAfter i j).map fun e => t.attend limit i j e.watch := by
  have hquiet (i : Input E) (h : t.hears i j = none) (h' : t.assesses i j = none)
      (hentry : t.entryAfter i j = t.devices.get j) :
      t.watch j = (t.entryAfter i j).map fun e => t.attend limit i j e.watch := by
    rw [map_attend_aside h h',hentry]
    rfl
  rw [step.eq_def,if_neg (by simp [hrun])]
  cases i with
  | request request env => exact watch_request hpolicy hrun request env j
  | event event origin env => exact watch_event hpolicy hrun event origin env j
  | tick env =>
    have hhears : t.hears (.tick env) j = none := if_neg (by simp [hrun])
    have hassesses : t.assesses (.tick env) j =
        ((t.dueChecks (env 1).now).findIdx? fun d => d.1 = j).map fun k => env (k+2) :=
      if_neg (by simp [hrun])
    refine (watch_tick hpolicy hsound env j).trans ?_
    cases hfind : (t.dueChecks (env 1).now).findIdx? fun d => d.1 = j with
    | none =>
      rw [hfind] at hassesses
      rw [map_attend_aside hhears hassesses]
      simp [entryAfter,watch]
    | some k =>
      rw [hfind] at hassesses
      rw [map_attend_checked hhears hassesses]
      rfl
  | abandon reply => exact hquiet _ (if_neg (by simp [hrun])) (by simp [assesses,hears,hrun]) rfl
  | handlesDropped env =>
    exact (t.watch_shutdown (env 0) j).trans
      (hquiet _ (if_neg (by simp [hrun])) (by simp [assesses,hears,hrun]) rfl)
  | adapterClosed env =>
    exact (t.watch_shutdown (env 0) j).trans
      (hquiet _ (if_neg (by simp [hrun])) (by simp [assesses,hears,hrun]) rfl)

omit hpolicy in
/-- A device that is heard is assessed. -/
theorem assesses_of_hears {i : Input E} {j : Ieee} {env : Env} (h : t.hears i j = some env) :
    t.assesses i j = some env := by
  have hrun : t.stopped = false := by
    by_contra hstopped
    simp [hears,hstopped] at h
  rw [← h]
  cases i with
  | event event origin env => simp [assesses,hears,hrun]
  | _ => simp [hears,hrun] at h

omit hpolicy in
/-- A tick assesses the devices that are due. -/
theorem assesses_tick (hrun : t.stopped = false) (hsound : t.devices.Sound) (env : ℕ → Env)
    (j : Ieee) : (t.assesses (.tick env) j).isSome = true ↔
      ∃ v, t.watch j = some v ∧ (checkTime v.next).any (· ≤ (env 1).now) = true := by
  have hassesses : t.assesses (.tick env) j =
      ((t.dueChecks (env 1).now).findIdx? fun d => d.1 = j).map fun k => env (k+2) :=
    if_neg (by simp [hrun])
  rw [hassesses,Option.isSome_map,List.findIdx?_isSome,List.any_eq_true]
  constructor
  · rintro ⟨⟨ieee,next⟩,hd,hj⟩
    obtain rfl : ieee = j := by simpa using hj
    obtain ⟨⟨e,he,rfl⟩,hdue⟩ := (mem_dueChecks hsound.keyed).mp hd
    exact ⟨e.watch,congrArg (Option.map Entry.watch) he,hdue⟩
  · rintro ⟨v,hv,hdue⟩
    obtain ⟨e,he,rfl⟩ := Option.map_eq_some_iff.mp hv
    exact ⟨(j,e.nextCheck),(mem_dueChecks hsound.keyed).mpr ⟨⟨e,he,rfl⟩,hdue⟩,by simp⟩

omit hpolicy in
/-- A device that is assessed is in the table. -/
theorem known_of_assesses (hsound : t.devices.Sound) {i : Input E} {j : Ieee} {env : Env}
    (h : t.assesses i j = some env) : ∃ e, t.entryAfter i j = some e := by
  have hrun : t.stopped = false := by
    by_contra hstopped
    simp [assesses,hstopped] at h
  rw [assesses.eq_def,if_neg (by simp [hrun])] at h
  cases i with
  | request request envs =>
    cases request with
    | command ieee command =>
      obtain ⟨⟨rfl,hsent,-⟩,-⟩ := Option.ite_none_right_eq_some.mp h
      let u := { t with requests := t.requests ++ [Request.command j command] }
      exact known_commandTx (t := u) (Option.isSome_iff_ne_none.mp hsent)
    | _ => simp [hears,hrun] at h
  | event event origin envs =>
    dsimp only at h
    rw [hears.eq_def,if_neg (by simp [hrun])] at h
    cases event with
    | deviceJoined ieee nwk =>
      obtain ⟨hj,-⟩ := Option.ite_none_right_eq_some.mp h
      exact ⟨_,if_pos hj⟩
    | zcl rx =>
      obtain ⟨⟨-,hknown⟩,-⟩ := Option.ite_none_right_eq_some.mp h
      exact Option.isSome_iff_exists.mp hknown
    | zdo cluster nwk payload =>
      obtain ⟨hj,-⟩ := Option.ite_none_right_eq_some.mp h
      obtain ⟨e,he,-⟩ := Inventory.nwkOf_eq_some.mp (hsound.indexed nwk j hj)
      exact ⟨e,he⟩
    | _ => cases h
  | tick envs =>
    have hdue : (t.assesses (.tick envs) j).isSome = true := by
      rw [assesses.eq_def,if_neg (by simp [hrun])]
      exact Option.isSome_iff_exists.mpr ⟨env,h⟩
    obtain ⟨v,hv,-⟩ := (assesses_tick hrun hsound envs j).mp hdue
    obtain ⟨e,he,-⟩ := Option.map_eq_some_iff.mp hv
    exact ⟨e,he⟩
  | _ => simp [hears,hrun] at h

end Turns

end Task
end Rszigbee
