import Rszigbee.Learned
import Rszigbee.Records

/-! The device records a runtime hands to the store, and the interviews they say are running. -/
namespace Rszigbee

/-- The same input, with other answers of the store to the records it is handed. -/
def Input.answered {E : Engine} (answers : ℕ → WriteAnswer) : Input E → Input E
  | .request r env => .request r fun k => { env k with upsertDevice := answers k }
  | .event e origin env => .event e origin fun k => { env k with upsertDevice := answers k }
  | .tick env => .tick fun k => { env k with upsertDevice := answers k }
  | .abandon reply => .abandon reply
  | .handlesDropped env => .handlesDropped fun k => { env k with upsertDevice := answers k }
  | .adapterClosed env => .adapterClosed fun k => { env k with upsertDevice := answers k }

/-- The interview on record stands in a way that `S` allows. -/
def PersistedDevice.Stands (S : InterviewState → Prop) (r : PersistedDevice) : Prop := S r.interview

namespace View

variable {E : Engine}

/-- Every record that is stored has the property. -/
def StoredAll (Q : PersistedDevice → Prop) (v : View E) : Prop :=
  ∀ a r, v.stored.lookup a = some r → Q r

section Persist

variable {Q : PersistedDevice → Prop} {v : View E} {ieee : Ieee} {answer : WriteAnswer}

theorem StoredAll.persist (h : v.StoredAll Q)
    (hentry : ∀ e, v.devices.get ieee = some e → Q (persistedFromEntry e)) :
    (v.persist ieee answer).StoredAll Q := by
  intro a r hr
  rw [View.persist] at hr
  split at hr
  · exact h a r hr
  · rename_i e he
    split at hr
    · rw [Table.lookup_insert_eq] at hr
      split at hr
      · exact Option.some.inj hr ▸ hentry e he
      · exact h a r hr
    · exact h a r hr

/-- What is stored under an address stays stored, or is replaced. -/
theorem isSome_persist {a : Ieee} (h : (v.stored.lookup a).isSome = true) :
    ((v.persist ieee answer).stored.lookup a).isSome = true := by
  rw [View.persist]
  split
  · exact h
  · split
    · rw [Table.lookup_insert_eq]
      split
      · rfl
      · exact h
    · exact h

theorem lookup_persist_done {e : Entry} (he : v.devices.get ieee = some e) :
    (v.persist ieee .done).stored.lookup e.info.ieee = some (persistedFromEntry e) := by
  rw [View.persist,he]
  simp only [WriteAnswer.effective,if_true,Table.lookup_insert_eq]

end Persist

theorem stored_path {allowed : Ieee → Mark → Prop} {v v' : View E} (h : Path allowed v v') :
    v'.stored = v.stored := congrArg (fun r => r.2.2) (records_path h)

theorem arrive_stored (v : View E) (ieee : Ieee) (nwk : Nwk) (wall : SystemTime) :
    (v.arrive ieee nwk wall).stored = v.stored := by
  rw [arrive]
  split
  · exact readdress_stored _ _ _
  · rfl

theorem invite_stored (v : View E) (ieee : Ieee) : (v.invite ieee).stored = v.stored := by
  rw [invite]
  split <;> rfl

end View

namespace Task

open View

variable {E : Engine}

/-- A task whose store has no record of a device. -/
def emptied (t : Task E) : Task E := { t with store := { t.store with devices := ∅ } }

/-- A record is handed to the store in a turn if, for some answers of the store, a store without
records holds it afterwards. -/
def Hands (t : Task E) (i : Input E) (r : PersistedDevice) : Prop :=
  ∃ answers a, (t.emptied.step (i.answered answers)).store.devices.lookup a = some r

/-- The device an input has written to the store. -/
def writes (t : Task E) : Input E → Option Ieee
  | .event (.deviceJoined ieee nwk) _ _ => ieee <|> t.devices.resolve nwk
  | .request (.interviewUpdate _ (.step _)) _ => none
  | .request (.interviewUpdate ieee _) _ => some ieee
  | _ => none

section Updates

theorem interview_withMetadata (e : Entry) :
    (withMetadata E e).info.interview = e.info.interview := by
  rw [withMetadata]
  cases ((E.resolve e.info).bind E.forcePowerSource).bind forced with
  | none => rfl
  | some f =>
    dsimp only
    split <;> rfl

theorem storedAll_persist {Q : PersistedDevice → Prop} {t : Task E} {ieee : Ieee} {env : Env}
    (h : t.view.StoredAll Q)
    (hentry : ∀ e, t.devices.get ieee = some e → Q (persistedFromEntry e)) :
    (t.persist ieee env).view.StoredAll Q := by
  rw [view_persist]
  exact h.persist hentry

section States

variable {S : InterviewState → Prop}

/-- A definition's metadata is written with the interview as it stands. -/
theorem storedAll_metadata {t : Task E} {ieee : Ieee} {env : Env}
    (h : t.view.StoredAll (PersistedDevice.Stands S))
    (hentry : ∀ e, t.devices.get ieee = some e → S e.info.interview) :
    (t.applyDefinitionMetadata ieee env).view.StoredAll (PersistedDevice.Stands S) := by
  rw [applyDefinitionMetadata]
  split
  · exact h
  · split
    · exact storedAll_persist h hentry
    · split
      · exact h
      · refine storedAll_persist (t := t.modifyDevice ieee _) h fun e he => ?_
        rw [get_modifyDevice,if_pos rfl] at he
        obtain ⟨e',he',rfl⟩ := Option.map_eq_some_iff.mp he
        exact hentry e' he'

theorem storedAll_emit {Q : PersistedDevice → Prop} (t : Task E) (event : Event E) :
    (t.emit event).view.StoredAll Q ↔ t.view.StoredAll Q := Iff.rfl

theorem storedAll_update {t : Task E} {ieee : Ieee} {update : InterviewUpdate} {env : ℕ → Env}
    (h : t.view.StoredAll (PersistedDevice.Stands S)) (hupdated : (∀ step, update ≠ .step step) →
      ∀ e, t.devices.get ieee = some e → S (updated E update e).info.interview) :
    (t.applyInterviewUpdate ieee update env).view.StoredAll (PersistedDevice.Stands S) := by
  have hmodified {f : Entry → Entry} {e : Entry}
      (he : (t.modifyDevice ieee f).devices.get ieee = some e) :
      ∃ e', t.devices.get ieee = some e' ∧ f e' = e := by
    rw [get_modifyDevice,if_pos rfl] at he
    exact Option.map_eq_some_iff.mp he
  cases update with
  | started =>
    rw [applyInterviewUpdate.eq_def]
    refine storedAll_persist (t := (t.modifyDevice ieee _).emit _) h fun e he => ?_
    obtain ⟨e',he',rfl⟩ := hmodified he
    exact hupdated (by simp) e' he'
  | nodeDescriptor kind power sleepy =>
    rw [applyInterviewUpdate.eq_def]
    refine storedAll_persist (t := t.modifyDevice ieee _) h fun e he => ?_
    obtain ⟨e',he',rfl⟩ := hmodified he
    exact hupdated (by simp) e' he'
  | step step => exact h
  | finished outcome =>
    have hstate (e' : Entry) (he' : t.devices.get ieee = some e') : S outcome.state := by
      have hstate := hupdated (by simp) e' he'
      rwa [updated,interview_withMetadata] at hstate
    rw [applyInterviewUpdate.eq_def]
    dsimp only
    have hwritten : ((t.modifyDevice ieee (finishInterview outcome)).persist ieee
        (env 0)).view.StoredAll (PersistedDevice.Stands S) := by
      refine storedAll_persist (t := t.modifyDevice ieee _) h fun e he => ?_
      obtain ⟨e',he',rfl⟩ := hmodified he
      exact hstate e' he'
    split
    · rw [(alters_executeConfigurePlan _ _ _).keeps restsOn_view (by decide)]
      refine storedAll_metadata ?_ fun e he => ?_
      · rw [(alters_registerCustomClusters _ _).keeps restsOn_view (by decide),storedAll_emit,
          storedAll_emit]
        exact hwritten
      · rw [devices_registerCustomClusters] at he
        have hkept : ((t.modifyDevice ieee (finishInterview outcome)).persist ieee
            (env 0)).devices.get ieee = some e := he
        rw [devices_persist] at hkept
        obtain ⟨e',he',rfl⟩ := hmodified hkept
        exact hstate e' he'
    · rw [storedAll_emit,storedAll_emit]
      exact hwritten

/-- What is stored after a turn was stored before, or stands as the entry of the device that
the input has written. -/
theorem storedAll_step {t : Task E} (hrun : t.stopped = false) {i : Input E}
    (h : t.view.StoredAll (PersistedDevice.Stands S)) (hwritten : ∀ j e, t.writes i = some j →
      t.entryAfter i j = some e → S e.info.interview) :
    (t.step i).view.StoredAll (PersistedDevice.Stands S) := by
  have hmove := move hrun i
  by_cases hupdate : ∃ ieee update env, i = .request (.interviewUpdate ieee update) env
  · obtain ⟨ieee,update,env,rfl⟩ := hupdate
    have hstep : t.step (.request (.interviewUpdate ieee update) env) = { t with
        requests := t.requests ++ [Request.interviewUpdate ieee update] }.applyInterviewUpdate
          ieee update env := by
      simp [step,hrun,handleRequest]
    rw [hstep]
    refine storedAll_update (t := { t with requests := _ }) h fun hne e he => ?_
    refine hwritten ieee _ ?_ (entryAfter_update he update env)
    cases update with
    | step step => exact absurd rfl (hne step)
    | _ => rfl
  · generalize (t.step i).view = v at hmove
    cases hmove with
    | aside _ hpath =>
      intro a r hr
      rw [stored_path hpath] at hr
      exact h a r hr
    | @joined ieee nwk origin env a w ha hpath =>
      intro b r hr
      rw [invite_stored] at hr
      refine StoredAll.persist (Q := PersistedDevice.Stands S) (v := w) ?_ (fun e he => ?_) b r hr
      · intro b r hr
        rw [stored_path hpath,arrive_stored] at hr
        exact h b r hr
      · have hkept := kept_path (g := fun e => e.info.interview) (fun m e => by cases m <;> rfl)
          (fun _ _ => rfl) hpath a
        have hstate := hkept.trans (arrive_interview t.view a nwk (env 0).wall)
        rw [he,Option.map_some,Option.some.injEq] at hstate
        have hafter := hwritten a _ ha (if_pos ha)
        show S e.info.interview
        rw [hstate]
        have hdevices : t.view.devices = t.devices := rfl
        rw [hdevices]
        cases hget : t.devices.get a with
        | none =>
          rw [hget] at hafter
          exact hafter
        | some e' =>
          rw [hget] at hafter
          exact hafter
    | @left ieee nwk origin env a ha =>
      intro b r hr
      rw [expel,View.note] at hr
      split at hr
      · rw [Table.lookup_erase_eq] at hr
        split at hr
        · cases hr
        · exact h b r hr
      · exact h b r hr
    | @frame rx origin env a w ha hpath =>
      intro b r hr
      rw [stored_path hpath,readdress_stored] at hr
      exact h b r hr
    | interview _ => exact h
    | update _ _ _ => exact absurd ⟨_,_,_,rfl⟩ hupdate

end States

/-- When the store takes what it is handed, the entry of a device that is written is stored. -/
theorem stored_of_writes {t : Task E} (hrun : t.stopped = false) {i : Input E} {j : Ieee}
    {e : Entry} (hj : t.writes i = some j) (he : t.entryAfter i j = some e)
    (hdone : i.answered (fun _ => .done) = i) :
    ∃ a, ((t.step i).view.stored.lookup a).isSome = true := by
  have hmove := move hrun i
  generalize (t.step i).view = v at hmove
  cases hmove with
  | @aside _ _ hi _ =>
    have hnone : t.writes i = none := by
      cases i with
      | request request env =>
        cases request with
        | interviewUpdate ieee update =>
          cases update with
          | step step => rfl
          | _ => cases hi
        | _ => rfl
      | event event origin env =>
        cases event with
        | deviceJoined ieee nwk => exact hi
        | _ => rfl
      | _ => rfl
    rw [hnone] at hj
    cases hj
  | @joined ieee nwk origin env a w ha hpath =>
    have hkept := kept_path (g := fun e => e.info.interview) (fun m e => by cases m <;> rfl)
      (fun _ _ => rfl) hpath a
    have hstate := hkept.trans (arrive_interview t.view a nwk (env 0).wall)
    obtain ⟨e',he',-⟩ := Option.map_eq_some_iff.mp hstate
    have hanswer : (env 0).upsertDevice = .done := by
      have henv := congrFun (Input.event.inj hdone).2.2 0
      exact (congrArg Env.upsertDevice henv).symm
    refine ⟨e'.info.ieee,?_⟩
    rw [invite_stored,hanswer,lookup_persist_done he']
    rfl
  | left _ => cases hj
  | frame _ _ => cases hj
  | interview _ => cases hj
  | @update ieee update env f v _ hf hrewrites =>
    obtain ⟨e',he',-⟩ : ∃ e', t.devices.get ieee = some e' ∧ updated E update e' = e := by
      have hsame : j = ieee := by
        cases update with
        | step step => cases hj
        | _ => exact (Option.some.inj hj).symm
      rw [entryAfter,if_pos hsame,hsame] at he
      exact Option.map_eq_some_iff.mp he
    have hanswer : (env 0).upsertDevice = .done := by
      have henv := congrFun (Input.request.inj hdone).2 0
      exact (congrArg Env.upsertDevice henv).symm
    have hmodified : (t.view.modify ieee f).devices.get ieee = some (f e') := by
      rw [View.modify,Inventory.modify_get,if_pos rfl]
      exact congrArg (Option.map f) he'
    refine ⟨(f e').info.ieee,hrewrites.invariant
      (P := fun w => (w.stored.lookup (f e').info.ieee).isSome = true) (fun w w' hlast hw => ?_) ?_⟩
    · cases hlast with
      | edit _ _ => exact isSome_persist hw
      | note _ => exact hw
    · rw [hanswer,lookup_persist_done hmodified]
      rfl

theorem writes_answered (t : Task E) (answers : ℕ → WriteAnswer) (i : Input E) :
    t.emptied.writes (i.answered answers) = t.writes i ∧
      ∀ j, t.emptied.entryAfter (i.answered answers) j = t.entryAfter i j := by
  cases i with
  | request request env =>
    cases request with
    | interviewUpdate ieee update => cases update <;> exact ⟨rfl,fun _ => rfl⟩
    | _ => exact ⟨rfl,fun _ => rfl⟩
  | event event origin env => cases event <;> exact ⟨rfl,fun _ => rfl⟩
  | _ => exact ⟨rfl,fun _ => rfl⟩

theorem answered_answered (answers answers' : ℕ → WriteAnswer) (i : Input E) :
    (i.answered answers).answered answers' = i.answered answers' := by
  cases i <;> rfl

/-- The records handed to the store in a turn say of the interview what the entry of the device
says that is written. -/
theorem hands_iff {t : Task E} (hrun : t.stopped = false) (i : Input E)
    (S : InterviewState → Prop) : (∀ r, t.Hands i r → S r.interview) ↔
      ∀ j e, t.writes i = some j → t.entryAfter i j = some e → S e.info.interview := by
  have hempty {S : InterviewState → Prop} : t.emptied.view.StoredAll (PersistedDevice.Stands S) := by
    intro a r hr
    cases hr
  constructor
  · intro h j e hj he
    obtain ⟨hwrites,hafter⟩ := t.writes_answered (fun _ => .done) i
    obtain ⟨a,ha⟩ := stored_of_writes (t := t.emptied) hrun (hwrites.trans hj) ((hafter j).trans he)
      (answered_answered _ _ i)
    obtain ⟨r,hr⟩ := Option.isSome_iff_exists.mp ha
    have hsame : r.interview = e.info.interview := by
      refine storedAll_step (t := t.emptied) hrun (S := (· = e.info.interview)) hempty
        (fun j' e' hj' he' => ?_) a r hr
      rw [hwrites,hj] at hj'
      rw [hafter,← Option.some.inj hj',he] at he'
      rw [Option.some.inj he']
    exact hsame ▸ h r ⟨_,a,hr⟩
  · rintro h r ⟨answers,a,hr⟩
    obtain ⟨hwrites,hafter⟩ := t.writes_answered answers i
    refine storedAll_step (t := t.emptied) hrun hempty (fun j e hj he => ?_) a r hr
    exact h j e (hwrites ▸ hj) (hafter j ▸ he)

end Updates

section Settled

/-- No interview begins of a known device, or ends as running, and no device is written whose
interview is on record as running. -/
def WritesSettled (t : Task E) : Input E → Prop
  | .event (.deviceJoined ieee nwk) _ _ => ∀ a e, (ieee <|> t.devices.resolve nwk) = some a →
    t.devices.get a = some e → e.info.interview ≠ .inProgress
  | .request (.interviewUpdate ieee .started) _ => t.devices.get ieee = none
  | .request (.interviewUpdate ieee (.nodeDescriptor _ _ _)) _ =>
    ∀ e, t.devices.get ieee = some e → e.info.interview ≠ .inProgress
  | .request (.interviewUpdate ieee (.finished outcome)) _ =>
    (t.devices.get ieee).isSome = true → outcome.state ≠ .inProgress
  | _ => True

/-- The entry an update writes, where there was one, is what the update made of it. -/
theorem written_update_iff (P : Entry → Prop) (t : Task E) (ieee : Ieee) (update : InterviewUpdate)
    (env : ℕ → Env) : (∀ j e, some ieee = some j →
      t.entryAfter (.request (.interviewUpdate ieee update) env) j = some e → P e) ↔
      ∀ e, t.devices.get ieee = some e → P (updated E update e) := by
  constructor
  · intro h e he
    exact h ieee _ rfl (entryAfter_update he update env)
  · intro h j e hj he
    obtain rfl := Option.some.inj hj
    rw [entryAfter,if_pos rfl] at he
    obtain ⟨e',he',rfl⟩ := Option.map_eq_some_iff.mp he
    exact h e' he'

/-- The entry a joining device writes is the one it had, or a new one. -/
theorem written_joined_iff {P : Entry → Prop} (hnew : ∀ a nwk now, P (newEntry a nwk now))
    (t : Task E) (ieee : Option Ieee) (nwk : Nwk) (origin : Option ℕ) (env : ℕ → Env) :
    (∀ j e, (ieee <|> t.devices.resolve nwk) = some j →
      t.entryAfter (.event (.deviceJoined ieee nwk) origin env) j = some e → P e) ↔
      ∀ a e, (ieee <|> t.devices.resolve nwk) = some a → t.devices.get a = some e → P e := by
  constructor
  · intro h a e ha he
    refine h a e ha ?_
    rw [entryAfter,if_pos ha,he]
    rfl
  · intro h j e hj he
    rw [entryAfter,if_pos hj] at he
    cases hget : t.devices.get j with
    | none =>
      rw [hget] at he
      exact Option.some.inj he ▸ hnew j nwk _
    | some e' =>
      rw [hget] at he
      exact Option.some.inj he ▸ h j e' hj hget

theorem hands_settled_iff {t : Task E} (hrun : t.stopped = false) (i : Input E) :
    (∀ r, t.Hands i r → r.interview ≠ .inProgress) ↔ t.WritesSettled i := by
  rw [hands_iff hrun i (· ≠ .inProgress)]
  have hupdate := t.written_update_iff fun e => e.info.interview ≠ .inProgress
  cases i with
  | request request env =>
    cases request with
    | interviewUpdate ieee update =>
      cases update with
      | started =>
        refine (hupdate ieee .started env).trans ⟨fun h => ?_,fun h e he => ?_⟩
        · cases hget : t.devices.get ieee with
          | none => exact hget
          | some e => exact absurd rfl (h e hget)
        · rw [show t.devices.get ieee = none from h] at he
          cases he
      | nodeDescriptor kind power sleepy => exact hupdate ieee _ env
      | step step => exact iff_of_true (fun j e hj => by cases hj) trivial
      | finished outcome =>
        refine (hupdate ieee _ env).trans ?_
        have hstate (e : Entry) : (updated E (.finished outcome) e).info.interview =
            outcome.state := by
          rw [updated,interview_withMetadata]
          rfl
        simp only [hstate]
        constructor
        · intro h hknown
          obtain ⟨e,he⟩ := Option.isSome_iff_exists.mp hknown
          exact h e he
        · intro h e he
          exact h (by rw [he]; rfl)
    | _ => exact iff_of_true (fun j e hj => by cases hj) trivial
  | event event origin env =>
    cases event with
    | deviceJoined ieee nwk =>
      have hnew (a : Ieee) (nwk : Nwk) (now : SystemTime) :
          (newEntry a nwk now).info.interview ≠ .inProgress := by
        simp [newEntry,DeviceInfo.new]
      exact written_joined_iff hnew t ieee nwk origin env
    | _ => exact iff_of_true (fun j e hj => by cases hj) trivial
  | _ => exact iff_of_true (fun j e hj => by cases hj) trivial

/-- A restored device whose interview was not over is interviewed when it announces itself. -/
theorem restored_restarts {t : Task E} (hjoin : t.interviewOnJoin = true) {r : PersistedDevice}
    (hr : r.interview ≠ .successful) (hget : t.devices.get r.ieee = some (entryFromPersisted r))
    (nwk : Nwk) (origin : Option ℕ) (env : ℕ → Env) :
    t.spawns (.event (.deviceJoined (some r.ieee) nwk) origin env) = some (r.ieee,none) := by
  have hinterview : (entryFromPersisted r).info.interview = r.interview := rfl
  simp [spawns,hget,hjoin,hinterview,hr]

/-- A stopped loop hands nothing to the store. -/
theorem hands_stopped {t : Task E} (h : t.stopped = true) (i : Input E) (r : PersistedDevice) :
    ¬ t.Hands i r := by
  rintro ⟨answers,a,hr⟩
  rw [step_stopped (t := t.emptied) h] at hr
  cases hr

end Settled

end Task

namespace System

variable {E : Engine}

/-- The records an input has handed to the store; a start hands it none of a device. -/
def Hands (s : System E) (input : SystemInput E) (r : PersistedDevice) : Prop :=
  match s,input with
  | on t,.task i => t.Hands i r
  | _,_ => False

/-- While the loop runs, no interview is on record as running when a device is written. -/
def WritesSettled (s : System E) (input : SystemInput E) : Prop :=
  match s,input with
  | on t,.task i => t.stopped = false → t.WritesSettled i
  | _,_ => True

/-- What is stored of devices is not touched but in the turns of a loop. -/
theorem stored_off_turn (s : System E) (input : SystemInput E)
    (h : ∀ t i, s = on t → input ≠ .task i) :
    (s.step input).store.devices = s.store.devices := by
  cases s with
  | off store =>
    cases input with
    | start builder answers =>
      rw [step]
      cases hconfig : builder.start store answers with
      | ok config =>
        obtain ⟨hstore,-,-⟩ := ZigbeeBuilder.start_ok hconfig
        exact (Task.stored_start config answers.startup).trans (by rw [hstore]; rfl)
      | error e => rfl
    | _ => rfl
  | on t =>
    cases input with
    | task i => exact absurd rfl (h t i rfl)
    | _ => rfl

theorem hands_settled_iff (s : System E) (input : SystemInput E) :
    (∀ r, s.Hands input r → r.interview ≠ .inProgress) ↔ s.WritesSettled input := by
  cases s with
  | off store => exact iff_of_true (fun _ h => h.elim) trivial
  | on t =>
    cases input with
    | task i =>
      by_cases hstopped : t.stopped = true
      · refine iff_of_true (fun r hr => absurd hr (Task.hands_stopped hstopped i r)) ?_
        intro hrun
        simp [hstopped] at hrun
      · have hrun : t.stopped = false := by simpa using hstopped
        exact (Task.hands_settled_iff hrun i).trans (imp_iff_right hrun).symm
    | _ => exact iff_of_true (fun _ h => h.elim) trivial

/-- No stored record says that an interview is running. -/
def StoredSettled (s : System E) : Prop :=
  ∀ a r, s.store.devices.lookup a = some r → r.interview ≠ .inProgress

/-- Where none is handed over, none is stored. -/
theorem storedSettled_step {s : System E} {input : SystemInput E} (h : s.StoredSettled)
    (hands : ∀ r, s.Hands input r → r.interview ≠ .inProgress) : (s.step input).StoredSettled := by
  by_cases hturn : ∃ t i, s = on t ∧ input = .task i
  · obtain ⟨t,i,rfl,rfl⟩ := hturn
    by_cases hstopped : t.stopped = true
    · rw [step,Task.step_stopped hstopped]
      exact h
    · have hrun : t.stopped = false := by simpa using hstopped
      exact Task.storedAll_step (S := (· ≠ .inProgress)) hrun h
        ((Task.hands_iff hrun i (· ≠ .inProgress)).mp hands)
  · intro a r hr
    rw [stored_off_turn s input fun t i hs hi => hturn ⟨t,i,hs,hi⟩] at hr
    exact h a r hr

/-- Whenever such a run is cut, no interview is stored as running. -/
theorem stored_settled_run {s : System E} (h : s.StoredSettled) {is : List (SystemInput E)}
    (hands : Runs.Meets step (fun s input => ∀ r, s.Hands input r → r.interview ≠ .inProgress)
      s is) : (Runs.run step s is).StoredSettled := by
  induction is generalizing s with
  | nil => exact h
  | cons i is ih => exact ih (storedSettled_step h hands.1) hands.2

/-- A device restored from such a record is interviewed when it announces itself. -/
def Restarts (E : Engine) (r : PersistedDevice) : Prop :=
  ∀ t : Task E, t.interviewOnJoin = true → t.devices.get r.ieee = some (entryFromPersisted r) →
    ∀ nwk origin env,
      t.spawns (.event (.deviceJoined (some r.ieee) nwk) origin env) = some (r.ieee,none)

/-- In no turn of a run is a record with a running interview handed to the store exactly when no
interview of a known device begins or ends as running, and no device is written whose interview
is on record as running. Wherever such a run is cut, none is stored then. A device restored from
a record that is not of a successful interview is interviewed again in any case. -/
theorem interviews_stored_settled_iff (s : System E) (is : List (SystemInput E)) :
    ((∀ pre i post, is = pre ++ i::post → ∀ r, (Runs.run step s pre).Hands i r →
      r.interview ≠ .inProgress) ↔ Runs.Meets step WritesSettled s is) ∧
    (s.StoredSettled → Runs.Meets step WritesSettled s is → (Runs.run step s is).StoredSettled) ∧
    ∀ r : PersistedDevice, r.interview ≠ .successful → Restarts E r := by
  have hmeets : Runs.Meets step (fun s input => ∀ r, s.Hands input r → r.interview ≠ .inProgress)
      s is ↔ Runs.Meets step WritesSettled s is :=
    Runs.meets_congr step (A := fun _ => True) (P := fun _ => True) (fun _ _ _ _ => trivial)
      (fun s input _ _ => hands_settled_iff s input) trivial fun _ _ => trivial
  refine ⟨?_,fun hstored hsettled => stored_settled_run hstored (hmeets.mpr hsettled),?_⟩
  · rw [← hmeets,
      Runs.meets_iff step fun s input => ∀ r, s.Hands input r → r.interview ≠ .inProgress]
  · intro r hr t hjoin hget nwk origin env
    exact Task.restored_restarts hjoin hr hget nwk origin env

/-- A device joins and its interview begins. -/
def interviewBegins : List (SystemInput Engine.bare) :=
  [startsBare,.task (Task.joins ⟨0xa⟩ ⟨0x1001⟩)] ++
    [.task (.request (.interviewUpdate ⟨0xa⟩ .started) fun _ => {})]

/-- Its record is handed to the store with the interview running. -/
theorem interview_stored_running : ¬ ∀ (s : System Engine.bare) (is : List (SystemInput Engine.bare)),
    ∀ pre i post, is = pre ++ i::post → ∀ r, (Runs.run step s pre).Hands i r →
      r.interview ≠ .inProgress := by
  intro h
  have hsettled := (hands_settled_iff _ _).mp (h (off Store.new) interviewBegins _ _ _ rfl)
  rw [Runs.run_cons,step_startsBare] at hsettled
  have hunknown : (Task.fresh.step (Task.joins ⟨0xa⟩ ⟨0x1001⟩)).devices.get ⟨0xa⟩ = none :=
    hsettled (by rw [Task.fresh_eq]; rfl)
  revert hunknown
  rw [Task.fresh_eq]
  decide

end System
end Rszigbee
