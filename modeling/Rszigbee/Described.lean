import Rszigbee.Transcripts
import Rszigbee.Learned
import Mathlib.Data.List.Nodup

/-! The endpoints an interview leaves on record, against what the device said in it: the list
of its active endpoints, and the simple descriptor each request for one was answered with. -/
namespace Rszigbee

/-- Sorted by a byte, a list ascends strictly exactly when no two of its bytes agree. -/
theorem strict_mergeSort_iff {α : Type} (key : α → UInt8) (l : List α) :
    (l.mergeSort fun a b => decide (key a ≤ key b)).Pairwise (fun a b => key a < key b) ↔
      (l.map key).Nodup := by
  have hsorted : (l.mergeSort fun a b => decide (key a ≤ key b)).Pairwise
      fun a b => key a ≤ key b := by
    have htrans (a b c : α) (hab : decide (key a ≤ key b) = true)
        (hbc : decide (key b ≤ key c) = true) : decide (key a ≤ key c) = true :=
      decide_eq_true (UInt8.le_trans (of_decide_eq_true hab) (of_decide_eq_true hbc))
    have htotal (a b : α) : (decide (key a ≤ key b) || decide (key b ≤ key a)) = true := by
      simpa using UInt8.le_total (key a) (key b)
    simpa using List.pairwise_mergeSort htrans htotal l
  have hperm := (List.mergeSort_perm l fun a b => decide (key a ≤ key b)).map key
  rw [← hperm.nodup_iff,List.Nodup,List.pairwise_map]
  constructor
  · exact fun h => h.imp fun hlt => UInt8.ne_of_lt hlt
  · exact fun h => (hsorted.and h).imp fun ⟨hle,hne⟩ => UInt8.lt_of_le_of_ne hle hne

namespace Interview

open Dialogue

/-- The list of endpoints in an answer, where it is one. -/
def listedIn : (Σ c : Ask, c.Response) → Option (List EndpointId)
  | ⟨.zdo cluster _,answer⟩ =>
    if cluster = .activeEpReq then
      (Except.toOption answer).bind fun payload =>
        (Zdo.decodeActiveEpRsp payload).toOption.map ActiveEndpoints.endpoints
    else none
  | _ => none

/-- The endpoint a request for a simple descriptor ends in, and the descriptor it brought. -/
def describedIn : (Σ c : Ask, c.Response) → Option (EndpointId × SimpleDescriptor)
  | ⟨.zdo cluster build,answer⟩ =>
    if cluster = .simpleDescReq then
      (build 0 ⟨0⟩).getLast?.bind fun asked => (Except.toOption answer).bind fun payload =>
        (Zdo.decodeSimpleDescRsp payload).toOption.map fun descriptor => (⟨asked⟩,descriptor)
    else none
  | _ => none

section Transcripts

variable (T : Transcript Ask.Response)

def activeOf : List EndpointId := (T.findSome? listedIn).getD []

def described : List (EndpointId × SimpleDescriptor) := T.filterMap describedIn

/-- Every endpoint is on the active list and described by what the request for it brought; the
ids ascend, each greater than the one before. -/
def Orderly (endpoints : List EndpointInfo) : Prop :=
  endpoints.Pairwise (fun a b => a.id.raw < b.id.raw) ∧
    ∀ info ∈ endpoints, info.id ∈ activeOf T ∧
      ∃ d, (info.id,d) ∈ described T ∧ endpointInfo d = info

/-- Every descriptor is of the endpoint it was asked for, and of none are there two. -/
def Truthful : Prop :=
  (∀ p ∈ described T, p.2.endpoint = p.1) ∧ ((described T).map Prod.fst).Nodup

theorem orderly_nil : Orderly T [] := ⟨.nil,fun _ h => absurd h List.not_mem_nil⟩

variable {T}

/-- What was described, sorted, is orderly exactly when it is truthful. -/
theorem orderly_described_iff (hactive : ∀ p ∈ described T, p.1 ∈ activeOf T) :
    Orderly T (((described T).map fun p => endpointInfo p.2).mergeSort
      fun a b => a.id.raw ≤ b.id.raw) ↔ Truthful T := by
  have hids : ((described T).map fun p => endpointInfo p.2).map (fun a => a.id.raw) =
      ((described T).map fun p => p.2.endpoint).map EndpointId.raw := by
    rw [List.map_map,List.map_map]
    rfl
  have hraw : Function.Injective EndpointId.raw := fun ⟨_⟩ ⟨_⟩ h => congrArg _ h
  rw [Orderly,strict_mergeSort_iff,hids,List.nodup_map_iff hraw]
  simp only [List.mem_mergeSort]
  constructor
  · rintro ⟨hnodup,hfound⟩
    have hnamed : ∀ p ∈ described T, p.2.endpoint = p.1 := by
      intro p hp
      obtain ⟨-,d,hd,he⟩ := hfound (endpointInfo p.2) (List.mem_map_of_mem hp)
      have hsame : d.endpoint = p.2.endpoint := congrArg EndpointInfo.id he
      -- the two have one id, and no two descriptors have one
      have hp' := List.inj_on_of_nodup_map hnodup hd hp hsame
      exact congrArg Prod.fst hp'
    refine ⟨hnamed,?_⟩
    rwa [List.map_congr_left hnamed] at hnodup
  · rintro ⟨hnamed,hnodup⟩
    refine ⟨by rwa [List.map_congr_left hnamed],fun info hinfo => ?_⟩
    obtain ⟨p,hp,rfl⟩ := List.mem_map.mp hinfo
    have hid : (endpointInfo p.2).id = p.1 := hnamed p hp
    rw [hid]
    exact ⟨hactive p hp,p.2,hp,rfl⟩

end Transcripts

/-- Nothing in the transcript is of the endpoints. -/
def Quiet (T : Transcript Ask.Response) : Prop :=
  T.findSome? listedIn = none ∧ described T = []

@[simp] theorem described_append (S U : Transcript Ask.Response) :
    described (S ++ U) = described S ++ described U := List.filterMap_append

theorem Quiet.append {S U : Transcript Ask.Response} (hS : Quiet S) (hU : Quiet U) :
    Quiet (S ++ U) := by
  rw [Quiet,List.findSome?_append,hS.1,described_append,hS.2]
  exact hU

theorem activeOf_append {S U : Transcript Ask.Response} (hS : S.findSome? listedIn = none) :
    activeOf (S ++ U) = activeOf U := by
  rw [activeOf,List.findSome?_append,hS]
  rfl

theorem activeOf_append_left {S U : Transcript Ask.Response} (hU : U.findSome? listedIn = none) :
    activeOf (S ++ U) = activeOf S := by
  rw [activeOf,List.findSome?_append,hU,Option.or_none]
  rfl

/-- A request and its answer. -/
def exchanged (cluster : ZdoClusterId) (build : UInt8 → Nwk → Bytes)
    (answer : Except RuntimeError Bytes) : Σ c : Ask, c.Response := ⟨.zdo cluster build,answer⟩

theorem listedIn_exchanged (cluster : ZdoClusterId) (build : UInt8 → Nwk → Bytes)
    (answer : Except RuntimeError Bytes) : listedIn (exchanged cluster build answer) =
      if cluster = .activeEpReq then
        (answer.toOption.bind fun payload => (Zdo.decodeActiveEpRsp payload).toOption).map
          ActiveEndpoints.endpoints
      else none := by
  rw [Option.map_bind]
  rfl

/-- What a request brought is described of the endpoint it names. -/
theorem describedIn_exchanged (cluster : ZdoClusterId) (endpoint : EndpointId)
    (answer : Except RuntimeError Bytes) :
    describedIn (exchanged cluster (Zdo.encodeSimpleDescReq endpoint) answer) =
      if cluster = .simpleDescReq then
        (answer.toOption.bind fun payload => (Zdo.decodeSimpleDescRsp payload).toOption).map
          fun d => (endpoint,d)
      else none := by
  rw [Option.map_bind]
  rfl

theorem described_singleton (x : Σ c : Ask, c.Response) :
    described [x] = (describedIn x).toList := by
  rw [described,List.filterMap_cons]
  cases describedIn x <;> rfl

theorem activeOf_singleton (x : Σ c : Ask, c.Response) :
    activeOf [x] = (listedIn x).getD [] := by
  rw [activeOf,List.findSome?_cons]
  cases listedIn x <;> rfl

section Parts

variable {text : ErrorText} {outcome : InterviewOutcome}

theorem tell_tells (update : InterviewUpdate) : (tell update).Tells fun T _ => Quiet T := by
  refine (tells_command (Q := fun T _ => Quiet T) fun answer => ⟨rfl,rfl⟩).bind
    fun S answer hS => ?_
  cases answer with
  | ok u => exact tells_pure (by simpa using hS)
  | error e => exact tells_error e

/-- A request and its answer, and what is made of that. -/
theorem askZdo_tells {α : Type} (cluster : ZdoClusterId) (build : UInt8 → Nwk → Bytes)
    (decode : Bytes → Except ZdoError α) : (askZdo text cluster build decode).Tells fun T r =>
      ∃ answer, T = [exchanged cluster build answer] ∧
        r.toOption = answer.toOption.bind fun payload => (decode payload).toOption := by
  refine (tells_command (Q := fun T answer => T = [exchanged cluster build answer])
    fun _ => rfl).bind fun S answer hS => ?_
  subst hS
  cases answer with
  | ok payload =>
    refine tells_pure ⟨.ok payload,rfl,?_⟩
    show _ = (decode payload).toOption
    cases decode payload <;> rfl
  | error e => exact tells_pure ⟨.error e,rfl,rfl⟩

theorem quiet_nodeDesc (build : UInt8 → Nwk → Bytes) (answer : Except RuntimeError Bytes) :
    Quiet [exchanged .nodeDescReq build answer] := ⟨rfl,rfl⟩

theorem nodeDescriptor_tells : (nodeDescriptor text outcome).Tells fun T o =>
    Quiet T ∧ o.endpoints = outcome.endpoints := by
  refine (askZdo_tells _ _ _).bind fun S r ⟨answer,hS,_⟩ => ?_
  have hquiet : Quiet S := hS ▸ quiet_nodeDesc _ answer
  have hrest {S : Transcript Ask.Response} (hS : Quiet S) (o : InterviewOutcome)
      (ho : o.endpoints = outcome.endpoints) : (pure o >>= fun o =>
        tell (.step .nodeDescriptor) >>= fun _ => pure o).Tells fun U o' =>
          Quiet (S ++ U) ∧ o'.endpoints = outcome.endpoints := by
    refine (tells_pure (Q := fun T a => T = [] ∧ a = o) ⟨rfl,rfl⟩).bind fun U a ⟨hU,ha⟩ => ?_
    subst hU ha
    refine (tell_tells _).bind fun U _ hU => tells_pure ?_
    rw [List.nil_append,List.append_nil]
    exact ⟨hS.append hU,ho⟩
  cases r with
  | ok descriptor =>
    refine (tell_tells _).bind fun U _ hU => ?_
    simp only [← List.append_assoc]
    exact hrest (hquiet.append hU) _ rfl
  | error detail => exact hrest hquiet _ rfl

/-- The endpoints asked for afterwards are those of the active list. -/
theorem activeEndpoints_tells : (activeEndpoints text outcome).Tells fun T found =>
    described T = [] ∧ activeOf T = found.1 ∧ found.2.endpoints = outcome.endpoints := by
  refine (askZdo_tells _ _ _).bind fun S r ⟨answer,hS,hr⟩ => ?_
  refine (tell_tells _).bind fun U _ hU => tells_pure ?_
  rw [List.append_nil,described_append,hU.2,activeOf_append_left hU.1,List.append_nil]
  rw [hS,activeOf_singleton,listedIn_exchanged,if_pos rfl,← hr]
  cases r <;> exact ⟨rfl,rfl,rfl⟩

/-- One endpoint after the other: what is added is what was described. -/
theorem simpleDescriptors_tells (endpoints : List EndpointId) (outcome : InterviewOutcome) :
    (simpleDescriptors text endpoints outcome).Tells fun T o => T.findSome? listedIn = none ∧
      o.endpoints = outcome.endpoints ++ (described T).map (fun p => endpointInfo p.2) ∧
      ∀ p ∈ described T, p.1 ∈ endpoints := by
  induction endpoints generalizing outcome with
  | nil => exact tells_pure ⟨rfl,by simp [described],fun p hp => absurd hp List.not_mem_nil⟩
  | cons endpoint endpoints ih =>
    refine (askZdo_tells _ _ _).bind fun S r ⟨answer,hS,hr⟩ => ?_
    refine (tell_tells _).bind fun U _ hU => (ih _).mono fun T o ⟨hlisted,ho,hp⟩ => ?_
    have hS' : S.findSome? listedIn = none := by
      rw [hS]
      rfl
    have hdescribed : described S = (r.toOption.map fun d => (endpoint,d)).toList := by
      rw [hS,hr,described_singleton,describedIn_exchanged,if_pos rfl]
    refine ⟨?_,?_,?_⟩
    · rw [← List.append_assoc,List.findSome?_append,List.findSome?_append,hS',hU.1,hlisted]
      rfl
    · rw [ho,described_append,described_append,hU.2,List.nil_append,hdescribed,List.map_append,
        ← List.append_assoc]
      cases r with
      | ok descriptor => rfl
      | error detail => exact congrArg (· ++ _) (List.append_nil _).symm
    · rw [described_append,described_append,hU.2,List.nil_append,hdescribed]
      intro p hmem
      rcases List.mem_append.mp hmem with hmem | hmem
      · obtain ⟨d,-,rfl⟩ := Option.map_eq_some_iff.mp (Option.mem_toList.mp hmem)
        exact List.mem_cons_self
      · exact List.mem_cons_of_mem _ (hp p hmem)

theorem basicAttributes_tells : (basicAttributes text outcome).Tells fun T o =>
    Quiet T ∧ o.endpoints = outcome.endpoints := by
  refine (tells_command (Q := fun T _ => Quiet T) fun answer => ⟨rfl,rfl⟩).bind
    fun S answer hS => ?_
  refine (tell_tells _).bind fun U _ hU => tells_pure ?_
  rw [List.append_nil]
  refine ⟨hS.append hU,?_⟩
  cases answer with
  | ok values =>
    show (recordBasic values outcome).endpoints = _
    unfold recordBasic
    dsimp only
    split <;> rfl
  | error e => rfl

/-- An interview reports what was described, each of an endpoint of the active list. -/
theorem run_tells (errors : ErrorText) : (run errors).Tells fun T o =>
    o.endpoints = (described T).map (fun p => endpointInfo p.2) ∧
      ∀ p ∈ described T, p.1 ∈ activeOf T := by
  refine (tell_tells _).bind fun S₀ _ h₀ => ?_
  refine nodeDescriptor_tells.bind fun S₁ o₁ ⟨h₁,ho₁⟩ => ?_
  refine activeEndpoints_tells.bind fun S₂ found ⟨h₂,hactive,ho₂⟩ => ?_
  refine (simpleDescriptors_tells _ _).bind fun S₃ o₃ ⟨h₃,ho₃,hasked⟩ => ?_
  refine basicAttributes_tells.bind fun S₄ o₄ ⟨h₄,ho₄⟩ => ?_
  refine (tell_tells _).bind fun S₅ _ h₅ => tells_pure ?_
  have hrest : (S₃ ++ (S₄ ++ (S₅ ++ []))).findSome? listedIn = none := by
    simp [List.findSome?_append,h₃,h₄.1,h₅.1]
  have hdescribed : described (S₀ ++ (S₁ ++ (S₂ ++ (S₃ ++ (S₄ ++ (S₅ ++ [])))))) = described S₃ := by
    simp [h₀.2,h₁.2,h₂,h₄.2,h₅.2]
  rw [hdescribed,activeOf_append h₀.1,activeOf_append h₁.1,activeOf_append_left hrest,hactive]
  refine ⟨?_,hasked⟩
  show o₄.endpoints = _
  rw [ho₄,ho₃,ho₂,ho₁]
  rfl

end Parts
end Interview

theorem durable_endpoints : Durable fun e => e.info.endpoints where
  mark m e := by
    cases m with
    | transmitted time result => cases result <;> rfl
    | _ => rfl
  verdict a e := rfl
  nwk n e := rfl

namespace Task

open Interview

variable {E : Engine}

/-- What the interview reports that ends in a turn, if one of the device does. -/
def ends (j : Ieee) : Input E → Option InterviewOutcome
  | .request (.interviewUpdate ieee (.finished outcome)) _ => if ieee = j then some outcome else none
  | _ => none

/-- A turn that ends an interview comes with the transcript of the interview. -/
def Conducted (j : Ieee) (turn : Input E × Transcript Ask.Response) : Prop :=
  ∀ outcome, ends j turn.1 = some outcome →
    ∃ errors, Dialogue.Run (Interview.run errors) turn.2 (.ok outcome)

/-- A task, and the transcript of the last interview of a device that found an endpoint. -/
structure Followed (E : Engine) where
  task : Task E
  latest : Transcript Ask.Response

namespace Followed

def step (j : Ieee) (s : Followed E) (turn : Input E × Transcript Ask.Response) : Followed E where
  task := s.task.step turn.1
  latest :=
    if s.task.stopped = false ∧ (ends j turn.1).isSome = true ∧ described turn.2 ≠ [] then turn.2
    else s.latest

/-- The endpoints on record of the device are orderly. -/
def Orderly (j : Ieee) (s : Followed E) : Prop :=
  ∀ e, s.task.devices.get j = some e → Interview.Orderly s.latest e.info.endpoints

/-- An interview that ends in a device on record was truthful. -/
def Truthful (j : Ieee) (s : Followed E) (turn : Input E × Transcript Ask.Response) : Prop :=
  s.task.stopped = false → (s.task.devices.get j).isSome = true → (ends j turn.1).isSome = true →
    Interview.Truthful turn.2

end Followed

theorem endpoints_finished (outcome : InterviewOutcome) (e : Entry) :
    (updated E (.finished outcome) e).info.endpoints =
      if outcome.endpoints.isEmpty then e.info.endpoints
      else outcome.endpoints.mergeSort fun a b => a.id.raw ≤ b.id.raw :=
  congrArg Prod.snd (learned_withMetadata (E := E) (finishInterview outcome e))

theorem ends_eq_some {j : Ieee} {i : Input E} {outcome : InterviewOutcome} :
    ends j i = some outcome ↔ ∃ env, i = .request (.interviewUpdate j (.finished outcome)) env := by
  constructor
  · intro h
    cases i with
    | request request env =>
      cases request with
      | interviewUpdate ieee update =>
        cases update with
        | finished found =>
          rw [ends] at h
          split at h
          · rename_i hj
            exact ⟨env,by rw [hj,Option.some.inj h]⟩
          · cases h
        | _ => cases h
      | _ => cases h
    | _ => cases h
  · rintro ⟨env,rfl⟩
    exact if_pos rfl

/-- A turn in which no interview of the device ends leaves its endpoints alone, unless it joins. -/
theorem endpoints_entryAfter {t : Task E} {i : Input E} {j : Ieee} (h : ends j i = none)
    {e' : Entry} (he' : t.entryAfter i j = some e') : e'.info.endpoints = [] ∨
      ∃ e, t.devices.get j = some e ∧ e'.info.endpoints = e.info.endpoints := by
  rcases entryAfter_cases he' with hkept | ⟨-,_,_,_,_,-,-,rfl⟩ | ⟨update,env,e,rfl,he,rfl⟩
  · exact .inr ⟨e',hkept,rfl⟩
  · exact .inl rfl
  · refine .inr ⟨e,he,?_⟩
    cases update with
    | finished outcome =>
      rw [ends_eq_some.mpr ⟨env,rfl⟩] at h
      cases h
    | _ => rfl

/-- After a turn the endpoints on record are those the turn made of the entry. -/
theorem orderly_step_iff {j : Ieee} {s : Followed E} (hrun : s.task.stopped = false)
    (turn : Input E × Transcript Ask.Response) : (s.step j turn).Orderly j ↔
      ∀ e, s.task.entryAfter turn.1 j = some e →
        Interview.Orderly (s.step j turn).latest e.info.endpoints := by
  have hfact := fact_step durable_endpoints hrun turn.1 j
  constructor
  · intro h e he
    rw [he,Option.map_some] at hfact
    obtain ⟨e',he',hsame⟩ := Option.map_eq_some_iff.mp hfact
    exact hsame ▸ h e' he'
  · intro h e' he'
    have hget : (s.task.step turn.1).devices.get j = some e' := he'
    rw [hget,Option.map_some] at hfact
    obtain ⟨e,he,hsame⟩ := Option.map_eq_some_iff.mp hfact.symm
    exact hsame ▸ h e he

/-- What an interview leaves of an entry: what it found, or, where it found nothing, what there
was. -/
theorem orderly_finished_iff {errors : ErrorText} {T latest : Transcript Ask.Response}
    {outcome : InterviewOutcome} (hrun : Dialogue.Run (Interview.run errors) T (.ok outcome))
    {e : Entry} (he : Interview.Orderly latest e.info.endpoints) :
    Interview.Orderly (if described T ≠ [] then T else latest)
      (updated E (.finished outcome) e).info.endpoints ↔ Interview.Truthful T := by
  obtain ⟨hfound,hactive⟩ := run_tells errors T outcome hrun
  rw [endpoints_finished]
  by_cases hnone : described T = []
  · have hempty : outcome.endpoints.isEmpty = true := by simp [hfound,hnone]
    rw [if_neg (not_not.mpr hnone),if_pos hempty]
    exact iff_of_true he (by simp [Interview.Truthful,hnone])
  · have hempty : ¬ outcome.endpoints.isEmpty = true := by simp [hfound,hnone]
    rw [if_pos hnone,if_neg hempty,hfound]
    exact orderly_described_iff hactive

/-- One turn keeps the endpoints orderly exactly when an interview that ends in it was truthful. -/
theorem orderly_step {j : Ieee} {s : Followed E} {turn : Input E × Transcript Ask.Response}
    (hturn : Conducted j turn) (hs : s.Orderly j) :
    (s.step j turn).Orderly j ↔ s.Truthful j turn := by
  obtain ⟨t,latest⟩ := s
  obtain ⟨i,T⟩ := turn
  by_cases hstopped : t.stopped = true
  · have hsame : Followed.step j ⟨t,latest⟩ (i,T) = ⟨t,latest⟩ := by
      simp [Followed.step,step_stopped hstopped,hstopped]
    rw [hsame]
    exact iff_of_true hs fun hrun => by simp [hstopped] at hrun
  have hrun : t.stopped = false := by simpa using hstopped
  rw [orderly_step_iff hrun]
  cases hends : ends j i with
  | none =>
    have hlatest : (Followed.step j ⟨t,latest⟩ (i,T)).latest = latest := by
      simp [Followed.step,hends]
    rw [hlatest]
    refine iff_of_true (fun e' he' => ?_) fun _ _ hsome => by simp [hends] at hsome
    rcases endpoints_entryAfter hends he' with hnone | ⟨e,he,hsame⟩
    · exact hnone ▸ orderly_nil latest
    · exact hsame ▸ hs e he
  | some outcome =>
    obtain ⟨errors,hconducted⟩ := hturn outcome hends
    have hlatest : (Followed.step j ⟨t,latest⟩ (i,T)).latest =
        if described T ≠ [] then T else latest := by
      simp [Followed.step,hrun,hends]
    rw [hlatest]
    obtain ⟨env,rfl⟩ := ends_eq_some.mp hends
    cases hget : t.devices.get j with
    | none =>
      refine iff_of_true (fun e he => ?_) fun _ hthere => by simp [hget] at hthere
      rw [entryAfter,if_pos rfl,hget] at he
      cases he
    | some e =>
      have hcondition : Followed.Truthful j ⟨t,latest⟩
          (.request (.interviewUpdate j (.finished outcome)) env,T) ↔ Interview.Truthful T := by
        simp [Followed.Truthful,hrun,hget,hends]
      rw [hcondition,← orderly_finished_iff (E := E) hconducted (hs e hget),
        entryAfter_update hget]
      simp only [Option.some.injEq,forall_eq']

/-- Through any run, whatever is answered in the interviews of a device, the endpoints on record
of it are orderly exactly when they are at first and every interview that ends was truthful. -/
theorem endpoints_orderly_iff (j : Ieee) (s : Followed E)
    {turns : List (Input E × Transcript Ask.Response)} (hturns : ∀ turn ∈ turns, Conducted j turn) :
    (∀ pre, pre <+: turns → (Runs.run (Followed.step j) s pre).Orderly j) ↔
      s.Orderly j ∧ Runs.Meets (Followed.step j) (Followed.Truthful j) s turns := by
  have hrun (hs : s.Orderly j) := Runs.always_iff_meets_of (Followed.step j) (A := Conducted j)
    (J := fun _ => True) (P := Followed.Orderly j) (C := Followed.Truthful j)
    (fun _ _ _ _ => trivial) (fun s turn hturn _ hs => orderly_step hturn hs) trivial hs turns hturns
  constructor
  · intro h
    have hs : s.Orderly j := h [] (List.nil_prefix)
    exact ⟨hs,(hrun hs).mp h⟩
  · rintro ⟨hs,h⟩
    exact (hrun hs).mpr h

section Devices

/-- A device with these endpoints on its active list, that names them so when asked for them. -/
def describing (active : Bytes) (named : UInt8 → UInt8) : (c : Ask) → c.Response
  | .update _ => .ok ()
  | .zdo cluster build => .ok <|
    if cluster = .activeEpReq then [0,0,0x01,0x10,.ofNat active.length] ++ active
    else if cluster = .simpleDescReq then
      [0,0,0x01,0x10,8] ++ (build 0 ⟨0⟩).getLast?.toList.map named ++ [0x04,0x01,0,0,0,0,0]
    else []
  | .zclRead _ _ _ => .error (.adapter .notConnected)

/-- The turn in which its interview ends, and how the interview went. -/
def interviewOf (active : Bytes) (named : UInt8 → UInt8) :
    Input Engine.bare × Transcript Ask.Response :=
  let interview := Interview.run ⟨fun _ => "",fun _ => ""⟩
  let outcome := (interview.result (describing active named)).toOption.getD unanswered
  (.request (.interviewUpdate ⟨0xa⟩ (.finished outcome)) fun _ => {},
    (interview.issued (describing active named)).map fun c => ⟨c,describing active named c⟩)

theorem conducted_interviewOf {active : Bytes} {named : UInt8 → UInt8}
    (h : ((Interview.run ⟨fun _ => "",fun _ => ""⟩).result
      (describing active named)).toOption.isSome = true) :
    Conducted ⟨0xa⟩ (interviewOf active named) := by
  intro outcome houtcome
  have hrun := Dialogue.run_of_peer (describing active named)
    (Interview.run ⟨fun _ => "",fun _ => ""⟩)
  have hreported := Option.some.inj houtcome
  refine ⟨⟨fun _ => "",fun _ => ""⟩,?_⟩
  show Dialogue.Run _ ((interviewOf active named).2) _
  cases hresult : (Interview.run ⟨fun _ => "",fun _ => ""⟩).result (describing active named) with
  | error e => simp [hresult,Except.toOption] at h
  | ok found =>
    rw [hresult] at hrun hreported
    exact hreported ▸ hrun

def joined : Followed Engine.bare := ⟨Task.fresh.step (joins ⟨0xa⟩ ⟨0x1001⟩),[]⟩

theorem orderly_joined : joined.Orderly ⟨0xa⟩ := by
  have hnone : (joined.task.devices.get ⟨0xa⟩).map (fun e => e.info.endpoints) = some [] := by
    rw [joined,Task.fresh_eq]
    decide +kernel
  intro e he
  rw [he] at hnone
  have hempty : e.info.endpoints = [] := Option.some.inj hnone
  rw [hempty]
  exact orderly_nil _

/-- A device that names each of its two endpoints when asked for it. -/
theorem endpoints_orderly_two :
    (Runs.run (Followed.step ⟨0xa⟩) joined [interviewOf [2,1] id]).Orderly ⟨0xa⟩ := by
  have hconducted : Conducted ⟨0xa⟩ (interviewOf [2,1] id) :=
    conducted_interviewOf (by decide +kernel)
  have htruthful : Interview.Truthful (interviewOf [2,1] id).2 := by
    rw [Interview.Truthful]
    decide +kernel
  have hturns : ∀ turn ∈ [interviewOf [2,1] id], Conducted ⟨0xa⟩ turn := fun turn hturn => by
    rwa [List.mem_singleton.mp hturn]
  exact (endpoints_orderly_iff ⟨0xa⟩ joined hturns).mpr
    ⟨orderly_joined,fun _ _ _ => htruthful,trivial⟩ _ List.prefix_rfl

/-- A device lists its endpoint twice, and twice it is described. -/
theorem listed_twice : ¬ ∀ (s : Followed Engine.bare)
    (turns : List (Input Engine.bare × Transcript Ask.Response)), s.Orderly ⟨0xa⟩ →
    (∀ turn ∈ turns, Conducted ⟨0xa⟩ turn) →
    ∀ pre, pre <+: turns → (Runs.run (Followed.step ⟨0xa⟩) s pre).Orderly ⟨0xa⟩ := by
  intro h
  have hconducted : Conducted ⟨0xa⟩ (interviewOf [1,1] id) :=
    conducted_interviewOf (by decide +kernel)
  have horderly := h joined [interviewOf [1,1] id] orderly_joined (fun turn hturn => by
    rwa [List.mem_singleton.mp hturn]) _ List.prefix_rfl
  have htruthful := (orderly_step hconducted orderly_joined).mp horderly
  have hrunning : joined.task.stopped = false ∧
      (joined.task.devices.get ⟨0xa⟩).isSome = true := by
    rw [joined,Task.fresh_eq]
    decide +kernel
  have hnot : ¬ Interview.Truthful (interviewOf [1,1] id).2 := by
    rw [Interview.Truthful]
    decide +kernel
  exact hnot (htruthful hrunning.1 hrunning.2 rfl)

end Devices

end Task
end Rszigbee
