import Rszigbee.Described

/-! The script of an interview. What it asks, and in which order, rests on the list of endpoints its
device gives; what it reports rests on the answers. -/
namespace Rszigbee
namespace Interview

open Dialogue

/-- A question to the device, with what came of it. -/
inductive Inquiry
  | nodeDescriptor (answer : Except RuntimeError Bytes)
  | activeEndpoints (answer : Except RuntimeError Bytes)
  | simpleDescriptor (endpoint : EndpointId) (answer : Except RuntimeError Bytes)
  | basicAttributes (endpoint : EndpointId)
      (answer : Except RuntimeError (List (UInt16 × ZclValue)))

/-- What the answer reads as, or what is written down instead. -/
def read {α : Type} (text : ErrorText) (decode : Bytes → Except ZdoError α) :
    Except RuntimeError Bytes → Except String α
  | .ok payload => (decode payload).mapError text.zdo
  | .error e => .error (text.runtime e)

def detail {α : Type} : Except String α → Option String
  | .ok _ => none
  | .error detail => some detail

/-- An update the loop has been sent. -/
def told (update : InterviewUpdate) : Σ c : Ask, c.Response := ⟨.update update,.ok ()⟩

/-- What a node descriptor is passed on as. -/
def learned (d : NodeDescriptor) : InterviewUpdate :=
  .nodeDescriptor (deviceKind d.logicalType)
    (if d.mainsPowered then PowerSource.mains else .battery) !d.rxOnWhenIdle

namespace Inquiry

def step : Inquiry → InterviewStep
  | nodeDescriptor _ => .nodeDescriptor
  | activeEndpoints _ => .activeEndpoints
  | simpleDescriptor endpoint _ => .simpleDescriptor endpoint
  | basicAttributes _ _ => .basicAttributes

/-- Why the step failed, where it did. -/
def failure (text : ErrorText) : Inquiry → Option String
  | nodeDescriptor answer => detail (read text Zdo.decodeNodeDescRsp answer)
  | activeEndpoints answer => detail (read text Zdo.decodeActiveEpRsp answer)
  | simpleDescriptor _ answer => detail (read text Zdo.decodeSimpleDescRsp answer)
  | basicAttributes _ (.ok values) =>
    if (basicInfo values).modelId.isSome then none
    else some "answered without a modelId, so no definition can be resolved"
  | basicAttributes _ (.error e) => some (text.runtime e)

/-- The endpoint it described. -/
def info (text : ErrorText) : Inquiry → Option EndpointInfo
  | simpleDescriptor _ answer =>
    (read text Zdo.decodeSimpleDescRsp answer).toOption.map endpointInfo
  | _ => none

/-- What it told of the device. -/
def basic : Inquiry → Option BasicInfo
  | basicAttributes _ (.ok values) => some (basicInfo values)
  | _ => none

/-- The question and what it brought, what was learned by it, and that the step is over. -/
def transcript (text : ErrorText) : Inquiry → Transcript Ask.Response
  | nodeDescriptor answer => exchanged .nodeDescReq Zdo.encodeNodeDescReq answer ::
      (((read text Zdo.decodeNodeDescRsp answer).toOption.map fun d => told (learned d)).toList ++
        [told (.step .nodeDescriptor)])
  | activeEndpoints answer =>
    [exchanged .activeEpReq Zdo.encodeActiveEpReq answer,told (.step .activeEndpoints)]
  | simpleDescriptor endpoint answer =>
    [exchanged .simpleDescReq (Zdo.encodeSimpleDescReq endpoint) answer,
      told (.step (.simpleDescriptor endpoint))]
  | basicAttributes endpoint answer =>
    [⟨.zclRead endpoint genBasic basicAttributeIds,answer⟩,told (.step .basicAttributes)]

end Inquiry

/-- An outcome with some inquiries entered in it: each step as one that came through or as one that
failed, each endpoint that was described, and what was told of the device. -/
def entered (text : ErrorText) (outcome : InterviewOutcome) (inquiries : List Inquiry) :
    InterviewOutcome where
  state := outcome.state
  completed := outcome.completed ++
    (inquiries.filter fun x => (x.failure text).isNone).map Inquiry.step
  failures := outcome.failures ++ inquiries.filterMap fun x => (x.failure text).map (x.step,·)
  endpoints := outcome.endpoints ++ inquiries.filterMap (Inquiry.info text)
  basic := (inquiries.filterMap Inquiry.basic).getLast?.or outcome.basic

theorem entered_nil (text : ErrorText) (outcome : InterviewOutcome) :
    entered text outcome [] = outcome := by
  simp [entered]

theorem entered_append (text : ErrorText) (outcome : InterviewOutcome) (xs ys : List Inquiry) :
    entered text (entered text outcome xs) ys = entered text outcome (xs ++ ys) := by
  simp [entered,List.getLast?_append,Option.or_assoc]

/-- What a device said in an interview: of every endpoint it listed it was asked for the descriptor,
in the order of the list. -/
structure Said where
  node : Except RuntimeError Bytes
  active : Except RuntimeError Bytes
  simple : List (EndpointId × Except RuntimeError Bytes)
  attributes : Except RuntimeError (List (UInt16 × ZclValue))
  listed : simple.map Prod.fst =
    ((active.toOption.bind fun payload => (Zdo.decodeActiveEpRsp payload).toOption).map
      ActiveEndpoints.endpoints).getD []

namespace Said

variable (said : Said) (text : ErrorText)

def ofNetwork : List Inquiry := .nodeDescriptor said.node :: .activeEndpoints said.active ::
  said.simple.map fun x => .simpleDescriptor x.1 x.2

/-- The questions in their order; the last goes to an endpoint that was described. -/
def inquiries : List Inquiry := said.ofNetwork ++ [.basicAttributes
  (basicEndpoint (said.ofNetwork.filterMap (Inquiry.info text))) said.attributes]

def outcome : InterviewOutcome := verdict (entered text unanswered (said.inquiries text))

def transcript : Transcript Ask.Response := told .started ::
  ((said.inquiries text).flatMap (Inquiry.transcript text) ++
    [told (.finished (said.outcome text))])

/-- The steps of the interview, in order. -/
def steps : List InterviewStep := .nodeDescriptor :: .activeEndpoints ::
  said.simple.map (fun x => .simpleDescriptor x.1) ++ [.basicAttributes]

/-- A step either came through or failed, each time it was asked for. -/
theorem steps_perm : ((said.outcome text).completed ++
    (said.outcome text).failures.map Prod.fst).Perm said.steps := by
  have hsteps : (said.inquiries text).map Inquiry.step = said.steps := by
    simp [inquiries,ofNetwork,Inquiry.step,Function.comp_def,steps]
  have hfailed (xs : List Inquiry) : (xs.filterMap fun x => (x.failure text).map (x.step,·)).map
      Prod.fst = (xs.filter fun x => !(x.failure text).isNone).map Inquiry.step := by
    induction xs with
    | nil => rfl
    | cons x xs ih =>
      rw [List.filterMap_cons,List.filter_cons]
      cases hx : x.failure text with
      | none => simpa using ih
      | some d => simpa using ih
  show (([] ++ _) ++ List.map Prod.fst ([] ++ _)).Perm _
  rw [List.nil_append,List.nil_append,hfailed,← List.map_append,← hsteps]
  exact (List.filter_append_perm _ _).map _

end Said

section Parts

variable {text : ErrorText} {outcome : InterviewOutcome}

theorem tell_tells_told (update : InterviewUpdate) :
    (tell update).Tells fun T _ => T = [told update] := by
  refine (tells_command (Q := fun T answer => T = [⟨Ask.update update,answer⟩]) fun _ => rfl).bind
    fun S answer hS => ?_
  subst hS
  cases answer with
  | ok u => exact tells_pure rfl
  | error e => exact tells_error e

theorem askZdo_tells_read {α : Type} (cluster : ZdoClusterId) (build : UInt8 → Nwk → Bytes)
    (decode : Bytes → Except ZdoError α) : (askZdo text cluster build decode).Tells fun T r =>
      ∃ answer, T = [exchanged cluster build answer] ∧ r = read text decode answer := by
  refine (tells_command (Q := fun T answer => T = [exchanged cluster build answer])
    fun _ => rfl).bind fun S answer hS => ?_
  subst hS
  cases answer with
  | ok payload => exact tells_pure ⟨.ok payload,rfl,rfl⟩
  | error e => exact tells_pure ⟨.error e,rfl,rfl⟩

/-- A part that comes to an outcome with one exchange entered, and has its transcript. -/
def Enters (text : ErrorText) (outcome : InterviewOutcome) (T : Transcript Ask.Response)
    (x : Inquiry) (o : InterviewOutcome) : Prop :=
  T = x.transcript text ∧ o = entered text outcome [x]

theorem nodeDescriptor_enters : (nodeDescriptor text outcome).Tells fun T o =>
    ∃ answer, Enters text outcome T (.nodeDescriptor answer) o := by
  refine (askZdo_tells_read _ _ _).bind fun S r ⟨answer,hS,hr⟩ => ?_
  have hrest (o : InterviewOutcome) : (pure o >>= fun o =>
      tell (.step .nodeDescriptor) >>= fun _ => pure o).Tells fun U o' =>
        U = [told (.step .nodeDescriptor)] ∧ o' = o := by
    refine (tells_pure (Q := fun T a => T = [] ∧ a = o) ⟨rfl,rfl⟩).bind fun U a ⟨hU,ha⟩ => ?_
    subst hU ha
    refine (tell_tells_told _).bind fun U _ hU => tells_pure ⟨?_,rfl⟩
    rw [hU]
    rfl
  subst hS
  cases r with
  | ok descriptor =>
    refine (tell_tells_told _).bind fun U _ hU => ?_
    refine (hrest _).mono fun T o ⟨hT,ho⟩ => ⟨answer,?_,?_⟩
    · rw [hT,hU,Inquiry.transcript,← hr]
      rfl
    · simp [ho,entered,Inquiry.failure,← hr,detail,Inquiry.info,Inquiry.basic,completed,
        Inquiry.step]
  | error d =>
    refine (hrest _).mono fun T o ⟨hT,ho⟩ => ⟨answer,?_,?_⟩
    · rw [hT,Inquiry.transcript,← hr]
      rfl
    · simp [ho,entered,Inquiry.failure,← hr,detail,Inquiry.info,Inquiry.basic,failed,
        Inquiry.step]

theorem activeEndpoints_enters : (activeEndpoints text outcome).Tells fun T found =>
    ∃ answer, Enters text outcome T (.activeEndpoints answer) found.2 ∧
      found.1 = ((answer.toOption.bind fun payload =>
        (Zdo.decodeActiveEpRsp payload).toOption).map ActiveEndpoints.endpoints).getD [] := by
  refine (askZdo_tells_read _ _ _).bind fun S r ⟨answer,hS,hr⟩ => ?_
  refine (tell_tells_told _).bind fun U _ hU => tells_pure ⟨answer,⟨?_,?_⟩,?_⟩
  · rw [hS,hU]
    rfl
  · cases r <;> simp [entered,Inquiry.failure,← hr,detail,Inquiry.info,Inquiry.basic,completed,
      failed,Inquiry.step]
  · have hread : r.toOption = answer.toOption.bind fun payload =>
        (Zdo.decodeActiveEpRsp payload).toOption := by
      rw [hr]
      cases answer with
      | ok payload =>
        show ((Zdo.decodeActiveEpRsp payload).mapError _).toOption =
          (Zdo.decodeActiveEpRsp payload).toOption
        cases Zdo.decodeActiveEpRsp payload <;> rfl
      | error e => rfl
    rw [← hread]
    cases r <;> rfl

/-- One endpoint after the other: each is asked for, and what came of it is entered. -/
theorem simpleDescriptors_enters (endpoints : List EndpointId) (outcome : InterviewOutcome) :
    (simpleDescriptors text endpoints outcome).Tells fun T o =>
      ∃ simple : List (EndpointId × Except RuntimeError Bytes), simple.map Prod.fst = endpoints ∧
        T = (simple.map fun x => Inquiry.simpleDescriptor x.1 x.2).flatMap
          (Inquiry.transcript text) ∧
        o = entered text outcome (simple.map fun x => .simpleDescriptor x.1 x.2) := by
  induction endpoints generalizing outcome with
  | nil => exact tells_pure ⟨[],rfl,rfl,(entered_nil _ _).symm⟩
  | cons endpoint endpoints ih =>
    refine (askZdo_tells_read _ _ _).bind fun S r ⟨answer,hS,hr⟩ => ?_
    refine (tell_tells_told _).bind fun U _ hU => (ih _).mono
      fun T o ⟨simple,hsimple,hT,ho⟩ => ⟨(endpoint,answer)::simple,?_,?_,?_⟩
    · rw [List.map_cons,hsimple]
    · rw [List.map_cons,List.flatMap_cons,← hT,hS,hU]
      rfl
    · rw [ho,List.map_cons,← List.singleton_append,← entered_append]
      congr 1
      cases r <;> simp [entered,Inquiry.failure,← hr,detail,Inquiry.info,Inquiry.basic,completed,
        failed,Inquiry.step,Except.toOption]

theorem basicAttributes_enters : (basicAttributes text outcome).Tells fun T o =>
    ∃ answer, Enters text outcome T
      (.basicAttributes (basicEndpoint outcome.endpoints) answer) o := by
  refine (tells_command (Q := fun T answer => T =
    [⟨Ask.zclRead (basicEndpoint outcome.endpoints) genBasic basicAttributeIds,answer⟩])
      fun _ => rfl).bind fun S answer hS => ?_
  refine (tell_tells_told _).bind fun U _ hU => tells_pure ⟨answer,?_,?_⟩
  · rw [hS,hU]
    rfl
  · cases answer with
    | ok values =>
      show recordBasic values outcome = _
      unfold recordBasic
      dsimp only
      split
      · rename_i hmodel
        simp [entered,Inquiry.failure,hmodel,Inquiry.info,Inquiry.basic,completed,Inquiry.step]
      · rename_i hmodel
        simp [entered,Inquiry.failure,hmodel,Inquiry.info,Inquiry.basic,failed,Inquiry.step]
    | error e => simp [entered,Inquiry.failure,Inquiry.info,Inquiry.basic,failed,Inquiry.step]

/-- An interview that comes to an outcome has followed the script of what the device said. -/
theorem run_follows_script (text : ErrorText) : (run text).Tells fun T o =>
    ∃ said : Said, T = said.transcript text ∧ o = said.outcome text := by
  refine (tell_tells_told _).bind fun S₀ _ h₀ => ?_
  refine nodeDescriptor_enters.bind fun S₁ o₁ ⟨node,h₁,ho₁⟩ => ?_
  refine activeEndpoints_enters.bind fun S₂ found ⟨active,⟨h₂,ho₂⟩,hfound⟩ => ?_
  refine (simpleDescriptors_enters _ _).bind fun S₃ o₃ ⟨simple,hsimple,h₃,ho₃⟩ => ?_
  refine basicAttributes_enters.bind fun S₄ o₄ ⟨attributes,h₄,ho₄⟩ => ?_
  refine (tell_tells_told _).bind fun S₅ _ h₅ => tells_pure ?_
  let said : Said := ⟨node,active,simple,attributes,hsimple.trans hfound⟩
  have ho : o₃ = entered text unanswered said.ofNetwork := by
    rw [ho₃,ho₂,ho₁,entered_append,entered_append]
    rfl
  have hendpoints : o₃.endpoints = said.ofNetwork.filterMap (Inquiry.info text) := by
    rw [ho]
    exact List.nil_append _
  have ho' : o₄ = entered text unanswered (said.inquiries text) := by
    rw [ho₄,ho,entered_append,← ho,hendpoints]
    rfl
  refine ⟨said,?_,congrArg verdict ho'⟩
  have houtcome : verdict o₄ = said.outcome text := congrArg verdict ho'
  rw [h₀,h₁,h₂,h₃,h₄,h₅,hendpoints,houtcome,List.append_nil,Said.transcript]
  generalize said.outcome text = outcome
  simp [said,Said.inquiries,Said.ofNetwork]

end Parts

/-- An update that the loop would not take. -/
def Refused (x : Σ c : Ask, c.Response) (e : RuntimeError) : Prop :=
  ∃ update, x = ⟨.update update,.error e⟩

section Refusals

variable {text : ErrorText} {outcome : InterviewOutcome}

theorem tell_blames (update : InterviewUpdate) : (tell update).Blames Refused := by
  intro T e hT
  cases hT with
  | @ask _ _ answer T _ hT =>
    cases answer with
    | ok u => cases hT
    | error e' =>
      obtain ⟨rfl,he⟩ := run_done_iff.mp hT
      obtain rfl := Except.error.inj he
      exact ⟨_,List.mem_singleton_self _,update,rfl⟩

theorem askZdo_blames {α : Type} (cluster : ZdoClusterId) (build : UInt8 → Nwk → Bytes)
    (decode : Bytes → Except ZdoError α) : (askZdo text cluster build decode).Blames Refused := by
  refine (blames_command _).bind fun answer => ?_
  cases answer <;> exact blames_pure _

theorem nodeDescriptor_blames : (nodeDescriptor text outcome).Blames Refused := by
  refine (askZdo_blames _ _ _).bind fun r => ?_
  have hrest (o : InterviewOutcome) : (pure o >>= fun o =>
      tell (.step .nodeDescriptor) >>= fun _ => pure o).Blames Refused :=
    (blames_pure o).bind fun o => (tell_blames _).bind fun _ => blames_pure o
  cases r with
  | ok descriptor => exact (tell_blames _).bind fun _ => hrest _
  | error detail => exact hrest _

theorem activeEndpoints_blames : (activeEndpoints text outcome).Blames Refused :=
  (askZdo_blames _ _ _).bind fun _ => (tell_blames _).bind fun _ => blames_pure _

theorem simpleDescriptors_blames (endpoints : List EndpointId) (outcome : InterviewOutcome) :
    (simpleDescriptors text endpoints outcome).Blames Refused := by
  induction endpoints generalizing outcome with
  | nil => exact blames_pure _
  | cons endpoint endpoints ih =>
    exact (askZdo_blames _ _ _).bind fun _ => (tell_blames _).bind fun _ => ih _

theorem basicAttributes_blames : (basicAttributes text outcome).Blames Refused :=
  (blames_command _).bind fun _ => (tell_blames _).bind fun _ => blames_pure _

/-- Nothing a device does ends an interview early: it gives up only when the loop takes no more
updates. -/
theorem run_blames (text : ErrorText) : (run text).Blames Refused :=
  (tell_blames _).bind fun _ => nodeDescriptor_blames.bind fun _ =>
    activeEndpoints_blames.bind fun _ => (simpleDescriptors_blames _ _).bind fun _ =>
      basicAttributes_blames.bind fun _ => (tell_blames _).bind fun _ => blames_pure _

end Refusals

end Interview
end Rszigbee
