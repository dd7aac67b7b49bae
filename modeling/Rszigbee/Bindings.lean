import Rszigbee.Datapoints
import Rszigbee.Zdo

/-! What the outcome of a configure plan counts, beside what the device accepted.
A binding is requested once for each endpoint and cluster of the plan; its response comes
with the adapter's answer, later, or never. -/
namespace Rszigbee

/-- `decode_bind_rsp`: a sequence and a status. -/
def Zdo.decodeBindRsp (payload : Bytes) : Except ZdoError UInt8 := decode readStatus payload

/-- A binding that is requested, with what the adapter makes of the request. -/
structure BindRequest where
  binding : EndpointId × ClusterId
  answer : Except AdapterError (Option Bytes)

namespace BindRequest

/-- The request went out. -/
def taken (r : BindRequest) : Bool := r.answer.isOk

/-- The `Bind_rsp`, if the device ever sends one: the adapter has it at once, or it arrives. -/
def received (r : BindRequest) (later : EndpointId × ClusterId → Option Bytes) : Option Bytes :=
  match r.answer with
  | .ok (some payload) => some payload
  | _ => later r.binding

def accepted (later : EndpointId × ClusterId → Option Bytes) (r : BindRequest) : Bool :=
  (r.received later).any fun payload => (Zdo.decodeBindRsp payload).isOk

end BindRequest

/-- The binding a step is on. -/
def ConfigureStep.binding (step : ConfigureStep) : EndpointId × ClusterId :=
  (step.endpoint,step.cluster)

section Requests

/-- The requests of a plan, in order: of the bindings it has, those that are not yet bound. -/
def bindRequests : List (EndpointId × ClusterId) → List ConfigureStep → (ℕ → Env) → List BindRequest
  | _, [], _ => []
  | bound, step::rest, env =>
    if bound.contains step.binding then bindRequests bound rest fun k => env (k+2)
    else ⟨step.binding,(env 0).sendZdo⟩::bindRequests (step.binding::bound) rest fun k => env (k+2)

theorem mem_bindRequests (bound : List (EndpointId × ClusterId)) (plan : List ConfigureStep)
    (env : ℕ → Env) (b : EndpointId × ClusterId) :
    b ∈ (bindRequests bound plan env).map BindRequest.binding ↔
      b ∈ plan.map ConfigureStep.binding ∧ b ∉ bound := by
  induction plan generalizing bound env with
  | nil => simp [bindRequests]
  | cons step rest ih =>
    rw [bindRequests]
    split
    · rename_i hbound
      rw [List.contains_iff_mem] at hbound
      rw [ih,List.map_cons,List.mem_cons]
      constructor
      · rintro ⟨hmem,hnot⟩
        exact ⟨.inr hmem,hnot⟩
      · rintro ⟨rfl | hmem,hnot⟩
        · exact absurd hbound hnot
        · exact ⟨hmem,hnot⟩
    · rename_i hbound
      rw [List.contains_iff_mem] at hbound
      rw [List.map_cons,List.mem_cons,ih,List.map_cons,List.mem_cons,List.mem_cons,not_or]
      by_cases hb : b = step.binding
      · subst hb
        simp [hbound]
      · simp [hb]

/-- Each binding of a plan is requested once. -/
theorem bindRequests_nodup (bound : List (EndpointId × ClusterId)) (plan : List ConfigureStep)
    (env : ℕ → Env) : ((bindRequests bound plan env).map BindRequest.binding).Nodup := by
  induction plan generalizing bound env with
  | nil => exact List.nodup_nil
  | cons step rest ih =>
    rw [bindRequests]
    split
    · exact ih _ _
    · rw [List.map_cons,List.nodup_cons]
      refine ⟨fun hmem => ?_,ih _ _⟩
      exact ((mem_bindRequests _ _ _ _).mp hmem).2 List.mem_cons_self

end Requests

/-- A plan of distinct bindings splits by what became of each. -/
theorem countP_exchange {α : Type*} (p q : α → Bool) (l : List α) :
    (l.countP p = l.countP q ∧ l.countP (fun a => !p a) = l.countP fun a => !q a) ↔
      l.countP (fun a => p a && !q a) = l.countP fun a => !p a && q a := by
  have hsplit : l.countP p + l.countP (fun a => !p a && q a) =
      l.countP q + l.countP fun a => p a && !q a := by
    induction l with
    | nil => rfl
    | cons a l ih =>
      simp only [List.countP_cons]
      cases p a <;> cases q a <;> simp <;> omega
  have hp := List.length_eq_countP_add_countP p (l := l)
  have hq := List.length_eq_countP_add_countP q (l := l)
  simp only [Bool.not_eq_true,Bool.decide_eq_false] at hp hq
  omega

namespace Task

variable {E : Engine}

section Reports

/-- What a step asks to have reported, where its type is known. -/
def reportOf (E : Engine) (registry : E.Registry) (ieee : Ieee) (step : ConfigureStep) :
    Option ReportRecord :=
  step.attr.bind fun attr =>
    (step.attrType <|> E.attrType registry ieee step.cluster attr).map fun ty =>
      ⟨attr,ty,step.minInterval,step.maxInterval,step.minChange⟩

/-- A step that has something reported and fails to. -/
def reportFails (E : Engine) (registry : E.Registry) (ieee : Ieee) (tsn : UInt8)
    (step : ConfigureStep) (env : Env) : Bool :=
  step.attr.isSome && !(reportOf E registry ieee step).any fun record =>
    (E.configureReporting (tsn + 1) [record]).isOk && env.sendZcl.isOk

/-- How many steps of a plan fail to have something reported, from a sequence number on. -/
def failedReports (E : Engine) (registry : E.Registry) (ieee : Ieee) :
    UInt8 → List ConfigureStep → (ℕ → Env) → ℕ
  | _, [], _ => 0
  | tsn, step::rest, env =>
    (reportFails E registry ieee tsn step (env 1)).toNat +
      failedReports E registry ieee
        (if (reportOf E registry ieee step).isSome then tsn + 1 else tsn) rest fun k => env (k+2)

end Reports

section Steps

variable (t : Task E) (ieee : Ieee) (nwk : Nwk) (step : ConfigureStep) (p : PlanProgress)
  (env : Env)

/-- A binding step counts its request by what the adapter made of it. -/
theorem bindStep_counts : (t.bindStep ieee nwk step p env).1.registry = t.registry ∧
    (t.bindStep ieee nwk step p env).1.zclSequence = t.zclSequence ∧
    (t.bindStep ieee nwk step p env).2 =
      if step.binding ∈ p.bound then p
      else ⟨step.binding::p.bound,{ p.outcome with
        bound := p.outcome.bound + env.sendZdo.isOk.toNat
        failed := p.outcome.failed + (!env.sendZdo.isOk).toNat }⟩ := by
  rw [bindStep]
  have hbinding : (step.endpoint,step.cluster) = step.binding := rfl
  rw [hbinding]
  split
  · exact ⟨rfl,rfl,rfl⟩
  · rw [bind]
    cases env.sendZdo <;> exact ⟨rfl,rfl,rfl⟩

/-- A reporting step counts its failure, and leaves the bindings alone. -/
theorem reportStep_counts : (t.reportStep ieee nwk step p env).1.registry = t.registry ∧
    (t.reportStep ieee nwk step p env).1.zclSequence =
      (if (reportOf E t.registry ieee step).isSome then t.zclSequence + 1 else t.zclSequence) ∧
    (t.reportStep ieee nwk step p env).2.bound = p.bound ∧
    (t.reportStep ieee nwk step p env).2.outcome.bound = p.outcome.bound ∧
    (t.reportStep ieee nwk step p env).2.outcome.failed = p.outcome.failed +
      (reportFails E t.registry ieee t.zclSequence step env).toNat := by
  rw [reportStep,reportFails,reportOf]
  cases step.attr with
  | none => exact ⟨rfl,rfl,rfl,rfl,rfl⟩
  | some attr =>
    rcases Option.eq_none_or_eq_some
      (step.attrType <|> E.attrType t.registry ieee step.cluster attr) with hty | ⟨ty,hty⟩
    · simp only [hty,Option.bind_some,Option.map_none]
      exact ⟨trivial,rfl,trivial,trivial,rfl⟩
    · simp only [hty,Option.bind_some,Option.map_some,Option.any_some]
      rw [configureReporting]
      dsimp only
      cases E.configureReporting (t.zclSequence + 1)
          [⟨attr,ty,step.minInterval,step.maxInterval,step.minChange⟩] with
      | error e => exact ⟨rfl,rfl,rfl,rfl,rfl⟩
      | ok frame => cases env.sendZcl <;> exact ⟨rfl,rfl,rfl,rfl,rfl⟩

end Steps

/-- A plan counts its requests by what the adapter made of them. -/
theorem runPlan_counts (ieee : Ieee) (nwk : Nwk) (plan : List ConfigureStep) (t : Task E)
    (p : PlanProgress) (env : ℕ → Env) :
    (runPlan ieee nwk plan t p env).2.outcome.bound = p.outcome.bound +
      (bindRequests p.bound plan env).countP BindRequest.taken ∧
    (runPlan ieee nwk plan t p env).2.outcome.failed = p.outcome.failed +
      (bindRequests p.bound plan env).countP (fun r => !r.taken) +
      failedReports E t.registry ieee t.zclSequence plan env := by
  induction plan generalizing t p env with
  | nil => exact ⟨rfl,rfl⟩
  | cons step rest ih =>
    obtain ⟨hregistry,htsn,hp⟩ := t.bindStep_counts ieee nwk step p (env 0)
    obtain ⟨hregistry',htsn',hbound,hcount,hfailed⟩ := (t.bindStep ieee nwk step p
      (env 0)).1.reportStep_counts ieee nwk step (t.bindStep ieee nwk step p (env 0)).2 (env 1)
    obtain ⟨hb,hf⟩ := ih ((t.bindStep ieee nwk step p (env 0)).1.reportStep ieee nwk step
      (t.bindStep ieee nwk step p (env 0)).2 (env 1)).1 ((t.bindStep ieee nwk step p
      (env 0)).1.reportStep ieee nwk step (t.bindStep ieee nwk step p (env 0)).2 (env 1)).2
      fun k => env (k+2)
    rw [hcount,hbound] at hb
    rw [hfailed,hbound,hregistry',htsn',hregistry,htsn] at hf
    rw [runPlan,bindRequests,failedReports]
    dsimp only
    rw [hb,hf,hp]
    by_cases hbound : step.binding ∈ p.bound
    · rw [if_pos hbound,if_pos (List.contains_iff_mem.mpr hbound)]
      refine ⟨rfl,?_⟩
      omega
    · have hnew : ¬ p.bound.contains step.binding = true := by
        rwa [List.contains_iff_mem]
      rw [if_neg hbound,if_neg hnew]
      simp only [List.countP_cons,BindRequest.taken]
      cases (env 0).sendZdo <;> simp [Except.isOk,Except.toBool] <;> omega

section Outcome

/-- The plan of a device, as far as it is known and has a definition. -/
def plan (t : Task E) (ieee : Ieee) : List ConfigureStep :=
  match t.resolve ieee,t.devices.get ieee with
  | some definition,some entry => E.configurePlan definition entry.info
  | _,_ => []

/-- The bindings of the plan, with what the adapter makes of their requests. -/
def requested (t : Task E) (ieee : Ieee) (env : ℕ → Env) : List BindRequest :=
  bindRequests [] (t.plan ieee) env

/-- Each distinct binding of the plan is requested once. -/
theorem requested_bindings (t : Task E) (ieee : Ieee) (env : ℕ → Env) :
    ((t.requested ieee env).map BindRequest.binding).Nodup ∧
      ∀ b, b ∈ (t.requested ieee env).map BindRequest.binding ↔
        b ∈ (t.plan ieee).map ConfigureStep.binding := by
  refine ⟨bindRequests_nodup _ _ _,fun b => ?_⟩
  rw [requested,mem_bindRequests,and_iff_left List.not_mem_nil]

/-- The bindings counted are those the device accepted, and those it refused or did not answer
are counted as failed. -/
def CountsAccepted (t : Task E) (ieee : Ieee) (env : ℕ → Env)
    (later : EndpointId × ClusterId → Option Bytes) (outcome : ConfigureOutcome) : Prop :=
  outcome.bound = (t.requested ieee env).countP (BindRequest.accepted later) ∧
    outcome.failed = (t.requested ieee env).countP (fun r => !r.accepted later) +
      failedReports E t.registry ieee t.zclSequence (t.plan ieee) env

/-- A device without a definition has an empty plan. -/
theorem executeConfigurePlan_outcome (t : Task E) (ieee : Ieee) (env : ℕ → Env) :
    ∃ nwk, (t.executeConfigurePlan ieee env).2 =
      (runPlan ieee nwk (t.plan ieee) t {} env).2.outcome := by
  cases hresolve : t.resolve ieee with
  | none =>
    simp only [executeConfigurePlan,plan,hresolve]
    exact ⟨.coordinator,rfl⟩
  | some definition =>
    cases hget : t.devices.get ieee with
    | none =>
      simp only [executeConfigurePlan,plan,hresolve,hget]
      exact ⟨.coordinator,rfl⟩
    | some entry =>
      simp only [executeConfigurePlan,plan,hresolve,hget]
      exact ⟨entry.info.nwk,rfl⟩

theorem executeConfigurePlan_counts (t : Task E) (ieee : Ieee) (env : ℕ → Env) :
    (t.executeConfigurePlan ieee env).2.bound = (t.requested ieee env).countP BindRequest.taken ∧
      (t.executeConfigurePlan ieee env).2.failed =
        (t.requested ieee env).countP (fun r => !r.taken) +
          failedReports E t.registry ieee t.zclSequence (t.plan ieee) env := by
  obtain ⟨nwk,hrun⟩ := t.executeConfigurePlan_outcome ieee env
  obtain ⟨hbound,hfailed⟩ := runPlan_counts ieee nwk (t.plan ieee) t {} env
  rw [hrun]
  refine ⟨hbound.trans (Nat.zero_add _),hfailed.trans ?_⟩
  rw [Nat.zero_add]
  rfl

/-- Each distinct binding of the plan is requested once. The outcome counts what the device
accepted exactly when as many requests that went out were refused or not answered as were
accepted though the adapter reported an error. -/
theorem accepted_counted_iff (t : Task E) (ieee : Ieee) (env : ℕ → Env)
    (later : EndpointId × ClusterId → Option Bytes) :
    (((t.requested ieee env).map BindRequest.binding).Nodup ∧
      ∀ b, b ∈ (t.requested ieee env).map BindRequest.binding ↔
        b ∈ (t.plan ieee).map ConfigureStep.binding) ∧
    (t.CountsAccepted ieee env later (t.executeConfigurePlan ieee env).2 ↔
      (t.requested ieee env).countP (fun r => r.taken && !r.accepted later) =
        (t.requested ieee env).countP fun r => !r.taken && r.accepted later) := by
  refine ⟨t.requested_bindings ieee env,?_⟩
  obtain ⟨hbound,hfailed⟩ := t.executeConfigurePlan_counts ieee env
  rw [CountsAccepted,hbound,hfailed,← countP_exchange,Nat.add_right_cancel_iff]

end Outcome

section Unanswered

/-- A plug that is bound on its switch. -/
def boundPlug : Rszigbee.Definition where
  bindings := [⟨⟨1⟩,⟨0x0006⟩,[]⟩]

/-- A runtime that knows one such plug. -/
def plugTask : Task (Engine.ofDefinitions (fun _ => some boundPlug) ⟨fun _ => "",fun _ => ""⟩
    (Tuya.side ∅)) where
  reachability := silencePolicy 0
  interviewOnJoin := false
  coordinator := ⟨0⟩
  networkKnown := true
  devices := Inventory.new.insert { info := DeviceInfo.new ⟨1⟩ ⟨2⟩ .router }
  registry := {}
  store := .new

/-- The request goes out and the plug never answers: it is counted as bound. -/
theorem unanswered_counted_bound :
    (plugTask.executeConfigurePlan ⟨1⟩ fun _ => { sendZdo := .ok none }).2 = ⟨1,0,0⟩ ∧
      ¬ plugTask.CountsAccepted ⟨1⟩ (fun _ => { sendZdo := .ok none }) (fun _ => none)
        (plugTask.executeConfigurePlan ⟨1⟩ fun _ => { sendZdo := .ok none }).2 := by
  refine ⟨by decide,fun h => ?_⟩
  have hbound := h.1
  revert hbound
  decide

end Unanswered

end Task
end Rszigbee
