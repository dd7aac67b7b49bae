import Rszigbee.Facts

/-! What interviews learned of a device, and what a later, poorer one leaves of it. -/
namespace Rszigbee

namespace Interview

open Dialogue

/-- What an interview may report: nothing of `genBasic` but what an answer said, and a verdict. -/
structure Reported (outcome : InterviewOutcome) : Prop where
  basic : ∀ b, outcome.basic = some b → ∃ values, b = basicInfo values
  state : outcome.state = .successful ∨ outcome.state = .failed

/-- An update that reports something else. -/
def Misreports (c : Ask) : Prop := ∃ outcome, c = .update (.finished outcome) ∧ ¬ Reported outcome

/-- Until `genBasic` is read nothing is known of it. -/
def Unread (outcome : InterviewOutcome) : Prop := outcome.basic = none

section Parts

variable {text : ErrorText} {outcome : InterviewOutcome}

theorem tell_avoids {update : InterviewUpdate} (h : ¬ Misreports (.update update)) :
    (tell update).Avoids Misreports := by
  refine (avoids_command h).bind fun answer => ?_
  cases answer <;> exact avoids_done _

theorem not_misreports_update {update : InterviewUpdate} (h : ∀ outcome, update ≠ .finished outcome) :
    ¬ Misreports (.update update) := by
  rintro ⟨outcome,he,-⟩
  exact h outcome (Ask.update.inj he)

theorem tell_step_avoids (step : InterviewStep) : (tell (.step step)).Avoids Misreports :=
  tell_avoids (not_misreports_update fun _ he => by cases he)

theorem askZdo_avoids {α : Type} (cluster : ZdoClusterId) (build : UInt8 → Nwk → Bytes)
    (decode : Bytes → Except ZdoError α) : (askZdo text cluster build decode).Avoids Misreports := by
  refine (avoids_command ?_).bind fun answer => ?_
  · rintro ⟨outcome,he,-⟩
    cases he
  · cases answer <;> exact avoids_pure _

theorem nodeDescriptor_avoids : (nodeDescriptor text outcome).Avoids Misreports := by
  refine (askZdo_avoids _ _ _).bind fun answer => ?_
  have hrest (o : InterviewOutcome) : (pure o >>= fun o => tell (.step .nodeDescriptor) >>= fun _ =>
      pure o).Avoids Misreports :=
    (avoids_pure _).bind fun _ => (tell_step_avoids _).bind fun _ => avoids_pure _
  cases answer with
  | ok descriptor =>
    exact (tell_avoids (not_misreports_update fun _ he => by cases he)).bind fun _ => hrest _
  | error detail => exact hrest _

theorem nodeDescriptor_yields (h : Unread outcome) : (nodeDescriptor text outcome).Yields Unread := by
  refine (yields_any _).bind fun answer _ => ?_
  have hrest (o : InterviewOutcome) (ho : Unread o) : (pure o >>= fun o =>
      tell (.step .nodeDescriptor) >>= fun _ => pure o).Yields Unread :=
    (yields_pure ho).bind fun _ ho => (yields_any _).bind fun _ _ => yields_pure ho
  cases answer with
  | ok descriptor => exact (yields_any _).bind fun _ _ => hrest _ h
  | error detail => exact hrest _ h

theorem activeEndpoints_avoids : (activeEndpoints text outcome).Avoids Misreports :=
  (askZdo_avoids _ _ _).bind fun _ => (tell_step_avoids _).bind fun _ => avoids_pure _

theorem activeEndpoints_yields (h : Unread outcome) :
    (activeEndpoints text outcome).Yields fun found => Unread found.2 := by
  refine (yields_any _).bind fun answer _ => (yields_any _).bind fun _ _ => yields_pure ?_
  cases answer <;> exact h

theorem simpleDescriptors_avoids (endpoints : List EndpointId) (outcome : InterviewOutcome) :
    (simpleDescriptors text endpoints outcome).Avoids Misreports := by
  induction endpoints generalizing outcome with
  | nil => exact avoids_pure _
  | cons endpoint endpoints ih =>
    exact (askZdo_avoids _ _ _).bind fun _ => (tell_step_avoids _).bind fun _ => ih _

theorem simpleDescriptors_yields (endpoints : List EndpointId) {outcome : InterviewOutcome}
    (h : Unread outcome) : (simpleDescriptors text endpoints outcome).Yields Unread := by
  induction endpoints generalizing outcome with
  | nil => exact yields_pure h
  | cons endpoint endpoints ih =>
    refine (yields_any _).bind fun answer _ => (yields_any _).bind fun _ _ => ih ?_
    cases answer <;> exact h

theorem basicAttributes_avoids : (basicAttributes text outcome).Avoids Misreports := by
  refine (avoids_command ?_).bind fun answer => (tell_step_avoids _).bind fun _ => avoids_pure _
  rintro ⟨outcome,he,-⟩
  cases he

/-- What is known then of `genBasic` is what the answer to the read said. -/
theorem basicAttributes_yields (h : Unread outcome) : (basicAttributes text outcome).Yields
    fun o => ∀ b, o.basic = some b → ∃ values, b = basicInfo values := by
  refine (yields_any _).bind fun answer _ => (yields_any _).bind fun _ _ => yields_pure fun b hb => ?_
  cases answer with
  | ok values =>
    have hbasic : (recordBasic values outcome).basic = some (basicInfo values) := by
      unfold recordBasic
      dsimp only
      split <;> rfl
    exact ⟨values,Option.some.inj (hb.symm.trans hbasic)⟩
  | error e => cases h.symm.trans hb

end Parts

/-- Whatever is answered, an interview reports no more than that. -/
theorem run_avoids (errors : ErrorText) : (run errors).Avoids Misreports := by
  refine (tell_avoids (not_misreports_update fun _ he => by cases he)).bind fun _ => ?_
  refine nodeDescriptor_avoids.bind_yields (nodeDescriptor_yields rfl) fun o ho => ?_
  refine activeEndpoints_avoids.bind_yields (activeEndpoints_yields ho) fun found ho => ?_
  refine (simpleDescriptors_avoids _ _).bind_yields (simpleDescriptors_yields _ ho) fun o ho => ?_
  refine basicAttributes_avoids.bind_yields (basicAttributes_yields ho) fun o ho => ?_
  refine (tell_avoids ?_).bind fun _ => avoids_pure _
  rintro ⟨outcome,he,hnot⟩
  obtain rfl := InterviewUpdate.finished.inj (Ask.update.inj he)
  refine hnot ⟨ho,?_⟩
  rw [verdict]
  cases isUsable o
  · exact .inr rfl
  · exact .inl rfl

end Interview

/-- The model and the endpoints, which a definition is found by. -/
def Entry.learned (e : Entry) : Option String × List EndpointInfo :=
  (e.info.basic.modelId,e.info.endpoints)

/-- A known model is not replaced by none, nor a list of endpoints by an empty one. -/
def Remembers (a b : Option String × List EndpointInfo) : Prop :=
  (a.1.isSome = true → b.1.isSome = true) ∧ (a.2 ≠ [] → b.2 ≠ [])

theorem Remembers.refl (a : Option String × List EndpointInfo) : Remembers a a := ⟨id,id⟩

theorem Remembers.trans {a b c : Option String × List EndpointInfo} (hab : Remembers a b)
    (hbc : Remembers b c) : Remembers a c := ⟨hbc.1 ∘ hab.1,hbc.2 ∘ hab.2⟩

theorem durable_learned : Durable Entry.learned where
  mark m e := by
    cases m with
    | transmitted time result => cases result <;> rfl
    | _ => rfl
  verdict a e := rfl
  nwk n e := rfl

namespace Task

variable {E : Engine}

/-- A finished interview does not replace a model on record by what an answer without one said. -/
def NamesAgain (t : Task E) : Input E → Prop
  | .request (.interviewUpdate ieee (.finished outcome)) _ =>
    ∀ e, t.devices.get ieee = some e → e.info.basic.modelId.isSome = true →
      ∀ b, outcome.basic = some b → b.modelId.isSome = true
  | _ => True

theorem learned_withMetadata (e : Entry) : (withMetadata E e).learned = e.learned := by
  rw [withMetadata]
  cases ((E.resolve e.info).bind E.forcePowerSource).bind forced with
  | none => rfl
  | some f =>
    dsimp only
    split <;> rfl

/-- Endpoints are kept when none were found, but `genBasic` is taken as it was answered. -/
theorem remembers_finished (outcome : InterviewOutcome) (e : Entry) :
    Remembers e.learned (updated E (.finished outcome) e).learned ↔
      (e.info.basic.modelId.isSome = true →
        ∀ b, outcome.basic = some b → b.modelId.isSome = true) := by
  have hendpoints : e.learned.2 ≠ [] → (finishInterview outcome e).learned.2 ≠ [] := by
    intro he hnone
    rw [Entry.learned,finishInterview] at hnone
    dsimp only at hnone
    split at hnone
    · exact he hnone
    · rename_i hfound
      have hlength := congrArg List.length hnone
      rw [List.length_mergeSort,List.length_nil] at hlength
      simp [List.length_eq_zero_iff.mp hlength] at hfound
  rw [updated,learned_withMetadata]
  have hmodel : (finishInterview outcome e).learned.1 =
      (outcome.basic.getD e.info.basic).modelId := rfl
  rw [Remembers,and_iff_left hendpoints,hmodel]
  refine imp_congr_right fun hknown => ?_
  cases hbasic : outcome.basic with
  | none => simpa using (show e.info.basic.modelId.isSome = true from hknown)
  | some b => simp

/-- One turn forgets nothing of a device that stays exactly when an interview that ends in it
does not take the model away. -/
theorem remembers_step {t : Task E} (hrun : t.stopped = false) (i : Input E) :
    (∀ j a b, (t.devices.get j).map Entry.learned = some a →
      ((t.step i).devices.get j).map Entry.learned = some b → Remembers a b) ↔
      t.NamesAgain i := by
  have hsame {j : Ieee} {a b : Option String × List EndpointInfo} (ha : (t.devices.get j).map
      Entry.learned = some a) {e : Entry} (he : t.devices.get j = some e) (hb : e.learned = b) :
      Remembers a b := by
    rw [he] at ha
    obtain rfl := Option.some.inj ha
    exact hb ▸ Remembers.refl _
  simp only [fact_step durable_learned hrun]
  constructor
  · intro h
    cases i with
    | request request env =>
      cases request with
      | interviewUpdate ieee update =>
        cases update with
        | finished outcome =>
          intro e he
          refine (remembers_finished (E := E) outcome e).mp (h ieee _ _ ?_ ?_)
          · rw [he]
            rfl
          · rw [entryAfter_update he]
            rfl
        | _ => trivial
      | _ => trivial
    | _ => trivial
  · intro hc j a b ha hb
    obtain ⟨e',he',rfl⟩ := Option.map_eq_some_iff.mp hb
    rcases entryAfter_cases he' with hkept | ⟨hnone,-⟩ | ⟨update,env,e,rfl,he,rfl⟩
    · exact hsame ha hkept rfl
    · rw [hnone] at ha
      cases ha
    · cases update with
      | finished outcome =>
        rw [he] at ha
        obtain rfl := Option.some.inj ha
        exact (remembers_finished outcome e).mpr (hc e he)
      | _ => exact hsame ha he rfl

section Runs

/-- While a device stays in the table its record forgets no model and no endpoints. -/
def NothingForgotten (t : Task E) (is : List (Input E)) : Prop :=
  ∀ pre mid, pre <+: mid → mid <+: is → ∀ j,
    (∀ cut, pre <+: cut → cut <+: mid → ((Runs.run step t cut).devices.get j).isSome = true) →
    ∀ e e', (Runs.run step t pre).devices.get j = some e →
      (Runs.run step t mid).devices.get j = some e' → Remembers e.learned e'.learned

theorem forgets_iff (t : Task E) (is : List (Input E)) : NothingForgotten t is ↔
    Runs.Meets step (fun t i => t.stopped = false → t.NamesAgain i) t is := by
  have hkept (j : Ieee) := Runs.kept_while_iff step (fun t : Task E =>
    (t.devices.get j).map Entry.learned) Remembers.refl Remembers.trans t is
  simp only [Runs.meets_iff] at hkept ⊢
  have hstep (u : Task E) (i : Input E) : (∀ j a b, (u.devices.get j).map Entry.learned = some a →
      ((u.step i).devices.get j).map Entry.learned = some b → Remembers a b) ↔
      (u.stopped = false → u.NamesAgain i) := by
    by_cases hstopped : u.stopped = true
    · rw [step_stopped hstopped]
      refine iff_of_true (fun j a b ha hb => ?_) fun hrun => by simp [hstopped] at hrun
      rw [ha] at hb
      exact Option.some.inj hb ▸ Remembers.refl a
    · have hrun : u.stopped = false := by simpa using hstopped
      rw [remembers_step hrun]
      exact (imp_iff_right hrun).symm
  constructor
  · intro h pre i post he
    refine (hstep _ i).mp fun j => (hkept j).mp ?_ pre i post he
    intro pre mid hpre hmid hthere a b ha hb
    obtain ⟨e,hget,rfl⟩ := Option.map_eq_some_iff.mp ha
    obtain ⟨e',hget',rfl⟩ := Option.map_eq_some_iff.mp hb
    exact h pre mid hpre hmid j (fun cut hcut hcut' => by simpa using hthere cut hcut hcut')
      e e' hget hget'
  · intro h pre mid hpre hmid j hthere e e' hget hget'
    refine (hkept j).mpr (fun pre i post he => (hstep _ i).mpr (h pre i post he) j) pre mid hpre hmid
      (fun cut hcut hcut' => by simpa using hthere cut hcut hcut') _ _ ?_ ?_
    · rw [hget]
      rfl
    · rw [hget']
      rfl

/-- Whatever interviews there are, nothing is forgotten exactly when none that ends takes the
model of its device away. However it is answered, an interview tells of `genBasic` only what an
answer said. -/
theorem nothing_forgotten_iff (t : Task E) (is : List (Input E)) :
    (NothingForgotten t is ↔
      Runs.Meets step (fun t i => t.stopped = false → t.NamesAgain i) t is) ∧
    ∀ errors, (Interview.run errors).Avoids Interview.Misreports :=
  ⟨forgets_iff t is,Interview.run_avoids⟩

end Runs

section Reinterview

open Interview

/-- A device that refuses every descriptor and answers the read of `genBasic`. -/
def answering (values : List (UInt16 × ZclValue)) : (c : Ask) → c.Response
  | .update _ => .ok ()
  | .zdo _ _ => .error (.adapter .notConnected)
  | .zclRead _ _ _ => .ok values

/-- What its interview reports when it is over. -/
def reportedBy (values : List (UInt16 × ZclValue)) : List (Input Engine.bare) :=
  ((Interview.run ⟨fun _ => "",fun _ => ""⟩).issued (answering values)).filterMap fun c =>
    match c with
    | .update update => some (.request (.interviewUpdate ⟨0xa⟩ update) fun _ => {})
    | _ => none

/-- The model is read, and the next interview goes on to the reading of it. -/
def interviewedAgain : List (Input Engine.bare) :=
  joins ⟨0xa⟩ ⟨0x1001⟩::reportedBy [(Attr.modelId.raw,.str "lumi.weather")] ++
    (reportedBy []).dropLast

/-- It is answered without the model, which takes the model away. -/
theorem model_forgotten :
    ¬ ∀ (t : Task Engine.bare) (is : List (Input Engine.bare)), NothingForgotten t is := by
  intro h
  let ends : Input Engine.bare := (reportedBy []).getLastD (.abandon 0)
  have hbefore : ((Runs.run step Task.fresh interviewedAgain).devices.get ⟨0xa⟩).map
      (·.learned.1) = some (some "lumi.weather") := by
    rw [Task.fresh_eq]
    decide +kernel
  have hafter : ((Runs.run step Task.fresh (interviewedAgain ++ [ends])).devices.get ⟨0xa⟩).map
      (·.learned.1) = some none := by
    rw [Task.fresh_eq]
    decide +kernel
  obtain ⟨e,he,hknown⟩ := Option.map_eq_some_iff.mp hbefore
  obtain ⟨e',he',hlost⟩ := Option.map_eq_some_iff.mp hafter
  have hkept := h Task.fresh (interviewedAgain ++ [ends]) interviewedAgain _
    (List.prefix_append _ _) List.prefix_rfl ⟨0xa⟩ (fun cut hpre hcut => ?_) e e' he he'
  · rw [Remembers,hknown,hlost] at hkept
    exact absurd (hkept.1 rfl) (by decide)
  · rcases List.prefix_concat_iff.mp hcut with rfl | hback
    · rw [he']
      rfl
    · rw [hback.eq_of_length_le hpre.length_le,he]
      rfl

end Reinterview
end Task
end Rszigbee
