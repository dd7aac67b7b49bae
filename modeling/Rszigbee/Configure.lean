import Rszigbee.Sources

/-! What joining a device should do to it, as a plan. The capabilities configure
reporting as part of what they mean, so a plan follows them as well as the explicit
bindings. -/
namespace Rszigbee

/-- What a step binds and configures; no two implied steps are for the same. -/
def ConfigureStep.key (step : ConfigureStep) : EndpointId × ClusterId × Option AttrId :=
  (step.endpoint,step.cluster,step.attr)

/-- Ten seconds. -/
def defaultMinInterval : UInt16 := 10

/-- An hour. -/
def defaultMaxInterval : UInt16 := 3600

/-- A binding on its own, with nothing to report. -/
def Binding.bareStep (b : Binding) : ConfigureStep where
  endpoint := b.endpoint
  cluster := b.cluster
  attr := none
  attrType := none
  minInterval := 0
  maxInterval := 0
  minChange := 0

/-- A stated reporting; its type is the one of a source on the same attribute. -/
def Binding.reportStep (definition : Definition) (b : Binding) (r : Reporting) :
    ConfigureStep where
  endpoint := b.endpoint
  cluster := b.cluster
  attr := some r.attr
  attrType := (firstOn definition b.cluster r.attr.raw).map Source.ty
  minInterval := r.minInterval
  maxInterval := r.maxInterval
  minChange := r.minChange

/-- The steps a definition states. An endpoint the device does not have is not bound. -/
def statedSteps (definition : Definition) (info : DeviceInfo) : List ConfigureStep :=
  definition.bindings.flatMap fun b =>
    if !info.endpoints.isEmpty && (info.endpoint b.endpoint).isNone then []
    else if b.reporting.isEmpty then [b.bareStep]
    else b.reporting.map (b.reportStep definition)

/-- A source's reporting at the default intervals, of any change. -/
def Source.step (info : DeviceInfo) (s : Source) : ConfigureStep where
  endpoint := ((info.endpointWithInput s.cluster).map EndpointInfo.id).getD ⟨1⟩
  cluster := s.cluster
  attr := some s.attr
  attrType := some s.ty
  minInterval := defaultMinInterval
  maxInterval := defaultMaxInterval
  minChange := 0

/-- The steps of sources that nothing before them is for. -/
def impliedSteps (info : DeviceInfo) :
    List (EndpointId × ClusterId × Option AttrId) → List Source → List ConfigureStep
  | _, [] => []
  | seen, s::rest =>
    let step := s.step info
    if step.key ∈ seen then impliedSteps info seen rest
    else step::impliedSteps info (step.key::seen) rest

def configurePlan (definition : Definition) (info : DeviceInfo) : List ConfigureStep :=
  let stated := statedSteps definition info
  stated ++ impliedSteps info (stated.map ConfigureStep.key) (sources definition)

section Implied
variable {info : DeviceInfo}

theorem mem_impliedSteps {seen : List (EndpointId × ClusterId × Option AttrId)}
    {ss : List Source} {step : ConfigureStep} (h : step ∈ impliedSteps info seen ss) :
    step.key ∉ seen ∧ ∃ s ∈ ss, step = s.step info := by
  induction ss generalizing seen with
  | nil => cases h
  | cons s ss ih =>
    rw [impliedSteps] at h
    by_cases hseen : (s.step info).key ∈ seen
    · rw [if_pos hseen] at h
      obtain ⟨hnew,s',hs',heq⟩ := ih h
      exact ⟨hnew,s',List.mem_cons_of_mem _ hs',heq⟩
    · rw [if_neg hseen] at h
      rcases List.mem_cons.mp h with rfl | h
      · exact ⟨hseen,s,List.mem_cons_self,rfl⟩
      · obtain ⟨hnew,s',hs',heq⟩ := ih h
        exact ⟨fun hmem => hnew (List.mem_cons_of_mem _ hmem),s',List.mem_cons_of_mem _ hs',heq⟩

theorem impliedSteps_nodup (seen : List (EndpointId × ClusterId × Option AttrId))
    (ss : List Source) : ((impliedSteps info seen ss).map ConfigureStep.key).Nodup := by
  induction ss generalizing seen with
  | nil => exact List.nodup_nil
  | cons s ss ih =>
    rw [impliedSteps]
    by_cases hseen : (s.step info).key ∈ seen
    · rw [if_pos hseen]
      exact ih seen
    · rw [if_neg hseen]
      refine List.nodup_cons.mpr ⟨?_,ih _⟩
      intro hmem
      obtain ⟨step,hstep,hkey⟩ := List.mem_map.mp hmem
      exact (mem_impliedSteps hstep).1 (hkey ▸ List.mem_cons_self)

/-- Every source has a step for it, its own or one before. -/
theorem impliedSteps_cover (info : DeviceInfo)
    (seen : List (EndpointId × ClusterId × Option AttrId)) {ss : List Source} {s : Source}
    (h : s ∈ ss) :
    (s.step info).key ∈ seen ++ (impliedSteps info seen ss).map ConfigureStep.key := by
  induction ss generalizing seen with
  | nil => cases h
  | cons s' ss ih =>
    rw [impliedSteps]
    by_cases hseen : (s'.step info).key ∈ seen
    · rw [if_pos hseen]
      rcases List.mem_cons.mp h with rfl | h
      · exact List.mem_append_left _ hseen
      · exact ih seen h
    · rw [if_neg hseen]
      rcases List.mem_cons.mp h with rfl | h
      · simp
      · have hcover := ih ((s'.step info).key::seen) h
        simp only [List.cons_append,List.mem_cons,List.mem_append] at hcover
        simp only [List.map_cons,List.mem_append,List.mem_cons]
        tauto

end Implied

/-- No capability is left without reporting. -/
theorem configurePlan_covers (d : Definition) (info : DeviceInfo) {s : Source}
    (h : s ∈ sources d) : ∃ step ∈ configurePlan d info, step.key = (s.step info).key := by
  have hcover := impliedSteps_cover info ((statedSteps d info).map ConfigureStep.key) h
  rw [← List.map_append] at hcover
  exact List.mem_map.mp hcover

/-- The type a plan states is that of a source on the attribute. -/
theorem configurePlan_typed {d : Definition} {info : DeviceInfo} {step : ConfigureStep}
    (h : step ∈ configurePlan d info) {ty : ZclType} (hty : step.attrType = some ty) :
    ∃ s ∈ sources d, s.ty = ty ∧ s.cluster = step.cluster ∧ step.attr = some s.attr := by
  rcases List.mem_append.mp h with hstated | himplied
  · obtain ⟨b,-,hb⟩ := List.mem_flatMap.mp hstated
    split at hb
    · cases hb
    · split at hb
      · rw [List.mem_singleton.mp hb] at hty
        cases hty
      · obtain ⟨r,-,rfl⟩ := List.mem_map.mp hb
        obtain ⟨s,hs,rfl⟩ := Option.map_eq_some_iff.mp hty
        obtain ⟨hmem,hcluster,hattr⟩ := of_firstOn hs
        exact ⟨s,hmem,rfl,hcluster,congrArg (fun raw => some (AttrId.mk raw)) hattr.symm⟩
  · obtain ⟨-,s,hs,rfl⟩ := mem_impliedSteps himplied
    exact ⟨s,hs,Option.some.inj hty,rfl,rfl⟩

end Rszigbee
