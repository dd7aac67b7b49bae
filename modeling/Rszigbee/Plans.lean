import Rszigbee.Configure

/-! Whether a plan configures anything twice. What the capabilities imply is compared with what is
planned already; what the bindings state is not. -/
namespace Rszigbee

/-- The device has endpoints, and not this one. -/
def DeviceInfo.Lacks (info : DeviceInfo) (id : EndpointId) : Prop :=
  info.endpoints ≠ [] ∧ info.endpoint id = none

instance (info : DeviceInfo) (id : EndpointId) : Decidable (info.Lacks id) := by
  unfold DeviceInfo.Lacks
  infer_instance

/-- What a stated reporting is for. -/
def Binding.key (b : Binding) (r : Reporting) : EndpointId × ClusterId × Option AttrId :=
  (b.endpoint,b.cluster,some r.attr)

/-- What a binding is for: its attributes, or itself when it names none. -/
def Binding.keys (b : Binding) : List (EndpointId × ClusterId × Option AttrId) :=
  if b.reporting.isEmpty then [(b.endpoint,b.cluster,none)] else b.reporting.map b.key

/-- What the bindings to endpoints of the device are for. -/
def statedKeys (d : Definition) (info : DeviceInfo) :
    List (EndpointId × ClusterId × Option AttrId) :=
  (d.bindings.filter fun b => ¬ info.Lacks b.endpoint).flatMap Binding.keys

section Stated
variable {d : Definition} {info : DeviceInfo} {b : Binding} {r : Reporting}

theorem lacks_iff : (!info.endpoints.isEmpty && (info.endpoint b.endpoint).isNone) = true ↔
    info.Lacks b.endpoint := by
  simp [DeviceInfo.Lacks]

theorem map_key_statedSteps (d : Definition) (info : DeviceInfo) :
    (statedSteps d info).map ConfigureStep.key = statedKeys d info := by
  rw [statedSteps,statedKeys,List.map_flatMap]
  induction d.bindings with
  | nil => rfl
  | cons b bs ih =>
    rw [List.flatMap_cons,List.filter_cons,ih]
    by_cases hlacks : info.Lacks b.endpoint
    · have hdropped : ¬ decide (¬ info.Lacks b.endpoint) = true := by simpa using hlacks
      rw [if_pos (lacks_iff.mpr hlacks),if_neg hdropped]
      rfl
    · have hkept : decide (¬ info.Lacks b.endpoint) = true := by simpa using hlacks
      rw [if_neg (mt lacks_iff.mp hlacks),if_pos hkept,List.flatMap_cons]
      congr 1
      rw [Binding.keys]
      split
      · rfl
      · simp [Binding.reportStep,Binding.key,ConfigureStep.key,Function.comp_def]

theorem mem_statedSteps (hb : b ∈ d.bindings) (hlacks : ¬ info.Lacks b.endpoint)
    (hr : r ∈ b.reporting) : b.reportStep d r ∈ statedSteps d info := by
  refine List.mem_flatMap.mpr ⟨b,hb,?_⟩
  rw [if_neg (mt lacks_iff.mp hlacks),if_neg (by simpa using List.ne_nil_of_mem hr)]
  exact List.mem_map.mpr ⟨r,hr,rfl⟩

/-- Nothing is stated for an endpoint the device lacks. -/
theorem not_lacks_of_mem_statedSteps {step : ConfigureStep} (h : step ∈ statedSteps d info) :
    ¬ info.Lacks step.endpoint := by
  obtain ⟨b,-,hstep⟩ := List.mem_flatMap.mp h
  split at hstep
  · cases hstep
  · rename_i hpresent
    have hb : ¬ info.Lacks b.endpoint := mt lacks_iff.mpr hpresent
    split at hstep
    · rwa [List.mem_singleton.mp hstep]
    · obtain ⟨r,-,rfl⟩ := List.mem_map.mp hstep
      exact hb

end Stated

section Once
variable {d : Definition} {info : DeviceInfo}

/-- The intervals of a step are the stated ones. -/
def ConfigureStep.Carries (step : ConfigureStep) (r : Reporting) : Prop :=
  step.minInterval = r.minInterval ∧ step.maxInterval = r.maxInterval

/-- No two steps are for the same, and where an interval is stated the step there is carries it;
there is one unless the device lacks the endpoint. -/
structure ConfiguresOnce (d : Definition) (info : DeviceInfo) : Prop where
  once : ((configurePlan d info).map ConfigureStep.key).Nodup
  stated : ∀ b ∈ d.bindings, ∀ r ∈ b.reporting, ∀ step ∈ configurePlan d info,
    step.key = b.key r → step.Carries r
  present : ∀ b ∈ d.bindings, ¬ info.Lacks b.endpoint → ∀ r ∈ b.reporting,
    ∃ step ∈ configurePlan d info, step.key = b.key r

/-- A source's reporting falls back on an endpoint the device lacks, where an interval is stated
for it: the first endpoint, when none has the cluster. -/
def FallsBack (d : Definition) (info : DeviceInfo) (b : Binding) (r : Reporting) : Prop :=
  info.Lacks b.endpoint ∧ b.endpoint = ⟨1⟩ ∧ info.endpointWithInput b.cluster = none ∧
    ∃ s ∈ sources d, s.cluster = b.cluster ∧ s.attr = r.attr

/-- The default intervals, which a source's reporting has. -/
def Reporting.Default (r : Reporting) : Prop :=
  r.minInterval = defaultMinInterval ∧ r.maxInterval = defaultMaxInterval

theorem Source.step_carries_iff (s : Source) (r : Reporting) :
    (s.step info).Carries r ↔ r.Default := by
  simp [ConfigureStep.Carries,Source.step,Reporting.Default,eq_comm]

/-- An endpoint that has the cluster is one of the device's. -/
theorem endpoint_of_endpointWithInput {cluster : ClusterId} {e : EndpointInfo}
    (h : info.endpointWithInput cluster = some e) : ¬ info.Lacks e.id := by
  rintro ⟨-,hnone⟩
  have hmem := List.mem_of_find?_eq_some h
  simpa using List.find?_eq_none.mp hnone e hmem

theorem fallsBack_iff {b : Binding} {r : Reporting} : FallsBack d info b r ↔
    info.Lacks b.endpoint ∧ ∃ s ∈ sources d, (s.step info).key = b.key r := by
  rw [FallsBack]
  refine and_congr_right fun hlacks => ?_
  constructor
  · rintro ⟨hfirst,hnone,s,hs,hcluster,hattr⟩
    refine ⟨s,hs,?_⟩
    simp [ConfigureStep.key,Source.step,Binding.key,hcluster,hattr,hnone,hfirst]
  · rintro ⟨s,hs,hkey⟩
    simp only [ConfigureStep.key,Source.step,Binding.key,Prod.mk.injEq,Option.some.injEq] at hkey
    obtain ⟨hendpoint,hcluster,hattr⟩ := hkey
    rw [hcluster] at hendpoint
    cases hinput : info.endpointWithInput b.cluster with
    | none =>
      rw [hinput] at hendpoint
      exact ⟨hendpoint.symm,rfl,s,hs,hcluster,hattr⟩
    | some e =>
      rw [hinput] at hendpoint
      exact absurd hlacks (hendpoint ▸ endpoint_of_endpointWithInput hinput)

/-- A plan configures nothing twice exactly when no two of the device's bindings are for the same,
and no reporting that falls back has other intervals stated than the default ones. -/
theorem configuresOnce_iff (d : Definition) (info : DeviceInfo) : ConfiguresOnce d info ↔
    (statedKeys d info).Nodup ∧
      ∀ b ∈ d.bindings, ∀ r ∈ b.reporting, FallsBack d info b r → r.Default := by
  have hkeys := map_key_statedSteps d info
  constructor
  · intro h
    have honce := h.once
    rw [configurePlan,List.map_append,hkeys] at honce
    refine ⟨(List.nodup_append.mp honce).1,fun b hb r hr hfalls => ?_⟩
    obtain ⟨hlacks,s,hs,hkey⟩ := fallsBack_iff.mp hfalls
    obtain ⟨step,hstep,hsame⟩ := configurePlan_covers d info hs
    have hcarries := h.stated b hb r hr step hstep (hsame.trans hkey)
    rcases List.mem_append.mp hstep with hstated | himplied
    · have hendpoint : step.endpoint = b.endpoint := congrArg Prod.fst (hsame.trans hkey)
      exact absurd hlacks (hendpoint ▸ not_lacks_of_mem_statedSteps hstated)
    · obtain ⟨-,s',-,rfl⟩ := mem_impliedSteps himplied
      exact (s'.step_carries_iff r).mp hcarries
  · rintro ⟨hnodup,hdefault⟩
    have hown : ∀ b ∈ d.bindings, ¬ info.Lacks b.endpoint → ∀ r ∈ b.reporting,
        b.reportStep d r ∈ statedSteps d info :=
      fun b hb hlacks r hr => mem_statedSteps hb hlacks hr
    refine ⟨?_,fun b hb r hr step hstep hkey => ?_,fun b hb hlacks r hr =>
      ⟨_,List.mem_append_left _ (hown b hb hlacks r hr),rfl⟩⟩
    · rw [configurePlan,List.map_append,List.nodup_append]
      refine ⟨hkeys ▸ hnodup,impliedSteps_nodup _ _,?_⟩
      rintro k hk _ himplied rfl
      obtain ⟨step,hstep,rfl⟩ := List.mem_map.mp himplied
      exact (mem_impliedSteps hstep).1 hk
    · have hendpoint : step.endpoint = b.endpoint := congrArg Prod.fst hkey
      rcases List.mem_append.mp hstep with hstated | himplied
      · have hlacks := not_lacks_of_mem_statedSteps hstated
        have hsame := List.inj_on_of_nodup_map (hkeys ▸ hnodup) hstated
          (hown b hb (hendpoint ▸ hlacks) r hr) hkey
        rw [hsame]
        exact ⟨rfl,rfl⟩
      · obtain ⟨hnew,s,hs,rfl⟩ := mem_impliedSteps himplied
        by_cases hlacks : info.Lacks b.endpoint
        · exact (s.step_carries_iff r).mpr
            (hdefault b hb r hr (fallsBack_iff.mpr ⟨hlacks,s,hs,hkey⟩))
        · exact absurd (List.mem_map.mpr ⟨_,hown b hb hlacks r hr,hkey.symm⟩) hnew

end Once

section Twice

/-- A binding stated again, with other intervals. -/
def boundTwice : Definition where
  bindings := [⟨⟨1⟩,⟨0x0402⟩,[⟨⟨0x0000⟩,10,300,0⟩]⟩,⟨⟨1⟩,⟨0x0402⟩,[⟨⟨0x0000⟩,60,3600,0⟩]⟩]

theorem boundTwice_configured : ¬ ∀ (d : Definition) (info : DeviceInfo),
    ConfiguresOnce d info := by
  intro h
  have honce := (h boundTwice (.new ⟨1⟩ ⟨0x1234⟩ .endDevice)).once
  revert honce
  decide

end Twice
end Rszigbee
