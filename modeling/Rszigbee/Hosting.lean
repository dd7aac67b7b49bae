import Rszigbee.Plans

/-! Which endpoints a plan names. A source's reporting goes to the first endpoint with its cluster,
and where none has it to the first endpoint there could be; the gangs a switch declares are not
asked for. -/
namespace Rszigbee

/-- An interval is stated for the attribute there. -/
def Definition.States (d : Definition) (endpoint : EndpointId) (cluster : ClusterId)
    (attr : AttrId) : Prop :=
  ∃ b ∈ d.bindings, b.endpoint = endpoint ∧ b.cluster = cluster ∧ ∃ r ∈ b.reporting, r.attr = attr

/-- The endpoint is one of the device's, and serves the cluster. -/
def DeviceInfo.Hosts (info : DeviceInfo) (id : EndpointId) (cluster : ClusterId) : Prop :=
  ∃ e ∈ info.endpoints, e.id = id ∧ e.hasInput cluster = true

section Keys
variable {d : Definition} {info : DeviceInfo} {endpoint : EndpointId} {cluster : ClusterId}
  {attr : AttrId}

theorem mem_keys_iff {b : Binding} : (endpoint,cluster,some attr) ∈ b.keys ↔
    b.endpoint = endpoint ∧ b.cluster = cluster ∧ ∃ r ∈ b.reporting, r.attr = attr := by
  rw [Binding.keys]
  cases hreporting : b.reporting with
  | nil => simp
  | cons r rs => simp [Binding.key,Prod.ext_iff,and_left_comm,eq_comm]; tauto

theorem mem_statedKeys_iff : (endpoint,cluster,some attr) ∈ statedKeys d info ↔
    ¬ info.Lacks endpoint ∧ d.States endpoint cluster attr := by
  simp only [statedKeys,List.mem_flatMap,List.mem_filter,decide_eq_true_eq,mem_keys_iff,
    Definition.States]
  constructor
  · rintro ⟨b,⟨hb,hlacks⟩,rfl,rfl,hr⟩
    exact ⟨hlacks,b,hb,rfl,rfl,hr⟩
  · rintro ⟨hlacks,b,hb,rfl,rfl,hr⟩
    exact ⟨b,⟨hb,hlacks⟩,rfl,rfl,hr⟩

/-- A plan is for what is stated, and for every source. -/
theorem mem_plan_keys_iff {k : EndpointId × ClusterId × Option AttrId} :
    k ∈ (configurePlan d info).map ConfigureStep.key ↔
      k ∈ statedKeys d info ∨ ∃ s ∈ sources d, (s.step info).key = k := by
  constructor
  · intro h
    obtain ⟨step,hstep,rfl⟩ := List.mem_map.mp h
    rcases List.mem_append.mp hstep with hstated | himplied
    · exact .inl (map_key_statedSteps d info ▸ List.mem_map_of_mem hstated)
    · obtain ⟨-,s,hs,rfl⟩ := mem_impliedSteps himplied
      exact .inr ⟨s,hs,rfl⟩
  · rintro (h | ⟨s,hs,rfl⟩)
    · rw [configurePlan,List.map_append,map_key_statedSteps]
      exact List.mem_append_left _ h
    · obtain ⟨step,hstep,hkey⟩ := configurePlan_covers d info hs
      exact hkey ▸ List.mem_map_of_mem hstep

theorem hosts_of_endpointWithInput {e : EndpointInfo}
    (h : info.endpointWithInput cluster = some e) : info.Hosts e.id cluster :=
  ⟨e,List.mem_of_find?_eq_some h,rfl,by simpa using List.find?_some h⟩

theorem not_hosts_of_endpointWithInput (h : info.endpointWithInput cluster = none) :
    ¬ info.Hosts endpoint cluster := by
  rintro ⟨e,he,-,hinput⟩
  simpa [hinput] using List.find?_eq_none.mp h e he

theorem not_lacks_iff (hknown : info.endpoints ≠ []) :
    ¬ info.Lacks endpoint ↔ ∃ e ∈ info.endpoints, e.id = endpoint := by
  simp [DeviceInfo.Lacks,DeviceInfo.endpoint,hknown]

end Keys

section Own
variable {d : Definition} {info : DeviceInfo}

/-- What a plan adds to the stated steps. -/
def impliedPlan (d : Definition) (info : DeviceInfo) : List ConfigureStep :=
  impliedSteps info ((statedSteps d info).map ConfigureStep.key) (sources d)

/-- Every step is for an endpoint of the device, and what is implied is for one that serves the
cluster. -/
structure NamesOwn (d : Definition) (info : DeviceInfo) : Prop where
  own : ∀ step ∈ configurePlan d info, ∃ e ∈ info.endpoints, e.id = step.endpoint
  serves : ∀ step ∈ impliedPlan d info, info.Hosts step.endpoint step.cluster

theorem Source.step_hosts_iff (s : Source) : info.Hosts (s.step info).endpoint s.cluster ↔
    info.endpointWithInput s.cluster ≠ none := by
  cases hinput : info.endpointWithInput s.cluster with
  | none => simpa using not_hosts_of_endpointWithInput hinput
  | some e => simpa [Source.step,hinput] using hosts_of_endpointWithInput hinput

/-- A plan keeps to the endpoints of a device exactly when every source whose cluster none of them
serves has an interval stated on the first endpoint there could be, and the device has that one. -/
theorem namesOwn_iff (d : Definition) {info : DeviceInfo} (hknown : info.endpoints ≠ []) :
    NamesOwn d info ↔ ∀ s ∈ sources d, info.endpointWithInput s.cluster = none →
      (info.endpoint ⟨1⟩).isSome ∧ d.States ⟨1⟩ s.cluster s.attr := by
  have hfirst : (info.endpoint ⟨1⟩).isSome ↔ ¬ info.Lacks ⟨1⟩ := by
    simp [DeviceInfo.Lacks,hknown,Option.isSome_iff_ne_none]
  constructor
  · intro h s hs hnone
    rw [hfirst,← mem_statedKeys_iff]
    have hkey : (s.step info).key = (⟨1⟩,s.cluster,some s.attr) := by
      simp [ConfigureStep.key,Source.step,hnone]
    by_contra hnew
    have hcover := impliedSteps_cover info ((statedSteps d info).map ConfigureStep.key) hs
    rw [map_key_statedSteps,hkey,List.mem_append] at hcover
    obtain ⟨step,hstep,hsame⟩ := List.mem_map.mp (hcover.resolve_left hnew)
    have hcluster : step.cluster = s.cluster := congrArg (fun k => k.2.1) hsame
    have hserves := h.serves step (by rwa [impliedPlan,map_key_statedSteps])
    exact not_hosts_of_endpointWithInput hnone (hcluster ▸ hserves)
  · intro h
    have hserves : ∀ step ∈ impliedPlan d info, info.Hosts step.endpoint step.cluster := by
      intro step hstep
      obtain ⟨hnew,s,hs,rfl⟩ := mem_impliedSteps hstep
      rw [map_key_statedSteps] at hnew
      refine s.step_hosts_iff.mpr fun hnone => hnew ?_
      have hkey : (s.step info).key = (⟨1⟩,s.cluster,some s.attr) := by
        simp [ConfigureStep.key,Source.step,hnone]
      rw [hkey,mem_statedKeys_iff,← hfirst]
      exact h s hs hnone
    refine ⟨fun step hstep => ?_,hserves⟩
    rcases List.mem_append.mp hstep with hstated | himplied
    · exact (not_lacks_iff hknown).mp (not_lacks_of_mem_statedSteps hstated)
    · obtain ⟨e,he,hid,-⟩ := hserves step himplied
      exact ⟨e,he,hid⟩

/-- A thermometer whose one endpoint reports nothing but its basics. -/
def bareThermometer : DeviceInfo :=
  { DeviceInfo.new ⟨1⟩ ⟨0x1234⟩ .endDevice with endpoints := [⟨⟨2⟩,⟨0x0104⟩,0x0302,[⟨0x0000⟩],[]⟩] }

def thermometer : Definition where
  extend := [.temperature {}]

theorem namesOwn_iff_bare : NamesOwn thermometer bareThermometer ↔
    ∀ s ∈ sources thermometer, bareThermometer.endpointWithInput s.cluster = none →
      (bareThermometer.endpoint ⟨1⟩).isSome ∧ thermometer.States ⟨1⟩ s.cluster s.attr :=
  namesOwn_iff thermometer (by decide)

/-- Its temperature is to be configured on an endpoint it does not have. -/
theorem thermometer_names_other : ¬ ∀ (d : Definition) (info : DeviceInfo),
    info.endpoints ≠ [] → NamesOwn d info := by
  intro h
  have hown := (h thermometer bareThermometer (by decide)).own
  revert hown
  decide

end Own

section Gangs
variable {d : Definition} {info : DeviceInfo}

/-- The on/off attribute. -/
def AttrId.onOff : AttrId := ⟨0x0000⟩

/-- A step for the on/off attribute of the endpoint, with a type to configure it by. -/
def ReportsOnOff (plan : List ConfigureStep) (gang : EndpointId) : Prop :=
  ∃ step ∈ plan, step.key = (gang,.onOff,some .onOff) ∧ step.attrType.isSome

theorem state_mem_sources {declared : List EndpointId} (h : .onOff declared ∈ d.extend) :
    Source.boolean "state" 0x0006 .bool ∈ sources d :=
  List.mem_flatMap.mpr ⟨_,h,List.mem_singleton_self _⟩

/-- With the attribute among the sources, every step for it has a type. -/
theorem attrType_isSome {s : Source} (hs : s ∈ sources d) {step : ConfigureStep}
    (hstep : step ∈ configurePlan d info)
    (hkey : step.cluster = s.cluster ∧ step.attr = some s.attr) : step.attrType.isSome := by
  rcases List.mem_append.mp hstep with hstated | himplied
  · obtain ⟨b,-,hb⟩ := List.mem_flatMap.mp hstated
    split at hb
    · cases hb
    · split at hb
      · rw [List.mem_singleton.mp hb] at hkey
        simp [Binding.bareStep] at hkey
      · obtain ⟨r,-,rfl⟩ := List.mem_map.mp hb
        simp only [Binding.reportStep,Option.some.injEq] at hkey
        simp only [Binding.reportStep,Option.isSome_map,firstOn,List.find?_isSome]
        exact ⟨s,hs,by simp [hkey]⟩
  · obtain ⟨-,s',-,rfl⟩ := mem_impliedSteps himplied
    rfl

/-- Every gang is reported exactly when each is the device's first endpoint with on/off, or has the
interval stated. -/
theorem gangs_reported_iff {d : Definition} {info : DeviceInfo} {declared : List EndpointId}
    (hextend : .onOff declared ∈ d.extend)
    (hhosts : ∀ gang ∈ declared, info.Hosts gang .onOff) :
    (∀ gang ∈ declared, ReportsOnOff (configurePlan d info) gang) ↔
      ∀ gang ∈ declared, (info.endpointWithInput .onOff).map EndpointInfo.id = some gang ∨
        d.States gang .onOff .onOff := by
  have hstate := state_mem_sources hextend
  refine forall₂_congr fun gang hgang => ?_
  have hhas : ¬ info.Lacks gang := by
    obtain ⟨e,he,hid,-⟩ := hhosts gang hgang
    exact (not_lacks_iff (List.ne_nil_of_mem he)).mpr ⟨e,he,hid⟩
  have hreports : ReportsOnOff (configurePlan d info) gang ↔
      (gang,.onOff,some .onOff) ∈ (configurePlan d info).map ConfigureStep.key := by
    constructor
    · rintro ⟨step,hstep,hkey,-⟩
      exact hkey ▸ List.mem_map_of_mem hstep
    · intro h
      obtain ⟨step,hstep,hkey⟩ := List.mem_map.mp h
      simp only [ConfigureStep.key,Prod.mk.injEq] at hkey
      exact ⟨step,hstep,by simp [ConfigureStep.key,hkey],attrType_isSome hstate hstep hkey.2⟩
  obtain ⟨e,hfirst⟩ : ∃ e, info.endpointWithInput .onOff = some e := by
    obtain ⟨e,he,-,hinput⟩ := hhosts gang hgang
    exact Option.isSome_iff_exists.mp (List.find?_isSome.mpr ⟨e,he,hinput⟩)
  rw [hreports,mem_plan_keys_iff,mem_statedKeys_iff,and_iff_right hhas,or_comm,hfirst]
  refine or_congr_left ?_
  constructor
  · rintro ⟨s,-,hkey⟩
    simp only [ConfigureStep.key,Source.step,Prod.mk.injEq] at hkey
    simpa [hkey.2.1,hfirst] using hkey.1
  · intro hid
    refine ⟨_,hstate,?_⟩
    have hcluster : (Source.boolean "state" 0x0006 .bool).cluster = .onOff := rfl
    simp only [ConfigureStep.key,Source.step,hcluster,hfirst]
    simpa [Source.boolean,AttrId.onOff] using hid

/-- Two gangs, and a device that has both. -/
def twoGangs : Definition where
  extend := [.onOff [⟨1⟩,⟨2⟩]]

def twoGangDevice : DeviceInfo :=
  { DeviceInfo.new ⟨1⟩ ⟨0x1234⟩ .router with
    endpoints := [⟨⟨1⟩,⟨0x0104⟩,0x0100,[.onOff],[]⟩,⟨⟨2⟩,⟨0x0104⟩,0x0100,[.onOff],[]⟩] }

theorem twoGangs_hosted : ∀ gang ∈ [(⟨1⟩ : EndpointId),⟨2⟩], twoGangDevice.Hosts gang .onOff := by
  simp [twoGangDevice,DeviceInfo.Hosts,EndpointInfo.hasInput]

theorem gangs_reported_iff_two :
    (∀ gang ∈ [(⟨1⟩ : EndpointId),⟨2⟩], ReportsOnOff (configurePlan twoGangs twoGangDevice) gang) ↔
      ∀ gang ∈ [(⟨1⟩ : EndpointId),⟨2⟩],
        (twoGangDevice.endpointWithInput .onOff).map EndpointInfo.id = some gang ∨
          twoGangs.States gang .onOff .onOff :=
  gangs_reported_iff List.mem_cons_self twoGangs_hosted

/-- The second gang is not reported. -/
theorem second_gang_unreported : ¬ ∀ (d : Definition) (info : DeviceInfo)
    (declared : List EndpointId), .onOff declared ∈ d.extend → declared ≠ [] →
      (∀ gang ∈ declared, info.Hosts gang .onOff) →
      ∀ gang ∈ declared, ReportsOnOff (configurePlan d info) gang := by
  intro h
  obtain ⟨step,hstep,hkey,-⟩ :=
    h twoGangs twoGangDevice [⟨1⟩,⟨2⟩] List.mem_cons_self (by decide) twoGangs_hosted ⟨2⟩ (by simp)
  have hnone : ∀ step ∈ configurePlan twoGangs twoGangDevice, step.endpoint ≠ ⟨2⟩ := by decide
  exact hnone step hstep (congrArg Prod.fst hkey)

end Gangs
end Rszigbee
