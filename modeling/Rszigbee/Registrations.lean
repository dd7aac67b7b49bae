import Rszigbee.Datapoints
import Rszigbee.Index
import Rszigbee.Liveness
import Rszigbee.Settings

/-! The clusters registered for single devices, beside those their definitions declare.
They are registered at a start and when an interview is over; a definition is resolved again
whenever it is asked for. -/
namespace Rszigbee

section Matching

/-- The facts a definition is matched on, from what interviews learned. -/
def deviceMatch (info : DeviceInfo) : DeviceMatch where
  modelId := info.basic.modelId
  manufacturerName := info.basic.manufacturerName
  applicationVersion := info.basic.appVersion
  stackVersion := info.basic.stackVersion
  zclVersion := info.basic.zclVersion
  hardwareVersion := info.basic.hardwareVersion
  dateCode := info.basic.dateCode
  softwareBuildId := info.basic.softwareBuildId
  ieee := some info.ieee
  endpoints := info.endpoints.map fun e => {
    id := e.id
    profile := some e.profile
    deviceId := some e.deviceId
    inputClusters := e.inputClusters
    outputClusters := e.outputClusters }

/-- The engine of a definition index. -/
def Engine.ofIndex (lower : String → String) (index : DefinitionIndex) (debug : DebugText)
    (tuya : TuyaSide) : Engine :=
  .ofDefinitions (fun info => index.resolve lower (deviceMatch info)) debug tuya

/-- Without a model nothing is resolved. -/
theorem DefinitionIndex.resolve_unnamed (lower : String → String) (index : DefinitionIndex)
    {device : DeviceMatch} (h : device.modelId = none) : index.resolve lower device = none := by
  rw [resolve,h]
  rfl

end Matching

namespace ClusterRegistry

/-- What a device has of its own under a cluster id. -/
def own (r : ClusterRegistry) (ieee : Ieee) (id : ClusterId) : Option ClusterDef :=
  (r.perDevice.lookup ieee).bind fun own => own.lookup id.raw

theorem own_insertForDevice (r : ClusterRegistry) (ieee : Ieee) (c : ClusterDef) (j : Ieee)
    (id : ClusterId) : (r.insertForDevice ieee c).own j id =
      if j = ieee ∧ id = c.id then some c else r.own j id := by
  have hid : id.raw = c.id.raw ↔ id = c.id := by
    cases id
    cases c.id
    simp
  rw [own,insertForDevice]
  dsimp only
  rw [Table.lookup_insert_eq]
  by_cases hj : j = ieee
  · subst hj
    rw [if_pos rfl,Option.bind_some,Table.lookup_insert_eq,own]
    simp only [hid,true_and]
    split
    · rfl
    · cases r.perDevice.lookup j <;> rfl
  · rw [if_neg hj,if_neg fun h => hj h.1,own]

end ClusterRegistry

/-- The last of the clusters with an id: each replaces those before it. -/
def lastWith (id : ClusterId) (cs : List ClusterDef) : Option ClusterDef :=
  cs.reverse.find? fun c => c.id = id

/-- Registering a list for one device puts its last cluster of each id in place. -/
theorem own_foldl (ieee : Ieee) (cs : List ClusterDef) (r : ClusterRegistry) (j : Ieee)
    (id : ClusterId) : (cs.foldl (fun r c => r.insertForDevice ieee c) r).own j id =
      if j = ieee then (lastWith id cs).or (r.own j id) else r.own j id := by
  induction cs generalizing r with
  | nil => simp [lastWith]
  | cons c cs ih =>
    rw [List.foldl_cons,ih,ClusterRegistry.own_insertForDevice]
    by_cases hj : j = ieee
    · have hlast : lastWith id (c::cs) =
          (lastWith id cs).or (if id = c.id then some c else none) := by
        rw [lastWith,lastWith,List.reverse_cons,List.find?_append]
        by_cases hid : id = c.id
        · simp [hid]
        · simp [hid,Ne.symm hid]
      rw [if_pos hj,if_pos hj,hlast]
      by_cases hid : id = c.id
      · rw [if_pos ⟨hj,hid⟩,if_pos hid]
        cases lastWith id cs <;> rfl
      · rw [if_neg fun h => hid h.2,if_neg hid]
        cases lastWith id cs <;> rfl
    · rw [if_neg hj,if_neg hj,if_neg fun h => hj h.1]

/-- What a definition declares under a cluster id, if there is a definition. -/
def declared (definition : Option Definition) (id : ClusterId) : Option ClusterDef :=
  definition.bind fun d => lastWith id (customClusters d)

section Following

variable {lower : String → String} {index : DefinitionIndex} {debug : DebugText} {tuya : TuyaSide}

/-- The definition an entry's facts resolve to. -/
def Entry.definition (lower : String → String) (index : DefinitionIndex) (e : Entry) :
    Option Definition := index.resolve lower (deviceMatch e.info)

theorem durable_definition : Durable (Entry.definition lower index) where
  mark m e := by
    cases m with
    | transmitted time result => cases result <;> rfl
    | _ => rfl
  verdict a e := rfl
  nwk n e := rfl

namespace Task

variable {t : Task (Engine.ofIndex lower index debug tuya)}

/-- The definition a device resolves to. -/
def definitionOf (t : Task (Engine.ofIndex lower index debug tuya)) (j : Ieee) :
    Option Definition := t.resolve j

/-- A device has a cluster of its own exactly where its definition declares one, and it is that
one. -/
def FollowsDefinitions (t : Task (Engine.ofIndex lower index debug tuya)) : Prop :=
  ∀ j id, t.registry.own j id = declared (t.definitionOf j) id

/-- No device leaves whose definition declares clusters, and no interview ends with a
definition that declares fewer than the one before. -/
def KeepsClusters (t : Task (Engine.ofIndex lower index debug tuya)) :
    Input (Engine.ofIndex lower index debug tuya) → Prop
  | .event (.deviceLeft ieee nwk) _ _ => ∀ a, (ieee <|> nwk.bind t.devices.resolve) = some a →
    ∀ id, declared (t.definitionOf a) id = none
  | .request (.interviewUpdate ieee (.finished outcome)) _ => ∀ e, t.devices.get ieee = some e →
    ∀ id, (declared (t.definitionOf ieee) id).isSome = true →
      (declared ((finishInterview outcome e).definition lower index) id).isSome = true
  | _ => True

theorem definitionOf_eq (t : Task (Engine.ofIndex lower index debug tuya)) (j : Ieee) :
    t.definitionOf j = (t.devices.get j).bind (Entry.definition lower index) := rfl

theorem definition_finished (outcome : InterviewOutcome) (e : Entry) :
    (updated (Engine.ofIndex lower index debug tuya) (.finished outcome) e).definition lower index =
      (finishInterview outcome e).definition lower index := by
  dsimp only [updated,withMetadata]
  split
  · rfl
  · split <;> rfl

/-- What an interview tells before it is over has no part in the matching. -/
theorem definition_unfinished {update : InterviewUpdate} (h : ∀ outcome, update ≠ .finished outcome)
    (e : Entry) : (updated (Engine.ofIndex lower index debug tuya) update e).definition lower index =
      e.definition lower index := by
  cases update with
  | finished outcome => exact absurd rfl (h outcome)
  | _ => rfl

theorem definitionOf_step (hrun : t.stopped = false)
    (i : Input (Engine.ofIndex lower index debug tuya)) (j : Ieee) :
    (t.step i).definitionOf j = (t.entryAfter i j).bind (Entry.definition lower index) := by
  have hfact := fact_step (@durable_definition lower index) hrun i j
  have hjoin (o : Option Entry) : o.bind (Entry.definition lower index) =
      (o.map (Entry.definition lower index)).join := by
    cases o <;> rfl
  rw [definitionOf_eq,hjoin,hjoin,hfact]

/-- What a device has of its own once an interview is over. -/
theorem own_registryAfter (t : Task (Engine.ofIndex lower index debug tuya)) (ieee : Ieee)
    (outcome : InterviewOutcome) (j : Ieee) (id : ClusterId) :
    ClusterRegistry.own (t.registryAfter ieee outcome) j id =
      if j = ieee then
        (declared ((t.devices.get ieee).bind fun e =>
          (finishInterview outcome e).definition lower index) id).or (t.registry.own j id)
      else t.registry.own j id := by
  have hresolve : ((t.devices.get ieee).bind fun e => (Engine.ofIndex lower index debug tuya).resolve
      (finishInterview outcome e).info) = (t.devices.get ieee).bind fun e =>
        (finishInterview outcome e).definition lower index := rfl
  rw [registryAfter,hresolve]
  cases (t.devices.get ieee).bind fun e => (finishInterview outcome e).definition lower index with
  | none => exact (ite_self _).symm
  | some d => exact own_foldl ieee (customClusters d) t.registry j id

/-- An interview that is over keeps the clusters right where none is declared no more. -/
theorem follows_finished (hrun : t.stopped = false) (h : t.FollowsDefinitions) (ieee : Ieee)
    (outcome : InterviewOutcome) (env : ℕ → Env) :
    (t.step (.request (.interviewUpdate ieee (.finished outcome)) env)).FollowsDefinitions ↔
      t.KeepsClusters (.request (.interviewUpdate ieee (.finished outcome)) env) := by
  have hregistry : (t.step (.request (.interviewUpdate ieee (.finished outcome)) env)).registry =
      t.registryAfter ieee outcome := by
    have hstep : t.step (.request (.interviewUpdate ieee (.finished outcome)) env) = { t with
        requests := t.requests ++ [Request.interviewUpdate ieee (.finished outcome)]
        }.applyInterviewUpdate ieee (.finished outcome) env := by
      simp [step,hrun,handleRequest]
    rw [hstep]
    exact registry_finished { t with requests := _ } ieee outcome env
  have hother {j : Ieee} (hj : j ≠ ieee) (id : ClusterId) :
      ClusterRegistry.own (t.registryAfter ieee outcome) j id = declared ((t.entryAfter
        (.request (.interviewUpdate ieee (.finished outcome)) env) j).bind
          (Entry.definition lower index)) id := by
    rw [own_registryAfter,if_neg hj,entryAfter,if_neg hj]
    exact h j id
  have hthis {e : Entry} (he : t.devices.get ieee = some e) (id : ClusterId) :
      (ClusterRegistry.own (t.registryAfter ieee outcome) ieee id = declared ((t.entryAfter
        (.request (.interviewUpdate ieee (.finished outcome)) env) ieee).bind
          (Entry.definition lower index)) id) ↔
      ((declared (t.definitionOf ieee) id).isSome = true →
        (declared ((finishInterview outcome e).definition lower index) id).isSome = true) := by
    rw [own_registryAfter,if_pos rfl,h ieee id,entryAfter_update he,he,Option.bind_some,
      Option.bind_some,definition_finished]
    cases declared ((finishInterview outcome e).definition lower index) id <;>
      cases declared (t.definitionOf ieee) id <;> simp
  rw [FollowsDefinitions,hregistry]
  simp only [definitionOf_step hrun]
  constructor
  · intro hfollows e he id
    exact (hthis he id).mp (hfollows ieee id)
  · intro hkeeps j id
    by_cases hj : j = ieee
    · subst hj
      cases hget : t.devices.get j with
      | some e => exact (hthis hget id).mpr (hkeeps e hget id)
      | none =>
        rw [own_registryAfter,if_pos rfl,h j id,definitionOf_eq,entryAfter,if_pos rfl,hget]
        rfl
    · exact hother hj id

/-- One turn keeps the clusters of every device right exactly when its input keeps them. -/
theorem follows_step (hrun : t.stopped = false) (h : t.FollowsDefinitions)
    (i : Input (Engine.ofIndex lower index debug tuya)) :
    (t.step i).FollowsDefinitions ↔ t.KeepsClusters i := by
  by_cases hfinished : ∃ ieee outcome env, i = .request (.interviewUpdate ieee (.finished outcome)) env
  · obtain ⟨ieee,outcome,env,rfl⟩ := hfinished
    exact follows_finished hrun h ieee outcome env
  · have hregistry : (t.step i).registry = t.registry :=
      registry_step fun ieee outcome env hi => hfinished ⟨ieee,outcome,env,hi⟩
    rw [FollowsDefinitions,hregistry]
    simp only [definitionOf_step hrun]
    constructor
    · intro hfollows
      cases i with
      | event event origin env =>
        cases event with
        | deviceLeft ieee nwk =>
          intro a ha id
          have hat := hfollows a id
          rw [entryAfter,if_pos ha] at hat
          rw [← h]
          exact hat
        | _ => trivial
      | request request env =>
        cases request with
        | interviewUpdate ieee update =>
          cases update with
          | finished outcome => exact absurd ⟨_,_,_,rfl⟩ hfinished
          | _ => trivial
        | _ => trivial
      | _ => trivial
    · intro hkeeps j id
      rw [h]
      cases hafter : t.entryAfter i j with
      | none =>
        rcases entryAfter_eq_none hafter with hnone | ⟨ieee,nwk,origin,env,rfl,hj⟩
        · rw [definitionOf_eq,hnone]
        · exact hkeeps j hj id
      | some e' =>
        rcases entryAfter_cases hafter with hkept | ⟨hnone,ieee,nwk,origin,env,rfl,-,rfl⟩ |
          ⟨update,env,e,rfl,he,rfl⟩
        · rw [definitionOf_eq,hkept]
        · have hunnamed : (newEntry j nwk (env 0).wall).definition lower index = none :=
            index.resolve_unnamed lower rfl
          rw [definitionOf_eq,hnone,Option.bind_some,hunnamed]
          rfl
        · rw [definitionOf_eq,he,Option.bind_some,Option.bind_some,definition_unfinished]
          rintro outcome rfl
          exact hfinished ⟨_,_,_,rfl⟩

section Starting

variable {config : TaskConfig (Engine.ofIndex lower index debug tuya)}

theorem own_registerCustomClusters (t : Task (Engine.ofIndex lower index debug tuya)) (ieee j : Ieee)
    (id : ClusterId) : ClusterRegistry.own (t.registerCustomClusters ieee).registry j id =
      if j = ieee then (declared (t.definitionOf j) id).or (ClusterRegistry.own t.registry j id)
      else ClusterRegistry.own t.registry j id := by
  rw [definitionOf,registerCustomClusters]
  by_cases hj : j = ieee
  · subst hj
    rw [if_pos rfl]
    cases t.resolve j with
    | none => rfl
    | some d => exact (own_foldl j (customClusters d) t.registry j id).trans (if_pos rfl)
  · rw [if_neg hj]
    cases t.resolve ieee with
    | none => rfl
    | some d => exact (own_foldl ieee (customClusters d) t.registry j id).trans (if_neg hj)

/-- Registering for one device after the other leaves each with what its definition declares. -/
theorem own_registerAll (ieees : List Ieee) (t : Task (Engine.ofIndex lower index debug tuya))
    (j : Ieee) (id : ClusterId) :
    ClusterRegistry.own (ieees.foldl registerCustomClusters t).registry j id =
      if j ∈ ieees then (declared (t.definitionOf j) id).or (ClusterRegistry.own t.registry j id)
      else ClusterRegistry.own t.registry j id := by
  induction ieees generalizing t with
  | nil => rfl
  | cons ieee ieees ih =>
    have hdefinition : (t.registerCustomClusters ieee).definitionOf j = t.definitionOf j := by
      rw [definitionOf_eq,devices_registerCustomClusters,definitionOf_eq]
    rw [List.foldl_cons,ih,hdefinition,own_registerCustomClusters]
    by_cases hj : j = ieee
    · rw [if_pos hj,if_pos (List.mem_cons.mpr (.inl hj))]
      split
      · cases declared (t.definitionOf j) id <;> rfl
      · rfl
    · have hmem : j ∈ ieee::ieees ↔ j ∈ ieees := by simp [hj]
      rw [if_neg hj]
      simp only [hmem]

/-- A started task has the clusters its devices' definitions declare, before those it was
given. -/
theorem own_start (config : TaskConfig (Engine.ofIndex lower index debug tuya)) (env : Env)
    (j : Ieee) (id : ClusterId) : ClusterRegistry.own (start config env).registry j id =
      (declared ((start config env).definitionOf j) id).or
        (ClusterRegistry.own config.registry j id) := by
  let t := (Task.new config).registerCoordinator env
  have hdevices : (start config env).devices = t.devices :=
    congrArg View.devices (view_start config env)
  have hgiven : t.registry = config.registry :=
    (Task.new config).alters_registerCoordinator env .registry (by decide)
  let ieees := t.devices.all.map fun e => e.info.ieee
  have hregistry : (start config env).registry = (ieees.foldl registerCustomClusters t).registry :=
    alters_persistNetworkIfNeeded (ieees.foldl registerCustomClusters t) env .registry (by decide)
  rw [hregistry,own_registerAll,hgiven,definitionOf_eq,definitionOf_eq,hdevices]
  split
  · rfl
  · rename_i hout
    cases hget : t.devices.get j with
    | none => rfl
    | some e =>
      have hsound := inventory_sound_start config env
      rw [hdevices] at hsound
      refine absurd (List.mem_map.mpr ⟨e,Inventory.mem_all_of_get hget,?_⟩) hout
      exact hsound.keyed j e hget

theorem definitionOf_start (env : Env) (j : Ieee) : (start config env).definitionOf j =
    ((Inventory.new.restore config.devices).get j).bind (Entry.definition lower index) := by
  have hcoordinator : (coordinatorEntry config.coordinator env.wall).definition lower index = none :=
    index.resolve_unnamed lower rfl
  rw [definitionOf_eq,devices_start]
  split
  · rfl
  · rename_i hunknown
    rw [Inventory.insert_get]
    split
    · rename_i hj
      have hnone : (Inventory.new.restore config.devices).get j = none := by
        have hieee : (coordinatorEntry config.coordinator env.wall).info.ieee =
            config.coordinator := rfl
        rw [hj,hieee]
        simpa using hunknown
      rw [hnone,Option.bind_some,hcoordinator]
      rfl
    · rfl

end Starting

end Task

namespace System

/-- Whatever runs has registered what its devices' definitions declare, and nothing else. -/
def FollowsDefinitions : System (Engine.ofIndex lower index debug tuya) → Prop
  | off _ => True
  | on t => t.FollowsDefinitions

/-- While the loop runs its inputs keep the clusters right, and a start is not given clusters
for single devices that no restored device's definition declares. -/
def KeepsClusters (s : System (Engine.ofIndex lower index debug tuya))
    (input : SystemInput (Engine.ofIndex lower index debug tuya)) : Prop :=
  match s,input with
  | off store,.start builder answers => (∃ config, builder.start store answers = .ok config) →
    ∀ j id, (ClusterRegistry.own builder.registry j id).isSome = true →
      (declared (((Inventory.restored store).get j).bind
        (Entry.definition lower index)) id).isSome = true
  | on t,.task i => t.stopped = false → t.KeepsClusters i
  | _,_ => True

theorem follows_turn {s : System (Engine.ofIndex lower index debug tuya)}
    (input : SystemInput (Engine.ofIndex lower index debug tuya)) (h : s.FollowsDefinitions) :
    (s.step input).FollowsDefinitions ↔ s.KeepsClusters input := by
  cases s with
  | off store =>
    cases input with
    | start builder answers =>
      rw [step,KeepsClusters]
      cases hconfig : builder.start store answers with
      | ok config =>
        obtain ⟨-,hregistry⟩ := ZigbeeBuilder.start_settings hconfig
        obtain ⟨-,hdevices,-⟩ := ZigbeeBuilder.start_ok hconfig
        have hat (j : Ieee) (id : ClusterId) : (ClusterRegistry.own
            (Task.start config answers.startup).registry j id =
              declared ((Task.start config answers.startup).definitionOf j) id) ↔
            ((ClusterRegistry.own builder.registry j id).isSome = true →
              (declared (((Inventory.restored store).get j).bind
                (Entry.definition lower index)) id).isSome = true) := by
          rw [Task.own_start,hregistry,Task.definitionOf_start,hdevices,← Inventory.restored]
          cases declared (((Inventory.restored store).get j).bind
            (Entry.definition lower index)) id <;>
              cases ClusterRegistry.own builder.registry j id <;> simp
        dsimp only
        rw [FollowsDefinitions,Task.FollowsDefinitions]
        simp only [hat]
        exact (imp_iff_right ⟨config,rfl⟩).symm
      | error e => simp [FollowsDefinitions]
    | _ => exact iff_of_true trivial trivial
  | on t =>
    cases input with
    | task i =>
      rw [step,KeepsClusters]
      by_cases hstopped : t.stopped = true
      · rw [Task.step_stopped hstopped]
        exact iff_of_true h fun hrun => absurd hstopped (by simp [hrun])
      · have hrun : t.stopped = false := by simpa using hstopped
        rw [FollowsDefinitions,Task.follows_step hrun h i]
        exact (imp_iff_right hrun).symm
    | start builder answers => exact iff_of_true h trivial
    | crash => exact iff_of_true trivial trivial

/-- In a run from any stored records every device has exactly the clusters of its own that its
definition declares, exactly when none leaves or is interviewed whose clusters would have to
be dropped, and none is given to a start that its devices do not declare. -/
theorem custom_clusters_follow_iff (store : Store)
    (is : List (SystemInput (Engine.ofIndex lower index debug tuya))) :
    (∀ pre, pre <+: is → (Runs.run step (off store) pre).FollowsDefinitions) ↔
      Runs.Meets step KeepsClusters (off store) is :=
  Runs.always_iff_meets step (J := fun _ => True) (fun _ _ _ => trivial)
    (fun _ input _ hs => follows_turn input hs) (s := off store) trivial trivial is

end System
end Following

section Departure

/-- A valve with a cluster of its manufacturer's. -/
def customValve : Definition where
  model := "TRV"
  matchRules := { models := ["TRV"] }
  extend := [.addCustomCluster {
    name := "manuValve"
    id := ⟨0xfc00⟩
    manufacturer := none
    attributes := [(0x0000,"position",0x20)]
    commands := []
    responses := [] }]

/-- An index of that valve alone. -/
def valveIndex : DefinitionIndex := DefinitionIndex.insertAll id [customValve] {}

def valveEngine : Engine := .ofIndex id valveIndex ⟨fun _ => "",fun _ => ""⟩ (Tuya.side ∅)

def valve : PersistedDevice where
  ieee := ⟨0xa⟩
  nwk := ⟨0x1001⟩
  kind := .endDevice
  interview := .successful
  basic := { modelId := some "TRV" }

/-- The store of a network with such a valve. -/
def valveStored : Store := ⟨none,(∅ : Table Ieee PersistedDevice).insert ⟨0xa⟩ valve⟩

theorem definition_valve : (entryFromPersisted valve).definition id valveIndex = some customValve := by
  obtain ⟨hindex,hdefinitions⟩ := DefinitionIndex.represents_insertAll [customValve]
    (DefinitionIndex.represents_empty id)
  rw [Entry.definition,valveIndex,DefinitionIndex.resolve_eq_search hindex,hdefinitions]
  decide

/-- A coordinator with a network is started on. -/
def startsValve : SystemInput valveEngine := .start {
    network := {
      panId := none
      extendedPanId := none
      channel := 11
      networkKey := none
      onMismatch := .form }
    backup := none
    reachability := silencePolicy defaultSilenceLimit
    interviewOnJoin := false
    registry := ({} : ClusterRegistry) } {
  adapterStart := .ok .formed
  coordinatorIeee := .ok ⟨0xc0⟩ }

def valveLeaves : SystemInput valveEngine :=
  .task (.event (.deviceLeft (some ⟨0xa⟩) none) none fun _ => {})

/-- The valve leaves, and its cluster stays registered. -/
theorem departed_keeps_clusters : ¬ ∀ (store : Store) (is : List (SystemInput valveEngine)),
    ∀ pre, pre <+: is → @System.FollowsDefinitions id valveIndex _ _
      (Runs.run System.step (System.off store) pre) := by
  intro h
  have hstarted := h valveStored [startsValve,valveLeaves] [startsValve] ⟨[valveLeaves],rfl⟩
  have hleft := h valveStored [startsValve,valveLeaves] _ List.prefix_rfl
  have hkeeps := (System.follows_turn valveLeaves hstarted).mp hleft
  have hnone := congrArg Option.isSome
    (hkeeps (Task.stopped_start _ _) ⟨0xa⟩ rfl ⟨0xfc00⟩)
  have hget : (Inventory.restored valveStored).get ⟨0xa⟩ = some (entryFromPersisted valve) := rfl
  have hdeclared : (declared (some customValve) ⟨0xfc00⟩).isSome = true := rfl
  rw [← definition_valve] at hdeclared
  rw [Task.definitionOf_start] at hnone
  have hstill := congrArg (fun o => (declared (Option.bind o (Entry.definition id valveIndex))
    ⟨0xfc00⟩).isSome) hget
  exact Bool.noConfusion (hdeclared.symm.trans (hstill.symm.trans hnone))

end Departure
end Rszigbee
