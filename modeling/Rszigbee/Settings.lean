import Rszigbee.Facts

/-! The availability policy and the cluster registry a loop goes by. Only an interview that
ends changes either: it may add to the registry. -/
namespace Rszigbee
namespace Task

variable {E : Engine}

/-- The registry once an interview is over: the clusters that the definition declares which the
device's facts now resolve to are added for the device. -/
def registryAfter (t : Task E) (ieee : Ieee) (outcome : InterviewOutcome) : E.Registry :=
  match (t.devices.get ieee).bind fun e => E.resolve (finishInterview outcome e).info with
  | none => t.registry
  | some definition => (E.customClusters definition).foldl
      (fun registry cluster => E.insertForDevice registry ieee cluster) t.registry

theorem registry_registerCustomClusters {t : Task E} {ieee : Ieee} {definition : E.Definition}
    (h : t.resolve ieee = some definition) : (t.registerCustomClusters ieee).registry =
      (E.customClusters definition).foldl
        (fun registry cluster => E.insertForDevice registry ieee cluster) t.registry := by
  rw [registerCustomClusters,h]

theorem registry_finished (t : Task E) (ieee : Ieee) (outcome : InterviewOutcome) (env : ℕ → Env) :
    (t.applyInterviewUpdate ieee (.finished outcome) env).registry =
      t.registryAfter ieee outcome := by
  rw [applyInterviewUpdate.eq_def]
  dsimp only
  let u := ((t.modifyDevice ieee (finishInterview outcome)).persist ieee (env 0)).emit
    (.interviewFinished ieee outcome.state)
  have hu : u.registry = t.registry :=
    alters_persist (t.modifyDevice ieee (finishInterview outcome)) ieee (env 0) .registry (by decide)
  have hresolve : u.resolve ieee =
      (t.devices.get ieee).bind fun e => E.resolve (finishInterview outcome e).info := by
    have hdevices : u.devices = (t.modifyDevice ieee (finishInterview outcome)).devices :=
      devices_persist _ _ _
    rw [resolve,hdevices,get_modifyDevice,if_pos rfl,Option.bind_map]
    rfl
  rw [registryAfter,← hresolve]
  cases hdefinition : u.resolve ieee with
  | none =>
    exact hu
  | some definition =>
    let w := u.emit (.definitionResolved ieee (some (E.model definition)) .bundled)
    have hsome : w.resolve ieee = some definition := hdefinition
    rw [if_pos Option.isSome_some,Option.map_some]
    have hcarried := ((w.registerCustomClusters ieee).alters_applyDefinitionMetadata ieee
      (env 1)).trans (alters_executeConfigurePlan _ ieee fun k => env (k+2))
    refine (hcarried .registry (by decide)).trans ?_
    refine (registry_registerCustomClusters hsome).trans ?_
    have hw : w.registry = t.registry := hu
    rw [hw]

/-- A turn leaves the registry alone but for the end of an interview. -/
theorem registry_step {t : Task E} {i : Input E}
    (h : ∀ ieee outcome env, i ≠ .request (.interviewUpdate ieee (.finished outcome)) env) :
    (t.step i).registry = t.registry := t.alters_step h .registry (by decide)

/-- The policy is the one the loop was given. -/
theorem reachability_step (t : Task E) (i : Input E) :
    (t.step i).reachability = t.reachability := by
  by_cases hfinished : ∃ ieee outcome env,
      i = .request (.interviewUpdate ieee (.finished outcome)) env
  · obtain ⟨ieee,outcome,env,rfl⟩ := hfinished
    have hreceived := t.alters_received (.interviewUpdate ieee (.finished outcome))
    have hupdated := hreceived.trans (alters_applyInterviewUpdate _ ieee (.finished outcome) env)
    unfold step
    split
    · rfl
    · exact hupdated .policy (by decide)
  · exact t.alters_step (fun ieee outcome env he => hfinished ⟨ieee,outcome,env,he⟩) .policy
      (by decide)

theorem reachability_start (config : TaskConfig E) (env : Env) :
    (start config env).reachability = config.reachability :=
  alters_start config env .policy (by decide)

end Task
end Rszigbee
