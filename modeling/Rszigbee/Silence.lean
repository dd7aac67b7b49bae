import Rszigbee.Attention

/-! A runtime under `SilencePolicy` over a whole run: whether a device that was heard is ever
taken for one that was not, and whether its silence is noticed when it should be. -/
namespace Rszigbee

/-- A runtime, with the clocks as they were when each device was last heard. -/
structure Watched (E : Engine) where
  task : Task E
  heard : Ieee → Option Clocks

namespace Watched

variable {E : Engine} {limit : Duration}

/-- Nothing has been heard when a process starts. -/
def start (limit : Duration) (config : TaskConfig E) (env : Env) : Watched E :=
  ⟨Task.start { config with reachability := silencePolicy limit } env,fun _ => none⟩

def heardAfter (w : Watched E) (i : Input E) (j : Ieee) : Option Clocks :=
  (w.task.hears i j).map Env.read <|> w.heard j

def step (w : Watched E) (i : Input E) : Watched E := ⟨w.task.step i,w.heardAfter i⟩

/-- What every run keeps. -/
structure Good (limit : Duration) (w : Watched E) : Prop where
  policy : w.task.reachability = silencePolicy limit
  sound : w.task.devices.Sound
  kept : ∀ j v, w.task.watch j = some v → v.Kept (w.heard j)

section Turns

variable {w : Watched E} {i : Input E} {j : Ieee}

/-- What is known of a device that is not heard stays until it is assessed. -/
theorem watch_unheard (hrun : w.task.stopped = false) (hhears : w.task.hears i j = none)
    {e : Entry} (he : w.task.entryAfter i j = some e) : w.task.watch j = some e.watch := by
  rcases Task.entryAfter_cases he with hold | ⟨-,ieee,nwk,origin,env,rfl,hj,-⟩ |
      ⟨update,env,e',-,he',rfl⟩
  · rw [Task.watch,hold]
    rfl
  · rw [Task.hears,if_neg (by simp [hrun])] at hhears
    simp [hj] at hhears
  · rw [Task.watch,he',Task.watch_updated]
    rfl

theorem step_unassessed (hgood : w.Good limit) (h : w.task.assesses i j = none) :
    w.heardAfter i j = w.heard j ∧
      ∀ v, (w.step i).task.watch j = some v → w.task.watch j = some v := by
  have hhears : w.task.hears i j = none := by
    by_contra hheard
    obtain ⟨env,henv⟩ := Option.ne_none_iff_exists'.mp hheard
    rw [Task.assesses_of_hears henv] at h
    cases h
  refine ⟨by simp [heardAfter,hhears],fun v hv => ?_⟩
  by_cases hstopped : w.task.stopped = true
  · rw [step,Task.step_stopped hstopped] at hv
    exact hv
  · have hrun : w.task.stopped = false := by simpa using hstopped
    rw [step,Task.watch_step hgood.policy hrun hgood.sound,Task.map_attend_aside hhears h] at hv
    obtain ⟨e,he,rfl⟩ := Option.map_eq_some_iff.mp hv
    exact watch_unheard hrun hhears he

theorem step_assessed (hgood : w.Good limit) {env : Env} (h : w.task.assesses i j = some env) :
    ∃ v, (∀ c, w.heardAfter i j = some c → v.lastSeen = some c.wall) ∧
      (w.step i).task.watch j = some (v.look limit env.assessed) ∧
      (w.task.hears i j = none → w.task.watch j = some v) := by
  have hrun : w.task.stopped = false := by
    by_contra hstopped
    simp [Task.assesses,hstopped] at h
  obtain ⟨e,he⟩ := Task.known_of_assesses hgood.sound h
  rw [step,Task.watch_step hgood.policy hrun hgood.sound,he]
  cases hhears : w.task.hears i j with
  | none =>
    have hwatch := watch_unheard hrun hhears he
    refine ⟨e.watch,fun c hc => ?_,by simp [Task.attend,hhears,h],fun _ => hwatch⟩
    refine (hgood.kept j e.watch hwatch).dated c ?_
    simpa [heardAfter,hhears] using hc
  | some env' =>
    obtain rfl := Option.some.inj (h.symm.trans (Task.assesses_of_hears hhears))
    refine ⟨e.watch.hear env.wall,fun c hc => ?_,by simp [Task.attend,hhears,h],by simp⟩
    rw [heardAfter,hhears] at hc
    obtain rfl : env.read = c := Option.some.inj hc
    rfl

theorem good_step (i : Input E) (hgood : w.Good limit) : (w.step i).Good limit where
  policy := (w.task.reachability_step i).trans hgood.policy
  sound := Task.inventory_sound_step w.task i hgood.sound
  kept j v hv := by
    cases h : w.task.assesses i j with
    | none =>
      obtain ⟨hheard,hwatch⟩ := step_unassessed hgood h
      show v.Kept (w.heardAfter i j)
      rw [hheard]
      exact hgood.kept j v (hwatch v hv)
    | some env =>
      obtain ⟨u,hdated,hlook,-⟩ := step_assessed hgood h
      obtain rfl := Option.some.inj (hlook.symm.trans hv)
      exact Watch.Kept.look hdated env.assessed

end Turns

/-- Nothing is concluded of any device yet. -/
theorem watch_start (limit : Duration) (config : TaskConfig E) (env : Env) :
    ∀ j v, (start limit config env).task.watch j = some v →
      v.verdict = .unknown ∧ v.next = .awaitTraffic := by
  have hentry : ∀ j e, (start limit config env).task.devices.get j = some e →
      e.watch.verdict = .unknown ∧ e.watch.next = .awaitTraffic :=
    Task.each_start (fun _ => ⟨rfl,rfl⟩) fun _ _ => ⟨rfl,rfl⟩
  intro j v hv
  obtain ⟨e,he,rfl⟩ := Option.map_eq_some_iff.mp hv
  exact hentry j e he

theorem good_start (limit : Duration) (config : TaskConfig E) (env : Env) :
    (start limit config env).Good limit where
  policy := Task.reachability_start _ env
  sound := Task.inventory_sound_start _ env
  kept j v hv := by
    obtain ⟨hverdict,hnext⟩ := watch_start limit config env j v hv
    exact ⟨by simp [start],by simp [hverdict],by simp [hverdict],fun _ => hnext⟩

end Watched
end Rszigbee
