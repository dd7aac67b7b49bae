import Rszigbee.Interviews

/-! Facts about a device that traffic does not touch: only joining, leaving and being
interviewed changes them, each in its own way. -/
namespace Rszigbee

/-- A fact that rests on no mark, no verdict and no address. -/
structure Durable {α : Type} (g : Entry → α) : Prop where
  mark : ∀ m e, g (Mark.write m e) = g e
  verdict : ∀ a e, g (Assessment.write a e) = g e
  nwk : ∀ n e, g { e with info := { e.info with nwk := n } } = g e

theorem Durable.readdress {E : Engine} {α : Type} {g : Entry → α} (hg : Durable g)
    (v : View E) (ieee : Ieee) (nwk : Nwk) (j : Ieee) :
    ((v.readdress ieee nwk).devices.get j).map g = (v.devices.get j).map g := by
  rw [View.readdress_get]
  by_cases hj : j = ieee
  · rw [if_pos hj,hj,Option.map_map]
    congr 1
    funext e
    exact hg.nwk nwk e
  · rw [if_neg hj]

namespace Task

open View

variable {E : Engine}

/-- A definition's metadata, written into an entry it is resolved for. -/
def withMetadata (E : Engine) (e : Entry) : Entry :=
  match ((E.resolve e.info).bind E.forcePowerSource).bind forced with
  | none => e
  | some (power,sleepy) =>
    if e.info.powerSource = power then e
    else { e with
      info := { e.info with powerSource := power }
      reachability := { e.reachability with isSleepy := sleepy } }

/-- What an update makes of the entry of its device. -/
def updated (E : Engine) : InterviewUpdate → Entry → Entry
  | .started, e => { e with info := { e.info with interview := .inProgress } }
  | .nodeDescriptor kind power sleepy, e => { e with
      info := { e.info with kind := kind, powerSource := power }
      reachability := { e.reachability with isSleepy := sleepy } }
  | .step _, e => e
  | .finished outcome, e => withMetadata E (finishInterview outcome e)

@[simp] theorem devices_persist (t : Task E) (ieee : Ieee) (env : Env) :
    (t.persist ieee env).devices = t.devices := by
  have hview := congrArg View.devices (t.view_persist ieee env)
  rwa [persist_devices] at hview

@[simp] theorem devices_registerCustomClusters (t : Task E) (ieee : Ieee) :
    (t.registerCustomClusters ieee).devices = t.devices :=
  t.alters_registerCustomClusters ieee .devices (by decide)

theorem get_applyDefinitionMetadata (t : Task E) (ieee : Ieee) (env : Env) (j : Ieee) :
    (t.applyDefinitionMetadata ieee env).devices.get j =
      if j = ieee then (t.devices.get j).map (withMetadata E) else t.devices.get j := by
  rw [applyDefinitionMetadata,resolve]
  by_cases hj : j = ieee
  · subst hj
    rw [if_pos rfl]
    cases he : t.devices.get j with
    | none =>
      simp only [Option.bind_none,Option.map_none]
      exact he
    | some e =>
      simp only [Option.bind_some,Option.map_some,withMetadata]
      cases ((E.resolve e.info).bind E.forcePowerSource).bind forced with
      | none => exact he
      | some f =>
        obtain ⟨power,sleepy⟩ := f
        by_cases hsame : e.info.powerSource = power
        · simp only [if_pos hsame]
          exact he
        · simp only [if_neg hsame]
          rw [devices_persist,modifyDevice,Inventory.modify_get,if_pos rfl,he]
          rfl
  · rw [if_neg hj]
    split
    · rfl
    · split
      · rw [devices_persist]
      · split
        · rfl
        · rw [devices_persist,modifyDevice,Inventory.modify_get,if_neg hj]

theorem get_modifyDevice (t : Task E) (ieee : Ieee) (f : Entry → Entry) (j : Ieee) :
    (t.modifyDevice ieee f).devices.get j =
      if j = ieee then (t.devices.get j).map f else t.devices.get j := by
  rw [modifyDevice,Inventory.modify_get]
  by_cases hj : j = ieee
  · rw [if_pos hj,if_pos hj,hj]
  · rw [if_neg hj,if_neg hj]

/-- An update changes the entry of its device, and that alone. -/
theorem get_applyInterviewUpdate (t : Task E) (ieee : Ieee) (update : InterviewUpdate)
    (env : ℕ → Env) (j : Ieee) : (t.applyInterviewUpdate ieee update env).devices.get j =
      if j = ieee then (t.devices.get j).map (updated E update) else t.devices.get j := by
  cases update with
  | started =>
    rw [applyInterviewUpdate.eq_def]
    dsimp only
    rw [devices_persist]
    exact t.get_modifyDevice ieee _ j
  | nodeDescriptor kind power sleepy =>
    rw [applyInterviewUpdate.eq_def]
    dsimp only
    rw [devices_persist]
    exact t.get_modifyDevice ieee _ j
  | step step =>
    have hid : updated E (.step step) = id := rfl
    rw [hid,Option.map_id]
    exact (ite_self _).symm
  | finished outcome =>
    rw [applyInterviewUpdate.eq_def]
    dsimp only
    let u := ((t.modifyDevice ieee (finishInterview outcome)).persist ieee (env 0)).emit
      (.interviewFinished ieee outcome.state)
    let w := u.emit (.definitionResolved ieee ((u.resolve ieee).map E.model) .bundled)
    have hw : w.devices.get j =
        if j = ieee then (t.devices.get j).map (finishInterview outcome) else t.devices.get j := by
      have hdevices : w.devices = ((t.modifyDevice ieee
          (finishInterview outcome)).persist ieee (env 0)).devices := rfl
      rw [hdevices,devices_persist,get_modifyDevice]
    split
    · have hplan : ∀ v : Task E, ∀ env, (v.executeConfigurePlan ieee env).1.devices = v.devices :=
        fun v env => v.alters_executeConfigurePlan ieee env .devices (by decide)
      rw [hplan,get_applyDefinitionMetadata,devices_registerCustomClusters,hw]
      by_cases hj : j = ieee
      · simp only [if_pos hj,Option.map_map]
        rfl
      · simp only [if_neg hj]
    · rename_i hresolve
      have hnone : u.resolve ieee = none := by simpa using hresolve
      refine hw.trans ?_
      by_cases hj : j = ieee
      · subst hj
        simp only [if_pos]
        cases he : t.devices.get j with
        | none => rfl
        | some e =>
          have hget : u.devices.get j = some (finishInterview outcome e) := by
            have hw' : u.devices.get j = w.devices.get j := rfl
            rw [hw',hw,if_pos rfl,he]
            rfl
          rw [resolve,hget,Option.bind_some] at hnone
          simp only [Option.map_some,updated,withMetadata,hnone,Option.bind_none]
      · simp only [if_neg hj]

/-- The turn of an update does what the update does. -/
theorem get_step_interviewUpdate {t : Task E} (hrun : t.stopped = false) (ieee : Ieee)
    (update : InterviewUpdate) (env : ℕ → Env) (j : Ieee) :
    (t.step (.request (.interviewUpdate ieee update) env)).devices.get j =
      if j = ieee then (t.devices.get j).map (updated E update) else t.devices.get j := by
  have hstep : t.step (.request (.interviewUpdate ieee update) env) = { t with
      requests := t.requests ++ [Request.interviewUpdate ieee update] }.applyInterviewUpdate
        ieee update env := by
    simp [step,hrun,handleRequest]
  rw [hstep,get_applyInterviewUpdate]

/-- What an input makes of the entry of a device, but for what traffic leaves in it. -/
def entryAfter (t : Task E) (i : Input E) (j : Ieee) : Option Entry :=
  match i with
  | .event (.deviceJoined ieee nwk) _ env =>
    if (ieee <|> t.devices.resolve nwk) = some j then
      some ((t.devices.get j).getD (newEntry j nwk (env 0).wall))
    else t.devices.get j
  | .event (.deviceLeft ieee nwk) _ _ =>
    if (ieee <|> nwk.bind t.devices.resolve) = some j then none else t.devices.get j
  | .request (.interviewUpdate ieee update) _ =>
    if j = ieee then (t.devices.get j).map (updated E update) else t.devices.get j
  | _ => t.devices.get j

/-- A device has after an input the entry it had, a new one if it joined, or what its interview
made of it. -/
theorem entryAfter_cases {t : Task E} {i : Input E} {j : Ieee} {e' : Entry}
    (h : t.entryAfter i j = some e') : t.devices.get j = some e' ∨
      (t.devices.get j = none ∧ ∃ ieee nwk origin env,
        i = .event (.deviceJoined ieee nwk) origin env ∧
        (ieee <|> t.devices.resolve nwk) = some j ∧ e' = newEntry j nwk (env 0).wall) ∨
      ∃ update env e, i = .request (.interviewUpdate j update) env ∧
        t.devices.get j = some e ∧ e' = updated E update e := by
  cases i with
  | event event origin env =>
    cases event with
    | deviceJoined ieee nwk =>
      rw [entryAfter] at h
      split at h
      · rename_i hj
        cases hget : t.devices.get j with
        | none =>
          rw [hget] at h
          exact .inr (.inl ⟨rfl,ieee,nwk,origin,env,rfl,hj,(Option.some.inj h).symm⟩)
        | some e =>
          rw [hget] at h
          exact .inl h
      · exact .inl h
    | deviceLeft ieee nwk =>
      rw [entryAfter] at h
      split at h
      · cases h
      · exact .inl h
    | _ => exact .inl h
  | request request env =>
    cases request with
    | interviewUpdate ieee update =>
      rw [entryAfter] at h
      split at h
      · rename_i hj
        obtain ⟨e,he,rfl⟩ := Option.map_eq_some_iff.mp h
        exact .inr (.inr ⟨update,env,e,by rw [hj],he,rfl⟩)
      · exact .inl h
    | _ => exact .inl h
  | _ => exact .inl h

/-- A device without an entry after an input had none, or it left. -/
theorem entryAfter_eq_none {t : Task E} {i : Input E} {j : Ieee} (h : t.entryAfter i j = none) :
    t.devices.get j = none ∨ ∃ ieee nwk origin env, i = .event (.deviceLeft ieee nwk) origin env ∧
      (ieee <|> nwk.bind t.devices.resolve) = some j := by
  cases i with
  | event event origin env =>
    cases event with
    | deviceJoined ieee nwk =>
      rw [entryAfter] at h
      split at h
      · cases h
      · exact .inl h
    | deviceLeft ieee nwk =>
      rw [entryAfter] at h
      split at h
      · rename_i hj
        exact .inr ⟨ieee,nwk,origin,env,rfl,hj⟩
      · exact .inl h
    | _ => exact .inl h
  | request request env =>
    cases request with
    | interviewUpdate ieee update =>
      rw [entryAfter] at h
      split at h
      · exact .inl (Option.map_eq_none_iff.mp h)
      · exact .inl h
    | _ => exact .inl h
  | _ => exact .inl h

/-- The entry an update makes of the one it finds. -/
theorem entryAfter_update {t : Task E} {ieee : Ieee} {e : Entry} (he : t.devices.get ieee = some e)
    (update : InterviewUpdate) (env : ℕ → Env) :
    t.entryAfter (.request (.interviewUpdate ieee update) env) ieee = some (updated E update e) := by
  rw [entryAfter,if_pos rfl,he]
  rfl

theorem entryAfter_of_subject {t : Task E} {i : Input E} (h : t.subject i = none) (j : Ieee) :
    t.entryAfter i j = t.devices.get j := by
  cases i with
  | event event origin env =>
    cases event with
    | deviceJoined ieee nwk =>
      have hnone : (ieee <|> t.devices.resolve nwk) = none := h
      simp [entryAfter,hnone]
    | deviceLeft ieee nwk =>
      have hnone : (ieee <|> nwk.bind t.devices.resolve) = none := h
      simp [entryAfter,hnone]
    | _ => rfl
  | request request env =>
    cases request with
    | interviewUpdate ieee update =>
      cases update with
      | step step =>
        have hid : updated E (.step step) = id := rfl
        simp [entryAfter,hid]
      | _ => cases h
    | _ => rfl
  | _ => rfl

section Steps

variable {α : Type} {g : Entry → α}

/-- One turn, in terms of a fact that traffic does not touch. -/
theorem fact_step (hg : Durable g) {t : Task E} (hrun : t.stopped = false) (i : Input E)
    (j : Ieee) : ((t.step i).devices.get j).map g = (t.entryAfter i j).map g := by
  have hpath {allowed : Ieee → Mark → Prop} {v v' : View E} (h : Path allowed v v') :
      (v'.devices.get j).map g = (v.devices.get j).map g := kept_path hg.mark hg.verdict h j
  have hmove := move hrun i
  have hview : (t.step i).devices = (t.step i).view.devices := rfl
  by_cases hupdate : ∃ ieee update env, i = .request (.interviewUpdate ieee update) env
  · obtain ⟨ieee,update,env,rfl⟩ := hupdate
    rw [get_step_interviewUpdate hrun]
    rfl
  · rw [hview]
    generalize (t.step i).view = v at hmove
    cases hmove with
    | aside hi h => rw [hpath h,entryAfter_of_subject hi]; rfl
    | @joined ieee nwk origin env a w ha h =>
      rw [invite_devices,persist_devices,hpath h,entryAfter,ha,arrive]
      have hdevices : t.view.devices = t.devices := rfl
      rw [hdevices]
      cases hknown : t.devices.get a with
      | none =>
        rw [if_neg (by simp)]
        show ((t.devices.insert (newEntry a nwk (env 0).wall)).get j).map g = _
        rw [Inventory.insert_get]
        have hieee : (newEntry a nwk (env 0).wall).info.ieee = a := rfl
        rw [hieee]
        by_cases hj : j = a
        · rw [hj,if_pos rfl,if_pos rfl,hknown]
          rfl
        · rw [if_neg hj,if_neg fun h => hj (Option.some.inj h).symm]
      | some e =>
        rw [if_pos (by simp)]
        refine (hg.readdress t.view a nwk j).trans ?_
        by_cases hj : j = a
        · rw [hj,if_pos rfl,hknown,hdevices,hknown]
          rfl
        · rw [if_neg fun h => hj (Option.some.inj h).symm]
          rfl
    | @left ieee nwk origin env a ha =>
      rw [entryAfter,ha]
      show ((t.devices.remove a).1.get j).map g = _
      rw [Inventory.remove_get]
      by_cases hj : j = a
      · rw [if_pos hj,if_pos (congrArg some hj.symm)]
      · rw [if_neg hj,if_neg fun h => hj (Option.some.inj h).symm]
    | @frame rx origin env a w ha h =>
      rw [hpath h,hg.readdress]
      rfl
    | interview h => rfl
    | update hu hf h => exact absurd ⟨_,_,_,rfl⟩ hupdate

end Steps

end Task
end Rszigbee
