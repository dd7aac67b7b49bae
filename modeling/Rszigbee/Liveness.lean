import Rszigbee.Records

/-! What the runtime takes for a sign of life.
A probe or a command is judged by the adapter's answer in the turn that sends it. An adapter
that answers as soon as the coordinator has the frame says nothing about the device. -/
namespace Rszigbee

namespace Inventory

/-- Every device of the table is listed once. -/
theorem all_ieee_nodup {inv : Inventory} (h : ∀ i e, inv.get i = some e → e.info.ieee = i) :
    inv.all.Pairwise fun e e' => e.info.ieee ≠ e'.info.ieee := by
  rw [all,List.pairwise_map]
  have hkeys : inv.devices.entries.Pairwise fun s s' => s.2.info.ieee ≠ s'.2.info.ieee := by
    refine (List.pairwise_map.mp inv.devices.nodupKeys).imp_of_mem fun {s s'} hs hs' hne => ?_
    rw [h s.1 s.2 (Table.lookup_eq_some.mpr hs),h s'.1 s'.2 (Table.lookup_eq_some.mpr hs')]
    exact hne
  exact hkeys.perm (List.mergeSort_perm _ _).symm fun hne => Ne.symm hne

theorem mem_all {inv : Inventory} (h : ∀ i e, inv.get i = some e → e.info.ieee = i) {e : Entry}
    (he : e ∈ inv.all) : inv.get e.info.ieee = some e := by
  rw [all,List.mem_map] at he
  obtain ⟨s,hs,rfl⟩ := he
  have hlook : inv.get s.1 = some s.2 := Table.lookup_eq_some.mpr (List.mem_mergeSort.mp hs)
  rw [h s.1 s.2 hlook]
  exact hlook

theorem mem_all_of_get {inv : Inventory} {i : Ieee} {e : Entry} (h : inv.get i = some e) :
    e ∈ inv.all := by
  rw [all,List.mem_map]
  exact ⟨⟨i,e⟩,List.mem_mergeSort.mpr (Table.lookup_eq_some.mp h),rfl⟩

end Inventory

/-- What a mark does to the facts a policy sees. -/
def Mark.facts : Mark → ReachabilityInfo → ReachabilityInfo
  | heard seen, r => r.recordTraffic seen
  | transmitted time result, r => r.recordTx time result
  | probed time result, r => r.recordProbe time result
  | link _, r => r

theorem Mark.write_reachability (m : Mark) (e : Entry) :
    (m.write e).reachability = m.facts e.reachability := by
  cases m <;> rfl

namespace View

variable {E : Engine} {R : Ieee → ReachabilityInfo → Prop}

/-- A property of the facts of every device in the table. -/
def Each (R : Ieee → ReachabilityInfo → Prop) (v : View E) : Prop :=
  ∀ i e, v.devices.get i = some e → R i e.reachability

/-- A property that rests neither on the verdict nor on whether the device sleeps. -/
def Steady (R : Ieee → ReachabilityInfo → Prop) : Prop :=
  ∀ i r state sleepy, R i r → R i { r with state := state, isSleepy := sleepy }

namespace Each

theorem modify {v : View E} (h : v.Each R) (ieee : Ieee) {f : Entry → Entry}
    (hf : ∀ e, R ieee e.reachability → R ieee (f e).reachability) : (v.modify ieee f).Each R := by
  intro i e he
  rw [View.modify,Inventory.modify_get] at he
  split at he
  · rename_i hi
    obtain ⟨e',he',rfl⟩ := Option.map_eq_some_iff.mp he
    rw [hi]
    exact hf e' (h ieee e' he')
  · exact h i e he

theorem persist {v : View E} (h : v.Each R) (ieee : Ieee) (answer : WriteAnswer) :
    (v.persist ieee answer).Each R := by
  intro i e he
  rw [persist_devices] at he
  exact h i e he

theorem path {allowed : Ieee → Mark → Prop} {v v' : View E} (hpath : Path allowed v v')
    (hR : Steady R) (hmarks : ∀ i m, allowed i m → ∀ r, R i r → R i (m.facts r)) (h : v.Each R) :
    v'.Each R := by
  refine hpath.invariant (P := Each R) (fun w w' hlast hw => ?_) h
  cases hlast with
  | @mark ieee m hm =>
    refine hw.modify ieee fun e he => ?_
    rw [m.write_reachability]
    exact hmarks ieee m hm _ he
  | @assess ieee e _ a evidence =>
    have hwrite : (w.modify ieee a.write).Each R :=
      hw.modify ieee fun e he => hR ieee e.reachability a.verdict e.reachability.isSleepy he
    rw [assess]
    split
    · exact hwrite
    · exact hwrite
  | note _ => exact hw

theorem rewrites {answers : WriteAnswer → Prop} {ieee : Ieee} {v v' : View E}
    (hrewrites : Rewrites answers ieee v v') (hR : Steady R) (h : v.Each R) : v'.Each R := by
  refine hrewrites.invariant (P := Each R) (fun w w' hlast hw => ?_) h
  cases hlast with
  | edit hf _ =>
    refine (hw.modify ieee fun e he => ?_).persist ieee _
    obtain ⟨sleepy,hsame⟩ := hf.reachability e
    rw [hsame]
    exact hR ieee e.reachability e.reachability.state sleepy he
  | note _ => exact hw

theorem readdress {v : View E} (h : v.Each R) (ieee : Ieee) (nwk : Nwk) :
    (v.readdress ieee nwk).Each R := by
  intro i e he
  rw [readdress_get] at he
  split at he
  · rename_i hi
    obtain ⟨e',he',rfl⟩ := Option.map_eq_some_iff.mp he
    rw [hi]
    exact h ieee e' he'
  · exact h i e he

theorem arrive {v : View E} (h : v.Each R) (ieee : Ieee) (nwk : Nwk) (wall : SystemTime)
    (hnew : R ieee (ReachabilityInfo.recordTraffic {} wall)) : (v.arrive ieee nwk wall).Each R := by
  rw [View.arrive]
  split
  · exact h.readdress ieee nwk
  · intro i e he
    have hlook := (Inventory.insert_get v.devices i (newEntry ieee nwk wall)).symm.trans he
    split at hlook
    · rename_i hi
      cases hlook
      have hi' : i = ieee := hi
      rw [hi']
      exact hnew
    · exact h i e hlook

theorem expel {v : View E} (h : v.Each R) (ieee : Ieee) (answer : WriteAnswer) :
    (v.expel ieee answer).Each R := by
  intro i e he
  have hlook := (Inventory.remove_get v.devices ieee i).symm.trans he
  split at hlook
  · cases hlook
  · exact h i e hlook

theorem invite {v : View E} (h : v.Each R) (ieee : Ieee) : (v.invite ieee).Each R := by
  rw [View.invite]
  split
  · exact h
  · exact h

end Each

/-- A fact about one device that neither verdicts nor the marks allowed for it touch. -/
theorem fact_path {allowed : Ieee → Mark → Prop} {α : Type} {g : ReachabilityInfo → α} {i : Ieee}
    {v v' : View E} (hpath : Path allowed v v')
    (hg : ∀ r state, g { r with state := state } = g r)
    (hmarks : ∀ m, allowed i m → ∀ r, g (m.facts r) = g r) :
    (v'.devices.get i).map (fun e => g e.reachability) =
      (v.devices.get i).map fun e => g e.reachability := by
  refine hpath.invariant (P := fun w => (w.devices.get i).map (fun e => g e.reachability) =
    (v.devices.get i).map fun e => g e.reachability) (fun w w' hlast ih => ?_) rfl
  rw [← ih]
  cases hlast with
  | @mark ieee m hm =>
    rw [View.modify,Inventory.modify_get]
    by_cases hi : i = ieee
    · subst hi
      rw [if_pos rfl,Option.map_map]
      congr 1
      funext e
      rw [Function.comp_apply,m.write_reachability]
      exact hmarks m hm _
    · rw [if_neg hi]
  | @assess ieee e _ a evidence =>
    have hwrite : ((w.modify ieee a.write).devices.get i).map (fun e => g e.reachability) =
        (w.devices.get i).map fun e => g e.reachability := by
      refine Inventory.map_get_modify (g := fun e => g e.reachability) _ _ _ fun e => ?_
      exact hg e.reachability a.verdict
    rw [assess]
    split
    · exact hwrite
    · exact hwrite
  | note _ => rfl

end View

namespace Task

open View

variable {E : Engine} {R : Ieee → ReachabilityInfo → Prop}

/-- The device a received frame or announcement is from. -/
def sender (t : Task E) : Input E → Option Ieee
  | .event (.deviceJoined ieee nwk) _ _ => ieee <|> t.devices.resolve nwk
  | .event (.zcl rx) _ _ => t.senderOf rx
  | .event (.zdo _ nwk _) _ _ => t.devices.resolve nwk
  | _ => none

/-- What holds of the facts about every device goes on holding if traffic keeps it for the
sender, and the marks of the turn keep it. -/
theorem each_step {t : Task E} {i : Input E} (hR : Steady R)
    (hsender : ∀ d, t.sender i = some d → (∀ r seen, R d r → R d (r.recordTraffic seen)) ∧
      ∀ seen, R d (ReachabilityInfo.recordTraffic {} seen))
    (hmarks : t.stopped = false → ∀ d m, t.Marks i d m → ∀ r, R d r → R d (m.facts r))
    (h : t.view.Each R) : (t.step i).view.Each R := by
  by_cases hstopped : t.stopped = true
  · rw [step_stopped hstopped]
    exact h
  · have hrun : t.stopped = false := by simpa using hstopped
    have hmove := move hrun i
    generalize (t.step i).view = v at hmove
    have hheard (d : Ieee) (hd : t.sender i = some d) (j : Ieee) (m : Mark) (hm : Heard d j m)
        (r : ReachabilityInfo) (hr : R j r) : R j (m.facts r) := by
      cases hm with
      | heard seen => exact (hsender d hd).1 r seen hr
      | link quality => exact hr
    cases hmove with
    | aside hi hpath => exact .path hpath hR (hmarks hrun) h
    | @joined ieee nwk origin env a w ha hpath =>
      have harrived := h.arrive a nwk (env 0).wall ((hsender a ha).2 _)
      exact ((Each.path hpath hR (hheard a ha) harrived).persist _ _).invite _
    | left ha => exact h.expel _ _
    | @frame rx origin env a v ha hpath =>
      exact .path hpath hR (hheard a ha) (h.readdress _ _)
    | interview hknown => exact h
    | update hu hf hrewrites =>
      refine .rewrites hrewrites hR ((h.modify _ fun e he => ?_).persist _ _)
      obtain ⟨sleepy,hsame⟩ := hf.reachability e
      rw [hsame]
      exact hR _ e.reachability e.reachability.state sleepy he

section Judged

/-- The adapter answers as soon as the coordinator has a frame: no reply comes back with it. -/
def Accepts : Input E → Prop
  | .request _ env | .event _ _ env | .tick env | .handlesDropped env | .adapterClosed env =>
    ∀ k rx, (env k).sendZcl ≠ .ok (some rx)
  | .abandon _ => True

/-- No probe of a device in the table is on record as answered, and no command to it as
acknowledged. A probe or command is sent and judged in one turn, so where the adapter brings
no reply back nothing can have come from the device in between. -/
def Unanswered (t : Task E) : Prop := ∀ i e, t.devices.get i = some e →
  e.reachability.lastTxOk = none ∧ ∀ time, e.reachability.lastProbe ≠ some (time,.answered)

/-- The turn lowers no failure count, but for a device it hears from. -/
def KeepsFailures (t : Task E) (i : Input E) : Prop := ∀ d e e', t.sender i ≠ some d →
  t.devices.get d = some e → (t.step i).devices.get d = some e' →
    e.reachability.consecutiveProbeFailures ≤ e'.reachability.consecutiveProbeFailures

/-- Whatever probe or command frame the turn sends, the adapter refuses. -/
def Refused (t : Task E) : Input E → Prop
  | .request (.command ieee command) env => t.stopped = false →
    commandTx { t with requests := t.requests ++ [.command ieee command] } ieee command ≠ none →
      ∃ e, (env 0).sendZcl = .error e
  | .tick env => t.stopped = false → ∀ k ieee time attempts recover,
    (t.dueChecks (env 1).now)[k]? = some (ieee,.probe time attempts recover) →
      ∃ e, (env (k+2)).sendZcl = .error e
  | _ => True

/-- Where everything is refused, a turn only ever marks failures. -/
theorem marks_of_refused {t : Task E} {i : Input E} (hrun : t.stopped = false)
    (h : t.Refused i) {d : Ieee} {m : Mark} (hm : t.Marks i d m) :
    (∃ time failure, m = .transmitted time (.error failure)) ∨
      (∃ time failure, m = .probed time (.failed failure)) ∨
        ∃ seen, m = .heard seen ∧ t.sender i = some d := by
  cases hm with
  | command hsent hresult =>
    obtain ⟨e,he⟩ := h hrun hsent
    rw [he] at hresult
    cases e with
    | tx failure =>
      obtain rfl := Option.some.inj hresult
      exact Or.inl ⟨_,failure,rfl⟩
    | _ => cases hresult
  | probe hdue =>
    obtain ⟨e,he⟩ := h hrun _ _ _ _ _ hdue
    right
    left
    rw [he]
    cases e with
    | tx failure => exact ⟨_,failure,rfl⟩
    | _ => exact ⟨_,.noAck,rfl⟩
  | zdo hfrom => exact Or.inr (Or.inr ⟨_,rfl,hfrom⟩)

theorem unanswered_of_refused {t : Task E} {i : Input E} (h : t.Unanswered) (href : t.Refused i) :
    (t.step i).Unanswered := by
  let R (_ : Ieee) (r : ReachabilityInfo) : Prop :=
    r.lastTxOk = none ∧ ∀ time, r.lastProbe ≠ some (time,.answered)
  have hR : Steady R := fun _ _ _ _ hr => hr
  have hnew (seen : SystemTime) : R ⟨0⟩ (ReachabilityInfo.recordTraffic {} seen) := by
    refine ⟨rfl,fun time => ?_⟩
    simp [ReachabilityInfo.recordTraffic]
  refine each_step hR (fun d _ => ⟨fun r seen hr => hr,hnew⟩) (fun hrun d m hm r hr => ?_) h
  rcases marks_of_refused hrun href hm with ⟨time,failure,rfl⟩ | ⟨time,failure,rfl⟩ | ⟨seen,rfl,-⟩
  · exact hr
  · refine ⟨hr.1,fun time' => ?_⟩
    simp [Mark.facts,ReachabilityInfo.recordProbe]
  · exact hr

theorem le_recordProbe (r : ReachabilityInfo) (time : Instant) (failure : TxFailure) :
    r.consecutiveProbeFailures ≤
      (r.recordProbe time (.failed failure)).consecutiveProbeFailures := by
  show r.consecutiveProbeFailures ≤ if r.consecutiveProbeFailures = 0xffffffff then 0xffffffff
    else r.consecutiveProbeFailures + 1
  have hlt := r.consecutiveProbeFailures.toNat_lt
  split
  · rename_i hmax
    rw [hmax]
    exact UInt32.le_refl _
  · rename_i hmax
    have hne : r.consecutiveProbeFailures.toNat ≠ 4294967295 := fun he =>
      hmax (UInt32.toNat_inj.mp he)
    have hone : (1 : UInt32).toNat = 1 := rfl
    rw [UInt32.le_iff_toNat_le,UInt32.toNat_add,hone,Nat.mod_eq_of_lt (by omega)]
    omega

/-- Failures only add up while a device says nothing and everything sent to it is refused. -/
theorem keepsFailures_of_refused {t : Task E} {i : Input E} (href : t.Refused i) :
    t.KeepsFailures i := by
  intro d e e' hsilent he he'
  let R (j : Ieee) (r : ReachabilityInfo) : Prop :=
    j = d → e.reachability.consecutiveProbeFailures ≤ r.consecutiveProbeFailures
  have hR : Steady R := fun _ _ _ _ hr => hr
  have hstart : t.view.Each R := by
    intro j f hf hj
    subst hj
    obtain rfl := Option.some.inj (he.symm.trans hf)
    exact UInt32.le_refl _
  refine each_step hR (fun j hj => ?_) (fun hrun j m hm r hr hj => ?_) hstart d e' he' rfl
  · have hne : j ≠ d := fun hjd => hsilent (hjd ▸ hj)
    exact ⟨fun _ _ _ hjd => absurd hjd hne,fun _ hjd => absurd hjd hne⟩
  · rcases marks_of_refused hrun href hm with ⟨time,failure,rfl⟩ | ⟨time,failure,rfl⟩ | ⟨seen,-,hfrom⟩
    · exact hr hj
    · exact UInt32.le_trans (hr hj) (le_recordProbe r time failure)
    · exact absurd (hj ▸ hfrom) hsilent

theorem known_commandTx {t : Task E} {ieee : Ieee} {command : DeviceCommand E}
    (h : t.commandTx ieee command ≠ none) : ∃ e, t.devices.get ieee = some e := by
  refine Option.ne_none_iff_exists'.mp fun hnone => h ?_
  rw [commandTx,hnone]

/-- What is written about a device is still there when it has been assessed. -/
theorem assessed_fact {α : Type} {g : ReachabilityInfo → α}
    (hg : ∀ r state, g { r with state := state } = g r) (t : Task E) {ieee : Ieee} {e : Entry}
    (he : t.devices.get ieee = some e) (f : ReachabilityInfo → ReachabilityInfo)
    (evidence : Evidence) (env : Env) :
    ((((t.modifyDevice ieee fun e => { e with reachability := f e.reachability }).assess ieee
      evidence env).devices.get ieee).map fun e => g e.reachability) =
        some (g (f e.reachability)) := by
  have hpath : Path (fun _ _ => False)
      (t.modifyDevice ieee fun e => { e with reachability := f e.reachability }).view
      ((t.modifyDevice ieee fun e => { e with reachability := f e.reachability }).assess ieee
        evidence env).view := path_assess _ _ _ _
  have hget := Inventory.modify_get t.devices ieee ieee fun e =>
    { e with reachability := f e.reachability }
  rw [if_pos rfl,he] at hget
  refine (fact_path (i := ieee) hpath hg fun _ hm => hm.elim).trans ?_
  show Option.map _ ((t.devices.modify ieee _).get ieee) = _
  rw [hget]
  rfl

/-- A frame the coordinator took counts as a command acknowledged by the device. -/
theorem acked_commandResult (t : Task E) {ieee : Ieee} {e : Entry}
    (he : t.devices.get ieee = some e) {env : Env} (hsend : env.sendZcl = .ok none) :
    ((t.commandResult ieee env).1.devices.get ieee).map (fun e => e.reachability.lastTxOk) =
      some (some env.now) := by
  have hresult : (t.commandResult ieee env).1 = t.recordTx ieee env.now (.ok ()) env := by
    rw [commandResult,hsend]
  rw [hresult]
  exact assessed_fact (fun _ _ => rfl) t he (fun r => r.recordTx env.now (.ok ()))
    .commandAcked env

/-- And a probe's frame as answered. -/
theorem answered_probe (t : Task E) {ieee : Ieee} {e : Entry} (he : t.devices.get ieee = some e)
    (allowRecovery : Bool) {env : Env} (hsend : env.sendZcl = .ok none) :
    ((t.probe ieee allowRecovery env).devices.get ieee).map (fun e => e.reachability.lastProbe) =
      some (some (env.now,.answered)) := by
  have hprobe : ∃ u : Task E, u.devices = t.devices ∧ t.probe ieee allowRecovery env =
      (u.modifyDevice ieee fun e =>
        { e with reachability := e.reachability.recordProbe env.now .answered }).assess ieee
          (.probe .answered) env := by
    have hanswered : probeResult env.sendZcl = .answered := by
      rw [hsend]
      rfl
    rw [probe,he]
    dsimp only
    rw [hanswered]
    exact ⟨t.transmitZcl .probe 0 _ env,rfl,rfl⟩
  obtain ⟨u,hu,hprobe⟩ := hprobe
  rw [hprobe]
  exact assessed_fact (fun _ _ => rfl) u (hu ▸ he) (fun r => r.recordProbe env.now .answered)
    (.probe .answered) env

/-- The checks after a probe are of other devices, so the answer stays on record. -/
theorem answered_runChecks (due : List (Ieee × NextCheck)) (t : Task E) (env : ℕ → Env)
    (hdistinct : due.Pairwise fun d d' => d.1 ≠ d'.1) {k : ℕ} {ieee : Ieee} {time : Instant}
    {attempts : UInt8} {recover : Bool}
    (hk : due[k]? = some (ieee,.probe time attempts recover)) {e : Entry}
    (he : t.devices.get ieee = some e) (hsend : (env k).sendZcl = .ok none) :
    ((runChecks due t env).devices.get ieee).map (fun e => e.reachability.lastProbe) =
      some (some ((env k).now,.answered)) := by
  induction due generalizing t env k e with
  | nil => simp at hk
  | cons d due ih =>
    obtain ⟨hfirst,hrest⟩ := List.pairwise_cons.mp hdistinct
    cases k with
    | zero =>
      obtain rfl := Option.some.inj hk
      let u := t.probe ieee recover (env 0)
      have hpath : Path (fun j _ => j ≠ ieee) u.view (runChecks due u fun k => env (k+1)).view :=
        path_runChecks due u _ fun k j time attempts recover hj =>
          Ne.symm (hfirst _ (List.mem_of_getElem? hj))
      have hothers := fact_path (g := ReachabilityInfo.lastProbe) (i := ieee) hpath
        (fun _ _ => rfl) fun _ hm => absurd rfl hm
      exact hothers.trans (t.answered_probe he recover hsend)
    | succ k =>
      have hpath : Path (fun _ _ => True) t.view (t.runCheck d.1 d.2 (env 0)).view :=
        t.path_runCheck fun _ _ _ _ => trivial
      have hkept := fact_path (g := fun _ => ()) (i := ieee) hpath (fun _ _ => rfl) fun _ _ _ => rfl
      have hsome : ∃ e', (t.runCheck d.1 d.2 (env 0)).devices.get ieee = some e' := by
        have hview : t.view.devices = t.devices := rfl
        rw [hview,he] at hkept
        obtain ⟨e',he',-⟩ := Option.map_eq_some_iff.mp hkept
        exact ⟨e',he'⟩
      obtain ⟨e',he'⟩ := hsome
      exact ih (t.runCheck d.1 d.2 (env 0)) (fun k => env (k+1)) hrest hk he' hsend

/-- When a check is to be run. -/
def checkTime : NextCheck → Option Instant
  | .probe due _ _ | .reassess due => some due
  | .awaitTraffic => none

theorem dueChecks_eq (t : Task E) (now : Instant) :
    t.dueChecks now = t.devices.all.filterMap fun e =>
      if (checkTime e.nextCheck).any (· ≤ now) then some (e.info.ieee,e.nextCheck) else none := by
  rw [dueChecks]
  congr 1
  funext e
  cases e.nextCheck <;> simp [checkTime]

/-- The checks that are due are those of the devices in the table. -/
theorem mem_dueChecks {t : Task E} (h : ∀ i e, t.devices.get i = some e → e.info.ieee = i)
    {now : Instant} {ieee : Ieee} {next : NextCheck} : (ieee,next) ∈ t.dueChecks now ↔
      (∃ e, t.devices.get ieee = some e ∧ e.nextCheck = next) ∧ (checkTime next).any (· ≤ now) := by
  simp only [dueChecks_eq,List.mem_filterMap,Option.ite_none_right_eq_some,Option.some.injEq,
    Prod.mk.injEq]
  constructor
  · rintro ⟨e,hmem,hdue,rfl,rfl⟩
    exact ⟨⟨e,Inventory.mem_all h hmem,rfl⟩,hdue⟩
  · rintro ⟨⟨e,he,rfl⟩,hdue⟩
    exact ⟨e,Inventory.mem_all_of_get he,hdue,h ieee e he,rfl⟩

/-- Each device is due at most once in a tick. -/
theorem due_distinct {t : Task E} (h : ∀ i e, t.devices.get i = some e → e.info.ieee = i)
    (now : Instant) : (t.dueChecks now).Pairwise fun d d' => d.1 ≠ d'.1 := by
  rw [dueChecks_eq]
  refine List.Pairwise.filterMap _ (fun e e' hne d hd d' hd' => ?_) (Inventory.all_ieee_nodup h)
  obtain rfl := Option.some.inj (Option.ite_none_right_eq_some.mp hd).2
  obtain rfl := Option.some.inj (Option.ite_none_right_eq_some.mp hd').2
  exact hne

theorem refused_of_not_taken {env : ℕ → Env} (hall : ∀ k rx, (env k).sendZcl ≠ .ok (some rx))
    {k : ℕ} (htaken : (env k).sendZcl ≠ .ok none) : ∃ e, (env k).sendZcl = .error e := by
  cases hsend : (env k).sendZcl with
  | error e => exact ⟨e,rfl⟩
  | ok rx =>
    cases rx with
    | none => exact absurd hsend htaken
    | some rx => exact absurd hsend (hall k rx)

/-- A command that was taken is on record as acknowledged. -/
theorem command_not_taken {t : Task E} (hrun : t.stopped = false) {ieee : Ieee}
    {command : DeviceCommand E} {env : ℕ → Env}
    (hsent : commandTx { t with requests := t.requests ++ [.command ieee command] } ieee
      command ≠ none) (h : (t.step (.request (.command ieee command) env)).Unanswered) :
    (env 0).sendZcl ≠ .ok none := by
  intro hsend
  let u : Task E := { t with requests := t.requests ++ [.command ieee command] }
  obtain ⟨e,he⟩ := known_commandTx hsent
  have hstep : t.step (.request (.command ieee command) env) =
      u.handleRequest (.command ieee command) t.requests.length env := by
    simp [step,hrun,u]
  rcases u.runCommand_cases ieee command t.requests.length (env 0) with
    ⟨hnone,-⟩ | ⟨tx,w,-,hview,hcommand⟩
  · exact hsent hnone
  · have hw : w.devices.get ieee = some e := by
      have hdevices : w.devices = u.devices := congrArg View.devices hview
      rw [hdevices]
      exact he
    have hacked := w.acked_commandResult hw hsend
    rw [← hcommand] at hacked
    obtain ⟨e',he',htx⟩ := Option.map_eq_some_iff.mp hacked
    rw [hstep] at h
    have hnone := (h ieee e' he').1
    rw [htx] at hnone
    cases hnone

/-- A probe that was taken is on record as answered. -/
theorem probe_not_taken {t : Task E} (hrun : t.stopped = false) (hsound : t.devices.Sound)
    {env : ℕ → Env} {k : ℕ} {ieee : Ieee} {time : Instant} {attempts : UInt8} {recover : Bool}
    (hk : (t.dueChecks (env 1).now)[k]? = some (ieee,.probe time attempts recover))
    (h : (t.step (.tick env)).Unanswered) : (env (k+2)).sendZcl ≠ .ok none := by
  intro hsend
  obtain ⟨⟨e,he,-⟩,-⟩ := (mem_dueChecks hsound.keyed).mp (List.mem_of_getElem? hk)
  have hstep : t.step (.tick env) = t.tick env := by
    simp [step,hrun]
  have hexpired : (t.expirePendingZdo (env 0).now).devices = t.devices :=
    t.alters_expirePendingZdo (env 0).now .devices (by decide)
  have hanswered := answered_runChecks (t.dueChecks (env 1).now)
    (t.expirePendingZdo (env 0).now) (fun k => env (k+2)) (due_distinct hsound.keyed _) hk
    (hexpired ▸ he) hsend
  have htick : (t.tick env).devices = (runChecks (t.dueChecks (env 1).now)
      (t.expirePendingZdo (env 0).now) fun k => env (k+2)).devices :=
    congrArg View.devices (view_tick t env)
  rw [← htick,← hstep] at hanswered
  obtain ⟨e',he',hprobe⟩ := Option.map_eq_some_iff.mp hanswered
  exact (h ieee e' he').2 _ hprobe

/-- Where nothing is ever taken for an answer, everything sent was refused. -/
theorem refused_of_unanswered {t : Task E} {i : Input E} (haccepts : Accepts i)
    (hsound : t.devices.Sound) (h : (t.step i).Unanswered) : t.Refused i := by
  unfold Refused
  split
  · intro hrun hsent
    exact refused_of_not_taken haccepts (command_not_taken hrun hsent h)
  · intro hrun k ieee time attempts recover hk
    exact refused_of_not_taken haccepts (probe_not_taken hrun hsound hk h)
  · trivial

/-- With an adapter that only ever says the coordinator took a frame, nothing passes for an
answer and a silent device's failures are never forgotten exactly when it takes no probe and
no command. -/
theorem unanswered_iff_refused (config : TaskConfig E) (env : Env) {is : List (Input E)}
    (haccepts : ∀ i ∈ is, Accepts i) :
    (∀ pre, pre <+: is → (Runs.run step (start config env) pre).Unanswered) ∧
        Runs.Meets step KeepsFailures (start config env) is ↔
      Runs.Meets step Refused (start config env) is := by
  have hsound := inventory_sound_start config env
  have hstart : (start config env).Unanswered :=
    each_start (fun _ => ⟨rfl,nofun⟩) fun _ _ => ⟨rfl,nofun⟩
  have hiff := Runs.always_iff_meets_of step (A := Accepts) (J := fun t => t.devices.Sound)
    (P := Unanswered) (C := Refused) (fun t i _ => inventory_sound_step t i)
    (fun t i hi hs h => ⟨refused_of_unanswered hi hs,unanswered_of_refused h⟩) hsound hstart is
    haccepts
  constructor
  · intro h
    exact hiff.mp h.1
  · intro h
    refine ⟨hiff.mpr h,?_⟩
    exact Runs.Meets.imp step (A := fun _ => True) (J := fun _ => True) (fun _ _ _ _ => trivial)
      (fun t i _ _ => keepsFailures_of_refused) trivial (fun _ _ => trivial) h

/-- A runtime whose policy has every device it hears from probed. -/
def probing : TaskConfig Engine.bare where
  reachability ctx := ⟨.unknown,.probe ctx.now 1 false⟩
  interviewOnJoin := false
  devices := []
  outcome := .formed
  coordinator := ⟨0xc0⟩
  networkKnown := false
  registry := ()
  store := .new

theorem start_probing : start probing {} = { fresh with reachability := probing.reachability } := by
  rw [fresh_eq]
  simp only [start,startup,registerCustomClusters_bare]
  rfl

/-- A device joins and is probed; the adapter's answer to the probe is `sendZcl`. -/
def probes (sendZcl : Except AdapterError (Option ZclRx)) : List (Input Engine.bare) :=
  [joins ⟨0xa⟩ ⟨0x1001⟩,.tick fun _ => { sendZcl := sendZcl }]

theorem refused_probe_is_no_answer :
    Runs.Meets step Refused (start probing {}) (probes (.error (.tx .noAck))) ∧
      ∀ pre, pre <+: probes (.error (.tx .noAck)) →
        (Runs.run step (start probing {}) pre).Unanswered := by
  have haccepts : ∀ i ∈ probes (.error (.tx .noAck)), Accepts i := by
    intro i hi
    simp only [probes,List.mem_cons,List.not_mem_nil,or_false] at hi
    rcases hi with rfl | rfl
    · exact fun _ _ => nofun
    · exact fun _ _ => nofun
  have hrefused : Runs.Meets step Refused (start probing {}) (probes (.error (.tx .noAck))) :=
    ⟨trivial,fun _ _ _ _ _ _ _ => ⟨_,rfl⟩,trivial⟩
  exact ⟨hrefused,((unanswered_iff_refused probing {} haccepts).mpr hrefused).1⟩

/-- The coordinator takes the probe of a device that says nothing, and the device has answered. -/
theorem accepted_probe_is_an_answer : ¬ ∀ is : List (Input Engine.bare), (∀ i ∈ is, Accepts i) →
    ∀ pre, pre <+: is → (Runs.run step (start probing {}) pre).Unanswered := by
  intro h
  have haccepts : ∀ i ∈ probes (.ok none), Accepts i := by
    intro i hi
    simp only [probes,List.mem_cons,List.not_mem_nil,or_false] at hi
    rcases hi with rfl | rfl
    · exact fun _ _ => nofun
    · exact fun _ _ => nofun
  let t := Runs.run step (start probing {}) [joins ⟨0xa⟩ ⟨0x1001⟩]
  have hsound : t.devices.Sound :=
    inventory_sound_step (start probing {}) (joins ⟨0xa⟩ ⟨0x1001⟩) (inventory_sound_start probing {})
  have hrefused : t.Refused (.tick fun _ => { sendZcl := .ok none }) :=
    refused_of_unanswered (haccepts _ (by simp [probes])) hsound (h _ haccepts _ List.prefix_rfl)
  have hchecked : (t.devices.get ⟨0xa⟩).map Entry.nextCheck = some (.probe 0 1 false) := by
    simp only [t,start_probing,fresh_eq]
    rfl
  have hdue : (⟨0xa⟩,.probe 0 1 false) ∈ t.dueChecks 0 :=
    (mem_dueChecks hsound.keyed).mpr ⟨Option.map_eq_some_iff.mp hchecked,rfl⟩
  obtain ⟨k,hk⟩ := List.mem_iff_getElem?.mp hdue
  have hrun : t.stopped = false := by
    simp only [t,start_probing,fresh_eq]
    rfl
  obtain ⟨e',he'⟩ := hrefused hrun k _ _ _ _ hk
  cases he'

end Judged

end Task
end Rszigbee
