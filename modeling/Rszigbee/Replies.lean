import Rszigbee.Answering
import Rszigbee.Interviews
import Rszigbee.Traffic

/-! What becomes of a request in the loop: it is answered at once, or it waits, or an interview
will answer it, or a later request takes its place under its key. -/
namespace Rszigbee

variable {E : Engine}

/-- Something comes back on a reply channel. -/
def Request.expects : Request E → Bool
  | .interviewUpdate _ _ => false
  | _ => true

namespace Task

section Books

theorem sweep_keeps {P : Exchange E → Prop}
    (hstep : ∀ l op, l.Sound Waiter.reply Question.form → op.Faithful Waiter.reply Question.form l →
      P l → P (l.step Waiter.reply op)) {l : Exchange E}
    (hs : l.Sound Waiter.reply Question.form) (h : P l) (zdo : List (ZdoClusterId × UInt8))
    (zcl : List (ClusterId × UInt8)) (zdoReply zclReply : Waiter → Reply E) (cause : Cause) :
    P (sweep l zdo zcl zdoReply zclReply cause) :=
  Ledger.settleAll_induction hstep (hs.settleAll _ _)
    (Ledger.settleAll_induction hstep hs h _ _) _ _

/-- What every operation on sound books keeps, a turn of the loop keeps. -/
theorem ledger_step {P : Exchange E → Prop}
    (hstep : ∀ l op, l.Sound Waiter.reply Question.form → op.Faithful Waiter.reply Question.form l →
      P l → P (l.step Waiter.reply op)) {t : Task E} (hs : t.Sound) (h : P t.ledger) (i : Input E) :
    P (t.step i).ledger := by
  by_cases hstopped : t.stopped = true
  · rwa [step_stopped hstopped]
  · have hrun : t.stopped = false := by simpa using hstopped
    have hdrained : P t.drained := sweep_keeps hstep hs h _ _ _ _ _
    have hturn := turn hrun i
    generalize (t.step i).ledger = l at hturn
    cases hturn with
    | zdo ieee cluster build env => exact hstep _ _ hs (faithful_zdoOp t ieee cluster build _) h
    | read ieee endpoint cluster attributes env =>
      exact hstep _ _ hs (faithful_readOp t ieee endpoint cluster attributes _) h
    | plain hplain env hop => exact hstep _ _ hs (hop.faithful _) h
    | stop env ha hfits => exact hstep _ _ (sound_sweep hs _ _ _ _ _) trivial hdrained
    | frame hop env =>
      obtain ⟨k,a,rfl⟩ := frameOp_settle hop
      exact hstep _ _ hs trivial h
    | silent hop env => exact h
    | tick env => exact sweep_keeps hstep hs h _ _ _ _ _
    | abandon reply => exact h
    | handlesDropped env => exact hdrained
    | adapterClosed env => exact hdrained

/-- Whom nobody waits for any more gets nothing more. -/
theorem closed_step {t : Task E} (hs : t.Sound) {id : ℕ} (h : t.ledger.Closed Waiter.reply id)
    (i : Input E) : (t.step i).ledger.Closed Waiter.reply id ∧
      (t.step i).repliesTo id = t.repliesTo id := by
  refine ledger_step (P := fun l => l.Closed Waiter.reply id ∧ l.answers id = t.repliesTo id)
    (fun l op _ hop hl => ?_) hs ⟨h,rfl⟩ i
  obtain ⟨hclosed,hsame⟩ := hl.1.step hop
  exact ⟨hclosed,hsame.trans hl.2⟩

/-- A caller that has an answer does not wait. -/
theorem closed_of_answered {t : Task E} (hs : t.Sound) {id : ℕ} (h : t.repliesTo id ≠ []) :
    t.ledger.Closed Waiter.reply id := by
  constructor
  · by_contra hlate
    exact h (hs.unopened id (Nat.le_of_not_lt hlate))
  · rintro k w hw rfl
    exact h (hs.unanswered k w hw)

end Books

section Disposal

/-- What becomes of a request that is neither a read nor a ZDO request. -/
def Disposed (t : Task E) (id : ℕ) (request : Request E) : Prop :=
  t.repliesTo id ≠ [] ∨ (∃ ieee, (ieee,some id) ∈ t.interviews) ∨
    ∃ ieee update, request = .interviewUpdate ieee update

theorem repliesTo_answer (t : Task E) (id : ℕ) (reply : Reply E) (cause : Cause) :
    (t.answer id reply cause).repliesTo id ≠ [] := by
  simp [repliesTo,answer]

/-- It is answered in the turn that receives it, unless it starts an interview or reports one. -/
theorem disposed_request {t : Task E} (hrun : t.stopped = false) {request : Request E}
    (h : waits request = false) (env : ℕ → Env) :
    (t.step (.request request env)).Disposed t.requests.length request := by
  have hstep : t.step (.request request env) =
      { t with requests := t.requests ++ [request] }.handleRequest request t.requests.length
        env := by
    simp [step,hrun]
  rw [hstep]
  cases request with
  | zdo ieee cluster build => cases h
  | zclRead ieee endpoint cluster attributes => cases h
  | interviewUpdate ieee update => exact .inr (.inr ⟨ieee,update,rfl⟩)
  | interview ieee =>
    simp only [handleRequest]
    split
    · exact .inr (.inl ⟨ieee,by simp [spawnInterview]⟩)
    · exact .inl (repliesTo_answer _ _ _ _)
  | configure ieee =>
    simp only [handleRequest]
    split
    · exact .inl (repliesTo_answer _ _ _ _)
    · exact .inl (repliesTo_answer _ _ _ _)
  | devices => exact .inl (repliesTo_answer _ _ _ _)
  | device ieee => exact .inl (repliesTo_answer _ _ _ _)
  | network => exact .inl (repliesTo_answer _ _ _ _)
  | definition ieee => exact .inl (repliesTo_answer _ _ _ _)
  | configurePlan ieee => exact .inl (repliesTo_answer _ _ _ _)
  | permitJoin duration via => exact .inl (repliesTo_answer _ _ _ _)
  | command ieee command => exact .inl (repliesTo_answer _ _ _ _)
  | stop => exact .inl (repliesTo_answer _ _ _ _)

theorem Disposed.step {t : Task E} (hs : t.Sound) {id : ℕ} {request : Request E}
    (h : t.Disposed id request) (i : Input E) : (t.step i).Disposed id request := by
  rcases h with hanswered | ⟨ieee,hieee⟩ | hupdate
  · refine .inl ?_
    rw [(closed_step hs (closed_of_answered hs hanswered) i).2]
    exact hanswered
  · refine .inr (.inl ⟨ieee,?_⟩)
    by_cases hstopped : t.stopped = true
    · rwa [step_stopped hstopped]
    · rw [interviews_step (by simpa using hstopped)]
      exact List.mem_append_left _ hieee
  · exact .inr (.inr hupdate)

end Disposal

section Kinds

/-- Whose answer waits under which key. -/
def awaits : Request E → WaitKey → Prop
  | .zdo _ _ _, .inl _ => True
  | .zclRead _ _ _ _, .inr _ => True
  | _, _ => False

/-- Every answer is of the kind that was asked for, and everyone waits for one of its kind. -/
structure Typed (requests : List (Request E)) (l : Exchange E) : Prop where
  answers : ∀ id, ∀ a ∈ l.answers id, ∃ request, requests[id]? = some request ∧ fits request a.reply
  waiting : ∀ k w, l.waiting k = some w →
    ∃ request, requests[w.reply]? = some request ∧ awaits request k

variable {requests : List (Request E)} {l : Exchange E}

theorem Typed.append (h : Typed requests l) (request : Request E) :
    Typed (requests ++ [request]) l where
  answers id a ha := by
    obtain ⟨request',hrequest,hfits⟩ := h.answers id a ha
    exact ⟨request',List.getElem?_append_left (List.getElem?_eq_some_iff.mp hrequest).1 ▸ hrequest,
      hfits⟩
  waiting k w hw := by
    obtain ⟨request',hrequest,hawaits⟩ := h.waiting k w hw
    exact ⟨request',List.getElem?_append_left (List.getElem?_eq_some_iff.mp hrequest).1 ▸ hrequest,
      hawaits⟩

/-- One more answer of the kind that was asked for. -/
theorem Typed.give (h : Typed requests l) {id : ℕ} {request : Request E}
    (hrequest : requests[id]? = some request) {a : Answer E} (ha : fits request a.reply) :
    ∀ n, ∀ b ∈ Ledger.give l.answers id a n, ∃ request, requests[n]? = some request ∧
      fits request b.reply := by
  intro n b hb
  rcases Ledger.mem_give.mp hb with hold | ⟨rfl,rfl⟩
  · exact h.answers n b hold
  · exact ⟨request,hrequest,ha⟩

/-- What may be settled under a key. -/
def settles : WaitKey → Reply E → Prop
  | .inl _, reply => ∃ result, reply = .zdo result
  | .inr _, reply => ∃ result, reply = .zclRead result

theorem fits_of_awaits {request : Request E} {k : WaitKey} {reply : Reply E}
    (h : awaits request k) (hreply : settles k reply) : fits request reply := by
  cases request with
  | zdo ieee cluster build =>
    cases k with
    | inl key =>
      obtain ⟨result,rfl⟩ := hreply
      trivial
    | inr key => exact h.elim
  | zclRead ieee endpoint cluster attributes =>
    cases k with
    | inl key => exact h.elim
    | inr key =>
      obtain ⟨result,rfl⟩ := hreply
      trivial
  | _ => exact h.elim

theorem Typed.settle (h : Typed requests l) {k : WaitKey} {a : Waiter → Answer E}
    (ha : ∀ w, settles k (a w).reply) :
    Typed requests (l.step Waiter.reply (.settle k a)) := by
  cases hw : l.waiting k with
  | none =>
    rw [Ledger.step_settle_none _ hw]
    exact h
  | some w =>
    obtain ⟨request,hrequest,hawaits⟩ := h.waiting k w hw
    refine ⟨?_,fun k' w' hw' => ?_⟩
    · rw [Ledger.step_settle_some _ hw]
      exact h.give hrequest (fits_of_awaits hawaits (ha w))
    · rw [Ledger.settle_waiting] at hw'
      split at hw'
      · cases hw'
      · exact h.waiting k' w' hw'

theorem Typed.settleAll (h : Typed requests l) {ks : List WaitKey} {a : Waiter → Answer E}
    (ha : ∀ k ∈ ks, ∀ w, settles k (a w).reply) :
    Typed requests (l.settleAll Waiter.reply ks a) := by
  induction ks generalizing l with
  | nil => exact h
  | cons k ks ih =>
    exact ih (h.settle (ha k (by simp))) fun k' hk' => ha k' (by simp [hk'])

theorem Typed.sweep (h : Typed requests l) (zdo : List (ZdoClusterId × UInt8))
    (zcl : List (ClusterId × UInt8)) {zdoReply zclReply : Waiter → Reply E} (cause : Cause)
    (hzdo : ∀ w, ∃ result, zdoReply w = .zdo result)
    (hzcl : ∀ w, ∃ result, zclReply w = .zclRead result) :
    Typed requests (sweep l zdo zcl zdoReply zclReply cause) := by
  refine (h.settleAll fun k hk w => ?_).settleAll fun k hk w => ?_
  · obtain ⟨key,-,rfl⟩ := List.mem_map.mp hk
    exact hzdo w
  · obtain ⟨key,-,rfl⟩ := List.mem_map.mp hk
    exact hzcl w

/-- What a request's own operation may answer, or leave waiting. -/
def Lodges (request : Request E) (n : ℕ) : ExchangeOp E → Prop
  | .hold => True
  | .refuse a => fits request a.reply
  | .meet _ a => fits request a.reply
  | .ask _ k w => w.reply = n ∧ awaits request k
  | .settle _ _ => False

theorem Typed.request (h : Typed requests l) (hopened : l.opened = requests.length)
    {request : Request E} {op : ExchangeOp E} (hop : Lodges request l.opened op) :
    Typed (requests ++ [request]) (l.step Waiter.reply op) := by
  have hnew : (requests ++ [request])[l.opened]? = some request := by
    rw [hopened]
    exact List.getElem?_concat_length
  have h' := h.append request
  cases op with
  | hold => exact ⟨h'.answers,h'.waiting⟩
  | refuse a => exact ⟨h'.give hnew hop,h'.waiting⟩
  | meet q a => exact ⟨h'.give hnew hop,h'.waiting⟩
  | ask q k w =>
    obtain ⟨hreply,hawaits⟩ := hop
    refine ⟨h'.answers,fun k' w' hw' => ?_⟩
    by_cases hk : k' = k
    · have he : w = w' := by simpa [Ledger.step,hk] using hw'
      rw [← he,hreply,hk]
      exact ⟨request,hnew,hawaits⟩
    · exact h'.waiting k' w' (by simpa [Ledger.step,hk] using hw')
  | settle k a => exact hop.elim

theorem lodges_zdoOp (t : Task E) (ieee : Ieee) (cluster : ZdoClusterId)
    (build : UInt8 → Nwk → Bytes) (n : ℕ) (env : Env) :
    Lodges (.zdo ieee cluster build) n (t.zdoOp ieee cluster build n env) := by
  unfold zdoOp
  split
  · trivial
  · dsimp only
    split
    · trivial
    · exact ⟨rfl,trivial⟩
    · trivial

theorem lodges_readOp (t : Task E) (ieee : Ieee) (endpoint : EndpointId) (cluster : ClusterId)
    (attributes : List AttrId) (n : ℕ) (env : Env) :
    Lodges (.zclRead ieee endpoint cluster attributes) n
      (t.readOp ieee endpoint cluster attributes n env) := by
  unfold readOp
  split
  · trivial
  · dsimp only
    split
    · trivial
    · exact ⟨rfl,trivial⟩
    · trivial

theorem lodges_plain {request : Request E} {op : ExchangeOp E} (hop : Plain request op) (n : ℕ) :
    Lodges request n op := by
  cases hop with
  | hold => trivial
  | refuse ha hfits => exact hfits

theorem typed_step (t : Task E) (i : Input E) (h : Typed t.requests t.ledger) :
    Typed (t.step i).requests (t.step i).ledger := by
  by_cases hstopped : t.stopped = true
  · rwa [step_stopped hstopped]
  · have hrun : t.stopped = false := by simpa using hstopped
    have hlog : (t.step i).requests = t.requests ++ (logged i).1 :=
      congrArg Prod.fst (logs_step hrun i)
    have hdrained : Typed t.requests t.drained :=
      h.sweep _ _ _ (fun _ => ⟨_,rfl⟩) fun _ => ⟨_,rfl⟩
    have hturn := turn hrun i
    rw [hlog]
    generalize (t.step i).ledger = l at hturn
    cases hturn with
    | zdo ieee cluster build env => exact h.request rfl (lodges_zdoOp t ieee cluster build _ _)
    | read ieee endpoint cluster attributes env =>
      exact h.request rfl (lodges_readOp t ieee endpoint cluster attributes _ _)
    | @plain request hplain env op hop => exact h.request rfl (lodges_plain hop _)
    | stop env ha hfits =>
      refine hdrained.request ?_ (lodges_plain (.refuse ha hfits) _)
      have hopened : t.drained.opened = t.ledger.opened := by
        simp [drained,sweep]
      exact hopened
    | @frame event origin op hop env =>
      simp only [logged,List.append_nil]
      unfold frameOp at hop
      split at hop
      · obtain rfl := Option.some.inj hop
        exact h.settle fun _ => ⟨_,rfl⟩
      · unfold readFrameOp at hop
        split at hop
        · cases hop
        · split at hop
          · cases hop
          · obtain rfl := Option.some.inj hop
            exact h.settle fun _ => ⟨_,rfl⟩
      · cases hop
    | silent hop env => simpa [logged] using h
    | tick env =>
      simp only [logged,List.append_nil]
      exact h.sweep _ _ _ (fun _ => ⟨_,rfl⟩) fun _ => ⟨_,rfl⟩
    | abandon reply => simpa [logged] using h
    | handlesDropped env => simpa [logged] using hdrained
    | adapterClosed env => simpa [logged] using hdrained

end Kinds

section Clear

/-- Nobody waits once every key has been settled. -/
theorem waiting_sweep {l : Exchange E} {zdo : List (ZdoClusterId × UInt8)}
    {zcl : List (ClusterId × UInt8)} {zdoReply zclReply : Waiter → Reply E} {cause : Cause}
    (hzdo : ∀ key w, l.waiting (.inl key) = some w → key ∈ zdo)
    (hzcl : ∀ key w, l.waiting (.inr key) = some w → key ∈ zcl) (k : WaitKey) :
    (sweep l zdo zcl zdoReply zclReply cause).waiting k = none := by
  by_contra hsome
  obtain ⟨w,hw⟩ := Option.ne_none_iff_exists'.mp hsome
  simp only [sweep,Ledger.settleAll_waiting] at hw
  cases k with
  | inl key =>
    have hthere : key ∉ zdo ∧ l.waiting (.inl key) = some w := by simpa using hw
    exact hthere.1 (hzdo key w hthere.2)
  | inr key =>
    have hthere : key ∉ zcl ∧ l.waiting (.inr key) = some w := by simpa using hw
    exact hthere.1 (hzcl key w hthere.2)

theorem waiting_drained (t : Task E) (k : WaitKey) : t.drained.waiting k = none := by
  have hkeys {K V : Type} [DecidableEq K] {table : Table K V} {key : K} {v : V}
      (h : table.lookup key = some v) : key ∈ table.keys :=
    AList.mem_keys.mp (AList.lookup_isSome.mp (by rw [h]; rfl))
  exact waiting_sweep (fun _ _ hw => hkeys hw) (fun _ _ hw => hkeys hw) k

/-- A tick late enough leaves nobody waiting. -/
theorem clear_tick {t : Task E} (hrun : t.stopped = false) :
    ∃ now : Instant, ∀ env : ℕ → Env, (env 0).now = now →
      ∀ k, (t.step (.tick env)).ledger.waiting k = none := by
  obtain ⟨zdoBound,hzdo⟩ := Table.exists_bound Waiter.deadline t.pendingZdo
  obtain ⟨zclBound,hzcl⟩ := Table.exists_bound Waiter.deadline t.pendingZcl
  refine ⟨max zdoBound zclBound,fun env hnow k => ?_⟩
  have hturn := turn hrun (.tick env)
  generalize (t.step (.tick env)).ledger = l at hturn
  cases hturn with
  | tick =>
    rw [expiredAt,hnow]
    refine waiting_sweep (fun key w hw => ?_) (fun key w hw => ?_) k
    · refine Table.mem_keysWhere.mpr ⟨w,hw,?_⟩
      have hdue := (hzdo key w hw).trans (le_max_left _ zclBound)
      simp [expired,hdue]
    · refine Table.mem_keysWhere.mpr ⟨w,hw,?_⟩
      have hdue := (hzcl key w hw).trans (le_max_right zdoBound _)
      simp [expired,hdue]

end Clear

section Answerable

/-- What every turn of the loop keeps of who asked and who was answered. -/
structure Answerable (t : Task E) : Prop where
  inOrder : t.InOrder
  single : t.ledger.Single
  accounted : t.ledger.Accounted Waiter.reply Question.form
  typed : Typed t.requests t.ledger
  disposed : ∀ id request, t.requests[id]? = some request → waits request = false →
    t.Disposed id request
  spawned : ∀ ieee id, (ieee,some id) ∈ t.interviews → t.requests[id]? = some (.interview ieee)
  idle : t.stopped = true → ∀ k, t.ledger.waiting k = none

theorem Answerable.sound {t : Task E} (h : t.Answerable) : t.Sound := h.inOrder.1

/-- Only one who asks for an interview waits for it. -/
theorem request_of_spawns {t : Task E} {i : Input E} {ieee : Ieee} {id : ℕ}
    (h : t.spawns i = some (ieee,some id)) :
    ∃ env, i = .request (.interview ieee) env ∧ id = t.requests.length := by
  unfold spawns at h
  split at h
  · rename_i env
    split at h
    · cases h
      exact ⟨env,rfl,rfl⟩
    · cases h
  · obtain ⟨a,-,ha⟩ := Option.bind_eq_some_iff.mp h
    split at ha
    · cases ha
    · cases ha
  · cases h

theorem answerable_step {t : Task E} (h : t.Answerable) (i : Input E) : (t.step i).Answerable where
  inOrder := inOrder_step t i h.inOrder
  single := ledger_step (P := Ledger.Single) (fun _ op hs _ hl => hl.step hs op) h.sound h.single i
  accounted := ledger_step (P := fun l => l.Accounted Waiter.reply Question.form)
    (fun _ _ hs hop hl => hl.step hs hop) h.sound h.accounted i
  typed := typed_step t i h.typed
  disposed id request hrequest hplain := by
    by_cases hstopped : t.stopped = true
    · rw [step_stopped hstopped] at hrequest ⊢
      exact h.disposed id request hrequest hplain
    · have hrun : t.stopped = false := by simpa using hstopped
      have hlog : (t.step i).requests = t.requests ++ (logged i).1 :=
        congrArg Prod.fst (logs_step hrun i)
      rw [hlog] at hrequest
      rcases Nat.lt_or_ge id t.requests.length with hold | hnew
      · rw [List.getElem?_append_left hold] at hrequest
        exact (h.disposed id request hrequest hplain).step h.sound i
      · rw [List.getElem?_append_right hnew] at hrequest
        cases i with
        | request r env =>
          obtain ⟨hzero,rfl⟩ : id - t.requests.length = 0 ∧ r = request := by
            simpa [logged,List.getElem?_singleton] using hrequest
          have hid : id = t.requests.length := by omega
          rw [hid]
          exact disposed_request hrun hplain env
        | _ => simp [logged] at hrequest
  spawned ieee id hieee := by
    by_cases hstopped : t.stopped = true
    · rw [step_stopped hstopped] at hieee ⊢
      exact h.spawned ieee id hieee
    · have hrun : t.stopped = false := by simpa using hstopped
      have hlog : (t.step i).requests = t.requests ++ (logged i).1 :=
        congrArg Prod.fst (logs_step hrun i)
      rw [interviews_step hrun,List.mem_append,Option.mem_toList] at hieee
      rw [hlog]
      rcases hieee with hold | hnew
      · have hrequest := h.spawned ieee id hold
        rwa [List.getElem?_append_left (List.getElem?_eq_some_iff.mp hrequest).1]
      · obtain ⟨env,rfl,rfl⟩ := request_of_spawns hnew
        exact List.getElem?_concat_length
  idle hstop k := by
    by_cases hstopped : t.stopped = true
    · rw [step_stopped hstopped]
      exact h.idle hstopped k
    · have hrun : t.stopped = false := by simpa using hstopped
      rw [stopped_step,hrun,Bool.false_or] at hstop
      have hturn := turn hrun i
      generalize (t.step i).ledger = l at hturn
      cases hturn with
      | plain hplain env hop => rename_i request _; cases request <;> cases hplain <;> cases hstop
      | stop env ha hfits => exact t.waiting_drained k
      | handlesDropped env => exact t.waiting_drained k
      | adapterClosed env => exact t.waiting_drained k
      | _ => cases hstop

theorem requests_start (config : TaskConfig E) (env : Env) : (start config env).requests = [] := by
  have hopened : (start config env).ledger.opened = 0 := by
    rw [ledger_start]
    rfl
  exact List.length_eq_zero_iff.mp hopened

theorem interviews_start (config : TaskConfig E) (env : Env) :
    (start config env).interviews = [] := by
  have hview : (start config env).interviews =
      ((Task.new config).registerCoordinator env).interviews :=
    congrArg View.interviews (view_start config env)
  rw [hview,registerCoordinator]
  split <;> rfl

theorem answerable_start (config : TaskConfig E) (env : Env) : (start config env).Answerable := by
  have hnone := requests_start config env
  refine ⟨inOrder_start config env,?_,?_,?_,?_,?_,?_⟩
  · rw [ledger_start]
    simp [Ledger.Single,Ledger.new]
  · rw [ledger_start]
    simp [Ledger.Accounted,Ledger.new]
  · rw [ledger_start,hnone]
    exact ⟨by simp [Ledger.new],by simp [Ledger.new]⟩
  · intro id request hrequest
    simp [hnone] at hrequest
  · intro ieee id hieee
    simp [interviews_start] at hieee
  · intro hstopped
    rw [stopped_start] at hstopped
    cases hstopped

/-- A request that has no answer, and for which nothing is to come, has lost its key to a later
one. -/
theorem displaced {t : Task E} (h : t.Answerable) {id : ℕ} {request : Request E}
    (hrequest : t.requests[id]? = some request) (hexpects : request.expects = true)
    (hnone : t.repliesTo id = []) (hwaiting : ∀ k w, t.ledger.waiting k = some w → w.reply ≠ id)
    (hinterview : ∀ ieee, (ieee,some id) ∉ t.interviews) :
    ∃ q id' q', t.Asked id q ∧ id < id' ∧ t.Asked id' q' ∧ q'.key = q.key := by
  cases hwaits : waits request with
  | true =>
    rcases h.inOrder.2.refused id request hrequest hwaits with ⟨q,hq⟩ | ⟨-,a,ha,-⟩
    · rcases h.accounted id q hq with hanswered | ⟨w,hw,hwho⟩ | ⟨id',q',hlt,hq',hkey⟩
      · exact absurd hnone hanswered
      · exact absurd hwho (hwaiting _ w hw)
      · exact ⟨q,id',q',hq,hlt,hq',hkey⟩
    · have hthis : t.repliesTo id = [a] := ha
      rw [hnone] at hthis
      cases hthis
  | false =>
    rcases h.disposed id request hrequest hwaits with hanswered | ⟨ieee,hieee⟩ | ⟨ieee,update,rfl⟩
    · exact absurd hnone hanswered
    · exact absurd hieee (hinterview ieee)
    · cases hexpects

end Answerable

end Task
end Rszigbee
