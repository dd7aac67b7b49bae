import Rszigbee.Turns

/-! Every request is answered once.
A pending request is lost exactly when a later one is put under its key, which takes a
sequence number that has come round to one still in the map. -/
namespace Rszigbee
namespace Task

variable {E : Engine}

section Statement

/-- The replies sent on one reply channel. -/
def repliesTo (t : Task E) (id : ℕ) : List (Answer E) := t.replies.filter fun a => a.id = id

/-- The response to the transmission, the adapter's error, a timeout at or after the deadline
(earlier only when the caller has gone away), or the end of the task. -/
def ZdoProper (t : Task E) (s : Sent ZdoTx) (a : Answer E) : Prop :=
  match a.cause with
  | .inline => ∃ payload, a.reply = .zdo (.ok payload)
  | .zdoFrame cluster _ payload => a.reply = .zdo (.ok payload) ∧
      cluster = s.tx.cluster.response ∧ payload.head? = some s.sequence
  | .sendError => ∃ e, a.reply = .zdo (.error (.adapter e))
  | .timeout now => (∃ ieee, a.reply = .zdo (.error (.zdoTimeout ieee zdoTimeout))) ∧
      (s.sentAt + zdoTimeout ≤ now ∨ a.id ∈ t.abandoned)
  | .shutdown => a.reply = .zdo (.error .stopped) ∧ t.stopped = true
  | _ => False

def ReadProper (t : Task E) (s : Sent ZclTx) (a : Answer E) : Prop :=
  match a.cause with
  | .inline => ∃ values, a.reply = .zclRead (.ok values)
  | .zclFrame ieee cluster frame _ => cluster = s.tx.cluster ∧ frame.header.tsn = s.sequence ∧
      ((∃ values, a.reply = .zclRead (.ok values)) ∨
        ∃ status, a.reply = .zclRead (.error (.readRefused ieee status)))
  | .sendError => ∃ e, a.reply = .zclRead (.error (.adapter e))
  | .timeout now => (∃ ieee, a.reply = .zclRead (.error (.zclTimeout ieee zdoTimeout))) ∧
      (s.sentAt + zdoTimeout ≤ now ∨ a.id ∈ t.abandoned)
  | .shutdown => a.reply = .zclRead (.error .stopped) ∧ t.stopped = true
  | _ => False

/-- The caller of a transmission is waiting, or has its one answer. -/
def ZdoAnswered (t : Task E) (id : ℕ) (s : Sent ZdoTx) : Prop :=
  (t.repliesTo id = [] ∧
    ∃ w, t.pendingZdo.lookup (s.tx.cluster.response,s.sequence) = some w ∧ w.reply = id) ∨
  ∃ a, t.repliesTo id = [a] ∧ t.ZdoProper s a

def ReadAnswered (t : Task E) (id : ℕ) (s : Sent ZclTx) : Prop :=
  (t.repliesTo id = [] ∧
    ∃ w, t.pendingZcl.lookup (s.tx.cluster,s.sequence) = some w ∧ w.reply = id) ∨
  ∃ a, t.repliesTo id = [a] ∧ t.ReadProper s a

/-- The reply of a request that is not accepted. -/
def refusal : Reply E → Bool
  | .zdo (.error (.unknownDevice _)) => true
  | .zclRead (.error (.unknownDevice _)) => true
  | _ => false

/-- The requests that wait for a response from the air. -/
def waits : Request E → Bool
  | .zdo _ _ _ => true
  | .zclRead _ _ _ _ => true
  | _ => false

/-- Every ZDO request and read received was refused for an unknown device, or was accepted
and sent; then its caller is waiting, unanswered, or has exactly one answer, a proper one. -/
def AnsweredOnce (t : Task E) : Prop :=
  ∀ id request, t.requests[id]? = some request → waits request = true →
    ((∀ q, ¬ t.Asked id q) ∧ ∃ a, t.repliesTo id = [a] ∧ refusal a.reply = true) ∨
    (∃ s ∈ t.sentZdo, s.purpose = .zdo id ∧ t.ZdoAnswered id s) ∨
    ∃ (i : ℕ) (s : Sent ZclTx), t.sentZcl[i]? = some s ∧ s.purpose = .read id ∧
      t.ReadAnswered id s

/-- Nothing whose deadline has passed is pending. -/
def NoneOverdue (t : Task E) (now : Instant) : Prop :=
  (∀ key w, t.pendingZdo.lookup key = some w → now < w.deadline) ∧
  ∀ key w, t.pendingZcl.lookup key = some w → now < w.deadline

/-- A request that is left waiting finds no other under its key. -/
def KeyFree (t : Task E) : Input E → Prop
  | .request (.zdo ieee cluster _) env => t.stopped = false → (t.devices.get ieee).isSome →
      (env 0).sendZdo = .ok none →
      t.pendingZdo.lookup (cluster.response,t.zdoSequence + 1) = none
  | .request (.zclRead ieee _ cluster _) env => t.stopped = false → (t.devices.get ieee).isSome →
      (env 0).sendZcl = .ok none → t.pendingZcl.lookup (cluster,t.zclSequence + 1) = none
  | _ => True

end Statement

section Accounts

/-- What answers a question properly. -/
def Proper (t : Task E) : Question → ℕ → Answer E → Prop
  | .zdo s, id, a => a.id = id ∧ t.ZdoProper s a
  | .read _ s, id, a => a.id = id ∧ t.ReadProper s a

/-- What is sent for a caller was asked by it, and what is not sent was refused. -/
structure Accepted (requests : List (Request E)) (l : Exchange E) : Prop where
  length : requests.length = l.opened
  rooted : ∀ id q, (id,q) ∈ l.asked → ∃ request, requests[id]? = some request ∧
    waits request = true
  refused : ∀ id request, requests[id]? = some request → waits request = true →
    (∃ q, (id,q) ∈ l.asked) ∨ l.Refused (fun a => refusal a.reply = true) id

theorem zdoProper_mono {t t' : Task E} (hstopped : t.stopped = true → t'.stopped = true)
    (habandoned : t.abandoned ⊆ t'.abandoned) {s : Sent ZdoTx} {a : Answer E}
    (h : t.ZdoProper s a) : t'.ZdoProper s a := by
  unfold ZdoProper at h ⊢
  cases hc : a.cause with
  | timeout now =>
    simp only [hc] at h ⊢
    exact ⟨h.1,h.2.imp_right fun hmem => habandoned hmem⟩
  | shutdown =>
    simp only [hc] at h ⊢
    exact ⟨h.1,hstopped h.2⟩
  | inline => simpa only [hc] using h
  | sendError => simpa only [hc] using h
  | zdoFrame cluster nwk payload => simpa only [hc] using h
  | handled => simp only [hc] at h
  | zclFrame ieee cluster frame origin => simp only [hc] at h

theorem readProper_mono {t t' : Task E} (hstopped : t.stopped = true → t'.stopped = true)
    (habandoned : t.abandoned ⊆ t'.abandoned) {s : Sent ZclTx} {a : Answer E}
    (h : t.ReadProper s a) : t'.ReadProper s a := by
  unfold ReadProper at h ⊢
  cases hc : a.cause with
  | timeout now =>
    simp only [hc] at h ⊢
    exact ⟨h.1,h.2.imp_right fun hmem => habandoned hmem⟩
  | shutdown =>
    simp only [hc] at h ⊢
    exact ⟨h.1,hstopped h.2⟩
  | inline => simpa only [hc] using h
  | sendError => simpa only [hc] using h
  | zclFrame ieee cluster frame origin => simpa only [hc] using h
  | handled => simp only [hc] at h
  | zdoFrame cluster nwk payload => simp only [hc] at h

theorem proper_mono {t t' : Task E} (hstopped : t.stopped = true → t'.stopped = true)
    (habandoned : t.abandoned ⊆ t'.abandoned) (q : Question) (id : ℕ) (a : Answer E)
    (h : t.Proper q id a) : t'.Proper q id a := by
  cases q with
  | zdo s => exact ⟨h.1,zdoProper_mono hstopped habandoned h.2⟩
  | read i s => exact ⟨h.1,readProper_mono hstopped habandoned h.2⟩

theorem zdoAnswered_iff (t : Task E) (id : ℕ) (s : Sent ZdoTx) : t.ZdoAnswered id s ↔
    (t.ledger.answers id = [] ∧
      ∃ w, t.ledger.waiting (Question.form.key (.zdo s)) = some w ∧ w.reply = id) ∨
    ∃ a, t.ledger.answers id = [a] ∧ t.Proper (.zdo s) id a := by
  refine or_congr Iff.rfl (exists_congr fun a => and_congr_right fun ha => ?_)
  have hid : a.id = id := by
    have hmem : a ∈ t.ledger.answers id := by
      change a ∈ t.repliesTo id
      simp [ha]
    exact (mem_answers.mp hmem).2
  exact (and_iff_right hid).symm

theorem readAnswered_iff (t : Task E) (id i : ℕ) (s : Sent ZclTx) : t.ReadAnswered id s ↔
    (t.ledger.answers id = [] ∧
      ∃ w, t.ledger.waiting (Question.form.key (.read i s)) = some w ∧ w.reply = id) ∨
    ∃ a, t.ledger.answers id = [a] ∧ t.Proper (.read i s) id a := by
  refine or_congr Iff.rfl (exists_congr fun a => and_congr_right fun ha => ?_)
  have hid : a.id = id := by
    have hmem : a ∈ t.ledger.answers id := by
      change a ∈ t.repliesTo id
      simp [ha]
    exact (mem_answers.mp hmem).2
  exact (and_iff_right hid).symm

/-- Over sound books, the statement is that the ledger answers everyone once. -/
theorem answeredOnce_iff {t : Task E} (hs : t.Sound) (ha : Accepted t.requests t.ledger) :
    t.AnsweredOnce ↔ t.ledger.AnsweredOnce Waiter.reply Question.form t.Proper := by
  constructor
  · intro h id q hq
    obtain ⟨request,hrequest,hwaits⟩ := ha.rooted id q hq
    rcases h id request hrequest hwaits with ⟨hnever,-⟩ | ⟨s,hs',hp,hdone⟩ | ⟨i,s,hs',hp,hdone⟩
    · exact absurd hq (hnever q)
    · obtain rfl := hs.single id q (.zdo s) hq ⟨hs',hp⟩
      exact (zdoAnswered_iff t id s).mp hdone
    · obtain rfl := hs.single id q (.read i s) hq ⟨hs',hp⟩
      exact (readAnswered_iff t id i s).mp hdone
  · intro h id request hrequest hwaits
    rcases ha.refused id request hrequest hwaits with ⟨q,hq⟩ | hrefused
    · have hdone := h id q hq
      cases q with
      | zdo s => exact Or.inr (Or.inl ⟨s,hq.1,hq.2,(zdoAnswered_iff t id s).mpr hdone⟩)
      | read i s => exact Or.inr (Or.inr ⟨i,s,hq.1,hq.2,(readAnswered_iff t id i s).mpr hdone⟩)
    · exact Or.inl hrefused

/-- A request is taken down, refused, or of no concern here. -/
theorem Accepted.request {requests : List (Request E)} {l : Exchange E}
    (h : Accepted requests l) (hs : l.Sound Waiter.reply Question.form) {request : Request E}
    {op : ExchangeOp E} (hopened : (l.step Waiter.reply op).opened = l.opened + 1)
    (hold : l.asked ⊆ (l.step Waiter.reply op).asked)
    (hnew : ∀ id q, (id,q) ∈ (l.step Waiter.reply op).asked → (id,q) ∈ l.asked ∨
      id = l.opened ∧ waits request = true)
    (hrequest : waits request = true → (∃ q, (l.opened,q) ∈ (l.step Waiter.reply op).asked) ∨
      (l.step Waiter.reply op).Refused (fun a => refusal a.reply = true) l.opened) :
    Accepted (requests ++ [request]) (l.step Waiter.reply op) := by
  constructor
  · simp [hopened,h.length]
  · intro id q hq
    rw [getElem?_concat]
    rcases hnew id q hq with hq' | ⟨rfl,hw⟩
    · have hlt := hs.bounded id q hq'
      have hne : id ≠ requests.length := by
        rw [h.length]
        omega
      simpa [hne] using h.rooted id q hq'
    · exact ⟨request,by simp [h.length],hw⟩
  · intro id r hr hw
    rw [getElem?_concat] at hr
    by_cases hid : id = requests.length
    · obtain rfl : request = r := by simpa [hid] using hr
      rw [hid,h.length]
      exact hrequest hw
    · rcases h.refused id r (by simpa [hid] using hr) hw with ⟨q,hq⟩ | hrefused
      · exact Or.inl ⟨q,hold hq⟩
      · exact Or.inr (hrefused.step hs op)

theorem Accepted.settle {requests : List (Request E)} {l : Exchange E}
    (h : Accepted requests l) (hs : l.Sound Waiter.reply Question.form) (k : WaitKey)
    (a : Waiter → Answer E) : Accepted requests (l.step Waiter.reply (.settle k a)) := by
  refine ⟨by simpa using h.length,fun id q hq => h.rooted id q (by simpa using hq),?_⟩
  intro id request hrequest hw
  rcases h.refused id request hrequest hw with hq | hrefused
  · exact Or.inl (by simpa using hq)
  · exact Or.inr (hrefused.settle hs k a)

theorem Accepted.settleAll {requests : List (Request E)} {l : Exchange E}
    (h : Accepted requests l) (hs : l.Sound Waiter.reply Question.form) (ks : List WaitKey)
    (a : Waiter → Answer E) : Accepted requests (l.settleAll Waiter.reply ks a) := by
  have hboth : (l.settleAll Waiter.reply ks a).Sound Waiter.reply Question.form ∧
      Accepted requests (l.settleAll Waiter.reply ks a) := by
    refine Ledger.settleAll_keeps (P := fun l => l.Sound Waiter.reply Question.form ∧
      Accepted requests l) (G := fun _ _ => True) _ (fun l k hl _ => ?_) ⟨hs,h⟩ fun _ _ _ _ => trivial
    exact ⟨hl.1.step trivial,hl.2.settle hl.1 k a⟩
  exact hboth.2

theorem Accepted.sweep {requests : List (Request E)} {l : Exchange E}
    (h : Accepted requests l) (hs : l.Sound Waiter.reply Question.form)
    (zdo : List (ZdoClusterId × UInt8)) (zcl : List (ClusterId × UInt8))
    (zdoReply zclReply : Waiter → Reply E) (cause : Cause) :
    Accepted requests (sweep l zdo zcl zdoReply zclReply cause) :=
  (h.settleAll hs _ _).settleAll (hs.settleAll _ _) _ _

theorem Accepted.plain {requests : List (Request E)} {l : Exchange E}
    (h : Accepted requests l) (hs : l.Sound Waiter.reply Question.form) {request : Request E}
    (hw : waits request = false) {op : ExchangeOp E} (hop : Plain request op) :
    Accepted (requests ++ [request]) (l.step Waiter.reply op) := by
  have hno : waits request = true → False := by simp [hw]
  cases hop with
  | hold => exact h.request hs rfl subset_rfl (fun _ _ => Or.inl) fun hw => (hno hw).elim
  | refuse ha hfits =>
    exact h.request hs rfl subset_rfl (fun _ _ => Or.inl) fun hw => (hno hw).elim

/-- An operation of a ZDO request or a read. -/
inductive Lodging : ExchangeOp E → Prop
  | refuse {a : Answer E} (h : refusal a.reply = true) : Lodging (.refuse a)
  | meet (q : Question) (a : Answer E) : Lodging (.meet q a)
  | ask (q : Question) (k : WaitKey) (w : Waiter) : Lodging (.ask q k w)

theorem lodging_zdoOp (t : Task E) (ieee : Ieee) (cluster : ZdoClusterId)
    (build : UInt8 → Nwk → Bytes) (n : ℕ) (env : Env) :
    Lodging (t.zdoOp ieee cluster build n env) := by
  unfold zdoOp
  split
  · exact .refuse rfl
  · dsimp only
    split
    · exact .meet _ _
    · exact .ask _ _ _
    · exact .meet _ _

theorem lodging_readOp (t : Task E) (ieee : Ieee) (endpoint : EndpointId) (cluster : ClusterId)
    (attributes : List AttrId) (n : ℕ) (env : Env) :
    Lodging (t.readOp ieee endpoint cluster attributes n env) := by
  unfold readOp
  split
  · exact .refuse rfl
  · dsimp only
    split
    · exact .meet _ _
    · exact .ask _ _ _
    · exact .meet _ _

theorem Accepted.lodging {requests : List (Request E)} {l : Exchange E}
    (h : Accepted requests l) (hs : l.Sound Waiter.reply Question.form) {request : Request E}
    (hw : waits request = true) {op : ExchangeOp E} (hop : Lodging op) :
    Accepted (requests ++ [request]) (l.step Waiter.reply op) := by
  have hinsert : ∀ (q : Question) id p, (id,p) ∈ insert (l.opened,q) l.asked →
      (id,p) ∈ l.asked ∨ id = l.opened ∧ waits request = true := by
    intro q id p hp
    rcases Set.mem_insert_iff.mp hp with he | hp
    · exact Or.inr ⟨(Prod.mk.inj he).1,hw⟩
    · exact Or.inl hp
  cases hop with
  | refuse ha =>
    exact h.request hs rfl subset_rfl (fun _ _ => Or.inl)
      fun _ => Or.inr (Ledger.refused_refuse hs ha)
  | meet q a =>
    exact h.request hs rfl (Set.subset_insert _ _) (hinsert q)
      fun _ => Or.inl ⟨q,Set.mem_insert _ _⟩
  | ask q k w =>
    exact h.request hs rfl (Set.subset_insert _ _) (hinsert q)
      fun _ => Or.inl ⟨q,Set.mem_insert _ _⟩

theorem accepted_step (t : Task E) (i : Input E) (hs : t.Sound)
    (h : Accepted t.requests t.ledger) : Accepted (t.step i).requests (t.step i).ledger := by
  by_cases hstopped : t.stopped = true
  · rwa [step_stopped hstopped]
  · have hrun : t.stopped = false := by simpa using hstopped
    have hlog : (t.step i).requests = t.requests ++ (logged i).1 :=
      congrArg Prod.fst (logs_step hrun i)
    have hturn := turn hrun i
    rw [hlog]
    generalize (t.step i).ledger = l at hturn
    cases hturn with
    | zdo ieee cluster build env => exact h.lodging hs rfl (lodging_zdoOp t ieee cluster build _ _)
    | read ieee endpoint cluster attributes env =>
      exact h.lodging hs rfl (lodging_readOp t ieee endpoint cluster attributes _ _)
    | @plain request hplain env op hop =>
      refine h.plain hs ?_ hop
      cases request <;> simp_all [isPlain,waits]
    | stop env ha hfits =>
      exact (h.sweep hs _ _ _ _ _).plain (sound_sweep hs _ _ _ _ _) rfl (.refuse ha hfits)
    | frame hop env =>
      obtain ⟨k,a,rfl⟩ := frameOp_settle hop
      simpa [logged] using h.settle hs k a
    | silent hop env => simpa [logged] using h
    | tick env =>
      simp only [logged,List.append_nil]
      exact h.sweep hs _ _ _ _ _
    | abandon reply => simpa [logged] using h
    | handlesDropped env =>
      simp only [logged,List.append_nil]
      exact h.sweep hs _ _ _ _ _
    | adapterClosed env =>
      simp only [logged,List.append_nil]
      exact h.sweep hs _ _ _ _ _

end Accounts

section Turns

theorem proper_zdoOp (t t' : Task E) (ieee : Ieee) (cluster : ZdoClusterId)
    (build : UInt8 → Nwk → Bytes) (env : Env) :
    (t.zdoOp ieee cluster build t.requests.length env).Proper Waiter.reply Question.form t'.Proper
      t.ledger := by
  unfold zdoOp
  split
  · trivial
  · dsimp only
    split
    · rename_i payload _
      exact ⟨rfl,payload,rfl⟩
    · trivial
    · rename_i e _
      exact ⟨rfl,e,rfl⟩

theorem proper_readOp (t t' : Task E) (ieee : Ieee) (endpoint : EndpointId) (cluster : ClusterId)
    (attributes : List AttrId) (env : Env) :
    (t.readOp ieee endpoint cluster attributes t.requests.length env).Proper Waiter.reply
      Question.form t'.Proper t.ledger := by
  unfold readOp
  split
  · trivial
  · dsimp only
    split
    · exact ⟨rfl,_,rfl⟩
    · trivial
    · rename_i e _
      exact ⟨rfl,e,rfl⟩

/-- A frame is a proper answer for whoever waits under its key. -/
theorem proper_frameOp {t : Task E} (t' : Task E) {event : AdapterEvent} {origin : Option ℕ}
    {op : ExchangeOp E} (h : t.frameOp event origin = some op) :
    op.Proper Waiter.reply Question.form t'.Proper t.ledger := by
  unfold frameOp at h
  split at h
  · obtain rfl := Option.some.inj h
    intro w q _ hkey _
    cases q with
    | read i s => simp [Question.form,Question.key] at hkey
    | zdo s =>
      simp only [Question.form,Question.key,Sum.inl.injEq,Prod.mk.injEq] at hkey
      exact ⟨rfl,rfl,hkey.1.symm,congrArg some hkey.2.symm⟩
  · unfold readFrameOp at h
    split at h
    · simp at h
    · split at h
      · simp at h
      · rename_i ieee _ found frame answer _
        obtain rfl := Option.some.inj h
        intro w q _ hkey _
        cases q with
        | zdo s => simp [Question.form,Question.key] at hkey
        | read i s =>
          simp only [Question.form,Question.key,Sum.inr.injEq,Prod.mk.injEq] at hkey
          refine ⟨rfl,hkey.1.symm,hkey.2.symm,?_⟩
          cases answer with
          | attributes => exact Or.inl ⟨_,rfl⟩
          | refused status => exact Or.inr ⟨status,rfl⟩
  · simp at h

theorem roomy_zdoOp_iff {t : Task E} (hrun : t.stopped = false) (ieee : Ieee)
    (cluster : ZdoClusterId) (build : UInt8 → Nwk → Bytes) (env : ℕ → Env) :
    (t.zdoOp ieee cluster build t.requests.length (env 0)).Roomy t.ledger ↔
      t.KeyFree (.request (.zdo ieee cluster build) env) := by
  simp only [KeyFree,zdoOp,hrun,true_imp_iff]
  cases t.devices.get ieee with
  | none => simp [Ledger.Op.Roomy]
  | some entry =>
    cases (env 0).sendZdo with
    | error e => simp [Ledger.Op.Roomy]
    | ok response => cases response <;> simp [Ledger.Op.Roomy,ledger,ledgerAt]

theorem roomy_readOp_iff {t : Task E} (hrun : t.stopped = false) (ieee : Ieee)
    (endpoint : EndpointId) (cluster : ClusterId) (attributes : List AttrId) (env : ℕ → Env) :
    (t.readOp ieee endpoint cluster attributes t.requests.length (env 0)).Roomy t.ledger ↔
      t.KeyFree (.request (.zclRead ieee endpoint cluster attributes) env) := by
  simp only [KeyFree,readOp,hrun,true_imp_iff]
  cases t.devices.get ieee with
  | none => simp [Ledger.Op.Roomy]
  | some entry =>
    cases (env 0).sendZcl with
    | error e => simp [Ledger.Op.Roomy]
    | ok response => cases response <;> simp [Ledger.Op.Roomy,ledger,ledgerAt]

/-- Handing everyone who waits under the keys a proper answer of their kind. -/
theorem answeredOnce_sweep {l : Exchange E} (hs : l.Sound Waiter.reply Question.form)
    {proper : Question → ℕ → Answer E → Prop}
    (h : l.AnsweredOnce Waiter.reply Question.form proper)
    {zdo : List (ZdoClusterId × UInt8)} {zcl : List (ClusterId × UInt8)}
    {zdoReply zclReply : Waiter → Reply E} {cause : Cause}
    (hzdo : ∀ key ∈ zdo, ∀ w, l.waiting (.inl key) = some w → ∀ s,
      Question.Records (.zdo s) w → proper (.zdo s) w.reply (settled zdoReply cause w))
    (hzcl : ∀ key ∈ zcl, ∀ w, l.waiting (.inr key) = some w → ∀ i s,
      Question.Records (.read i s) w → proper (.read i s) w.reply (settled zclReply cause w)) :
    (sweep l zdo zcl zdoReply zclReply cause).AnsweredOnce Waiter.reply Question.form proper := by
  have hfirst : (l.settleAll Waiter.reply (zdo.map .inl) (settled zdoReply cause)).AnsweredOnce
      Waiter.reply Question.form proper := by
    refine h.settleAll hs ?_
    intro k hk w hw q hkey hrec
    obtain ⟨key,hkey',rfl⟩ := List.mem_map.mp hk
    cases q with
    | zdo s => exact hzdo key hkey' w hw s hrec
    | read i s => simp [Question.form,Question.key] at hkey
  refine hfirst.settleAll (hs.settleAll _ _) ?_
  intro k hk w hw q hkey hrec
  obtain ⟨key,hkey',rfl⟩ := List.mem_map.mp hk
  cases q with
  | zdo s => simp [Question.form,Question.key] at hkey
  | read i s =>
    rw [Ledger.settleAll_waiting] at hw
    exact hzcl key hkey' w (by simpa using hw) i s hrec

theorem answeredOnce_drained {t t' : Task E} (hs : t.Sound) (hstop : t'.stopped = true)
    (h : t.ledger.AnsweredOnce Waiter.reply Question.form t'.Proper) :
    t.drained.AnsweredOnce Waiter.reply Question.form t'.Proper :=
  answeredOnce_sweep hs h (fun _ _ _ _ _ _ => ⟨rfl,rfl,hstop⟩)
    fun _ _ _ _ _ _ _ => ⟨rfl,rfl,hstop⟩

theorem expired_of_mem {K : Type} [DecidableEq K] {t : Task E} {pending : Table K Waiter}
    {now : Instant} {key : K} {w : Waiter} (hkey : key ∈ pending.keysWhere (t.expired now))
    (hw : pending.lookup key = some w) : w.deadline ≤ now ∨ w.reply ∈ t.abandoned := by
  obtain ⟨v,hv,hexpired⟩ := Table.mem_keysWhere.mp hkey
  obtain rfl := Option.some.inj (hv.symm.trans hw)
  simpa [expired] using hexpired

theorem answeredOnce_expired {t t' : Task E} (hs : t.Sound) (now : Instant)
    (habandoned : t.abandoned ⊆ t'.abandoned)
    (h : t.ledger.AnsweredOnce Waiter.reply Question.form t'.Proper) :
    (t.expiredAt now).AnsweredOnce Waiter.reply Question.form t'.Proper := by
  apply answeredOnce_sweep hs h
  · intro key hkey w hw s hrec
    have hdue := expired_of_mem hkey hw
    refine ⟨rfl,⟨w.ieee,rfl⟩,?_⟩
    rw [← hrec.2]
    exact hdue.imp_right fun hmem => habandoned hmem
  · intro key hkey w hw i s hrec
    have hdue := expired_of_mem hkey hw
    refine ⟨rfl,⟨w.ieee,rfl⟩,?_⟩
    rw [← hrec.2]
    exact hdue.imp_right fun hmem => habandoned hmem

/-- What every run keeps, whatever it receives. -/
def InOrder (t : Task E) : Prop := t.Sound ∧ Accepted t.requests t.ledger

theorem inOrder_step (t : Task E) (i : Input E) (h : t.InOrder) : (t.step i).InOrder :=
  ⟨sound_step t i h.1,accepted_step t i h.1 h.2⟩

/-- A turn keeps everyone answered once exactly when it takes over no key. -/
theorem answeredOnce_step (t : Task E) (i : Input E) (hJ : t.InOrder) (h : t.AnsweredOnce) :
    (t.step i).AnsweredOnce ↔ t.KeyFree i := by
  obtain ⟨hs,haccepted⟩ := hJ
  by_cases hstopped : t.stopped = true
  · rw [step_stopped hstopped]
    refine iff_of_true h ?_
    unfold KeyFree
    split
    · simp [hstopped]
    · simp [hstopped]
    · trivial
  · have hrun : t.stopped = false := by simpa using hstopped
    have habandoned : t.abandoned ⊆ (t.step i).abandoned := by
      have hlog : (t.step i).abandoned = t.abandoned ++ (logged i).2 :=
        congrArg Prod.snd (logs_step hrun i)
      rw [hlog]
      exact List.subset_append_left _ _
    have hold : t.ledger.AnsweredOnce Waiter.reply Question.form (t.step i).Proper :=
      ((answeredOnce_iff hs haccepted).mp h).mono
        (proper_mono (fun hstop => absurd hstop hstopped) habandoned)
    rw [answeredOnce_iff (sound_step t i hs) (accepted_step t i hs haccepted)]
    have hstep := turn hrun i
    generalize (t.step i).ledger = l at hstep
    cases hstep with
    | zdo ieee cluster build env =>
      rw [Ledger.answeredOnce_step_iff hs hold (faithful_zdoOp t ieee cluster build _)
        (proper_zdoOp t _ ieee cluster build _)]
      exact roomy_zdoOp_iff hrun ieee cluster build env
    | read ieee endpoint cluster attributes env =>
      rw [Ledger.answeredOnce_step_iff hs hold (faithful_readOp t ieee endpoint cluster attributes _)
        (proper_readOp t _ ieee endpoint cluster attributes _)]
      exact roomy_readOp_iff hrun ieee endpoint cluster attributes env
    | @plain request hplain env op hop =>
      have hfree : t.KeyFree (.request request env) := by
        cases request <;> simp_all [isPlain,KeyFree]
      refine iff_of_true ?_ hfree
      rw [Ledger.answeredOnce_step_iff hs hold (hop.faithful _) (by cases hop <;> trivial)]
      cases hop <;> trivial
    | @stop env a ha hfits =>
      have hstop : (t.step (.request .stop env)).stopped = true := by
        simp [step,hrun,handleRequest,shutdown,answer]
      have hsound : t.drained.Sound Waiter.reply Question.form := sound_sweep hs _ _ _ _ _
      exact iff_of_true ((answeredOnce_drained hs hstop hold).refuse hsound a) trivial
    | @frame event origin op hop env =>
      have hproper := proper_frameOp (t.step (.event event origin env)) hop
      obtain ⟨k,a,rfl⟩ := frameOp_settle hop
      exact iff_of_true (hold.settle hs hproper) trivial
    | silent hop env => exact iff_of_true hold trivial
    | tick env => exact iff_of_true (answeredOnce_expired hs _ habandoned hold) trivial
    | abandon reply => exact iff_of_true hold trivial
    | handlesDropped env =>
      have hstop : (t.step (.handlesDropped env)).stopped = true := by
        simp [step,hrun,shutdown]
      exact iff_of_true (answeredOnce_drained hs hstop hold) trivial
    | adapterClosed env =>
      have hstop : (t.step (.adapterClosed env)).stopped = true := by
        simp [step,hrun,shutdown]
      exact iff_of_true (answeredOnce_drained hs hstop hold) trivial

/-- A tick leaves nothing overdue. -/
theorem noneOverdue_tick {t : Task E} (hrun : t.stopped = false) (env : ℕ → Env) :
    (t.step (.tick env)).NoneOverdue (env 0).now := by
  have hledger : (t.step (.tick env)).ledger = t.expiredAt (env 0).now := by
    have hstep : t.step (.tick env) = t.tick env := by
      simp [step,hrun]
    rw [hstep,ledger_of_logs ((t.alters_tick env).keeps restsOn_logs (by decide)),ledgerAt_tick]
    rfl
  have hwaiting : ∀ k, (t.step (.tick env)).ledger.waiting k =
      (t.expiredAt (env 0).now).waiting k := fun k => by rw [hledger]
  constructor
  · intro key w hw
    have hw' := (hwaiting (.inl key)).symm.trans hw
    simp only [expiredAt,sweep,Ledger.settleAll_waiting] at hw'
    by_contra hdue
    have hw'' : key ∉ t.pendingZdo.keysWhere (t.expired (env 0).now) ∧
        t.pendingZdo.lookup key = some w := by
      simpa [ledger,ledgerAt] using hw'
    apply hw''.1
    rw [Table.mem_keysWhere]
    exact ⟨w,hw''.2,by simp [expired,not_lt.mp hdue]⟩
  · intro key w hw
    have hw' := (hwaiting (.inr key)).symm.trans hw
    simp only [expiredAt,sweep,Ledger.settleAll_waiting] at hw'
    by_contra hdue
    have hw'' : key ∉ t.pendingZcl.keysWhere (t.expired (env 0).now) ∧
        t.pendingZcl.lookup key = some w := by
      simpa [ledger,ledgerAt] using hw'
    apply hw''.1
    rw [Table.mem_keysWhere]
    exact ⟨w,hw''.2,by simp [expired,not_lt.mp hdue]⟩

theorem inOrder_start (config : TaskConfig E) (env : Env) : (start config env).InOrder := by
  refine ⟨sound_start config env,?_⟩
  have hrequests : (start config env).requests.length = 0 := by
    have hopened : (start config env).ledger.opened = 0 := by
      rw [ledger_start]
      rfl
    exact hopened
  rw [ledger_start,List.length_eq_zero_iff.mp hrequests]
  refine ⟨rfl,fun id q hq => absurd hq (Set.notMem_empty _),fun id request hr => ?_⟩
  simp at hr

/-- In every run, each request is answered once and a tick leaves nothing overdue, exactly
when no request is put under a key at which another waits. -/
theorem answered_once_iff (config : TaskConfig E) (env : Env) (is : List (Input E)) :
    ((∀ pre, pre <+: is → (Runs.run step (start config env) pre).AnsweredOnce) ∧
      ∀ pre env', pre ++ [.tick env'] <+: is → (Runs.run step (start config env) pre).stopped = false →
        (Runs.run step (start config env) (pre ++ [.tick env'])).NoneOverdue (env' 0).now) ↔
      Runs.Meets step KeyFree (start config env) is := by
  have hnone : (start config env).AnsweredOnce := by
    obtain ⟨hs,ha⟩ := inOrder_start config env
    rw [answeredOnce_iff hs ha,ledger_start]
    exact Ledger.AnsweredOnce.new
  rw [← Runs.always_iff_meets step inOrder_step answeredOnce_step (inOrder_start config env) hnone is]
  refine and_iff_left fun pre env' _ hrun => ?_
  rw [Runs.run_concat]
  exact noneOverdue_tick hrun env'

end Turns

section WrapAround

def activeEndpoints (ieee : Ieee) (sendZdo : Except AdapterError (Option Bytes)) : Input E :=
  .request (.zdo ieee .activeEpReq fun sequence _ => [sequence]) fun _ => { sendZdo := sendZdo }

/-- A request the radio refuses uses up a sequence number. -/
theorem step_refused {t : Task E} {ieee : Ieee} {entry : Entry} (hrun : t.stopped = false)
    (hget : t.devices.get ieee = some entry) (e : AdapterError) :
    let t' := t.step (activeEndpoints ieee (.error e))
    t'.pendingZdo = t.pendingZdo ∧ t'.devices = t.devices ∧ t'.stopped = false ∧
      t'.zdoSequence = t.zdoSequence + 1 := by
  simp [step,hrun,activeEndpoints,handleRequest,sendZdo,hget,answer,transmitZdo]

theorem run_refused {t : Task E} {ieee : Ieee} {entry : Entry} (hrun : t.stopped = false)
    (hget : t.devices.get ieee = some entry) (e : AdapterError) (n : ℕ) :
    let t' := Runs.run step t (List.replicate n (activeEndpoints ieee (.error e)))
    t'.pendingZdo = t.pendingZdo ∧ t'.devices = t.devices ∧ t'.stopped = false ∧
      t'.zdoSequence = t.zdoSequence + UInt8.ofNat n := by
  induction n with
  | zero => simp [hrun]
  | succ n ih =>
    obtain ⟨hpending,hdevices,hstopped,hsequence⟩ := ih
    rw [List.replicate_succ',Runs.run_concat]
    obtain ⟨hpending',hdevices',hstopped',hsequence'⟩ :=
      step_refused (e := e) hstopped (hdevices ▸ hget)
    refine ⟨hpending'.trans hpending,hdevices'.trans hdevices,hstopped',?_⟩
    rw [hsequence',hsequence,UInt8.ofNat_add,add_assoc]
    rfl

/-- Device `a` joins and is asked for its endpoints; the radio then refuses 255 requests. -/
def oneLap : List (Input Engine.bare) :=
  [joins ⟨0xa⟩ ⟨0x1001⟩,activeEndpoints ⟨0xa⟩ (.ok none)] ++
    List.replicate 255 (activeEndpoints ⟨0xa⟩ (.error (.tx .noAck)))

/-- The next request takes the key of the first, whose caller is never answered. -/
theorem wrapped_sequence_drops_caller :
    ¬ ∀ pre, pre <+: oneLap ++ [activeEndpoints ⟨0xa⟩ (.ok none)] →
      (Runs.run step fresh pre).AnsweredOnce := by
  intro h
  have hbefore := h oneLap (List.prefix_append _ _)
  have hafter := h _ List.prefix_rfl
  rw [Runs.run_concat] at hafter
  have horder : (Runs.run step fresh oneLap).InOrder :=
    Runs.run_invariant step inOrder_step (inOrder_start _ _) oneLap
  have hfree := (answeredOnce_step _ _ horder hbefore).mp hafter
  let t := Runs.run step fresh [joins ⟨0xa⟩ ⟨0x1001⟩,activeEndpoints ⟨0xa⟩ (.ok none)]
  have ht : t.stopped = false ∧ (t.devices.get ⟨0xa⟩).isSome ∧ t.zdoSequence = 1 ∧
      (t.pendingZdo.lookup (ZdoClusterId.activeEpReq.response,1)).isSome := by
    simp only [t,fresh_eq]
    exact ⟨rfl,rfl,rfl,rfl⟩
  obtain ⟨hrun,hknown,hsequence,hwaiting⟩ := ht
  obtain ⟨entry,hget⟩ := Option.isSome_iff_exists.mp hknown
  have hlap : Runs.run step fresh oneLap = Runs.run step t (List.replicate 255
    (activeEndpoints ⟨0xa⟩ (.error (.tx .noAck)))) := Runs.run_append step fresh _ _
  obtain ⟨hpending,hdevices,hstopped,hwrapped⟩ := run_refused hrun hget (.tx .noAck) 255
  rw [← hlap] at hpending hdevices hstopped hwrapped
  have hnone := hfree hstopped (by rw [hdevices,hget]; rfl) rfl
  rw [hpending,hwrapped,hsequence] at hnone
  have hkey : (1 : UInt8) + UInt8.ofNat 255 + 1 = 1 := by decide
  rw [hkey] at hnone
  simp [hnone] at hwaiting

end WrapAround

end Task
end Rszigbee
