import Rszigbee.Effects
import Rszigbee.Ledger

/-! The task keeps a ledger: its two maps of pending requests are one, with its
transmissions as the questions and its replies as the answers. -/
namespace Rszigbee

abbrev WaitKey := (ZdoClusterId × UInt8) ⊕ (ClusterId × UInt8)

namespace Question

/-- What a frame has to carry to answer the request. -/
def key : Question → WaitKey
  | .zdo s => .inl (s.tx.cluster.response,s.sequence)
  | .read _ s => .inr (s.tx.cluster,s.sequence)

def Records : Question → Waiter → Prop
  | .zdo s, w => (∃ nwk, s.tx.dest = .unicast w.ieee nwk) ∧ w.deadline = s.sentAt + zdoTimeout
  | .read _ s, w => (∃ nwk, s.tx.dest = .unicast w.ieee nwk) ∧ w.deadline = s.sentAt + zdoTimeout

def form : Ledger.Form Question WaitKey Waiter := ⟨key,Records⟩

end Question

namespace Task

variable {E : Engine}

abbrev Exchange (E : Engine) := Ledger Question WaitKey Waiter (Answer E)
abbrev ExchangeOp (E : Engine) := Ledger.Op Question WaitKey Waiter (Answer E)

/-- The ledger after `n` requests. -/
def ledgerAt (t : Task E) (n : ℕ) : Exchange E where
  opened := n
  asked := {x | t.Asked x.1 x.2}
  waiting := Sum.elim t.pendingZdo.lookup t.pendingZcl.lookup
  answers id := t.replies.filter fun a => a.id = id

def ledger (t : Task E) : Exchange E := t.ledgerAt t.requests.length

/-- What the ledger is read from. -/
def Part.books : List Part := [.asked,.pendingZdo,.pendingZcl,.replies]

theorem restsOn_ledgerAt (n : ℕ) : RestsOn see Part.books fun t : Task E => t.ledgerAt n := by
  intro t u h
  have hasked : u.Asked = t.Asked := h .asked (by decide)
  have hzdo : u.pendingZdo = t.pendingZdo := h .pendingZdo (by decide)
  have hzcl : u.pendingZcl = t.pendingZcl := h .pendingZcl (by decide)
  have hreplies : u.replies = t.replies := h .replies (by decide)
  simp only [ledgerAt,hasked,hzdo,hzcl,hreplies]

theorem restsOn_ledger : RestsOn see (.requests::Part.books) (ledger (E := E)) := by
  intro t u h
  have hrequests : u.requests = t.requests := h .requests List.mem_cons_self
  rw [ledger,ledger,hrequests]
  exact restsOn_ledgerAt _ t u fun part hpart => h part (List.mem_cons_of_mem _ hpart)

@[simp] theorem mem_asked (t : Task E) (n id : ℕ) (q : Question) :
    (id,q) ∈ (t.ledgerAt n).asked ↔ t.Asked id q := Iff.rfl

theorem mem_answers {t : Task E} {n id : ℕ} {a : Answer E} :
    a ∈ (t.ledgerAt n).answers id ↔ a ∈ t.replies ∧ a.id = id := by
  simp [ledgerAt]

section Operations

/-- A reply is one more answer for its caller. -/
theorem answers_append (replies : List (Answer E)) (a : Answer E) :
    (fun id => (replies ++ [a]).filter fun b => b.id = id) =
      Ledger.give (fun id => replies.filter fun b => b.id = id) a.id a := by
  funext id
  by_cases hid : id = a.id
  · simp [hid]
  · have hne : ¬ a.id = id := fun h => hid h.symm
    simp [hid,hne]

theorem waiting_insert_inl (zdo : Table (ZdoClusterId × UInt8) PendingZdo)
    (zcl : Table (ClusterId × UInt8) PendingZcl) (key : ZdoClusterId × UInt8) (w : Waiter) :
    Sum.elim (zdo.insert key w).lookup zcl.lookup =
      Function.update (Sum.elim zdo.lookup zcl.lookup) (.inl key) (some w) := by
  funext k
  cases k with
  | inl k => simp [Table.lookup_insert_eq,Function.update_apply]
  | inr k => simp

theorem waiting_insert_inr (zdo : Table (ZdoClusterId × UInt8) PendingZdo)
    (zcl : Table (ClusterId × UInt8) PendingZcl) (key : ClusterId × UInt8) (w : Waiter) :
    Sum.elim zdo.lookup (zcl.insert key w).lookup =
      Function.update (Sum.elim zdo.lookup zcl.lookup) (.inr key) (some w) := by
  funext k
  cases k with
  | inl k => simp
  | inr k => simp [Table.lookup_insert_eq,Function.update_apply]

theorem waiting_erase_inl (zdo : Table (ZdoClusterId × UInt8) PendingZdo)
    (zcl : Table (ClusterId × UInt8) PendingZcl) (key : ZdoClusterId × UInt8) :
    Sum.elim (zdo.erase key).lookup zcl.lookup =
      Function.update (Sum.elim zdo.lookup zcl.lookup) (.inl key) none := by
  funext k
  cases k with
  | inl k => simp [Table.lookup_erase_eq,Function.update_apply]
  | inr k => simp

theorem waiting_erase_inr (zdo : Table (ZdoClusterId × UInt8) PendingZdo)
    (zcl : Table (ClusterId × UInt8) PendingZcl) (key : ClusterId × UInt8) :
    Sum.elim zdo.lookup (zcl.erase key).lookup =
      Function.update (Sum.elim zdo.lookup zcl.lookup) (.inr key) none := by
  funext k
  cases k with
  | inl k => simp
  | inr k => simp [Table.lookup_erase_eq,Function.update_apply]

/-- The answer a settled request gets. -/
def settled (reply : Waiter → Reply E) (cause : Cause) (w : Waiter) : Answer E :=
  ⟨w.reply,reply w,cause⟩

theorem ledgerAt_settleZdo (t : Task E) (n : ℕ) (key : ZdoClusterId × UInt8)
    (reply : PendingZdo → Reply E) (cause : Cause) :
    (t.settleZdo key reply cause).ledgerAt n =
      (t.ledgerAt n).step Waiter.reply (.settle (.inl key) (settled reply cause)) := by
  unfold settleZdo
  split
  · rename_i h
    rw [Ledger.step_settle_none]
    exact h
  · rename_i w h
    rw [Ledger.step_settle_some _ (w := w) h]
    have hanswers := answers_append t.replies (settled reply cause w)
    have hwaiting := waiting_erase_inl t.pendingZdo t.pendingZcl key
    exact Ledger.ext rfl rfl hwaiting hanswers

theorem ledgerAt_settleZcl (t : Task E) (n : ℕ) (key : ClusterId × UInt8)
    (reply : PendingZcl → Reply E) (cause : Cause) :
    (t.settleZcl key reply cause).ledgerAt n =
      (t.ledgerAt n).step Waiter.reply (.settle (.inr key) (settled reply cause)) := by
  unfold settleZcl
  split
  · rename_i h
    rw [Ledger.step_settle_none]
    exact h
  · rename_i w h
    rw [Ledger.step_settle_some _ (w := w) h]
    have hanswers := answers_append t.replies (settled reply cause w)
    have hwaiting := waiting_erase_inr t.pendingZdo t.pendingZcl key
    exact Ledger.ext rfl rfl hwaiting hanswers

theorem ledgerAt_settleZdo_foldl (t : Task E) (n : ℕ) (keys : List (ZdoClusterId × UInt8))
    (reply : PendingZdo → Reply E) (cause : Cause) :
    (keys.foldl (fun t key => t.settleZdo key reply cause) t).ledgerAt n =
      (t.ledgerAt n).settleAll Waiter.reply (keys.map .inl) (settled reply cause) := by
  induction keys generalizing t with
  | nil => rfl
  | cons key keys ih =>
    rw [List.foldl_cons,ih,ledgerAt_settleZdo]
    rfl

theorem ledgerAt_settleZcl_foldl (t : Task E) (n : ℕ) (keys : List (ClusterId × UInt8))
    (reply : PendingZcl → Reply E) (cause : Cause) :
    (keys.foldl (fun t key => t.settleZcl key reply cause) t).ledgerAt n =
      (t.ledgerAt n).settleAll Waiter.reply (keys.map .inr) (settled reply cause) := by
  induction keys generalizing t with
  | nil => rfl
  | cons key keys ih =>
    rw [List.foldl_cons,ih,ledgerAt_settleZcl]
    rfl

/-- A request answered without being sent. -/
theorem ledgerAt_answer (t : Task E) (n : ℕ) (reply : Reply E) (cause : Cause) :
    (t.answer n reply cause).ledgerAt (n + 1) =
      (t.ledgerAt n).step Waiter.reply (.refuse ⟨n,reply,cause⟩) :=
  Ledger.ext rfl rfl rfl (answers_append t.replies ⟨n,reply,cause⟩)

end Operations

section Requests

/-- The transmission made for a ZDO request. -/
def zdoSent (t : Task E) (ieee : Ieee) (nwk : Nwk) (cluster : ZdoClusterId)
    (build : UInt8 → Nwk → Bytes) (reply : ℕ) (env : Env) : Sent ZdoTx :=
  ⟨.zdo reply,t.zdoSequence + 1,{
    dest := .unicast ieee nwk
    cluster := cluster
    payload := build (t.zdoSequence + 1) nwk },env.now⟩

def readSent (t : Task E) (ieee : Ieee) (nwk : Nwk) (endpoint : EndpointId)
    (cluster : ClusterId) (attributes : List AttrId) (reply : ℕ) (env : Env) : Sent ZclTx :=
  ⟨.read reply,t.zclSequence + 1,{
    dest := .unicast ieee nwk
    endpoint := endpoint
    sourceEndpoint := ⟨1⟩
    profile := .ha
    cluster := cluster
    frame := readAttributes (t.zclSequence + 1) attributes
    options := { expectResponse := true } },env.now⟩

/-- What a ZDO request does to the ledger. -/
def zdoOp (t : Task E) (ieee : Ieee) (cluster : ZdoClusterId) (build : UInt8 → Nwk → Bytes)
    (reply : ℕ) (env : Env) : ExchangeOp E :=
  match t.devices.get ieee with
  | none => .refuse ⟨reply,.zdo (.error (.unknownDevice ieee)),.handled⟩
  | some entry =>
    let q := .zdo (t.zdoSent ieee entry.info.nwk cluster build reply env)
    match env.sendZdo with
    | .ok (some payload) => .meet q ⟨reply,.zdo (.ok payload),.inline⟩
    | .ok none => .ask q (.inl (cluster.response,t.zdoSequence + 1))
        ⟨reply,ieee,env.now + zdoTimeout⟩
    | .error e => .meet q ⟨reply,.zdo (.error (.adapter e)),.sendError⟩

def readOp (t : Task E) (ieee : Ieee) (endpoint : EndpointId) (cluster : ClusterId)
    (attributes : List AttrId) (reply : ℕ) (env : Env) : ExchangeOp E :=
  match t.devices.get ieee with
  | none => .refuse ⟨reply,.zclRead (.error (.unknownDevice ieee)),.handled⟩
  | some entry =>
    let q := .read t.sentZcl.length
      (t.readSent ieee entry.info.nwk endpoint cluster attributes reply env)
    match env.sendZcl with
    | .ok (some rx) =>
      .meet q ⟨reply,.zclRead (.ok (t.decodedAttributes ieee rx)),.inline⟩
    | .ok none => .ask q (.inr (cluster,t.zclSequence + 1)) ⟨reply,ieee,env.now + zdoTimeout⟩
    | .error e => .meet q ⟨reply,.zclRead (.error (.adapter e)),.sendError⟩

theorem asked_transmit_zdo (t : Task E) (n : ℕ) (sequence : UInt8) (tx : ZdoTx) (env : Env) :
    {x : ℕ × Question | (t.transmitZdo (.zdo n) sequence tx env).Asked x.1 x.2} =
      insert (n,.zdo ⟨.zdo n,sequence,tx,env.now⟩) {x | t.Asked x.1 x.2} := by
  ext ⟨id,q⟩
  simp only [Set.mem_ofPred_eq,Set.mem_insert_iff,asked_transmitZdo,Purpose.zdo.injEq,
    Prod.mk.injEq]
  rw [eq_comm (a := n),or_comm]

theorem asked_transmit_read (t : Task E) (n : ℕ) (sequence : UInt8) (tx : ZclTx) (env : Env) :
    {x : ℕ × Question | (t.transmitZcl (.read n) sequence tx env).Asked x.1 x.2} =
      insert (n,.read t.sentZcl.length ⟨.read n,sequence,tx,env.now⟩) {x | t.Asked x.1 x.2} := by
  ext ⟨id,q⟩
  simp only [Set.mem_ofPred_eq,Set.mem_insert_iff,asked_transmitZcl,Purpose.read.injEq,
    Prod.mk.injEq]
  rw [eq_comm (a := n),or_comm]

theorem ledgerAt_sendZdo (t : Task E) (ieee : Ieee) (cluster : ZdoClusterId)
    (build : UInt8 → Nwk → Bytes) (n : ℕ) (env : Env) :
    (t.sendZdo ieee cluster build n env).ledgerAt (n + 1) =
      (t.ledgerAt n).step Waiter.reply (t.zdoOp ieee cluster build n env) := by
  unfold sendZdo zdoOp
  cases t.devices.get ieee with
  | none => exact ledgerAt_answer t n _ _
  | some entry =>
    have hasked := asked_transmit_zdo { t with zdoSequence := t.zdoSequence + 1 } n
      (t.zdoSequence + 1) (t.zdoSent ieee entry.info.nwk cluster build n env).tx env
    cases env.sendZdo with
    | error e => exact Ledger.ext rfl hasked rfl (answers_append t.replies _)
    | ok response =>
      cases response with
      | none => exact Ledger.ext rfl hasked (waiting_insert_inl _ _ _ _) rfl
      | some response => exact Ledger.ext rfl hasked rfl (answers_append t.replies _)

theorem ledgerAt_zclRead (t : Task E) (ieee : Ieee) (endpoint : EndpointId)
    (cluster : ClusterId) (attributes : List AttrId) (n : ℕ) (env : Env) :
    (t.zclRead ieee endpoint cluster attributes n env).ledgerAt (n + 1) =
      (t.ledgerAt n).step Waiter.reply (t.readOp ieee endpoint cluster attributes n env) := by
  unfold zclRead readOp
  cases t.devices.get ieee with
  | none => exact ledgerAt_answer t n _ _
  | some entry =>
    have hasked := asked_transmit_read { t with zclSequence := t.zclSequence + 1 } n
      (t.zclSequence + 1) (t.readSent ieee entry.info.nwk endpoint cluster attributes n env).tx env
    cases env.sendZcl with
    | error e => exact Ledger.ext rfl hasked rfl (answers_append t.replies _)
    | ok response =>
      cases response with
      | none => exact Ledger.ext rfl hasked (waiting_insert_inr _ _ _ _) rfl
      | some response => exact Ledger.ext rfl hasked rfl (answers_append t.replies _)

end Requests

section Turns

/-- The replies of the requests that go on the air for their caller. -/
def isExchange : Reply E → Bool
  | .zdo _ => true
  | .zclRead _ => true
  | _ => false

/-- A reply is of the kind that the request's reply channel carries. -/
def fits : Request E → Reply E → Prop
  | .devices, .devices _ => True
  | .device _, .device _ => True
  | .network, .network _ => True
  | .definition _, .definition _ => True
  | .configure _, .configure _ => True
  | .configurePlan _, .configurePlan _ => True
  | .permitJoin _ _, .permitJoin _ => True
  | .zclRead _ _ _ _, .zclRead _ => True
  | .zdo _ _ _, .zdo _ => True
  | .command _ _, .command _ => True
  | .interview _, .interview _ => True
  | .stop, .stop _ => True
  | _, _ => False

/-- An operation of a request that is neither a ZDO request nor a read. -/
inductive Plain (request : Request E) : ExchangeOp E → Prop
  | hold : Plain request .hold
  | refuse {a : Answer E} (h : isExchange a.reply = false) (hfits : fits request a.reply) :
    Plain request (.refuse a)

theorem plain_answer {t t' : Task E} {n : ℕ} {parts : List Part} (h : Alters see parts t t')
    (hparts : ∀ part ∈ Part.books, part ∉ parts) {request : Request E} {reply : Reply E}
    (hreply : isExchange reply = false) (hfits : fits request reply) :
    ∃ op, Plain request op ∧
      (t'.answer n reply .handled).ledgerAt (n + 1) = (t.ledgerAt n).step Waiter.reply op := by
  refine ⟨.refuse ⟨n,reply,.handled⟩,.refuse hreply hfits,?_⟩
  rw [ledgerAt_answer,h.keeps (restsOn_ledgerAt n) hparts]

theorem plain_hold {t t' : Task E} {n : ℕ} {parts : List Part} (h : Alters see parts t t')
    (hparts : ∀ part ∈ Part.books, part ∉ parts) {request : Request E} :
    ∃ op, Plain request op ∧ t'.ledgerAt (n + 1) = (t.ledgerAt n).step Waiter.reply op := by
  refine ⟨.hold,.hold,?_⟩
  rw [h.keeps (restsOn_ledgerAt (n + 1)) hparts]
  rfl

/-- The requests that go on the air for their caller, and the one that ends the loop. -/
def isPlain : Request E → Bool
  | .zdo _ _ _ => false
  | .zclRead _ _ _ _ => false
  | .stop => false
  | _ => true

theorem ledgerAt_handleRequest (t : Task E) {request : Request E} (h : isPlain request)
    (n : ℕ) (env : ℕ → Env) : ∃ op, Plain request op ∧
      (t.handleRequest request n env).ledgerAt (n + 1) =
        (t.ledgerAt n).step Waiter.reply op := by
  cases request with
  | zdo ieee cluster build => simp [isPlain] at h
  | zclRead ieee endpoint cluster attributes => simp [isPlain] at h
  | stop => simp [isPlain] at h
  | permitJoin duration via => 
    exact plain_answer (t.alters_permitJoin duration via (env 0)) (by decide) rfl trivial
  | command ieee command => 
    exact plain_answer (t.alters_runCommand ieee command n (env 0)) (by decide) rfl trivial
  | interviewUpdate ieee update => 
    exact plain_hold (t.alters_applyInterviewUpdate ieee update env) (by decide)
  | interview ieee =>
    simp only [handleRequest]
    split
    · exact plain_hold (t.alters_spawnInterview ieee (some n)) (by decide)
    · exact plain_answer (.refl [] t) (by decide) rfl trivial
  | configure ieee =>
    simp only [handleRequest]
    split
    · exact plain_answer (t.alters_executeConfigurePlan ieee env) (by decide) rfl trivial
    · exact plain_answer (.refl [] t) (by decide) rfl trivial
  | devices => exact plain_answer (.refl [] t) (by decide) rfl trivial
  | device ieee => exact plain_answer (.refl [] t) (by decide) rfl trivial
  | network => exact plain_answer (.refl [] t) (by decide) rfl trivial
  | definition ieee => exact plain_answer (.refl [] t) (by decide) rfl trivial
  | configurePlan ieee => exact plain_answer (.refl [] t) (by decide) rfl trivial

/-- Settles requests of both kinds for one cause. -/
def sweep (l : Exchange E) (zdo : List (ZdoClusterId × UInt8)) (zcl : List (ClusterId × UInt8))
    (zdoReply zclReply : Waiter → Reply E) (cause : Cause) : Exchange E :=
  (l.settleAll Waiter.reply (zdo.map .inl) (settled zdoReply cause)).settleAll Waiter.reply
    (zcl.map .inr) (settled zclReply cause)

theorem settleZdo_foldl_rest (t : Task E) (keys : List (ZdoClusterId × UInt8))
    (reply : PendingZdo → Reply E) (cause : Cause) :
    let t' := keys.foldl (fun t key => t.settleZdo key reply cause) t
    t'.pendingZcl = t.pendingZcl ∧ t'.abandoned = t.abandoned := by
  have hsettled := Alters.foldl (fun t key => alters_settleZdo t key reply cause) keys t
  exact ⟨hsettled .pendingZcl (by decide),hsettled .abandoned (by decide)⟩

theorem ledgerAt_expirePendingZdo (t : Task E) (now : Instant) (n : ℕ) :
    (t.expirePendingZdo now).ledgerAt n = sweep (t.ledgerAt n)
      (t.pendingZdo.keysWhere (t.expired now)) (t.pendingZcl.keysWhere (t.expired now))
      zdoTimedOut zclTimedOut (.timeout now) := by
  obtain ⟨hzcl,habandoned⟩ := settleZdo_foldl_rest t (t.pendingZdo.keysWhere (t.expired now))
    zdoTimedOut (.timeout now)
  have hexpired : expired (E := E) ((t.pendingZdo.keysWhere (t.expired now)).foldl
      (fun t key => t.settleZdo key zdoTimedOut (.timeout now)) t) now = t.expired now := by
    funext w
    simp only [expired,habandoned]
  unfold expirePendingZdo sweep
  rw [ledgerAt_settleZcl_foldl,ledgerAt_settleZdo_foldl,hzcl,hexpired]

theorem ledgerAt_tick (t : Task E) (env : ℕ → Env) (n : ℕ) :
    (t.tick env).ledgerAt n = sweep (t.ledgerAt n)
      (t.pendingZdo.keysWhere (t.expired (env 0).now))
      (t.pendingZcl.keysWhere (t.expired (env 0).now))
      zdoTimedOut zclTimedOut (.timeout (env 0).now) := by
  simp only [tick]
  rw [((alters_runChecks _ _ _).trans (alters_refreshFrameCounter _ _)).keeps (restsOn_ledgerAt n)
    (by decide),ledgerAt_expirePendingZdo]

def stoppedZdo (_ : Waiter) : Reply E := .zdo (.error .stopped)

def stoppedZcl (_ : Waiter) : Reply E := .zclRead (.error .stopped)

theorem ledgerAt_drainPending (t : Task E) (n : ℕ) :
    t.drainPending.ledgerAt n = sweep (t.ledgerAt n) t.pendingZdo.keys t.pendingZcl.keys
      stoppedZdo stoppedZcl .shutdown := by
  obtain ⟨hzcl,-⟩ := settleZdo_foldl_rest t t.pendingZdo.keys stoppedZdo .shutdown
  unfold drainPending sweep
  rw [← ledgerAt_settleZdo_foldl,← hzcl,← ledgerAt_settleZcl_foldl]
  rfl

theorem ledgerAt_shutdown (t : Task E) (env : Env) (n : ℕ) :
    (t.shutdown env).ledgerAt n = sweep (t.ledgerAt n) t.pendingZdo.keys t.pendingZcl.keys
      stoppedZdo stoppedZcl .shutdown := by
  have hstop : (t.shutdown env).ledgerAt n =
      ((t.emit .stopping).drainPending.refreshFrameCounter env).ledgerAt n := rfl
  rw [hstop,(alters_refreshFrameCounter _ _).keeps (restsOn_ledgerAt n) (by decide),
    ledgerAt_drainPending,(t.alters_emit .stopping).keeps (restsOn_ledgerAt n) (by decide)]
  rfl

/-- The read a received frame settles, with the reply and the cause. -/
def readFrameOp (t : Task E) (rx : ZclRx) (origin : Option ℕ) : Option (ExchangeOp E) :=
  match t.senderOf rx with
  | none => none
  | some ieee =>
    match t.readAnswered rx with
    | none => none
    | some (frame,answer) =>
      some (.settle (.inr (rx.cluster,frame.header.tsn))
        (settled (fun _ => .zclRead (t.readResult ieee rx answer))
          (.zclFrame ieee rx.cluster frame (t.transmissionOf origin))))

/-- The request a received frame settles, with the reply and the cause. -/
def frameOp (t : Task E) (event : AdapterEvent) (origin : Option ℕ) : Option (ExchangeOp E) :=
  match event with
  | .zdo cluster nwk (sequence::rest) =>
    some (.settle (.inl (cluster,sequence))
      (settled (fun _ => .zdo (.ok (sequence::rest))) (.zdoFrame cluster nwk (sequence::rest))))
  | .zcl rx => t.readFrameOp rx origin
  | _ => none

/-- Moving a device changes the table and may report it, and nothing else. -/
theorem readdress_eq (t : Task E) (ieee : Ieee) (nwk : Nwk) :
    ∃ devices events, t.readdress ieee nwk = { t with devices := devices, events := events } := by
  unfold readdress
  split
  · exact ⟨_,_,rfl⟩
  · exact ⟨_,_,rfl⟩

theorem ledgerAt_onZcl (t : Task E) (rx : ZclRx) (origin : Option ℕ) (env : Env) (n : ℕ) :
    (t.onZcl rx origin env).ledgerAt n = match t.readFrameOp rx origin with
      | none => t.ledgerAt n
      | some op => (t.ledgerAt n).step Waiter.reply op := by
  unfold onZcl readFrameOp
  cases t.senderOf rx with
  | none => rfl
  | some ieee =>
    obtain ⟨devices,events,hmoved⟩ := readdress_eq t ieee rx.nwk
    dsimp only
    generalize hmarked : (t.readdress ieee rx.nwk).modifyDevice ieee _ = t'
    have hmoves : Alters see [.devices,.addresses,.events] t t' := by
      rw [← hmarked]
      exact (t.alters_readdress ieee rx.nwk).both
        ((alters_modifyDevice _ ieee fun _ => by rfl).mono (by decide))
    have hanswered : t'.readAnswered rx = t.readAnswered rx := by
      rw [← hmarked,hmoved]
      rfl
    rw [hanswered]
    cases t.readAnswered rx with
    | none =>
      exact (hmoves.trans (alters_reportZcl t' ieee rx env)).keeps (restsOn_ledgerAt n) (by decide)
    | some found =>
      obtain ⟨frame,answer⟩ := found
      have hresult : t'.readResult ieee rx answer = t.readResult ieee rx answer := by
        rw [← hmarked,hmoved]
        rfl
      have horigin : t'.transmissionOf origin = t.transmissionOf origin := by
        rw [← hmarked,hmoved]
        rfl
      dsimp only
      rw [(alters_touch _ _ _ _ _).keeps (restsOn_ledgerAt n) (by decide),completeRead,
        ledgerAt_settleZcl,hmoves.keeps (restsOn_ledgerAt n) (by decide),hresult,horigin]

theorem ledgerAt_onZdo (t : Task E) (cluster : ZdoClusterId) (nwk : Nwk) (payload : Bytes)
    (origin : Option ℕ) (env : Env) (n : ℕ) :
    (t.onZdo cluster nwk payload env).ledgerAt n =
      match t.frameOp (.zdo cluster nwk payload) origin with
      | none => t.ledgerAt n
      | some op => (t.ledgerAt n).step Waiter.reply op := by
  have hdone : (t.onZdo cluster nwk payload env).ledgerAt n =
      (t.completeZdo cluster nwk payload).ledgerAt n := by
    unfold onZdo
    dsimp only
    split
    · exact ((alters_touch _ _ _ _ _).trans (alters_emit _ _)).keeps (restsOn_ledgerAt n) (by decide)
    · exact (alters_emit _ _).keeps (restsOn_ledgerAt n) (by decide)
  rw [hdone]
  cases payload with
  | nil => rfl
  | cons sequence rest => exact ledgerAt_settleZdo t n _ _ _

theorem ledgerAt_handleAdapterEvent (t : Task E) (event : AdapterEvent) (origin : Option ℕ)
    (env : ℕ → Env) (n : ℕ) :
    (t.handleAdapterEvent event origin env).ledgerAt n = match t.frameOp event origin with
      | none => t.ledgerAt n
      | some op => (t.ledgerAt n).step Waiter.reply op := by
  cases event with
  | deviceJoined ieee nwk =>
    exact (t.alters_onJoined ieee nwk (env 0)).keeps (restsOn_ledgerAt n) (by decide)
  | deviceLeft ieee nwk =>
    exact (t.alters_onLeft ieee nwk (env 0)).keeps (restsOn_ledgerAt n) (by decide)
  | zcl rx => exact ledgerAt_onZcl t rx origin (env 0) n
  | zdo cluster nwk payload => exact ledgerAt_onZdo t cluster nwk payload origin (env 0) n
  | disconnected reason => exact (t.alters_emit _).keeps (restsOn_ledgerAt n) (by decide)

end Turns

end Task
end Rszigbee
