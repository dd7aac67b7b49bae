import Rszigbee.Gateway

/-! What the client and the runtime hear of a gateway, and when its loop stops turning. -/
namespace Rszigbee
namespace Gateway

variable {resolve : DeviceInfo → Option Definition} {debug : DebugText} {tuya : TuyaSide}
  {capacity : ℕ} {text : JsonText} {accepts : Packet → Bool} {topics : Topics}
  {s : State (Engine.ofDefinitions resolve debug tuya) capacity}

section Sending

/-- The loop hands over what there is room for. -/
theorem sends {left : List Packet} {after : After} (hsending : s.phase = .sending left after)
    (hopening : after = .opening → ∀ p ∈ left, accepts p = true)
    {client : Channel Packet clientDepth}
    (hclient : client.items = s.client.items ++ left.filter accepts) :
    Relation.ReflTransGen (Move text accepts) s
      { s with phase := .sending [] after, client := client } := by
  induction left generalizing s with
  | nil =>
    have hsame : client = s.client := Channel.ext_items (by simpa using hclient)
    rw [hsame,← hsending]
  | cons p rest ih =>
    have hrest : after = .opening → ∀ q ∈ rest, accepts q = true :=
      fun hafter q hq => hopening hafter q (List.mem_cons_of_mem _ hq)
    cases htaken : accepts p with
    | true =>
      rw [List.filter_cons_of_pos htaken] at hclient
      have room : s.client.Room := by
        have hbound := client.bound
        rw [hclient,List.length_append,List.length_cons] at hbound
        rw [Channel.Room]
        omega
      refine .head (.put hsending htaken room) (ih rfl hrest ?_)
      rw [hclient,Channel.push_items,List.append_assoc,List.singleton_append]
    | false =>
      have hlater : after ≠ .opening := by
        intro hafter
        rw [hopening hafter p List.mem_cons_self] at htaken
        cases htaken
      rw [List.filter_cons_of_neg (by simp [htaken])] at hclient
      refine .head (.refuse hsending htaken) (ih (if_neg hlater) hrest hclient)

end Sending

section Sessions

/-- A request to permit joining for a minute. -/
def joinRequest : Message := ⟨"zigbee2mqtt/bridge/request/permit_join",
  [0x7b,0x22,0x74,0x69,0x6d,0x65,0x22,0x3a,0x36,0x30,0x7d]⟩

/-- The one payload there is to read is that request's. -/
def usualText : JsonText :=
  .reading joinRequest.payload (.object [("time",.number (.posInt 60))])

def usualTopics : Topics := ⟨"zigbee2mqtt"⟩

/-- A client that refuses nothing. -/
def willing : Packet → Bool := fun _ => true

/-- A gateway of a runtime that knows no device by its definition. -/
abbrev Plain : Type :=
  State (Engine.ofDefinitions (fun _ => none) ⟨fun _ => "",fun _ => ""⟩ (Tuya.side ∅)) 1024

def listening : Plain :=
  { new usualText usualTopics with
    phase := .selecting
    client := ⟨opening usualText usualTopics,by decide⟩ }

theorem reachable_listening : Reachable usualText willing usualTopics listening := by
  have hopen : Reachable usualText willing usualTopics
      { listening with phase := .sending [] .opening } := sends rfl (fun _ _ _ => rfl) rfl
  exact hopen.tail (.listen rfl)

theorem reachable_taken : Reachable usualText willing usualTopics (listening.take 1) :=
  reachable_listening.tail (.poll 1 rfl)

theorem reachable_asked : Reachable usualText willing usualTopics
    (listening.handle usualText joinRequest) :=
  reachable_listening.tail (.arrive joinRequest rfl)

/-- Something happens to a device, and is published. -/
theorem announces {s : Plain} (h : Reachable usualText willing usualTopics s)
    (hselecting : s.phase = .selecting) (hnext : s.next = s.emitted.length)
    (hopen : s.events.closed = false) :
    ∃ s' : Plain, Reachable usualText willing usualTopics s' ∧
      s'.phase = .sending [.publish (s.store.bridgeEvent usualText "device_announce" ⟨1⟩)] .looping ∧
      s'.client = s.client ∧ s'.taken = s.taken ∧ s'.next = s'.emitted.length ∧
      s'.events.closed = false := by
  have hrecv := Broadcast.recv_send h.inv.holds (by decide) (.deviceAnnounced ⟨1⟩)
  rw [← hnext] at hrecv
  have hclosed : (s.events.send (.deviceAnnounced ⟨1⟩)).closed = false := by
    rw [Broadcast.send]
    split <;> exact hopen
  refine ⟨_,(h.tail (.emit (.deviceAnnounced ⟨1⟩) hopen)).tail (.receive hselecting hrecv),
    rfl,rfl,rfl,?_,hclosed⟩
  simp [State.occur,hnext]

end Sessions

section Telling

/-- What has been taken is what was to be said, as far as it has come. -/
theorem Inv.taken_prefix (h : Inv text accepts topics s) :
    s.taken <+: Gateway.said text accepts topics s.log := by
  by_cases hfailed : s.phase = .failed
  · rw [(h.early (by rw [hfailed]; trivial)).1]
    exact List.nil_prefix
  · rw [← h.said hfailed,List.append_assoc]
    exact List.prefix_append _ _

/-- The client's event loop takes what a gateway that did one thing at a time would say on account
of the same occurrences, in order and once; what it has yet to take waits with the client or the
loop. -/
theorem client_told (h : Reachable text accepts topics s) :
    s.taken <+: said text accepts topics s.log ∧
    (s.phase ≠ .failed → s.taken ++ s.client.items ++ s.phase.left.filter accepts =
      said text accepts topics s.log) := ⟨h.inv.taken_prefix,h.inv.said⟩

theorem subscriptions_told : (listening.take 1).taken ++ (listening.take 1).client.items =
    said usualText willing usualTopics (listening.take 1).log := by
  have htold := (client_told reachable_taken).2 nofun
  rwa [show (listening.take 1).phase.left.filter willing = [] from rfl,List.append_nil] at htold

/-- The runtime is asked what the messages that arrived ask for, in order and once. Every request
to permit joining but the one that waits for the runtime has had its answer, in order. -/
theorem runtime_asked (h : Reachable text accepts topics s) :
    s.asked = s.log.filterMap (Occurrence.request text topics) ∧
    s.log.flatMap (Occurrence.window text topics) =
      s.log.flatMap Occurrence.permission ++ s.phase.window := ⟨h.inv.asked,h.inv.windows⟩

theorem joinRequest_asked : (listening.handle usualText joinRequest).asked =
    (listening.handle usualText joinRequest).log.filterMap
      (Occurrence.request usualText usualTopics) := (runtime_asked reachable_asked).1

/-- What is published of a device is its history in what the gateway was given of the runtime's
events since it began to listen. It was given them in order, and the gaps it was told of
are exactly as long as what it was not given; without a gap it is the whole history. -/
theorem published_of_stream (h : Reachable text accepts topics s) :
    ∃ heard : List (Event (Engine.ofDefinitions resolve debug tuya)),
      heard.Sublist ((s.emitted.take s.next).drop s.since) ∧
      heard.length + missed (readings s.log) = s.next - s.since ∧
      (∀ ieee, (s.store.state ieee).fields = StateStore.history ieee heard) ∧
      ((∀ n, .lagged n ∉ readings s.log) → heard = (s.emitted.take s.next).drop s.since) := by
  have hinv := h.inv
  refine ⟨(readings s.log).filterMap Reading.item?,hinv.accounts.sublist,?_,fun ieee => ?_,
    hinv.accounts.eq_of_item⟩
  · rw [← hinv.accounts.length_eq,List.length_drop,List.length_take,
      Nat.min_eq_left hinv.next]
  · rw [hinv.store,actAll_store,StateStore.fields_run]

theorem announced_published : ∃ s : Plain, s.next = 1 ∧ s.since = 0 ∧
    ∃ heard : List (Event (Engine.ofDefinitions (fun _ => none) ⟨fun _ => "",fun _ => ""⟩
        (Tuya.side ∅))),
      heard.length + missed (readings s.log) = 1 ∧
      ∀ ieee, (s.store.state ieee).fields = StateStore.history ieee heard := by
  have hrecv := Broadcast.recv_send (reachable_listening).inv.holds (by decide)
    (.deviceAnnounced ⟨1⟩)
  have hreached := (reachable_listening.tail (.emit (.deviceAnnounced ⟨1⟩) rfl)).tail
    (.receive rfl hrecv)
  obtain ⟨heard,-,hlength,hfields,-⟩ := published_of_stream hreached
  exact ⟨_,rfl,rfl,heard,hlength,hfields⟩

end Telling

section Leaving

/-- The loop itself never has the client disconnect. -/
theorem disconnect_not_mem_actAll (st : StateStore)
    (log : List (Occurrence (Engine.ofDefinitions resolve debug tuya))) (h : .ended ∉ log) :
    .disconnect ∉ (actAll text st log).2 := by
  induction log generalizing st with
  | nil => exact List.not_mem_nil
  | cons o os ih =>
    rw [List.mem_cons,not_or] at h
    obtain ⟨hne,hrest⟩ := h
    rw [actAll,List.mem_append]
    rintro (hmem | hmem)
    · cases o with
      | reading r =>
        obtain ⟨_,-,hpacket⟩ := List.mem_map.mp hmem
        cases hpacket
      | arrived message =>
        rw [act] at hmem
        split at hmem
        · cases List.mem_singleton.mp hmem
        · cases hmem
      | permitted duration ok => cases List.mem_singleton.mp hmem
      | ended => exact hne rfl
    · exact ih _ hrest hmem

theorem disconnect_not_mem_said (log : List (Occurrence (Engine.ofDefinitions resolve debug tuya)))
    (h : .ended ∉ log) : .disconnect ∉ said text accepts topics log := by
  intro hmem
  rcases List.mem_append.mp (List.mem_filter.mp hmem).1 with hmem | hmem
  · simp [opening] at hmem
  · exact disconnect_not_mem_actAll _ log h hmem

/-- The goodbye never leaves: a gateway that ends because the runtime has stopped hands it to the
client, whose event loop it polls no more, so in no run does the event loop take it. -/
theorem goodbye_unsent (h : Reachable text accepts topics s) :
    .disconnect ∉ s.taken ∧
    (s.phase = .stopped → ∃ log, s.log = log ++ [.ended] ∧ s.taken <+: said text accepts topics log ∧
      s.taken ++ s.client.items = said text accepts topics log ++
        [.publish (s.store.offline text),.disconnect].filter accepts) := by
  have hinv := h.inv
  constructor
  · by_cases hleaving : s.phase.Leaving
    · obtain ⟨log,-,hended,htook⟩ := hinv.leaving hleaving
      exact fun hmem => disconnect_not_mem_said log hended (htook.subset hmem)
    · exact fun hmem => disconnect_not_mem_said _ (hinv.staying hleaving)
        (hinv.taken_prefix.subset hmem)
  · intro hstopped
    obtain ⟨log,hlog,-,htook⟩ := hinv.leaving (by rw [hstopped]; trivial)
    have hsaid := hinv.said (by simp [hstopped])
    have hstore := hinv.store
    rw [hlog,actAll_concat] at hstore
    have hleft : s.phase.left = [] := by rw [hstopped]; rfl
    rw [hlog,said_concat,hleft,List.filter_nil,List.append_nil] at hsaid
    refine ⟨log,hlog,htook,?_⟩
    rw [hsaid,hstore]
    rfl

theorem gateway_leaves : ∃ s : Plain, s.phase = .stopped ∧ ∃ log, s.log = log ++ [.ended] ∧
    s.taken <+: said usualText willing usualTopics log ∧
    s.taken ++ s.client.items = said usualText willing usualTopics log ++
      [.publish (s.store.offline usualText),.disconnect].filter willing := by
  let closed : Plain := { listening with events := listening.events.close }
  have hclosed : Reachable usualText willing usualTopics closed := reachable_listening.tail .close
  have hended := hclosed.tail (.ended rfl rfl rfl)
  let client : Channel Packet clientDepth := ⟨listening.client.items ++
    [.publish (listening.store.offline usualText),.disconnect],by decide⟩
  have hsent : Relation.ReflTransGen (Move usualText willing)
      (closed.occur usualText .ended .stopping)
      { closed.occur usualText .ended .stopping with
        phase := .sending [] .stopping
        client := client } := sends rfl (by simp) rfl
  have hstopped := (hended.trans hsent).tail (.stop rfl)
  exact ⟨_,rfl,(goodbye_unsent hstopped).2 rfl⟩

end Leaving

section Stuck

/-- What the loop is about to hand over is more than there will be room for. -/
def State.Overfull (accepts : Packet → Bool)
    (s : State (Engine.ofDefinitions resolve debug tuya) capacity) : Prop :=
  ∃ left, s.phase = .sending left .looping ∧
    clientDepth < (left.filter accepts).length + s.client.items.length

theorem State.Overfull.move {s' : State (Engine.ofDefinitions resolve debug tuya) capacity}
    (h : s.Overfull accepts) (hmove : Move text accepts s s') :
    s'.Overfull accepts ∧ s'.taken = s.taken ∧ s'.asked = s.asked := by
  obtain ⟨left,hsending,hover⟩ := h
  cases hmove with
  | @put p rest after hphase htaken room =>
    rw [hsending] at hphase
    cases hphase
    rw [List.filter_cons_of_pos htaken,List.length_cons] at hover
    refine ⟨⟨rest,rfl,?_⟩,rfl,rfl⟩
    rw [Channel.push_items,List.length_append,List.length_singleton]
    omega
  | @refuse p rest after hphase hrefused =>
    rw [hsending] at hphase
    cases hphase
    rw [List.filter_cons_of_neg (by simp [hrefused])] at hover
    exact ⟨⟨rest,rfl,hover⟩,rfl,rfl⟩
  | resume hphase =>
    rw [hsending] at hphase
    cases hphase
    exact absurd s.client.bound (by simpa using hover)
  | emit => exact ⟨⟨left,hsending,hover⟩,rfl,rfl⟩
  | close => exact ⟨⟨left,hsending,hover⟩,rfl,rfl⟩
  | listen hphase => simp [hsending] at hphase
  | stop hphase => simp [hsending] at hphase
  | receive hphase => simp [hsending] at hphase
  | ended hphase => simp [hsending] at hphase
  | poll _ hphase => simp [hsending] at hphase
  | arrive _ hphase => simp [hsending] at hphase
  | trouble _ hphase => simp [hsending] at hphase
  | retry hphase => simp [hsending] at hphase
  | answered hphase => simp [hsending] at hphase
  | permitted _ hphase => simp [hsending] at hphase

/-- Nothing sets it free: the event loop that would make room is polled by nobody else. -/
theorem State.Overfull.run {s' : State (Engine.ofDefinitions resolve debug tuya) capacity}
    (h : s.Overfull accepts) (hrun : Relation.ReflTransGen (Move text accepts) s s') :
    s'.Overfull accepts ∧ s'.taken = s.taken ∧ s'.asked = s.asked := by
  induction hrun with
  | refl => exact ⟨h,rfl,rfl⟩
  | tail _ hmove ih =>
    obtain ⟨hover,htook,hasked⟩ := ih
    obtain ⟨hstill,htook',hasked'⟩ := hover.move hmove
    exact ⟨hstill,htook'.trans htook,hasked'.trans hasked⟩

/-- Between two turns, the loop gets to the next one exactly when it has said no more than 64
packets beyond those its event loop has taken. Once it has, the event loop takes nothing and the
runtime is asked nothing ever again, whatever the broker does. -/
theorem resumes_iff (h : Reachable text accepts topics s) {left : List Packet}
    (hsending : s.phase = .sending left .looping) :
    ((∃ s', Relation.ReflTransGen (Move text accepts) s s' ∧ s'.phase = .selecting) ↔
      (said text accepts topics s.log).length ≤ s.taken.length + clientDepth) ∧
    (s.taken.length + clientDepth < (said text accepts topics s.log).length →
      ∀ s', Relation.ReflTransGen (Move text accepts) s s' →
        s'.taken = s.taken ∧ s'.asked = s.asked) := by
  have hsaid := congrArg List.length (h.inv.said (by simp [hsending]))
  rw [hsending,List.length_append,List.length_append,Phase.left] at hsaid
  have hover (hmany : s.taken.length + clientDepth < (said text accepts topics s.log).length) :
      s.Overfull accepts := ⟨left,hsending,by omega⟩
  refine ⟨⟨?_,fun hfew => ?_⟩,fun hmany s' hrun => ((hover hmany).run hrun).2⟩
  · rintro ⟨s',hrun,hselecting⟩
    by_contra hmany
    obtain ⟨⟨left',hstill,-⟩,-⟩ := (hover (by omega)).run hrun
    rw [hselecting] at hstill
    cases hstill
  · let client : Channel Packet clientDepth :=
      ⟨s.client.items ++ left.filter accepts,by rw [List.length_append]; omega⟩
    have hrun : Relation.ReflTransGen (Move text accepts) s
        { s with phase := .sending [] .looping, client := client } := sends hsending (by simp) rfl
    exact ⟨_,hrun.tail (.resume rfl),rfl⟩

/-- While the broker takes nothing, what is published piles up with the client. -/
theorem exists_filled (n : ℕ) (hn : n ≤ 60) : ∃ s : Plain,
    Reachable usualText willing usualTopics s ∧ s.phase = .selecting ∧ s.taken = [] ∧
    s.client.items.length = n + 4 ∧ s.next = s.emitted.length ∧ s.events.closed = false := by
  induction n with
  | zero => exact ⟨listening,reachable_listening,rfl,rfl,rfl,rfl,rfl⟩
  | succ n ih =>
    obtain ⟨s,hs,hselecting,htook,hlength,hnext,hopen⟩ := ih (by omega)
    obtain ⟨s',hs',hsending,hclient,htook',hnext',hopen'⟩ := announces hs hselecting hnext hopen
    let client : Channel Packet clientDepth :=
      ⟨s'.client.items ++ [.publish (s.store.bridgeEvent usualText "device_announce" ⟨1⟩)],by
        rw [List.length_append,hclient,hlength]; exact Nat.add_le_add_right hn 4⟩
    have hsent : Relation.ReflTransGen (Move usualText willing) s'
        { s' with phase := .sending [] .looping, client := client } := sends hsending (by simp) rfl
    refine ⟨_,(hs'.trans hsent).tail (.resume rfl),rfl,htook'.trans htook,?_,hnext',hopen'⟩
    rw [List.length_append,hclient,hlength]
    rfl

theorem gateway_stops_turning : ∃ s : Plain, s.taken = [] ∧
    ¬ ∃ s', Relation.ReflTransGen (Move usualText willing) s s' ∧ s'.phase = .selecting := by
  obtain ⟨s,hs,hselecting,htook,hlength,hnext,hopen⟩ := exists_filled 60 (by decide)
  obtain ⟨s',hs',hsending,hclient,htook',-⟩ := announces hs hselecting hnext hopen
  refine ⟨s',htook'.trans htook,?_⟩
  have hsaid := congrArg List.length (hs'.inv.said (by simp [hsending]))
  rw [htook',htook,hclient,hsending,List.nil_append,List.length_append,hlength] at hsaid
  rw [(resumes_iff hs' hsending).1,← hsaid,htook',htook,Nat.not_le]
  exact Nat.lt_succ_self _

end Stuck

end Gateway
end Rszigbee
