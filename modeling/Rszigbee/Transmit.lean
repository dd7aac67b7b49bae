import Rszigbee.Formation

/-! The Ember adapter transmitting: the EZSP command a ZCL frame or a ZDO request becomes. -/
namespace Rszigbee

/-- The wire value. -/
def BroadcastAddress.toNwk : BroadcastAddress → Nwk
  | .all => ⟨0xffff⟩
  | .rxOnWhenIdle => ⟨0xfffd⟩
  | .routers => ⟨0xfffc⟩
  | .lowPowerRouters => ⟨0xfff8⟩

namespace Ember

/-- The largest APS payload EZSP accepts in one frame. -/
def maxApsPayload : ℕ := 255
def groupHops : UInt8 := 0
def nonmemberRadius : UInt8 := 7
def broadcastRadius : UInt8 := 0

/-- The tag the NCP echoes for a frame it was handed. -/
structure MessageTag where
  raw : UInt8
  deriving DecidableEq

def MessageTag.next (tag : MessageTag) : MessageTag := ⟨tag.raw + 1⟩

inductive ApsOption
  | retry | enableRouteDiscovery
  deriving DecidableEq

structure ApsFrame where
  profileId : UInt16
  clusterId : UInt16
  sourceEndpoint : UInt8
  destinationEndpoint : UInt8
  options : List ApsOption
  groupId : UInt16
  sequence : UInt8
  deriving DecidableEq

/-- The EZSP commands that hand a frame to the NCP; each is answered with a status. -/
inductive Send
  | sendUnicast (destination : UInt16) (aps : ApsFrame) (tag : MessageTag) (message : Bytes)
  | sendMulticast (aps : ApsFrame) (hops nonmemberRadius : UInt8) (tag : MessageTag)
      (message : Bytes)
  | sendBroadcast (destination : UInt16) (aps : ApsFrame) (radius : UInt8) (tag : MessageTag)
      (message : Bytes)
  deriving DecidableEq

namespace Send

def tag : Send → MessageTag
  | sendUnicast _ _ tag _ => tag
  | sendMulticast _ _ _ tag _ => tag
  | sendBroadcast _ _ _ tag _ => tag

def message : Send → Bytes
  | sendUnicast _ _ _ message => message
  | sendMulticast _ _ _ _ message => message
  | sendBroadcast _ _ _ _ message => message

def aps : Send → ApsFrame
  | sendUnicast _ aps _ _ => aps
  | sendMulticast aps _ _ _ _ => aps
  | sendBroadcast _ aps _ _ _ => aps

end Send

/-- What the NCP answers to a frame it is handed. -/
abbrev Taker := Send → Except EzspError SlStatus

abbrev Transmission := Dialogue Send (fun _ => Except EzspError SlStatus) AdapterError

variable (z : Rsezsp)

/-- Hands a frame to the NCP, with what to say if it is not answered and if it is refused. -/
def hand (unanswered refused : String) (c : Send) : Transmission Unit := do
  match ← Dialogue.command c with
  | .error e => .done (.error (context unanswered e))
  | .ok status => .done (check z refused status)

namespace EmberAdapter

/-- Builds the APS frame for a ZCL request. -/
def apsFrameFor (request : ZclTx) (sequence : UInt8) : ApsFrame where
  profileId := request.profile.raw
  clusterId := request.cluster.raw
  sourceEndpoint := request.sourceEndpoint.raw
  destinationEndpoint := request.endpoint.raw
  options := match request.dest with
    | .unicast _ _ =>
      if request.options.disableRecovery then [.retry] else [.retry,.enableRouteDiscovery]
    | _ => []
  groupId := match request.dest with
    | .group group => group.raw
    | _ => 0
  sequence := sequence

variable (adapter : EmberAdapter) (tag : MessageTag)

/-- `send_zcl`, with the tag it leaves behind. -/
def sendZcl (request : ZclTx) : MessageTag × Transmission (Option ZclRx) :=
  let tag := tag.next
  let aps := apsFrameFor request 0
  (tag,
    if request.frame.length > maxApsPayload then
      .done (.error (.transport ("ZCL frame is " ++ toString request.frame.length ++
        " bytes; EZSP accepts at most 255. APS fragmentation is not implemented yet.")))
    else do
      let _ ← .done adapter.connection
      match request.dest with
      | .unicast _ nwk =>
        hand z "cannot send the ZCL frame" "sending the ZCL frame"
          (.sendUnicast nwk.raw aps tag request.frame)
      | .group _ =>
        hand z "cannot send the group ZCL frame" "sending the group ZCL frame"
          (.sendMulticast aps groupHops nonmemberRadius tag request.frame)
      | .broadcast address =>
        hand z "cannot broadcast the ZCL frame" "broadcasting the ZCL frame"
          (.sendBroadcast address.toNwk.raw aps broadcastRadius tag request.frame)
      pure none)

/-- `send_zdo`: ordinary APS traffic, on profile 0 and endpoint 0 both ways. -/
def sendZdo (request : ZdoTx) : MessageTag × Transmission (Option Bytes) :=
  match request.dest with
  | .unicast _ nwk =>
    if request.payload.length > maxApsPayload then
      (tag,.done (.error (.transport ("ZDO payload is " ++ toString request.payload.length ++
        " bytes; EZSP accepts at most 255"))))
    else
      let aps : ApsFrame := {
        profileId := 0x0000
        clusterId := request.cluster.raw
        sourceEndpoint := 0
        destinationEndpoint := 0
        options := [.retry,.enableRouteDiscovery]
        groupId := 0
        sequence := 0 }
      let tag := tag.next
      (tag,do
        let _ ← .done adapter.connection
        hand z "cannot send the ZDO request" "sending the ZDO request"
          (.sendUnicast nwk.raw aps tag request.payload)
        pure none)
  | _ => (tag,.done (.error (.unsupported "broadcast ZDO (implemented with the network map)")))

section Sends

variable (taker : Taker)

/-- The frame a ZCL request becomes. -/
def zclFrame (tag : MessageTag) (request : ZclTx) : Send :=
  match request.dest with
  | .unicast _ nwk => .sendUnicast nwk.raw (apsFrameFor request 0) tag request.frame
  | .group _ =>
    .sendMulticast (apsFrameFor request 0) groupHops nonmemberRadius tag request.frame
  | .broadcast address =>
    .sendBroadcast address.toNwk.raw (apsFrameFor request 0) broadcastRadius tag request.frame

theorem issued_hand (unanswered refused : String) (c : Send) :
    (hand z unanswered refused c).issued taker = [c] := by
  rw [hand,Dialogue.issued_bind,Dialogue.result_command]
  cases taker c <;> rfl

/-- The one command of a frame that fits, on an adapter that is connected. -/
theorem issued_handed (unanswered refused : String) (c : Send) {β : Type} (b : β) :
    ((do let _ ← (.done adapter.connection : Transmission UInt8)
         hand z unanswered refused c
         pure b) : Transmission β).issued taker =
      if adapter.session.isSome then [c] else [] := by
  rw [Dialogue.issued_bind,Dialogue.result_done,Dialogue.issued_done,connection]
  cases adapter.session with
  | none => rfl
  | some version =>
    rw [Dialogue.issued_bind,issued_hand]
    cases (hand z unanswered refused c).result taker <;> simp

theorem issued_sendZcl (request : ZclTx) :
    (sendZcl z adapter tag request).2.issued taker =
      if request.frame.length ≤ maxApsPayload ∧ adapter.session.isSome then
        [zclFrame tag.next request]
      else [] := by
  by_cases hlong : request.frame.length > maxApsPayload
  · rw [sendZcl,if_pos hlong,if_neg (by omega)]
    rfl
  · rw [sendZcl,if_neg hlong,zclFrame]
    have hfits : request.frame.length ≤ maxApsPayload := Nat.le_of_not_lt hlong
    simp only [hfits,true_and]
    cases request.dest with
    | unicast ieee nwk => exact issued_handed z adapter taker _ _ _ _
    | group group => exact issued_handed z adapter taker _ _ _ _
    | broadcast address => exact issued_handed z adapter taker _ _ _ _

/-- The frame a ZDO request becomes. -/
def zdoFrame (tag : MessageTag) (cluster : ZdoClusterId) (nwk : Nwk) (payload : Bytes) : Send :=
  .sendUnicast nwk.raw {
    profileId := 0x0000
    clusterId := cluster.raw
    sourceEndpoint := 0
    destinationEndpoint := 0
    options := [.retry,.enableRouteDiscovery]
    groupId := 0
    sequence := 0 } tag payload

theorem sendZdo_unicast {ieee : Ieee} {nwk : Nwk} (cluster : ZdoClusterId) {payload : Bytes}
    (options : TxOptions) (hfits : payload.length ≤ maxApsPayload) :
    (sendZdo z adapter tag ⟨.unicast ieee nwk,cluster,payload,options⟩).1 = tag.next ∧
    (sendZdo z adapter tag ⟨.unicast ieee nwk,cluster,payload,options⟩).2.issued taker =
      if adapter.session.isSome then [zdoFrame tag.next cluster nwk payload] else [] := by
  have hshort : ¬ payload.length > maxApsPayload := Nat.not_lt_of_le hfits
  simp only [sendZdo,if_neg hshort]
  exact ⟨trivial,issued_handed z adapter taker _ _ _ _⟩

end Sends

end EmberAdapter

section Tags

/-- What the adapter is asked to transmit. -/
inductive Outbound
  | zcl (request : ZclTx)
  | zdo (request : ZdoTx)

variable (adapter : EmberAdapter)

/-- The tag a transmission leaves behind, and the frames it hands to the NCP. -/
def Outbound.send (taker : Taker) (tag : MessageTag) : Outbound → MessageTag × List Send
  | zcl request =>
    ((adapter.sendZcl z tag request).1,(adapter.sendZcl z tag request).2.issued taker)
  | zdo request =>
    ((adapter.sendZdo z tag request).1,(adapter.sendZdo z tag request).2.issued taker)

/-- The frames of one transmission after the other. -/
def handed : MessageTag → List (Outbound × Taker) → List (List Send)
  | _, [] => []
  | tag, (outbound,taker)::rest =>
    (outbound.send z adapter taker tag).2::handed (outbound.send z adapter taker tag).1 rest

/-- A transmission uses one tag at most, and hands over no frame without using one. -/
theorem Outbound.send_tag (taker : Taker) (tag : MessageTag) (outbound : Outbound) :
    (outbound.send z adapter taker tag).1 = tag.next ∧
        (∀ c ∈ (outbound.send z adapter taker tag).2, c.tag = tag.next) ∨
      (outbound.send z adapter taker tag).1 = tag ∧ (outbound.send z adapter taker tag).2 = [] := by
  cases outbound with
  | zcl request =>
    refine .inl ⟨rfl,fun c hc => ?_⟩
    rw [Outbound.send,EmberAdapter.issued_sendZcl] at hc
    split at hc
    · rw [List.mem_singleton.mp hc,EmberAdapter.zclFrame]
      cases request.dest <;> rfl
    · cases hc
  | zdo request =>
    obtain ⟨dest,cluster,payload,options⟩ := request
    cases dest with
    | unicast ieee nwk =>
      by_cases hfits : payload.length ≤ maxApsPayload
      · obtain ⟨htag,hissued⟩ :=
          @EmberAdapter.sendZdo_unicast z adapter tag taker ieee nwk cluster payload options hfits
        refine .inl ⟨htag,fun c hc => ?_⟩
        rw [Outbound.send,hissued] at hc
        split at hc
        · rw [List.mem_singleton.mp hc]
          rfl
        · cases hc
      · refine .inr ?_
        have hlong : payload.length > maxApsPayload := Nat.lt_of_not_le hfits
        simp [Outbound.send,EmberAdapter.sendZdo,hlong]
    | group group => exact .inr ⟨rfl,rfl⟩
    | broadcast address => exact .inr ⟨rfl,rfl⟩

/-- Some tags on. -/
def MessageTag.advance (tag : MessageTag) (n : ℕ) : MessageTag := ⟨tag.raw + .ofNat n⟩

theorem MessageTag.advance_next (tag : MessageTag) (n : ℕ) :
    tag.next.advance n = tag.advance (n+1) := by
  simp only [MessageTag.advance,MessageTag.next,UInt8.ofNat_add,MessageTag.mk.injEq]
  rw [UInt8.add_assoc,UInt8.add_comm 1]
  rfl

/-- Tags come round after 256 of them. -/
theorem MessageTag.advance_ne (tag : MessageTag) {m n : ℕ} (h : m < n) (hround : n < m + 256) :
    tag.advance m ≠ tag.advance n := by
  intro heq
  have hraw := congrArg (fun t => t.raw.toNat) heq
  simp only [MessageTag.advance,UInt8.toNat_add,UInt8.toNat_ofNat'] at hraw
  omega

/-- A frame of a later transmission carries a tag further on, by no more than the
transmissions up to it. -/
theorem tag_of_handed (reqs : List (Outbound × Taker)) (tag : MessageTag) {j : ℕ} {ds : List Send}
    (h : (handed z adapter tag reqs)[j]? = some ds) {d : Send} (hd : d ∈ ds) :
    ∃ n, n ≤ j ∧ d.tag = tag.advance (n+1) := by
  induction reqs generalizing tag j with
  | nil => simp [handed] at h
  | cons head rest ih =>
    obtain ⟨outbound,taker⟩ := head
    have hsend := outbound.send_tag z adapter taker tag
    cases j with
    | zero =>
      rw [handed,List.getElem?_cons_zero,Option.some.injEq] at h
      subst h
      rcases hsend with ⟨-,htag⟩ | ⟨-,hnone⟩
      · exact ⟨0,Nat.le_refl _,htag d hd⟩
      · rw [hnone] at hd
        cases hd
    | succ j =>
      rw [handed,List.getElem?_cons_succ] at h
      obtain ⟨n,hn,htag⟩ := ih _ h
      rcases hsend with ⟨hnext,-⟩ | ⟨hsame,-⟩
      · rw [hnext,MessageTag.advance_next] at htag
        exact ⟨n+1,by omega,htag⟩
      · rw [hsame] at htag
        exact ⟨n,by omega,htag⟩

/-- In every run of transmissions, whatever the NCP makes of each, two frames it is handed with
fewer than 255 transmissions between them carry different tags. -/
theorem tags_distinct (reqs : List (Outbound × Taker)) (tag : MessageTag) {i j : ℕ}
    {cs ds : List Send} (hi : (handed z adapter tag reqs)[i]? = some cs)
    (hj : (handed z adapter tag reqs)[j]? = some ds) (hij : i < j) (hround : j < i + 256)
    {c d : Send} (hc : c ∈ cs) (hd : d ∈ ds) : c.tag ≠ d.tag := by
  induction reqs generalizing tag i j with
  | nil => simp [handed] at hi
  | cons head rest ih =>
    obtain ⟨outbound,taker⟩ := head
    obtain ⟨j,rfl⟩ : ∃ k, j = k + 1 := ⟨j-1,by omega⟩
    rw [handed,List.getElem?_cons_succ] at hj
    cases i with
    | succ i =>
      rw [handed,List.getElem?_cons_succ] at hi
      exact ih _ hi hj (by omega) (by omega)
    | zero =>
      rw [handed,List.getElem?_cons_zero,Option.some.injEq] at hi
      subst hi
      rcases outbound.send_tag z adapter taker tag with ⟨hnext,htag⟩ | ⟨-,hnone⟩
      · obtain ⟨n,hn,hlater⟩ := tag_of_handed z adapter rest _ hj hd
        rw [htag c hc,hlater,hnext,MessageTag.advance_next]
        exact MessageTag.advance_ne (m := 1) tag (by omega) (by omega)
      · rw [hnone] at hc
        cases hc

/-- A frame for an endpoint. -/
def request : ZclTx where
  dest := .unicast ⟨0x000b57fffe000001⟩ ⟨0x1234⟩
  endpoint := ⟨1⟩
  sourceEndpoint := ⟨1⟩
  profile := ⟨0x0104⟩
  cluster := ⟨0x0006⟩
  frame := [0x01,0x01,0x02]

theorem second_tag_differs :
    (EmberAdapter.zclFrame ⟨0⟩ request).tag ≠ (EmberAdapter.zclFrame ⟨1⟩ request).tag :=
  tags_distinct rsezsp connected
    [(.zcl request,fun _ => .ok ⟨0⟩),(.zcl request,fun _ => .error "timed out")] ⟨0xff⟩
    (i := 0) (j := 1) rfl rfl (by decide) (by decide) (List.mem_singleton_self _)
    (List.mem_singleton_self _)

end Tags
end Ember
end Rszigbee
