import Rszigbee.Encode
import Rszigbee.Exchange
import Rszigbee.Runs
import Rszigbee.Turns

/-! What becomes of a received frame: it answers a read, is reported decoded, or is reported
as it came. -/
namespace Rszigbee

/-- Events that report a frame. -/
def Event.isFrame {E : Engine} : Event E → Bool
  | .zclMessage _ | .unparsedFrame .. => true
  | _ => false

namespace Task

section Silence

variable {E : Engine}

/-- Only events that report no frame are added. -/
def Silent (t t' : Task E) : Prop :=
  ∃ events, t'.events = t.events ++ events ∧ events.filter Event.isFrame = []

theorem Silent.refl (t : Task E) : t.Silent t := ⟨[],(List.append_nil _).symm,rfl⟩

theorem Silent.trans {t t' t'' : Task E} (h : t.Silent t') (h' : t'.Silent t'') : t.Silent t'' := by
  obtain ⟨xs,hxs,hx⟩ := h
  obtain ⟨ys,hys,hy⟩ := h'
  exact ⟨xs ++ ys,by rw [hys,hxs,List.append_assoc],by rw [List.filter_append,hx,hy]; rfl⟩

theorem Silent.of_events {t t' : Task E} (h : t'.events = t.events) : t.Silent t' :=
  ⟨[],by rw [h,List.append_nil],rfl⟩

theorem silent_emit (t : Task E) {event : Event E} (h : event.isFrame = false) :
    t.Silent (t.emit event) := ⟨[event],rfl,by simp [h]⟩

theorem silent_assess (t : Task E) (ieee : Ieee) (evidence : Evidence) (env : Env) :
    t.Silent (t.assess ieee evidence env) := by
  rw [assess]
  split
  · exact .refl t
  · dsimp only
    split
    · exact (Silent.of_events rfl).trans (silent_emit _ rfl)
    · exact .of_events rfl

theorem silent_touch (t : Task E) (ieee : Ieee) (seen : SystemTime) (reason : LastSeenReason)
    (env : Env) : t.Silent (t.touch ieee seen reason env) := by
  rw [touch]
  split
  · exact .refl t
  · have hseen : t.Silent ((t.modifyDevice ieee fun e =>
        { e with
          info := { e.info with lastSeen := some seen }
          reachability := e.reachability.recordTraffic seen }).emit
            (.lastSeenChanged ieee seen reason)) :=
      (Silent.of_events rfl).trans (silent_emit _ rfl)
    exact hseen.trans (silent_assess _ _ _ _)

theorem silent_readdress (t : Task E) (ieee : Ieee) (nwk : Nwk) :
    t.Silent (t.readdress ieee nwk) := by
  rw [readdress]
  split
  · exact (Silent.of_events rfl).trans (silent_emit _ rfl)
  · exact .of_events rfl

theorem silent_publish (t : Task E) (ieee : Ieee) (rx : ZclRx) (kind : ZclMessageKind) :
    t.Silent (t.publish ieee rx kind) := by
  rcases t.publish_cases ieee rx kind with h | ⟨_,_,h⟩ | ⟨_,_,_,h⟩
  · rw [h]
    exact .refl t
  · rw [h]
    exact silent_emit t rfl
  · rw [h]
    exact silent_emit t rfl

theorem silent_answerOtaQuery (t : Task E) (ieee : Ieee) (rx : ZclRx) (env : Env) :
    t.Silent (t.answerOtaQuery ieee rx env) := by
  rw [answerOtaQuery]
  split
  · split
    · exact .refl t
    · exact .of_events rfl
  · exact .refl t

theorem silent_settleZcl (t : Task E) (key : ClusterId × UInt8) (reply : PendingZcl → Reply E)
    (cause : Cause) : t.Silent (t.settleZcl key reply cause) := by
  rw [settleZcl]
  split
  · exact .refl t
  · exact .of_events rfl

end Silence

section Outcomes

variable {E : Engine} {customClusters : E.Definition → List ClusterDef}

/-- The replies a turn adds. -/
def newReplies (t t' : Task E) : List (Answer E) := t'.replies.drop t.replies.length

/-- The events a turn adds that report a frame. -/
def newFrames (t t' : Task E) : List (Event E) :=
  (t'.events.drop t.events.length).filter Event.isFrame

theorem newReplies_of_same {t t' : Task E} (h : t'.replies = t.replies) : t.newReplies t' = [] := by
  rw [newReplies,h,List.drop_length]

theorem newFrames_of_silent {t t' : Task E} (h : t.Silent t') : t.newFrames t' = [] := by
  obtain ⟨events,hevents,hnone⟩ := h
  rw [newFrames,hevents,List.drop_left]
  exact hnone

theorem newFrames_emit {t t' : Task E} (h : t.Silent t') {event : Event E}
    (hevent : event.isFrame = true) : t.newFrames (t'.emit event) = [event] := by
  obtain ⟨events,hevents,hnone⟩ := h
  have hall : (t'.emit event).events = t.events ++ (events ++ [event]) := by
    show t'.events ++ [event] = _
    rw [hevents,List.append_assoc]
  rw [newFrames,hall,List.drop_left,List.filter_append,hnone]
  simp [hevent]

/-- What a frame says to the caller of a read: its attributes, or the status it was refused
with. -/
inductive Carries (registry : ClusterRegistry) (ieee : Ieee) (rx : ZclRx) :
    Except RuntimeError (List (UInt16 × ZclValue)) → Prop
  | attributes {m : ZclMessage} {records : List (UInt16 × ZclValue)}
      (hm : Decode.zclMessage registry ieee rx = .ok m) (hk : m.kind = .attributes records) :
    Carries registry ieee rx (.ok records)
  | refused {m : ZclMessage} {command status : UInt8}
      (hm : Decode.zclMessage registry ieee rx = .ok m)
      (hk : m.kind = .defaultResponse command status) (hs : status ≠ 0) :
    Carries registry ieee rx (.error (.readRefused ieee status))

inductive FrameOutcome
  | completed | reported | unparsed
  deriving DecidableEq

/-- Handling a frame from a device, which takes `t` to `t'`, comes to the outcome. -/
def ComesTo (t t' : Task (E.withCodecs customClusters)) (ieee : Ieee) (rx : ZclRx) :
    FrameOutcome → Prop
  | .completed => t.newFrames t' = [] ∧ ∃ key w result cause,
      t.pendingZcl.lookup key = some w ∧ t'.pendingZcl = t.pendingZcl.erase key ∧
        t.newReplies t' = [⟨w.reply,.zclRead result,cause⟩] ∧ Carries t.registry ieee rx result
  | .reported => t.newReplies t' = [] ∧ t'.pendingZcl = t.pendingZcl ∧ ∃ m,
      Decode.zclMessage t.registry ieee rx = .ok m ∧ t.newFrames t' = [.zclMessage m]
  | .unparsed => t.newReplies t' = [] ∧ t'.pendingZcl = t.pendingZcl ∧ ∃ reason,
      Decode.zclMessage t.registry ieee rx = .error reason ∧
        t.newFrames t' = [.unparsedFrame ieee rx.endpoint rx.cluster rx.frame reason]

/-- No two outcomes are reached at once. -/
theorem ComesTo.unique {t t' : Task (E.withCodecs customClusters)} {ieee : Ieee} {rx : ZclRx}
    {o o' : FrameOutcome} (h : t.ComesTo t' ieee rx o) (h' : t.ComesTo t' ieee rx o') : o = o' := by
  cases o <;> cases o'
  case completed.completed => rfl
  case reported.reported => rfl
  case unparsed.unparsed => rfl
  case completed.reported =>
    obtain ⟨_,_,m,_,hframes⟩ := h'
    rw [h.1] at hframes
    exact absurd hframes (by simp)
  case completed.unparsed =>
    obtain ⟨_,_,reason,_,hframes⟩ := h'
    rw [h.1] at hframes
    exact absurd hframes (by simp)
  case reported.completed =>
    obtain ⟨_,_,m,_,hframes⟩ := h
    rw [h'.1] at hframes
    exact absurd hframes (by simp)
  case unparsed.completed =>
    obtain ⟨_,_,reason,_,hframes⟩ := h
    rw [h'.1] at hframes
    exact absurd hframes (by simp)
  case reported.unparsed =>
    obtain ⟨_,_,m,hm,_⟩ := h
    obtain ⟨_,_,reason,hreason,_⟩ := h'
    rw [hm] at hreason
    exact absurd hreason (by simp)
  case unparsed.reported =>
    obtain ⟨_,_,m,hm,_⟩ := h'
    obtain ⟨_,_,reason,hreason,_⟩ := h
    rw [hm] at hreason
    exact absurd hreason (by simp)

/-- A frame from a known device is handled to exactly one outcome. -/
def HandlesFrame (t : Task (E.withCodecs customClusters))
    (input : Input (E.withCodecs customClusters)) : Prop :=
  ∀ rx origin env ieee, input = .event (.zcl rx) origin env → t.stopped = false →
    t.senderOf rx = some ieee → (t.devices.get ieee).isSome = true →
      ∃! o, t.ComesTo (t.step input) ieee rx o

/-- A read response under the number of a pending read holds attribute records to its end. -/
def DecodesAnswer (t : Task (E.withCodecs customClusters))
    (input : Input (E.withCodecs customClusters)) : Prop :=
  ∀ rx origin env ieee frame, input = .event (.zcl rx) origin env → t.stopped = false →
    t.senderOf rx = some ieee → (t.devices.get ieee).isSome = true →
      ZclFrame.decode rx.frame = .ok frame → ReadAnswer.of frame = some .attributes →
        (t.pendingZcl.lookup (rx.cluster,frame.header.tsn)).isSome = true →
          ∃ records, Decode.reading (Decode.attributes true) frame.payload = .ok records

end Outcomes

section Answers

/-- A read response is a foundation frame sent by the device. -/
theorem answer_attributes {frame : ZclFrame} (h : ReadAnswer.of frame = some .attributes) :
    frame.header.frameType = .global ∧ frame.header.command.raw = Decode.readAttributesResponse := by
  rw [ReadAnswer.of] at h
  split at h
  · simp at h
  · split at h
    · simp at h
    · rename_i htype
      rw [not_not] at htype
      split at h
      · rename_i hcommand
        exact ⟨htype,hcommand⟩
      · split at h
        · split at h
          · split at h <;> simp at h
          · simp at h
        · simp at h

/-- A refusal is a default response with a status other than zero. -/
theorem answer_refused {frame : ZclFrame} {status : UInt8}
    (h : ReadAnswer.of frame = some (.refused status)) :
    frame.header.frameType = .global ∧ frame.header.command.raw = Decode.defaultResponse ∧
      status ≠ 0 ∧ ∃ command rest, frame.payload = command::status::rest := by
  rw [ReadAnswer.of] at h
  split at h
  · simp at h
  · split at h
    · simp at h
    · rename_i htype
      rw [not_not] at htype
      split at h
      · simp at h
      · split at h
        · rename_i hcommand
          split at h
          · rename_i command status' rest hpayload
            split at h
            · rename_i hstatus
              simp only [Option.some.injEq,ReadAnswer.refused.injEq] at h
              subst h
              exact ⟨htype,hcommand,hstatus,command,rest,hpayload⟩
            · simp at h
          · simp at h
        · simp at h

/-- What a read response decodes to is what its records decode to. -/
theorem zclMessage_of_attributes (registry : ClusterRegistry) (ieee : Ieee) {rx : ZclRx}
    {frame : ZclFrame} (hframe : ZclFrame.decode rx.frame = .ok frame)
    (h : ReadAnswer.of frame = some .attributes) : Decode.zclMessage registry ieee rx =
      (Decode.reading (Decode.attributes true) frame.payload).map fun records =>
        ⟨ieee,rx.endpoint,rx.cluster,.attributes records,rx.linkQuality⟩ := by
  obtain ⟨htype,hcommand⟩ := answer_attributes h
  have hglobal : Decode.global frame =
      (Decode.reading (Decode.attributes true) frame.payload).map .attributes := by
    rw [Decode.global]
    simp [hcommand]
  rw [Decode.zclMessage,hframe]
  dsimp only
  rw [Decode.kind,htype]
  dsimp only
  rw [hglobal]
  cases Decode.reading (Decode.attributes true) frame.payload <;> rfl

theorem zclMessage_of_refused (registry : ClusterRegistry) (ieee : Ieee) {rx : ZclRx}
    {frame : ZclFrame} (hframe : ZclFrame.decode rx.frame = .ok frame) {status : UInt8}
    (h : ReadAnswer.of frame = some (.refused status)) : status ≠ 0 ∧ ∃ command,
      Decode.zclMessage registry ieee rx =
        .ok ⟨ieee,rx.endpoint,rx.cluster,.defaultResponse command status,rx.linkQuality⟩ := by
  obtain ⟨htype,hcommand,hstatus,command,rest,hpayload⟩ := answer_refused h
  refine ⟨hstatus,command,?_⟩
  have hglobal : Decode.global frame = .ok (.defaultResponse command status) := by
    rw [Decode.global,hcommand,hpayload]
    rfl
  rw [Decode.zclMessage,hframe]
  dsimp only
  rw [Decode.kind,htype]
  dsimp only
  rw [hglobal]
  rfl

end Answers

section Handling

variable {E : Engine} {customClusters : E.Definition → List ClusterDef}

/-- A frame that answers no read is reported, decoded or as it came. -/
theorem reportZcl_comesTo {t u : Task (E.withCodecs customClusters)}
    (hmoves : Alters see [.devices,.addresses,.events] t u) (hsilent : t.Silent u) (ieee : Ieee)
    (rx : ZclRx) (env : Env) : ∃ o, t.ComesTo (u.reportZcl ieee rx env) ieee rx o := by
  have hreported := hmoves.trans (alters_reportZcl u ieee rx env)
  have hregistry : u.registry = t.registry := hmoves .registry (by decide)
  have hpending : (u.reportZcl ieee rx env).pendingZcl = t.pendingZcl :=
    hreported .pendingZcl (by decide)
  have hreplies : t.newReplies (u.reportZcl ieee rx env) = [] :=
    newReplies_of_same (hreported .replies (by decide))
  let w := if rx.cluster = otaCluster then u.answerOtaQuery ieee rx env else u
  have hw : t.Silent w := by
    by_cases hota : rx.cluster = otaCluster
    · have heq : w = u.answerOtaQuery ieee rx env := if_pos hota
      rw [heq]
      exact hsilent.trans (silent_answerOtaQuery u ieee rx env)
    · have heq : w = u := if_neg hota
      rw [heq]
      exact hsilent
  have hwregistry : w.registry = t.registry := by
    by_cases hota : rx.cluster = otaCluster
    · have heq : w = u.answerOtaQuery ieee rx env := if_pos hota
      rw [heq,answerOtaQuery,← hregistry]
      split
      · split <;> rfl
      · rfl
    · have heq : w = u := if_neg hota
      rw [heq,hregistry]
  cases hm : Decode.zclMessage t.registry ieee rx with
  | ok m =>
    have hmessage : (E.withCodecs customClusters).zclMessage w.registry ieee rx = .ok m := by
      rw [hwregistry]
      exact hm
    have hreport : u.reportZcl ieee rx env =
        ((w.touch ieee env.wall .message env).publish ieee rx m.kind).emit (.zclMessage m) := by
      rw [reportZcl,hmessage]
    refine ⟨.reported,hreplies,hpending,m,hm,?_⟩
    rw [hreport]
    have htouched := hw.trans (silent_touch w ieee env.wall .message env)
    exact newFrames_emit (htouched.trans (silent_publish _ ieee rx m.kind)) rfl
  | error reason =>
    have hmessage : (E.withCodecs customClusters).zclMessage w.registry ieee rx =
        .error reason := by
      rw [hwregistry]
      exact hm
    have hreport : u.reportZcl ieee rx env =
        (w.touch ieee env.wall .messageWithoutPayload env).emit
          (.unparsedFrame ieee rx.endpoint rx.cluster rx.frame reason) := by
      rw [reportZcl,hmessage]
    refine ⟨.unparsed,hreplies,hpending,reason,hm,?_⟩
    rw [hreport]
    exact newFrames_emit (hw.trans (silent_touch w ieee env.wall .messageWithoutPayload env)) rfl

/-- A read that is answered is taken out of the map, and its caller gets what was read. -/
theorem completeRead_adds {t u : Task (E.withCodecs customClusters)}
    (hmoves : Alters see [.devices,.addresses,.events] t u) (hsilent : t.Silent u) (ieee : Ieee)
    (rx : ZclRx) {frame : ZclFrame} (answer : ReadAnswer) (origin : Option ℕ) (env : Env)
    {w : PendingZcl}
    (hw : t.pendingZcl.lookup (rx.cluster,frame.header.tsn) = some w) :
    let t' := (u.completeRead ieee rx frame answer origin).touch ieee env.wall .message env
    t.newFrames t' = [] ∧ t'.pendingZcl = t.pendingZcl.erase (rx.cluster,frame.header.tsn) ∧
      t.newReplies t' = [⟨w.reply,.zclRead (u.readResult ieee rx answer),
        .zclFrame ieee rx.cluster frame (u.transmissionOf origin)⟩] := by
  intro t'
  have hreplies : u.replies = t.replies := hmoves .replies (by decide)
  have hpending : u.pendingZcl = t.pendingZcl := hmoves .pendingZcl (by decide)
  have hsettled : u.completeRead ieee rx frame answer origin =
      { u with pendingZcl := u.pendingZcl.erase (rx.cluster,frame.header.tsn) }.answer w.reply
        (.zclRead (u.readResult ieee rx answer))
        (.zclFrame ieee rx.cluster frame (u.transmissionOf origin)) := by
    rw [completeRead,settleZcl,hpending,hw]
  have htouch := alters_touch (u.completeRead ieee rx frame answer origin) ieee env.wall .message env
  have hsilent' : t.Silent t' := by
    refine hsilent.trans (Silent.trans ?_ (silent_touch _ ieee env.wall .message env))
    exact silent_settleZcl u _ _ _
  refine ⟨newFrames_of_silent hsilent',?_,?_⟩
  · have hout : t'.pendingZcl = (u.completeRead ieee rx frame answer origin).pendingZcl :=
      htouch .pendingZcl (by decide)
    rw [hout,hsettled]
    show u.pendingZcl.erase _ = _
    rw [hpending]
  · have hout : t'.replies = (u.completeRead ieee rx frame answer origin).replies :=
      htouch .replies (by decide)
    rw [newReplies,hout,hsettled]
    show (u.replies ++ [_]).drop t.replies.length = _
    rw [hreplies,List.drop_left]

/-- What the caller of an answered read gets is what the frame carries, unless it is a read
response that does not decode. -/
theorem carries_readResult_iff {t : Task (E.withCodecs customClusters)} (ieee : Ieee) {rx : ZclRx}
    {frame : ZclFrame} (hframe : ZclFrame.decode rx.frame = .ok frame) {answer : ReadAnswer}
    (h : ReadAnswer.of frame = some answer) :
    Carries t.registry ieee rx (t.readResult ieee rx answer) ↔ (answer = .attributes →
      ∃ records, Decode.reading (Decode.attributes true) frame.payload = .ok records) := by
  cases answer with
  | refused status =>
    obtain ⟨hstatus,command,hm⟩ := zclMessage_of_refused t.registry ieee hframe h
    exact ⟨fun _ ha => absurd ha (by simp),fun _ => .refused hm rfl hstatus⟩
  | attributes =>
    have hm := zclMessage_of_attributes t.registry ieee hframe h
    constructor
    · rintro hcarries -
      cases hread : Decode.reading (Decode.attributes true) frame.payload with
      | ok records => exact ⟨records,rfl⟩
      | error e =>
        rw [hread] at hm
        generalize t.readResult ieee rx .attributes = result at hcarries
        cases hcarries with
        | attributes hm' _ =>
          rw [hm] at hm'
          simp [Except.map] at hm'
        | refused hm' _ _ =>
          rw [hm] at hm'
          simp [Except.map] at hm'
    · intro hdecodes
      obtain ⟨records,hread⟩ := hdecodes rfl
      rw [hread] at hm
      have hdecoded : t.decodedAttributes ieee rx = records := by
        have hmessage : (E.withCodecs customClusters).zclMessage t.registry ieee rx = _ := hm
        rw [decodedAttributes,hmessage]
        rfl
      rw [readResult,hdecoded]
      exact .attributes hm rfl

theorem readAnswered_eq_some {t : Task (E.withCodecs customClusters)} {rx : ZclRx}
    {frame : ZclFrame} {answer : ReadAnswer} (h : t.readAnswered rx = some (frame,answer)) :
    ZclFrame.decode rx.frame = .ok frame ∧ ReadAnswer.of frame = some answer ∧
      ∃ w, t.pendingZcl.lookup (rx.cluster,frame.header.tsn) = some w := by
  rw [readAnswered] at h
  split at h
  · simp at h
  · rename_i frame' hframe
    split at h
    · simp at h
    · rename_i answer' hof
      split at h
      · rename_i hsome
        simp only [Option.some.injEq,Prod.mk.injEq] at h
        obtain ⟨rfl,rfl⟩ := h
        exact ⟨hframe,hof,Option.isSome_iff_exists.mp hsome⟩
      · simp at h

/-- A frame first moves its sender to its address and notes the link quality. -/
theorem noted_frame (t : Task (E.withCodecs customClusters)) (ieee : Ieee) (rx : ZclRx)
    {f : Entry → Entry} (hf : ∀ e, (f e).info.nwk = e.info.nwk) :
    let u := (t.readdress ieee rx.nwk).modifyDevice ieee f
    Alters see [.devices,.addresses,.events] t u ∧ t.Silent u ∧
      u.readAnswered rx = t.readAnswered rx := by
  intro u
  obtain ⟨devices,events,hmoved⟩ := readdress_eq t ieee rx.nwk
  refine ⟨?_,(silent_readdress t ieee rx.nwk).trans (.of_events rfl),?_⟩
  · exact (t.alters_readdress ieee rx.nwk).both ((alters_modifyDevice _ ieee hf).mono (by decide))
  · show ((t.readdress ieee rx.nwk).modifyDevice ieee f).readAnswered rx = _
    rw [hmoved]
    rfl

/-- When all a frame does is to complete a read, it is handled exactly when the caller gets what
the frame carries. -/
theorem completes_iff {t t' : Task (E.withCodecs customClusters)} {ieee : Ieee} {rx : ZclRx}
    {key : ClusterId × UInt8} {w : PendingZcl} {cause : Cause}
    {result : Except RuntimeError (List (UInt16 × ZclValue))}
    (hw : t.pendingZcl.lookup key = some w) (hframes : t.newFrames t' = [])
    (hpending : t'.pendingZcl = t.pendingZcl.erase key)
    (hreplies : t.newReplies t' = [⟨w.reply,.zclRead result,cause⟩]) :
    (∃! o, t.ComesTo t' ieee rx o) ↔ Carries t.registry ieee rx result := by
  constructor
  · rintro ⟨o,ho,-⟩
    cases o with
    | completed =>
      obtain ⟨-,key',w',result',cause',-,-,hreplies',hresult⟩ := ho
      rw [hreplies,List.cons.injEq,Answer.mk.injEq,Reply.zclRead.injEq] at hreplies'
      rw [hreplies'.1.2.1]
      exact hresult
    | reported | unparsed =>
      have hnone : t.newReplies t' = [] := ho.1
      rw [hreplies] at hnone
      exact absurd hnone (by simp)
  · intro hresult
    have ho : t.ComesTo t' ieee rx .completed :=
      ⟨hframes,key,w,result,cause,hw,hpending,hreplies,hresult⟩
    exact ⟨.completed,ho,fun o' ho' => ho'.unique ho⟩

theorem handlesZcl_iff (t : Task (E.withCodecs customClusters)) (rx : ZclRx) (origin : Option ℕ)
    (env : Env) (ieee : Ieee) (hsender : t.senderOf rx = some ieee) :
    (∃! o, t.ComesTo (t.onZcl rx origin env) ieee rx o) ↔ ∀ frame,
      ZclFrame.decode rx.frame = .ok frame → ReadAnswer.of frame = some .attributes →
        (t.pendingZcl.lookup (rx.cluster,frame.header.tsn)).isSome = true →
          ∃ records, Decode.reading (Decode.attributes true) frame.payload = .ok records := by
  rw [onZcl,hsender]
  dsimp only
  have hnoted := noted_frame t ieee rx (f := fun e =>
    { e with info := { e.info with linkQuality := rx.linkQuality <|> e.info.linkQuality } })
      fun _ => rfl
  generalize (t.readdress ieee rx.nwk).modifyDevice ieee _ = u at hnoted ⊢
  obtain ⟨hmoves,hsilent,hanswered⟩ := hnoted
  have hregistry : u.registry = t.registry := hmoves .registry (by decide)
  rw [hanswered]
  cases hfound : t.readAnswered rx with
  | none =>
    obtain ⟨o,ho⟩ := reportZcl_comesTo hmoves hsilent ieee rx env
    refine ⟨fun _ frame hframe hof hlookup => ?_,fun _ => ⟨o,ho,fun o' ho' => ho'.unique ho⟩⟩
    rw [readAnswered,hframe] at hfound
    simp [hof,hlookup] at hfound
  | some found =>
    obtain ⟨frame,answer⟩ := found
    obtain ⟨hframe,hof,w,hw⟩ := readAnswered_eq_some hfound
    obtain ⟨hframes,hpending,hreplies⟩ :=
      completeRead_adds hmoves hsilent ieee rx answer origin env hw
    have hcarries := carries_readResult_iff (t := u) ieee hframe hof
    rw [hregistry] at hcarries
    rw [completes_iff hw hframes hpending hreplies,hcarries]
    constructor
    · intro hdecodes frame' hframe' hof' _
      obtain rfl := Except.ok.inj (hframe.symm.trans hframe')
      exact hdecodes (Option.some.inj (hof.symm.trans hof'))
    · intro hdecodes ha
      refine hdecodes frame hframe (ha ▸ hof) ?_
      rw [hw]
      rfl

/-- One frame: it is handled to one outcome unless it is the answer to a pending read and does
not decode. -/
theorem handlesFrame_iff (t : Task (E.withCodecs customClusters))
    (input : Input (E.withCodecs customClusters)) : t.HandlesFrame input ↔ t.DecodesAnswer input := by
  have hstep : ∀ rx origin (env : ℕ → Env), t.stopped = false →
      t.step (.event (.zcl rx) origin env) = t.onZcl rx origin (env 0) := by
    intro rx origin env hrunning
    simp [step,hrunning,handleAdapterEvent]
  constructor
  · rintro h rx origin env ieee frame rfl hrunning hsender hknown
    have hhandled := h rx origin env ieee rfl hrunning hsender hknown
    rw [hstep rx origin env hrunning] at hhandled
    exact (handlesZcl_iff t rx origin (env 0) ieee hsender).mp hhandled frame
  · rintro h rx origin env ieee rfl hrunning hsender hknown
    rw [hstep rx origin env hrunning]
    exact (handlesZcl_iff t rx origin (env 0) ieee hsender).mpr fun frame =>
      h rx origin env ieee frame rfl hrunning hsender hknown

/-- In every run, no frame of a known device is lost exactly when every read response that
answers a pending read decodes. -/
theorem no_frame_lost_iff (config : TaskConfig (E.withCodecs customClusters)) (env : Env)
    (inputs : List (Input (E.withCodecs customClusters))) :
    Runs.Meets step HandlesFrame (start config env) inputs ↔
      Runs.Meets step DecodesAnswer (start config env) inputs :=
  Runs.meets_congr step (A := fun _ => True) (P := fun _ => True) (fun _ _ _ _ => trivial)
    (fun t i _ _ => handlesFrame_iff t i) trivial fun _ _ => trivial

end Handling

section Silenced

/-- An engine that decodes frames and knows no device definition. -/
abbrev decoding : Engine := Engine.bare.withCodecs noClusters

def decodingConfig : TaskConfig decoding where
  reachability := silencePolicy defaultSilenceLimit
  interviewOnJoin := false
  devices := []
  outcome := .formed
  coordinator := ⟨0xc0⟩
  networkKnown := false
  registry := {}
  store := .new

/-- A device joins, its on/off cluster is read, and it answers with half a record. -/
def halfAnswered : List (Input decoding) :=
  [.event (.deviceJoined (some ⟨1⟩) ⟨2⟩) none fun _ => {},
    .request (.zclRead ⟨1⟩ ⟨1⟩ ⟨6⟩ [⟨0⟩]) fun _ => {},
    .event (.zcl {
      ieee := some ⟨1⟩
      nwk := ⟨2⟩
      endpoint := ⟨1⟩
      destinationEndpoint := ⟨1⟩
      cluster := ⟨6⟩
      group := none
      wasBroadcast := false
      linkQuality := none
      frame := [0x18,0x01,0x01,0x00] }) none fun _ => {}]

/-- The caller of the read is told that nothing was read, and nobody is told of the frame. -/
theorem half_answer_is_lost :
    ¬ Runs.Meets step HandlesFrame (start decodingConfig {}) halfAnswered := by
  have hstart : start decodingConfig {} =
      { (new decodingConfig).registerCoordinator {} with events := [.started .formed] } := by
    simp only [start,startup]
    rw [registerCustomClusters_unresolved fun _ => rfl]
    rfl
  rw [hstart]
  rintro ⟨_,_,hhandled,_⟩
  have hdecodes := (handlesFrame_iff _ _).mp hhandled
  obtain ⟨records,hrecords⟩ := hdecodes _ _ _ ⟨1⟩ _ rfl rfl rfl rfl rfl rfl rfl
  have hcut : Decode.reading (Decode.attributes true) [0x00] = .error (.codec (.eof 2 0 1)) := rfl
  exact absurd (hcut.symm.trans hrecords) (by simp)

end Silenced

end Task
end Rszigbee
