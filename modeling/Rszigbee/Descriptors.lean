import Rszigbee.Layouts
import Rszigbee.Zdo

/-! How the responses of an interview are laid out, and that nothing else is accepted. -/
namespace Rszigbee

namespace ZdoError

/-- More was asked for than there was. -/
def Short : ZdoError → Prop
  | truncated _ claimed available => available < claimed
  | codec (.eof wanted _ available) => available < wanted
  | _ => False

def IsStatus : ZdoError → Prop
  | status _ _ => True
  | _ => False

end ZdoError

/-- A status of success, and the address described. -/
def answered (sequence : UInt8) (of : Nwk) : Bytes := [sequence,0x00] ++ le16 of.raw

/-- A count, and as many endpoints. -/
def ActiveEndpoints.layout (a : ActiveEndpoints) : Bytes :=
  answered a.sequence a.of ++ [.ofNat a.endpoints.length] ++ a.endpoints.map EndpointId.raw

/-- A count, and as many clusters. -/
def clusterLayout (clusters : List ClusterId) : Bytes :=
  .ofNat clusters.length::clusters.flatMap fun c => le16 c.raw

namespace SimpleDescriptor

/-- The fields of a descriptor, with these octets for its length and its version. -/
def layout (d : SimpleDescriptor) (length version : UInt8) : Bytes :=
  answered d.sequence d.of ++ [length,d.endpoint.raw] ++ le16 d.profile.raw ++ le16 d.deviceId ++
    [version] ++ clusterLayout d.inputClusters ++ clusterLayout d.outputClusters

/-- The bytes of a descriptor after its length. -/
def size (d : SimpleDescriptor) : ℕ :=
  8 + 2 * d.inputClusters.length + 2 * d.outputClusters.length

end SimpleDescriptor

/-- A count of one byte tells how many there are. -/
def Counted {α : Type} (xs : List α) : Prop := xs.length < 256

namespace Zdo

section Status
variable {α β : Type}

theorem lift_eq (m : Read α) (r : Reader) :
    (liftM m : ReadZdo α) r = (m r).mapError .codec := by
  cases hm : m r <;> simp [liftM,monadLift,MonadLift.monadLift,hm,Except.mapError]

/-- A reader that is lifted reads the same. -/
theorem reads_lift {m : Read α} {G : α → Bytes → Bytes → Prop} (hm : Reads m G) :
    Reads (liftM m : ReadZdo α) G := by
  intro before pos a after
  simp only [lift_eq,mapError_eq_ok]
  exact hm before pos a after

theorem fails_lift {m : Read α} (hm : FailsWith m fun e => ZdoError.Short (.codec e)) :
    FailsWith (liftM m : ReadZdo α) ZdoError.Short := by
  intro r e h
  rw [lift_eq] at h
  cases hr : m r with
  | ok x => cases hr ▸ h
  | error e' =>
    rw [hr] at h
    cases h
    exact hm r e' hr

theorem fails_u8 : FailsWith (liftM Reader.u8 : ReadZdo UInt8) ZdoError.Short := by
  refine fails_lift fun r e h => ?_
  rw [Reader.u8] at h
  split at h
  · cases h
  · cases h
    exact Nat.zero_lt_one

theorem fails_u16Le : FailsWith (liftM Reader.u16Le : ReadZdo UInt16) ZdoError.Short := by
  refine fails_lift fun r e h => ?_
  obtain ⟨rest,pos⟩ := r
  match rest with
  | [] | [_] =>
    cases h
    simp [ZdoError.Short,Reader.remaining]
  | _::_::_ => cases h

theorem fromU8_isSuccess (code : UInt8) : (ZdoStatus.fromU8 code).isSuccess = decide (code = 0) := by
  rw [ZdoStatus.fromU8]
  split_ifs <;> simp_all [ZdoStatus.isSuccess]

theorem reads_status : Reads readStatus fun sequence before after =>
    before = [sequence,0x00] ++ after := by
  refine ((reads_lift Reads.u8).bind fun sequence => (reads_lift Reads.u8).bind fun code =>
    (Reads.pure sequence).ite (Reads.throw _)).congr fun sequence before after => ?_
  simp only [fromU8_isSuccess,decide_eq_true_eq]
  constructor
  · rintro ⟨sequence',_,rfl,code,mid,rfl,h⟩
    split at h
    · rename_i hcode
      obtain ⟨rfl,rfl⟩ := h
      rw [hcode]
      rfl
    · exact h.elim
  · rintro rfl
    exact ⟨sequence,_,rfl,0,after,rfl,by simp⟩

theorem fails_status : FailsWith readStatus fun e => e.IsStatus ∨ e.Short := by
  have hu8 := fails_u8.imp (Q := fun e => e.IsStatus ∨ e.Short) fun _ => .inr
  refine hu8.bind fun sequence => hu8.bind fun code => ?_
  intro r e h
  dsimp only at h
  split at h
  · cases h
  · cases h
    exact .inl trivial

/-- A status that is none of success is the error. -/
theorem status_error_iff {payload : Bytes} {sequence : UInt8} {status : ZdoStatus} :
    readStatus (.new payload) = .error (.status sequence status) ↔
      ∃ code rest, payload = sequence::code::rest ∧ code ≠ 0 ∧ status = .fromU8 code := by
  match payload with
  | [] =>
    have hread : readStatus (.new []) = .error (.codec (.eof 1 0 0)) := rfl
    simp [hread]
  | [b] =>
    have hread : readStatus (.new [b]) = .error (.codec (.eof 1 1 0)) := rfl
    simp [hread]
  | b::code::rest =>
    have hread : readStatus (.new (b::code::rest)) =
        (if (ZdoStatus.fromU8 code).isSuccess then pure b
          else throw (.status b (.fromU8 code)) : ReadZdo UInt8) ⟨rest,2⟩ := rfl
    rw [hread,fromU8_isSuccess]
    by_cases hcode : code = 0
    · rw [if_pos (by simpa using hcode)]
      have hpure : (pure b : ReadZdo UInt8) ⟨rest,2⟩ = .ok (b,⟨rest,2⟩) := rfl
      simp [hcode,hpure]
    · rw [if_neg (by simpa using hcode)]
      show (Except.error (.status b (.fromU8 code)) : Except ZdoError (UInt8 × Reader)) = _ ↔ _
      grind

end Status

section Lists

theorem take_le {n : ℕ} {r : Reader} {e : CodecError} (h : Reader.take n r = .error e) :
    r.remaining < n := by
  rw [Reader.take] at h
  split at h
  · cases h
  · omega

theorem reads_claimed (what : String) (n : ℕ) : Reads (readClaimed what n) fun b before after =>
    b.length = n ∧ before = b ++ after := by
  intro before pos b after
  rw [← Reads.take n before pos b after]
  refine exists_congr fun pos' => ?_
  rw [readClaimed]
  cases Reader.take n ⟨before,pos⟩ <;> simp

theorem fails_claimed (what : String) (n : ℕ) : FailsWith (readClaimed what n) ZdoError.Short := by
  intro r e h
  rw [readClaimed] at h
  split at h
  · cases h
  · rename_i htake
    cases h
    exact take_le htake

/-- A count of the bytes is one of what they stand for. -/
theorem counted_iff {α : Type} {xs : List α} : Counted xs ↔ (UInt8.ofNat xs.length).toNat = xs.length := by
  rw [Counted]
  constructor
  · exact UInt8.toNat_ofNat_of_lt'
  · intro h
    exact h ▸ UInt8.toNat_lt _

theorem counted_of_toNat {α : Type} {xs : List α} {count : UInt8} (h : xs.length = count.toNat) :
    Counted xs ∧ count = .ofNat xs.length := by
  rw [Counted,h,UInt8.ofNat_toNat]
  exact ⟨count.toNat_lt,rfl⟩

theorem reads_clusters (n : ℕ) : Reads (readClusters n) fun clusters before after =>
    clusters.length = n ∧ before = (clusters.flatMap fun c => le16 c.raw) ++ after := by
  induction n with
  | zero =>
    refine (Reads.pure _).congr fun clusters before after => ?_
    rw [List.length_eq_zero_iff]
    constructor
    · rintro ⟨rfl,rfl⟩
      exact ⟨rfl,rfl⟩
    · rintro ⟨rfl,rfl⟩
      exact ⟨rfl,rfl⟩
  | succ n ih =>
    refine ((reads_lift Reads.u16Le).bind fun c => ih.map).congr fun clusters before after => ?_
    constructor
    · rintro ⟨c,_,rfl,rest,⟨hlength,rfl⟩,rfl⟩
      simp [hlength]
    · rintro ⟨hlength,rfl⟩
      obtain ⟨c,rest,rfl⟩ := List.exists_cons_of_length_eq_add_one hlength
      exact ⟨c.raw,_,by simp,rest,⟨by simpa using hlength,rfl⟩,rfl⟩

theorem fails_clusters (n : ℕ) : FailsWith (readClusters n) ZdoError.Short := by
  induction n with
  | zero => exact FailsWith.pure _
  | succ n ih => exact fails_u16Le.bind fun c => ih.bind fun rest => FailsWith.pure _

/-- The count is compared with what is left before anything is read by it. -/
theorem readClusterList_eq (what : String) : readClusterList what = liftM Reader.u8 >>= fun count =>
    fun r => if count.toNat * 2 > r.remaining then
        .error (.truncated what (count.toNat * 2) r.remaining)
      else readClusters count.toNat r := by
  rw [readClusterList]
  congr 1
  funext count r
  by_cases h : count.toNat * 2 > r.remaining
  · rw [if_pos h]
    show (if count.toNat * 2 > r.remaining then _ else _ : ReadZdo (List ClusterId)) r = _
    rw [if_pos h]
    rfl
  · rw [if_neg h]
    show (if count.toNat * 2 > r.remaining then _ else _ : ReadZdo (List ClusterId)) r = _
    rw [if_neg h]

theorem reads_clusterList (what : String) : Reads (readClusterList what) fun clusters before after =>
    Counted clusters ∧ before = clusterLayout clusters ++ after := by
  rw [readClusterList_eq]
  have hchecked (n : ℕ) : Reads (fun r => if n * 2 > r.remaining then
      .error (.truncated what (n * 2) r.remaining) else readClusters n r) fun clusters before after =>
        clusters.length = n ∧ before = (clusters.flatMap fun c => le16 c.raw) ++ after := by
    intro before pos clusters after
    rw [← reads_clusters n before pos clusters after]
    dsimp only
    split
    · rename_i hshort
      simp only [reduceCtorEq,exists_false,false_iff]
      intro h
      obtain ⟨hlength,rfl⟩ := (reads_clusters n before pos clusters after).mp h
      simp [Reader.remaining,le16,hlength] at hshort
    · rfl
  refine ((reads_lift Reads.u8).bind fun count => hchecked count.toNat).congr
    fun clusters before after => ?_
  constructor
  · rintro ⟨count,_,rfl,hlength,rfl⟩
    obtain ⟨hcounted,rfl⟩ := counted_of_toNat hlength
    exact ⟨hcounted,by simp [clusterLayout]⟩
  · rintro ⟨hcounted,rfl⟩
    exact ⟨_,_,rfl,(counted_iff.mp hcounted).symm,rfl⟩

theorem fails_clusterList (what : String) : FailsWith (readClusterList what) ZdoError.Short := by
  rw [readClusterList_eq]
  refine fails_u8.bind fun count => ?_
  intro r e h
  dsimp only at h
  split at h
  · rename_i hshort
    cases h
    exact hshort
  · exact fails_clusters _ r e h

end Lists

section Responses

/-- What is accepted is laid out so, whatever follows; another status is refused as itself, and
anything else because something is asked for that is not there. -/
structure ParsesExactly {α : Type} (parse : Bytes → Except ZdoError α) (layout : α → Bytes → Prop) :
    Prop where
  accepts : ∀ payload a, parse payload = .ok a ↔
    ∃ bytes suffix, layout a bytes ∧ payload = bytes ++ suffix
  refuses : ∀ payload sequence status, parse payload = .error (.status sequence status) ↔
    ∃ code rest, payload = sequence::code::rest ∧ code ≠ 0 ∧ status = .fromU8 code
  bounded : ∀ payload e, parse payload = .error e → e.IsStatus ∨ e.Short

/-- A response that is read after its status. -/
theorem parsesExactly_of_reads {α : Type} {read : UInt8 → ReadZdo α} {layout : α → Bytes → Prop}
    (hreads : Reads (readStatus >>= read) fun a before after =>
      ∃ bytes, layout a bytes ∧ before = bytes ++ after)
    (hfails : ∀ sequence, FailsWith (read sequence) ZdoError.Short) :
    ParsesExactly (decode (readStatus >>= read)) layout where
  accepts payload a := by
    rw [decode,hreads.run]
    exact exists_comm
  refuses payload sequence status := by
    rw [decode,map_eq_error,bind_error_iff,← status_error_iff]
    refine or_iff_left ?_
    rintro ⟨a,r,-,h⟩
    exact hfails a r _ h
  bounded payload e h := by
    rw [decode,map_eq_error] at h
    exact fails_status.bind (fun sequence => (hfails sequence).imp fun _ => .inr) _ e h

/-- The layout of an endpoint list. -/
def ActiveEndpointsLayout (a : ActiveEndpoints) (bytes : Bytes) : Prop :=
  Counted a.endpoints ∧ bytes = a.layout

/-- The layout of a descriptor: its length can be any octet, and so can the upper half of its
version. -/
def SimpleDescriptorLayout (d : SimpleDescriptor) (bytes : Bytes) : Prop :=
  Counted d.inputClusters ∧ Counted d.outputClusters ∧ ∃ length version,
    version &&& 0x0f = d.deviceVersion ∧ bytes = d.layout length version

theorem reads_activeEpRsp : Reads readActiveEpRsp fun a before after =>
    ∃ bytes, ActiveEndpointsLayout a bytes ∧ before = bytes ++ after := by
  refine (reads_status.bind fun sequence => (reads_lift Reads.u16Le).bind fun of =>
    (reads_lift Reads.u8).bind fun count => (reads_claimed _ count.toNat).map).congr
      fun a before after => ?_
  constructor
  · rintro ⟨sequence,_,rfl,of,_,rfl,count,_,rfl,bytes,⟨hlength,rfl⟩,rfl⟩
    obtain ⟨hcounted,rfl⟩ := counted_of_toNat hlength
    refine ⟨_,⟨?_,rfl⟩,?_⟩
    · rwa [Counted,List.length_map]
    · simp [ActiveEndpoints.layout,answered,Function.comp_def]
  · rintro ⟨_,⟨hcounted,rfl⟩,rfl⟩
    refine ⟨a.sequence,_,rfl,a.of.raw,_,rfl,_,_,rfl,a.endpoints.map EndpointId.raw,⟨?_,rfl⟩,?_⟩
    · rw [List.length_map,counted_iff.mp hcounted]
    · simp [Function.comp_def]

theorem reads_simpleDescRsp : Reads readSimpleDescRsp fun d before after =>
    ∃ bytes, SimpleDescriptorLayout d bytes ∧ before = bytes ++ after := by
  refine (reads_status.bind fun sequence => (reads_lift Reads.u16Le).bind fun of =>
    (reads_lift Reads.u8).bind fun length => (reads_lift Reads.u8).bind fun endpoint =>
    (reads_lift Reads.u16Le).bind fun profile => (reads_lift Reads.u16Le).bind fun device =>
    (reads_lift Reads.u8).bind fun version => (reads_clusterList _).bind fun inputs =>
    (reads_clusterList _).map).congr fun d before after => ?_
  constructor
  · rintro ⟨sequence,_,rfl,of,_,rfl,length,_,rfl,endpoint,_,rfl,profile,_,rfl,device,_,rfl,version,_,
      rfl,inputs,_,⟨hinputs,rfl⟩,outputs,⟨houtputs,rfl⟩,rfl⟩
    refine ⟨_,⟨hinputs,houtputs,length,version,rfl,rfl⟩,?_⟩
    simp [SimpleDescriptor.layout,answered]
  · rintro ⟨_,⟨hinputs,houtputs,length,version,hversion,rfl⟩,rfl⟩
    refine ⟨d.sequence,_,?_,d.of.raw,_,rfl,length,_,rfl,d.endpoint.raw,_,rfl,d.profile.raw,_,rfl,
      d.deviceId,_,rfl,version,_,rfl,d.inputClusters,_,⟨hinputs,rfl⟩,d.outputClusters,
      ⟨houtputs,rfl⟩,?_⟩
    · simp [SimpleDescriptor.layout,answered]
    · rw [hversion]

/-- Both decoders accept exactly the layouts of what they yield. -/
theorem responses_parsed_exactly : ParsesExactly decodeActiveEpRsp ActiveEndpointsLayout ∧
    ParsesExactly decodeSimpleDescRsp SimpleDescriptorLayout := by
  refine ⟨parsesExactly_of_reads reads_activeEpRsp fun sequence => ?_,
    parsesExactly_of_reads reads_simpleDescRsp fun sequence => ?_⟩
  · exact fails_u16Le.bind fun of => fails_u8.bind fun count =>
      (fails_claimed _ _).bind fun bytes => FailsWith.pure _
  · exact fails_u16Le.bind fun of => fails_u8.bind fun length => fails_u8.bind fun endpoint =>
      fails_u16Le.bind fun profile => fails_u16Le.bind fun device => fails_u8.bind fun version =>
      (fails_clusterList _).bind fun inputs => (fails_clusterList _).bind fun outputs =>
      FailsWith.pure _

/-- A descriptor as its device should write it: its length counted, and nothing beside its
version. -/
def CanonicalLayout (d : SimpleDescriptor) (bytes : Bytes) : Prop :=
  Counted d.inputClusters ∧ Counted d.outputClusters ∧ d.deviceVersion.toNat < 16 ∧ d.size < 256 ∧
    bytes = d.layout (.ofNat d.size) d.deviceVersion

/-- A descriptor of sixteen bytes that claims to be of twenty. -/
def longDescriptor : Bytes :=
  [0x04,0x00,0x00,0x00,0x14,0x01,0x04,0x01,0x00,0x01,0x01,0x03,0x00,0x00,0x03,0x00,0x06,0x00,0x01,
    0x19,0x00]

/-- It is accepted. -/
theorem claimed_length_ignored : ¬ (ParsesExactly decodeActiveEpRsp ActiveEndpointsLayout ∧
    ParsesExactly decodeSimpleDescRsp CanonicalLayout) := by
  rintro ⟨-,h⟩
  have hdecode : decodeSimpleDescRsp longDescriptor =
      .ok ⟨4,⟨0⟩,⟨1⟩,⟨0x0104⟩,0x0100,1,[⟨0⟩,⟨3⟩,⟨6⟩],[⟨0x19⟩]⟩ := by decide
  obtain ⟨_,suffix,⟨-,-,-,-,rfl⟩,hbytes⟩ := (h.accepts _ _).mp hdecode
  have hlength : some (0x14 : UInt8) = some 0x10 := congrArg (fun b => (b.drop 4).head?) hbytes
  revert hlength
  decide

end Responses

end Zdo
end Rszigbee
