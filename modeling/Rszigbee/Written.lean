import Rszigbee.Decode
import Rszigbee.Requests
import Rszigbee.Widths

/-! Attribute records as they are written one after the other, and what becomes of them when they
are decoded. -/
namespace Rszigbee

/-- One record: an attribute, a status in a read response, and a value after the tag of its type. -/
structure Written where
  id : UInt16
  status : UInt8 := 0
  tag : UInt8
  value : Bytes
  deriving DecidableEq

namespace Written

/-- A status other than zero stands in the place of the value. -/
def Refused (withStatus : Bool) (w : Written) : Prop := withStatus = true ∧ w.status ≠ 0

instance (withStatus : Bool) (w : Written) : Decidable (w.Refused withStatus) :=
  inferInstanceAs (Decidable (_ ∧ _))

def ty (w : Written) : ZclType := .fromU8 w.tag

def layout (withStatus : Bool) (w : Written) : Bytes :=
  le16 w.id ++ (if withStatus then [w.status] else []) ++
    if w.Refused withStatus then [] else w.tag::w.value

/-- No byte of its value is missing, and none is left. -/
def Whole (withStatus : Bool) (w : Written) : Prop := ¬ w.Refused withStatus → w.ty.Whole w.value

/-- The length of its value is not known. -/
def Open (withStatus : Bool) (w : Written) : Prop := ¬ w.Refused withStatus ∧ w.ty.Open

/-- Its value is no text, or one in UTF-8. -/
def Readable (withStatus : Bool) (w : Written) : Prop :=
  ¬ w.Refused withStatus → w.ty = .charStr → IsText w.value

/-- Its attribute and value, if it has one. -/
def found (withStatus : Bool) (w : Written) : Option (UInt16 × ZclValue) :=
  if w.Refused withStatus then none else (w.ty.meaning w.value).map fun v => (w.id,v)

end Written

section Values

theorem ZclType.meaning_isSome_iff {ty : ZclType} {b : Bytes} (hb : ty.Whole b) :
    (∃ v, ty.meaning b = some v) ↔ (ty = .charStr → IsText b) := by
  rw [← Option.isSome_iff_exists,Option.isSome_iff_ne_none]
  by_cases hopen : ty.Open
  · obtain ⟨o,rfl⟩ := hopen
    have hmeaning : meaning (.unknown o) b = some (.raw o b) := rfl
    simp [hmeaning]
  · rw [Ne,meaning_eq_none hopen (hb.resolve_left hopen)]
    tauto

end Values

namespace Decode
open Written

variable {withStatus : Bool}

theorem reads_typedValue : Reads typedValue fun v before after =>
    ∃ tag value, (ZclType.fromU8 tag).Whole value ∧ (ZclType.fromU8 tag).meaning value = some v ∧
      before = tag::value ++ after ∧ ((ZclType.fromU8 tag).Open → after = []) := by
  refine (Reads.u8.bind fun tag => ZclType.reads_value (.fromU8 tag)).congr
    fun v before after => ?_
  refine exists_congr fun tag => ?_
  constructor
  · rintro ⟨_,rfl,value,hvalue,hv,rfl,hend⟩
    exact ⟨value,hvalue,hv,rfl,hend⟩
  · rintro ⟨value,hvalue,hv,rfl,hend⟩
    exact ⟨_,rfl,value,hvalue,hv,rfl,hend⟩

/-- What a record is for, after its status. -/
def valueOf (id : UInt16) : Read (Option (UInt16 × ZclValue)) :=
  typedValue >>= fun v => pure (some (id,v))

theorem record_report : record false = Reader.u16Le >>= valueOf := by
  funext r
  rw [record]
  rfl

theorem record_response : record true = Reader.u16Le >>= fun id => Reader.u8 >>= fun status =>
    if status ≠ 0 then pure none else valueOf id := rfl

theorem reads_valueOf (withStatus : Bool) (id : UInt16) (status : UInt8)
    (hgood : withStatus = true → status = 0) :
    Reads (valueOf id) fun found before after => ∃ w : Written, w.id = id ∧
      (withStatus = true → w.status = status) ∧ w.Whole withStatus ∧ w.Readable withStatus ∧
        found = w.found withStatus ∧ before = w.tag::w.value ++ after ∧
          (w.Open withStatus → after = []) := by
  have hrefused {w : Written} (hstatus : withStatus = true → w.status = status) :
      ¬ w.Refused withStatus := fun h => h.2 ((hstatus h.1).trans (hgood h.1))
  refine reads_typedValue.map.congr fun found before after => ?_
  constructor
  · rintro ⟨v,⟨tag,value,hvalue,hv,hbefore,hend⟩,rfl⟩
    have hnot : ¬ (Written.mk id status tag value).Refused withStatus := hrefused fun _ => rfl
    refine ⟨⟨id,status,tag,value⟩,rfl,fun _ => rfl,fun _ => hvalue,fun _ => ?_,?_,hbefore,
      fun h => hend h.2⟩
    · exact (ZclType.meaning_isSome_iff hvalue).mp ⟨v,hv⟩
    · rw [Written.found,if_neg hnot,ty,hv]
      rfl
  · rintro ⟨w,rfl,hstatus,hwhole,htext,rfl,hbefore,hend⟩
    have hnot := hrefused hstatus
    obtain ⟨v,hv⟩ := (ZclType.meaning_isSome_iff (hwhole hnot)).mpr (htext hnot)
    refine ⟨v,⟨w.tag,w.value,hwhole hnot,hv,hbefore,fun h => hend ⟨hnot,h⟩⟩,?_⟩
    rw [Written.found,if_neg hnot,hv]
    rfl

/-- After a status other than zero there is no value. -/
theorem reads_answer (id : UInt16) (status : UInt8) :
    Reads (if status ≠ 0 then pure none else valueOf id) fun found before after =>
      ∃ w : Written, w.id = id ∧ w.status = status ∧ w.Whole true ∧ w.Readable true ∧
        found = w.found true ∧
          before = (if w.Refused true then [] else w.tag::w.value) ++ after ∧
            (w.Open true → after = []) := by
  by_cases hgood : status = 0
  · rw [if_neg (not_not_intro hgood)]
    refine (reads_valueOf true id status fun _ => hgood).congr
      fun found before after => ?_
    refine exists_congr fun w => and_congr_right fun _ => ?_
    rw [forall_prop_of_true rfl]
    refine and_congr_right fun hstatus => ?_
    have hnot : ¬ w.Refused true := fun h => h.2 (hstatus.trans hgood)
    rw [if_neg hnot]
  · rw [if_pos hgood]
    refine (Reads.pure none).congr fun found before after => ?_
    constructor
    · rintro ⟨rfl,rfl⟩
      have hrefused : (Written.mk id status 0 []).Refused true := ⟨rfl,hgood⟩
      refine ⟨⟨id,status,0,[]⟩,rfl,rfl,fun h => absurd hrefused h,fun h => absurd hrefused h,
        ?_,?_,fun h => absurd hrefused h.1⟩
      · rw [Written.found,if_pos hrefused]
      · rw [if_pos hrefused,List.nil_append]
    · rintro ⟨w,rfl,rfl,-,-,rfl,rfl,-⟩
      have hrefused : w.Refused true := ⟨rfl,hgood⟩
      rw [Written.found,if_pos hrefused,if_pos hrefused]
      exact ⟨rfl,rfl⟩

/-- A record is read as far as it was written. -/
theorem reads_record : Reads (record withStatus) fun found before after =>
    ∃ w : Written, w.Whole withStatus ∧ w.Readable withStatus ∧ found = w.found withStatus ∧
      before = w.layout withStatus ++ after ∧ (w.Open withStatus → after = []) := by
  cases withStatus with
  | false =>
    have hlayout (w : Written) : w.layout false = le16 w.id ++ w.tag::w.value := by
      simp [layout,Refused]
    rw [record_report]
    refine (Reads.u16Le.bind fun id => reads_valueOf false id 0
      fun h => by cases h).congr fun found before after => ?_
    constructor
    · rintro ⟨_,_,rfl,w,rfl,-,hwhole,htext,hfound,rfl,hend⟩
      exact ⟨w,hwhole,htext,hfound,by simp [hlayout],hend⟩
    · rintro ⟨w,hwhole,htext,hfound,rfl,hend⟩
      exact ⟨w.id,_,by rw [hlayout,List.append_assoc],w,rfl,fun h => (by cases h),hwhole,htext,hfound,
        rfl,hend⟩
  | true =>
    rw [record_response]
    refine (Reads.u16Le.bind fun id => Reads.u8.bind fun status => reads_answer id status).congr
      fun found before after => ?_
    constructor
    · rintro ⟨_,_,rfl,_,_,rfl,w,rfl,rfl,hwhole,htext,hfound,rfl,hend⟩
      exact ⟨w,hwhole,htext,hfound,by simp [layout],hend⟩
    · rintro ⟨w,hwhole,htext,hfound,rfl,hend⟩
      exact ⟨w.id,_,by simp [layout],w.status,_,rfl,w,rfl,rfl,hwhole,htext,hfound,rfl,hend⟩

section Runs

/-- Records that can be read one after the other: whole, their texts in UTF-8, and none but the last
of unknown length. -/
structure Legible (withStatus : Bool) (ws : List Written) : Prop where
  whole : ∀ w ∈ ws, w.Whole withStatus
  readable : ∀ w ∈ ws, w.Readable withStatus
  closed : ∀ w ∈ ws.dropLast, ¬ w.Open withStatus

/-- The bytes of records, one after the other. -/
def layouts (withStatus : Bool) (ws : List Written) : Bytes := ws.flatMap (Written.layout withStatus)

theorem layouts_cons (w : Written) (ws : List Written) :
    layouts withStatus (w::ws) = w.layout withStatus ++ layouts withStatus ws := List.flatMap_cons

theorem two_le_length_layout (withStatus : Bool) (w : Written) : 2 ≤ (w.layout withStatus).length := by
  simp only [layout,le16,List.length_append,List.length_cons]
  omega

theorem layout_append_ne_nil (w : Written) (bytes : Bytes) :
    w.layout withStatus ++ bytes ≠ [] := by
  intro h
  have hlength := two_le_length_layout withStatus w
  rw [(List.append_eq_nil_iff.mp h).1] at hlength
  simp at hlength

theorem layouts_eq_nil {ws : List Written} : layouts withStatus ws = [] ↔ ws = [] := by
  cases ws with
  | nil => simp [layouts]
  | cons w ws =>
    rw [layouts_cons]
    exact iff_of_false (layout_append_ne_nil w _) (List.cons_ne_nil w ws)

theorem legible_cons {w : Written} {ws : List Written} : Legible withStatus (w::ws) ↔
    (w.Whole withStatus ∧ w.Readable withStatus ∧ (w.Open withStatus → ws = [])) ∧
      Legible withStatus ws := by
  constructor
  · intro h
    refine ⟨⟨h.whole w List.mem_cons_self,h.readable w List.mem_cons_self,fun hopen => ?_⟩,
      fun w' hw' => h.whole w' (List.mem_cons_of_mem _ hw'),
      fun w' hw' => h.readable w' (List.mem_cons_of_mem _ hw'),fun w' hw' => ?_⟩
    · by_contra hne
      refine h.closed w ?_ hopen
      rw [List.dropLast_cons_of_ne_nil hne]
      exact List.mem_cons_self
    · have hne : ws ≠ [] := List.ne_nil_of_mem (List.dropLast_subset _ hw')
      refine h.closed w' ?_
      rw [List.dropLast_cons_of_ne_nil hne]
      exact List.mem_cons_of_mem _ hw'
  · rintro ⟨⟨hwhole,htext,hend⟩,h⟩
    refine ⟨List.forall_mem_cons.mpr ⟨hwhole,h.whole⟩,List.forall_mem_cons.mpr ⟨htext,h.readable⟩,
      fun w' hw' hopen => ?_⟩
    cases ws with
    | nil => cases hw'
    | cons w₁ ws =>
      rw [List.dropLast_cons_of_ne_nil (List.cons_ne_nil _ _)] at hw'
      rcases List.mem_cons.mp hw' with rfl | hw'
      · cases hend hopen
      · exact h.closed w' hw' hopen

theorem records_nil (n pos : ℕ) : records withStatus n ⟨[],pos⟩ = .ok ([],⟨[],pos⟩) := by
  cases n <;> rfl

/-- What a round does before the next ones. -/
theorem reads_round {n : ℕ} {before : Bytes} (hne : before ≠ []) (pos : ℕ) :
    records withStatus (n + 1) ⟨before,pos⟩ = (record withStatus >>= fun found =>
      records withStatus n >>= fun rest => pure (found.toList ++ rest)) ⟨before,pos⟩ := by
  cases before with
  | nil => exact absurd rfl hne
  | cons b bs => rfl

/-- Nothing is left of no records, and nothing found. -/
theorem reads_none (n pos : ℕ) (found : List (UInt16 × ZclValue)) (after : Bytes) :
    (∃ pos', records withStatus n ⟨[],pos⟩ = .ok (found,⟨after,pos'⟩)) ↔
      after = [] ∧ ∃ ws, Legible withStatus ws ∧ [] = layouts withStatus ws ∧
        found = ws.filterMap (Written.found withStatus) := by
  rw [records_nil]
  constructor
  · rintro ⟨pos',h⟩
    cases h
    exact ⟨rfl,[],⟨by simp,by simp,by simp⟩,rfl,rfl⟩
  · rintro ⟨rfl,ws,-,hlayouts,rfl⟩
    rw [layouts_eq_nil.mp hlayouts.symm]
    exact ⟨pos,rfl⟩

/-- With a round for each byte, what is decoded are the records that were written. -/
theorem reads_records {n : ℕ} {before : Bytes} (hn : before.length ≤ n) (pos : ℕ)
    (found : List (UInt16 × ZclValue)) (after : Bytes) :
    (∃ pos', records withStatus n ⟨before,pos⟩ = .ok (found,⟨after,pos'⟩)) ↔
      after = [] ∧ ∃ ws, Legible withStatus ws ∧ before = layouts withStatus ws ∧
        found = ws.filterMap (Written.found withStatus) := by
  induction n generalizing before pos found with
  | zero =>
    obtain rfl : before = [] := List.eq_nil_of_length_eq_zero (by omega)
    exact reads_none 0 pos found after
  | succ n ih =>
    by_cases hempty : before = []
    · rw [hempty]
      exact reads_none (n + 1) pos found after
    simp only [reads_round hempty,Read.bind_ok_iff,Read.pure_ok_iff]
    constructor
    · rintro ⟨pos',f,⟨mid,pos₁⟩,hrecord,rest,r₂,hrecords,heq⟩
      cases heq
      obtain ⟨w,hwhole,htext,rfl,rfl,hend⟩ := (reads_record before pos f mid).mp ⟨pos₁,hrecord⟩
      have hlength := two_le_length_layout withStatus w
      rw [List.length_append] at hn
      obtain ⟨rfl,ws,hws,rfl,rfl⟩ := (ih (by omega) pos₁ rest).mp ⟨pos',hrecords⟩
      refine ⟨rfl,w::ws,legible_cons.mpr ⟨⟨hwhole,htext,fun h => ?_⟩,hws⟩,(layouts_cons w ws).symm,?_⟩
      · exact layouts_eq_nil.mp (hend h)
      · cases hfound : w.found withStatus <;> simp [hfound]
    · rintro ⟨rfl,ws,hws,rfl,rfl⟩
      cases ws with
      | nil => exact absurd rfl hempty
      | cons w ws =>
        obtain ⟨⟨hwhole,htext,hend⟩,hws⟩ := legible_cons.mp hws
        have hlength := two_le_length_layout withStatus w
        rw [layouts_cons,List.length_append] at hn
        obtain ⟨pos₁,hrecord⟩ := (reads_record (layouts withStatus (w::ws)) pos _ _).mpr
          ⟨w,hwhole,htext,rfl,layouts_cons w ws,fun h => layouts_eq_nil.mpr (hend h)⟩
        obtain ⟨pos₂,hrecords⟩ := (ih (by omega) pos₁ _).mpr ⟨rfl,ws,hws,rfl,rfl⟩
        refine ⟨pos₂,_,_,hrecord,_,_,hrecords,?_⟩
        cases hfound : w.found withStatus <;> simp [hfound]

end Runs

section Cut

/-- Some of a record is there, and some is missing. -/
def CutShort (withStatus : Bool) (bytes : Bytes) : Prop :=
  bytes ≠ [] ∧ ∃ (w : Written) (missing : Bytes), w.Whole withStatus ∧ ¬ w.Open withStatus ∧
    missing ≠ [] ∧ w.layout withStatus = bytes ++ missing

/-- A record stands there, with a text that is not UTF-8. -/
def Garbled (withStatus : Bool) (bytes : Bytes) : Prop :=
  ∃ (w : Written) (rest : Bytes), w.Whole withStatus ∧ ¬ w.Readable withStatus ∧
    bytes = w.layout withStatus ++ rest

/-- After some records there is one that cannot be read. -/
def Broken (withStatus : Bool) (payload : Bytes) : Prop :=
  ∃ (ws : List Written) (bytes : Bytes), Legible withStatus ws ∧ (∀ w ∈ ws, ¬ w.Open withStatus) ∧
    payload = layouts withStatus ws ++ bytes ∧
      (CutShort withStatus bytes ∨ Garbled withStatus bytes)

variable {w w' : Written} {x y : Bytes}

/-- No record's bytes begin another's. -/
theorem layout_prefix_free (hw : w.Whole withStatus) (hw' : w'.Whole withStatus)
    (hclosed : ¬ w.Open withStatus) (h : w.layout withStatus ++ x = w'.layout withStatus ++ y) :
    (w.Refused withStatus ↔ w'.Refused withStatus) ∧
      (¬ w.Refused withStatus → w.tag = w'.tag ∧ w.value = w'.value) ∧ x = y := by
  simp only [layout,List.append_assoc] at h
  obtain ⟨-,h⟩ := List.append_inj h (by rfl)
  obtain ⟨hstatus,h⟩ := List.append_inj h (by cases withStatus <;> rfl)
  have hrefused : w.Refused withStatus ↔ w'.Refused withStatus := by
    refine and_congr_right fun htrue => ?_
    rw [if_pos htrue,if_pos htrue,List.cons.injEq] at hstatus
    rw [hstatus.1]
  refine ⟨hrefused,?_⟩
  by_cases hw₀ : w.Refused withStatus
  · rw [if_pos hw₀,if_pos (hrefused.mp hw₀)] at h
    exact ⟨fun hnot => absurd hw₀ hnot,h⟩
  · have hw₀' := mt hrefused.mpr hw₀
    rw [if_neg hw₀,if_neg hw₀',List.cons_append,List.cons_append,List.cons.injEq] at h
    obtain ⟨htag,hvalue⟩ := h
    have hty : w'.ty = w.ty := by rw [ty,ty,htag]
    have hopen : ¬ w.ty.Open := fun hopen => hclosed ⟨hw₀,hopen⟩
    have hfills := (hw hw₀).resolve_left hopen
    have hfills' := (hw' hw₀').resolve_left (hty ▸ hopen)
    rw [hty] at hfills'
    obtain ⟨hvalue,hxy⟩ := hfills.prefix_free hfills' hvalue
    exact ⟨fun _ => ⟨htag,hvalue⟩,hxy⟩

/-- What has an open value is not a record cut short, nor garbled. -/
theorem Garbled.not_open (hw : ¬ w.Readable withStatus) : ¬ w.Open withStatus := by
  rintro ⟨-,o,ho⟩
  refine hw fun _ htext => ?_
  rw [ho] at htext
  cases htext

/-- What is cut short or garbled does not begin with a record that can be read. -/
theorem not_readable_front (h : CutShort withStatus x ∨ Garbled withStatus x) :
    ¬ ∃ (w : Written) (after : Bytes), w.Whole withStatus ∧ w.Readable withStatus ∧
      x = w.layout withStatus ++ after := by
  rintro ⟨w,after,hwhole,htext,rfl⟩
  rcases h with ⟨-,w',missing,hwhole',hclosed,hmissing,hlayout⟩ | ⟨w',rest,hwhole',hgarbled,hlayout⟩
  · have hnil : w'.layout withStatus ++ [] = w.layout withStatus ++ (after ++ missing) := by
      rw [List.append_nil,hlayout,List.append_assoc]
    obtain ⟨-,-,hempty⟩ := layout_prefix_free hwhole' hwhole hclosed hnil
    exact hmissing (List.append_eq_nil_iff.mp hempty.symm).2
  · obtain ⟨hrefused,hsame,-⟩ := layout_prefix_free hwhole' hwhole (Garbled.not_open hgarbled)
      hlayout.symm
    refine hgarbled fun hnot htext' => ?_
    obtain ⟨htag,hvalue⟩ := hsame hnot
    have hty : w.ty = w'.ty := by rw [ty,ty,htag]
    exact hvalue ▸ htext (mt hrefused.mpr hnot) (hty.trans htext')

/-- What comes before the tag of a value. -/
def header (withStatus : Bool) (id : UInt16) : Bytes :=
  le16 id ++ if withStatus then [0] else []

/-- A header and a tag of no data are a record; what is less of it is cut short. -/
theorem cutShort_header (id : UInt16) {bytes missing : Bytes} (hbytes : bytes ≠ [])
    (hmissing : missing ≠ []) (h : header withStatus id ++ [0x00] = bytes ++ missing) :
    CutShort withStatus bytes := by
  have hrefused : ¬ (Written.mk id 0 0x00 []).Refused withStatus := fun hr => hr.2 rfl
  refine ⟨hbytes,⟨id,0,0x00,[]⟩,missing,fun _ => .inr rfl,?_,hmissing,?_⟩
  · rintro ⟨-,o,ho⟩
    cases ho
  · rw [layout,if_neg hrefused]
    exact h

/-- What follows a header and a tag begins with a value, or is cut short. -/
theorem value_cases (withStatus : Bool) (id : UInt16) (tag : UInt8) (rest : Bytes) :
    (∃ (w : Written) (after : Bytes), w.Whole withStatus ∧ (w.Open withStatus → after = []) ∧
      header withStatus id ++ tag::rest = w.layout withStatus ++ after) ∨
    CutShort withStatus (header withStatus id ++ tag::rest) := by
  have hnot (value : Bytes) : ¬ (Written.mk id 0 tag value).Refused withStatus := fun hr => hr.2 rfl
  have hlayout (value : Bytes) : (Written.mk id 0 tag value).layout withStatus =
      header withStatus id ++ tag::value := by
    rw [layout,if_neg (hnot value)]
    rfl
  by_cases hopen : (ZclType.fromU8 tag).Open
  · exact .inl ⟨⟨id,0,tag,rest⟩,[],fun _ => .inl hopen,fun _ => rfl,by rw [hlayout,List.append_nil]⟩
  have hclosed (value : Bytes) : ¬ (Written.mk id 0 tag value).Open withStatus :=
    fun h => hopen h.2
  by_cases hle : (ZclType.fromU8 tag).need rest.head? ≤ rest.length
  · obtain ⟨value,after,hfills,rfl⟩ := ZclType.exists_fills_of_le _ hle
    refine .inl ⟨⟨id,0,tag,value⟩,after,fun _ => .inr hfills,fun h => absurd h (hclosed value),?_⟩
    rw [hlayout,List.append_assoc,List.cons_append]
  · obtain ⟨missing,hmissing,hfills⟩ := ZclType.exists_fills_append _ (not_le.mp hle)
    refine .inr ⟨by simp,⟨id,0,tag,rest ++ missing⟩,missing,fun _ => .inr hfills,hclosed _,hmissing,?_⟩
    rw [hlayout,List.append_assoc,List.cons_append]

/-- What is not empty begins with a record, or is cut short. -/
theorem record_cases (withStatus : Bool) {bytes : Bytes} (h : bytes ≠ []) :
    (∃ (w : Written) (after : Bytes), w.Whole withStatus ∧ (w.Open withStatus → after = []) ∧
      bytes = w.layout withStatus ++ after) ∨ CutShort withStatus bytes := by
  cases bytes with
  | nil => exact absurd rfl h
  | cons a bytes =>
    cases bytes with
    | nil =>
      exact .inr (cutShort_header (Reader.ofLe16 a 0) h (List.cons_ne_nil _ _)
        (by rw [header,le16_ofLe16]; rfl))
    | cons b rest =>
      cases withStatus with
      | false =>
        have hheader : header false (Reader.ofLe16 a b) = [a,b] := by rw [header,le16_ofLe16]; rfl
        cases rest with
        | nil => exact .inr (cutShort_header _ h (List.cons_ne_nil _ _) (by rw [hheader]))
        | cons tag rest =>
          have hvalue := value_cases false (Reader.ofLe16 a b) tag rest
          rwa [hheader] at hvalue
      | true =>
        have hheader : header true (Reader.ofLe16 a b) = [a,b,0] := by rw [header,le16_ofLe16]; rfl
        cases rest with
        | nil => exact .inr (cutShort_header _ h (List.cons_ne_nil _ _) (by rw [hheader]; rfl))
        | cons status rest =>
          by_cases hgood : status = 0
          · subst hgood
            cases rest with
            | nil => exact .inr (cutShort_header _ h (List.cons_ne_nil _ _) (by rw [hheader]))
            | cons tag rest =>
              have hvalue := value_cases true (Reader.ofLe16 a b) tag rest
              rwa [hheader] at hvalue
          · have hrefused : (Written.mk (Reader.ofLe16 a b) status 0 []).Refused true := ⟨rfl,hgood⟩
            refine .inl ⟨⟨Reader.ofLe16 a b,status,0,[]⟩,rest,fun hnot => absurd hrefused hnot,
              fun hopen => absurd hrefused hopen.1,?_⟩
            rw [layout,if_pos hrefused,le16_ofLe16]
            rfl

theorem legible_nil : Legible withStatus [] where
  whole w hw := by cases hw
  readable w hw := by cases hw
  closed w hw := by cases hw

/-- A payload is that of records that can be read, or there is one in it that cannot. -/
theorem Broken.not_legible {payload : Bytes} (h : Broken withStatus payload) :
    ¬ ∃ ws, Legible withStatus ws ∧ payload = layouts withStatus ws := by
  obtain ⟨ws,bytes,hws,hclosed,rfl,hbytes⟩ := h
  have hne : bytes ≠ [] := by
    rcases hbytes with ⟨hne,-⟩ | ⟨w,rest,-,-,rfl⟩
    · exact hne
    · exact layout_append_ne_nil w rest
  induction ws with
  | nil =>
    rintro ⟨ws',hws',heq⟩
    cases ws' with
    | nil => exact hne heq
    | cons w' ws' =>
      obtain ⟨⟨hwhole,htext,-⟩,-⟩ := legible_cons.mp hws'
      exact not_readable_front hbytes ⟨w',_,hwhole,htext,heq.trans (layouts_cons w' ws')⟩
  | cons w ws ih =>
    rintro ⟨ws',hws',heq⟩
    obtain ⟨⟨hwhole,-,-⟩,hws⟩ := legible_cons.mp hws
    cases ws' with
    | nil => exact hne (List.append_eq_nil_iff.mp heq).2
    | cons w' ws' =>
      obtain ⟨⟨hwhole',-,-⟩,hws'⟩ := legible_cons.mp hws'
      rw [layouts_cons,layouts_cons,List.append_assoc] at heq
      obtain ⟨-,-,hrest⟩ := layout_prefix_free hwhole hwhole' (hclosed w List.mem_cons_self) heq
      exact ih hws (fun w hw => hclosed w (List.mem_cons_of_mem _ hw)) ⟨ws',hws',hrest⟩

theorem Broken.cons {w : Written} {bytes : Bytes} (hwhole : w.Whole withStatus)
    (htext : w.Readable withStatus) (hclosed : ¬ w.Open withStatus) (h : Broken withStatus bytes) :
    Broken withStatus (w.layout withStatus ++ bytes) := by
  obtain ⟨ws,bytes,hws,hall,rfl,hbytes⟩ := h
  refine ⟨w::ws,bytes,legible_cons.mpr ⟨⟨hwhole,htext,fun hopen => absurd hopen hclosed⟩,hws⟩,
    List.forall_mem_cons.mpr ⟨hclosed,hall⟩,?_,hbytes⟩
  rw [layouts_cons,List.append_assoc]

/-- A payload is that of records that can be read, or there is one in it that cannot. -/
theorem broken_or_legible (payload : Bytes) :
    Broken withStatus payload ∨ ∃ ws, Legible withStatus ws ∧ payload = layouts withStatus ws := by
  induction hn : payload.length using Nat.strong_induction_on generalizing payload with
  | _ n ih =>
    by_cases hempty : payload = []
    · exact .inr ⟨[],legible_nil,hempty⟩
    rcases record_cases withStatus hempty with ⟨w,after,hwhole,hend,rfl⟩ | hcut
    · by_cases htext : w.Readable withStatus
      · have hlength := two_le_length_layout withStatus w
        rw [List.length_append] at hn
        rcases ih after.length (by omega) after rfl with hbroken | ⟨ws,hws,rfl⟩
        · by_cases hopen : w.Open withStatus
          · rw [hend hopen]
            refine .inr ⟨[w],legible_cons.mpr ⟨⟨hwhole,htext,fun _ => rfl⟩,legible_nil⟩,rfl⟩
          · exact .inl (hbroken.cons hwhole htext hopen)
        · refine .inr ⟨w::ws,legible_cons.mpr ⟨⟨hwhole,htext,fun hopen => ?_⟩,hws⟩,
            (layouts_cons w ws).symm⟩
          exact layouts_eq_nil.mp (hend hopen)
      · exact .inl ⟨[],_,legible_nil,by simp,rfl,.inr ⟨w,after,hwhole,htext,rfl⟩⟩
    · exact .inl ⟨[],payload,legible_nil,by simp,rfl,.inl hcut⟩

theorem broken_iff (payload : Bytes) : Broken withStatus payload ↔
    ¬ ∃ ws, Legible withStatus ws ∧ payload = layouts withStatus ws :=
  ⟨Broken.not_legible,fun h => (broken_or_legible payload).resolve_right h⟩

end Cut

section Payloads

/-- With a round for each byte none is missing. -/
theorem records_enough {n m : ℕ} {r : Reader} (hn : r.rest.length ≤ n) (hm : r.rest.length ≤ m) :
    records withStatus n r = records withStatus m r := by
  obtain ⟨before,pos⟩ := r
  dsimp only at hn hm
  induction n generalizing m before pos with
  | zero =>
    obtain rfl : before = [] := List.eq_nil_of_length_eq_zero (by omega)
    rw [records_nil,records_nil]
  | succ n ih =>
    by_cases hempty : before = []
    · rw [hempty,records_nil,records_nil]
    cases m with
    | zero => exact absurd (List.eq_nil_of_length_eq_zero (by omega)) hempty
    | succ m =>
      rw [reads_round hempty,reads_round hempty]
      simp only [bind,StateT.bind]
      cases hrecord : record withStatus ⟨before,pos⟩ with
      | error e => rfl
      | ok x =>
        obtain ⟨found,after,pos₁⟩ := x
        obtain ⟨w,-,-,-,rfl,-⟩ := (reads_record before pos found after).mp ⟨pos₁,hrecord⟩
        have hlength := two_le_length_layout withStatus w
        rw [List.length_append] at hn hm
        have hsame : records withStatus n ⟨after,pos₁⟩ = records withStatus m ⟨after,pos₁⟩ :=
          ih after pos₁ (by omega) (by omega)
        simp only [Except.bind,hsame]

theorem attributes_new (payload : Bytes) :
    attributes withStatus (.new payload) = records withStatus payload.length ⟨payload,0⟩ := rfl

/-- Records that can be read are decoded as they were written. -/
theorem attributes_layouts {ws : List Written} (h : Legible withStatus ws) :
    ∃ pos, attributes withStatus (.new (layouts withStatus ws)) =
      .ok (ws.filterMap (Written.found withStatus),⟨[],pos⟩) := by
  rw [attributes_new]
  exact (reads_records le_rfl 0 _ []).mpr ⟨rfl,ws,h,rfl,rfl⟩

/-- The decoder fails at a record that cannot be read, and only there. -/
theorem attributes_error_iff (payload : Bytes) :
    (∃ e, attributes withStatus (.new payload) = .error e) ↔ Broken withStatus payload := by
  rw [broken_iff]
  constructor
  · rintro ⟨e,he⟩ ⟨ws,hws,rfl⟩
    obtain ⟨pos,hok⟩ := attributes_layouts hws
    rw [he] at hok
    cases hok
  · intro hnone
    cases hread : attributes withStatus (.new payload) with
    | error e => exact ⟨e,rfl⟩
    | ok x =>
      obtain ⟨found,after,pos⟩ := x
      obtain ⟨-,ws,hws,hpayload,-⟩ := (reads_records le_rfl 0 found after).mp ⟨pos,hread⟩
      exact absurd ⟨ws,hws,hpayload⟩ hnone

end Payloads

end Decode

namespace Encode
open Written Decode

variable {registry : ClusterRegistry} {device : Ieee} {cluster : ClusterId}

/-- What becomes of the first attribute: its record is written before the rest. -/
theorem writeRecords_cons {attr : AttrId} {value : ZclValue} {rest : List (AttrId × ZclValue)}
    {payload : Bytes} (h : writeRecords registry device cluster ((attr,value)::rest) = .ok payload) :
    ∃ definition bytes records, registry.attr (some device) cluster attr = some definition ∧
      encodeValue value definition.ty = .ok bytes ∧
      writeRecords registry device cluster rest = .ok records ∧
      payload = le16 attr.raw ++ definition.ty.toU8::bytes ++ records := by
  rw [writeRecords] at h
  split at h
  · cases h
  · rename_i definition hdefinition
    split at h
    · cases h
    · rename_i bytes hbytes
      obtain ⟨records,hrecords,rfl⟩ := map_eq_ok.mp h
      exact ⟨definition,bytes,records,hdefinition,hbytes,hrecords,by simp⟩

/-- A value that is read back is a record, of its type's own tag. -/
theorem record_of_readsBack {ty : ZclType} (hty : ty.Canonical) {v : ZclValue} {bytes : Bytes}
    (h : ty.ReadsBack v bytes) (id : UInt16) :
    ∃ w : Written, w.Whole false ∧ w.Readable false ∧ w.ty = ty ∧ w.found false = some (id,v) ∧
      w.layout false = le16 id ++ ty.toU8::bytes := by
  have hnot : ¬ (Written.mk id 0 ty.toU8 bytes).Refused false := fun h => Bool.false_ne_true h.1
  have hread := h [] 0 fun _ _ => rfl
  rw [List.append_nil] at hread
  obtain ⟨b,hwhole,hmeaning,hbytes,-⟩ := (ty.reads_value bytes 0 v []).mp ⟨_,hread⟩
  obtain rfl : bytes = b := hbytes.trans (List.append_nil b)
  have hsame : (Written.mk id 0 ty.toU8 bytes).ty = ty := hty
  refine ⟨⟨id,0,ty.toU8,bytes⟩,fun _ => hsame.symm ▸ hwhole,fun _ htext => ?_,hsame,?_,?_⟩
  · exact (ZclType.meaning_isSome_iff hwhole).mp ⟨v,hmeaning⟩ (hsame.symm.trans htext)
  · rw [Written.found,if_neg hnot,hsame,hmeaning]
    rfl
  · rw [layout,if_neg hnot]
    simp

/-- Every value of a request is one its attribute's type can yield. The type has a tag of its own,
and none but the last attribute's is of unknown length. -/
structure Decodable (registry : ClusterRegistry) (device : Ieee) (cluster : ClusterId)
    (request : List (AttrId × ZclValue)) : Prop where
  yields : ∀ a ∈ request, ∀ d, registry.attr (some device) cluster a.1 = some d → d.ty.Yields a.2
  tagged : ∀ a ∈ request, ∀ d, registry.attr (some device) cluster a.1 = some d → d.ty.Canonical
  closed : ∀ a ∈ request.dropLast, ∀ d, registry.attr (some device) cluster a.1 = some d →
    ¬ d.ty.Open

theorem Decodable.tail {a : AttrId × ZclValue} {request : List (AttrId × ZclValue)}
    (h : Decodable registry device cluster (a::request)) :
    Decodable registry device cluster request where
  yields b hb := h.yields b (List.mem_cons_of_mem _ hb)
  tagged b hb := h.tagged b (List.mem_cons_of_mem _ hb)
  closed b hb := by
    refine h.closed b ?_
    rw [List.dropLast_cons_of_ne_nil (List.ne_nil_of_mem (List.dropLast_subset _ hb))]
    exact List.mem_cons_of_mem _ hb

/-- What is encoded for a request are records that can be read. -/
theorem layouts_writeRecords {request : List (AttrId × ZclValue)} {payload : Bytes}
    (hpayload : writeRecords registry device cluster request = .ok payload)
    (h : Decodable registry device cluster request) :
    ∃ ws, Legible false ws ∧ payload = layouts false ws ∧
      ws.filterMap (Written.found false) = request.map fun a => (a.1.raw,a.2) := by
  induction request generalizing payload with
  | nil =>
    cases hpayload
    exact ⟨[],legible_nil,rfl,rfl⟩
  | cons a request ih =>
    obtain ⟨definition,bytes,records,hdefinition,hbytes,hrecords,rfl⟩ := writeRecords_cons hpayload
    obtain ⟨ws,hws,rfl,hfound⟩ := ih hrecords h.tail
    have hty := h.tagged a List.mem_cons_self definition hdefinition
    have hback := readsBack_of_yields hty (h.yields a List.mem_cons_self definition hdefinition)
      hbytes
    obtain ⟨w,hwhole,htext,hsame,hw,hlayout⟩ := record_of_readsBack hty hback a.1.raw
    refine ⟨w::ws,legible_cons.mpr ⟨⟨hwhole,htext,fun hopen => ?_⟩,hws⟩,?_,?_⟩
    · -- Only the last attribute is of unknown length, so nothing was written after it.
      cases request with
      | nil => exact layouts_eq_nil.mp (Except.ok.inj hrecords).symm
      | cons b request => exact absurd (hsame ▸ hopen.2) (h.closed a List.mem_cons_self definition
          hdefinition)
    · rw [layouts_cons,hlayout]
    · rw [List.filterMap_cons,hw,hfound]
      rfl

/-- The header of a request to write attributes. -/
def writeHeader (tsn : UInt8) (request : ZclAttributeWrite) : ZclHeader :=
  { ZclHeader.global tsn ⟨0x02⟩ with manufacturer := request.manufacturer.map .mk }

theorem attributeWrite_ok {tsn : UInt8} {request : ZclAttributeWrite} {frame : Bytes}
    (h : attributeWrite registry device tsn request = .ok frame) :
    ∃ payload, writeRecords registry device request.cluster request.attributes = .ok payload ∧
      ZclFrame.decode frame = .ok ⟨writeHeader tsn request,payload⟩ := by
  rw [attributeWrite] at h
  split at h
  · cases h
  · obtain ⟨payload,hpayload,rfl⟩ := map_eq_ok.mp h
    have hproper : (writeHeader tsn request).Proper :=
      ⟨show (0 : UInt8) < 8 by decide,.inl rfl⟩
    exact ⟨payload,hpayload,ZclFrame.decode_encode (f := ⟨writeHeader tsn request,payload⟩) hproper⟩

/-- The receiver of a frame reads the request's list from it. -/
def Returned (request : ZclAttributeWrite) (frame : Bytes) : Prop :=
  ∃ f pos, ZclFrame.decode frame = .ok f ∧ attributes false (.new f.payload) =
    .ok (request.attributes.map fun a => (a.1.raw,a.2),⟨[],pos⟩)

theorem returned {tsn : UInt8} {request : ZclAttributeWrite} {frame : Bytes}
    (hframe : attributeWrite registry device tsn request = .ok frame)
    (h : Decodable registry device request.cluster request.attributes) : Returned request frame := by
  obtain ⟨payload,hpayload,hdecode⟩ := attributeWrite_ok hframe
  obtain ⟨ws,hws,rfl,hfound⟩ := layouts_writeRecords hpayload h
  obtain ⟨pos,hread⟩ := attributes_layouts hws
  exact ⟨_,pos,hdecode,hfound ▸ hread⟩

/-- Records are decoded as they were written, the decoder fails at one that cannot be read and only
there, and what is encoded for a request is read back as its list. -/
theorem decoded_as_written :
    (∀ (withStatus : Bool) (ws : List Written), Legible withStatus ws →
      ∃ pos, attributes withStatus (.new (layouts withStatus ws)) =
        .ok (ws.filterMap (Written.found withStatus),⟨[],pos⟩)) ∧
    (∀ (withStatus : Bool) (payload : Bytes),
      (∀ n, payload.length ≤ n →
        records withStatus n (.new payload) = attributes withStatus (.new payload)) ∧
      ((∃ e, attributes withStatus (.new payload) = .error e) ↔ Broken withStatus payload)) ∧
    ∀ (registry : ClusterRegistry) (device : Ieee) (tsn : UInt8) (request : ZclAttributeWrite)
      (frame : Bytes), attributeWrite registry device tsn request = .ok frame →
      Decodable registry device request.cluster request.attributes → Returned request frame := by
  refine ⟨fun _ _ => attributes_layouts,fun withStatus payload => ⟨fun n hn => ?_,
    attributes_error_iff payload⟩,fun _ _ _ _ _ => returned⟩
  exact records_enough hn le_rfl

section Sample

/-- A refused record, a level, and what is left. -/
def sampleRecords : List Written :=
  [⟨0,0x86,0,[]⟩,⟨1,0,0x20,[5]⟩,⟨2,0,0x99,[1,2]⟩]

/-- A cluster with an attribute of unknown length, one of a byte, and one whose type says that its
length is unknown, under a tag that says it is a byte. -/
def sampleAttributes : ClusterRegistry :=
  .insertGlobal {} ((((ClusterDef.new 0xfc00 "sample").attr 0 "rest" (.unknown 0x99)).attr 1 "level"
    (.uint 1)).attr 2 "mode" (.unknown 0x20))

def sampleWrite (attributes : List (AttrId × ZclValue)) : ZclAttributeWrite where
  endpoint := none
  cluster := ⟨0xfc00⟩
  attributes := attributes
  manufacturer := none

theorem forall_mem_pair {α : Type} {P : α → Prop} {a b : α} : (∀ x ∈ [a,b], P x) ↔ P a ∧ P b := by
  rw [List.forall_mem_cons,List.forall_mem_singleton]

theorem decoded_as_written_sample :
    (∃ pos, attributes true (.new [0,0,0x86,1,0,0,0x20,5,2,0,0,0x99,1,2]) =
      .ok ([(1,.uint 5),(2,.raw 0x99 [1,2])],⟨[],pos⟩)) ∧
    (∃ e, attributes false (.new [1,0,0x21,5]) = .error e) ∧
    Returned (sampleWrite [(⟨1⟩,.uint 5),(⟨0⟩,.raw 0x99 [1,2])])
      [0x00,0x2a,0x02,1,0,0x20,5,0,0,0x99,1,2] := by
  obtain ⟨hwritten,hbroken,hreturned⟩ := decoded_as_written
  refine ⟨hwritten true sampleRecords ⟨?_,?_,?_⟩,(hbroken false [1,0,0x21,5]).2.mpr ?_,?_⟩
  · refine List.forall_mem_cons.mpr ⟨fun h => absurd ⟨rfl,by decide⟩ h,forall_mem_pair.mpr
      ⟨fun _ => .inr rfl,fun _ => .inl ⟨_,rfl⟩⟩⟩
  · refine List.forall_mem_cons.mpr ⟨fun h => absurd ⟨rfl,by decide⟩ h,forall_mem_pair.mpr ⟨?_,?_⟩⟩
    · rintro - htext
      cases htext
    · rintro - htext
      cases htext
  · refine forall_mem_pair.mpr ⟨?_,?_⟩
    · exact fun h => h.1 ⟨rfl,by decide⟩
    · rintro ⟨-,o,ho⟩
      cases ho
  · refine ⟨[],_,legible_nil,by simp,rfl,.inl ⟨by simp,⟨1,0,0x21,[5,0]⟩,[0],fun _ => .inr rfl,?_,by simp,
      rfl⟩⟩
    rintro ⟨-,o,ho⟩
    cases ho
  · refine hreturned sampleAttributes ⟨1⟩ 0x2a _ _ (by decide +kernel) ⟨?_,?_,?_⟩
    · refine forall_mem_pair.mpr ⟨?_,?_⟩
      · rintro d hd
        cases hd
        exact ⟨.new [5],⟨[],1⟩,rfl⟩
      · rintro d hd
        cases hd
        exact ⟨.new [1,2],⟨[],2⟩,rfl⟩
    · refine forall_mem_pair.mpr ⟨?_,?_⟩
      · rintro d hd
        cases hd
        rfl
      · rintro d hd
        cases hd
        rfl
    · refine List.forall_mem_singleton.mpr ?_
      rintro d hd ⟨o,ho⟩
      cases hd
      cases ho

/-- A text that is not UTF-8, in a record where nothing is missing. -/
def garbledText : Written := ⟨0,0,0x42,[0x01,0xff]⟩

/-- The text is refused, a value of unknown length takes the next attribute for its own bytes, and
a type's tag may be that of another. -/
theorem written_and_not_decoded :
    (garbledText.Whole false ∧ ¬ ∃ pos, attributes false (.new (layouts false [garbledText])) =
      .ok ([garbledText].filterMap (Written.found false),⟨[],pos⟩)) ∧
    (¬ ∀ (request : ZclAttributeWrite) (frame : Bytes),
      attributeWrite sampleAttributes ⟨1⟩ 0x2a request = .ok frame →
      (∀ a ∈ request.attributes, ∀ d, sampleAttributes.attr (some ⟨1⟩) request.cluster a.1 = some d →
        d.ty.Yields a.2 ∧ d.ty.Canonical) → Returned request frame) ∧
    ¬ ∀ (request : ZclAttributeWrite) (frame : Bytes),
      attributeWrite sampleAttributes ⟨1⟩ 0x2a request = .ok frame →
      (∀ a ∈ request.attributes, ∀ d, sampleAttributes.attr (some ⟨1⟩) request.cluster a.1 = some d →
        d.ty.Yields a.2) →
      (∀ a ∈ request.attributes.dropLast, ∀ d,
        sampleAttributes.attr (some ⟨1⟩) request.cluster a.1 = some d → ¬ d.ty.Open) →
      Returned request frame := by
  refine ⟨⟨fun _ => .inr rfl,?_⟩,fun h => ?_,fun h => ?_⟩
  · rintro ⟨pos,hread⟩
    have herror : (attributes false (.new (layouts false [garbledText]))).isOk = false := by
      decide +kernel
    rw [hread] at herror
    cases herror
  · have hnot : ¬ Returned (sampleWrite [(⟨0⟩,.raw 0x99 [7]),(⟨1⟩,.uint 5)])
        [0x00,0x2a,0x02,0,0,0x99,7,1,0,0x20,5] := by
      rintro ⟨f,pos,hf,hread⟩
      cases hf
      cases hread
    refine hnot (h _ _ (by decide +kernel) (forall_mem_pair.mpr ⟨?_,?_⟩))
    · rintro d hd
      cases hd
      exact ⟨⟨.new [7],⟨[],1⟩,rfl⟩,rfl⟩
    · rintro d hd
      cases hd
      exact ⟨⟨.new [5],⟨[],1⟩,rfl⟩,rfl⟩
  · have hnot : ¬ Returned (sampleWrite [(⟨2⟩,.raw 0x20 [5])]) [0x00,0x2a,0x02,2,0,0x20,5] := by
      rintro ⟨f,pos,hf,hread⟩
      cases hf
      cases hread
    refine hnot (h _ _ (by decide +kernel) (List.forall_mem_singleton.mpr ?_) (by simp [sampleWrite]))
    rintro d hd
    cases hd
    exact ⟨.new [5],⟨[],1⟩,rfl⟩

end Sample

end Encode
end Rszigbee
