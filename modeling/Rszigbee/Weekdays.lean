import Rszigbee.Delegates
import Mathlib.Data.Set.Finite.Basic

/-! The days of a week's schedules, each of which has a datapoint of its own, and the one that is
written. -/
namespace Rszigbee
open Tuya Schedule

/-- The table has a text of its own for presets, and takes every one. -/
def Definition.AnswersPresets (d : Definition) : Prop :=
  ∃ entry, d.tuyaDatapoints.find? (fun e => e.name = "preset") = some entry ∧
    entry.access ≠ .report ∧ entry.kind = .string

theorem not_presetRefused {d : Definition} (h : d.AnswersPresets) (text : String) :
    ¬ PresetRefused d text := by
  obtain ⟨entry,hentry,hreport,hkind⟩ := h
  intro hrefused
  rcases hrefused entry hentry with haccess | hvalue
  · exact hreport haccess
  · unfold encodeIntent at hvalue
    rw [hkind] at hvalue
    cases hvalue

/-- An enumeration has only so many names. -/
theorem exists_presetRefused {d : Definition} (h : ¬ d.AnswersPresets) {texts : ℕ → String}
    (htexts : Function.Injective texts) : ∃ n, PresetRefused d (texts n) := by
  cases hentry : d.tuyaDatapoints.find? fun e => e.name = "preset" with
  | none =>
    refine ⟨0,fun entry hfound => ?_⟩
    rw [hentry] at hfound
    cases hfound
  | some entry =>
    have hone (text : String) (hvalue : entry.access = .report ∨
        encodeIntent entry (.named text) = none) : PresetRefused d text := by
      intro found hfound
      obtain rfl := Option.some.inj (hentry.symm.trans hfound)
      exact hvalue
    by_cases hreport : entry.access = .report
    · exact ⟨0,hone _ (.inl hreport)⟩
    cases hkind : entry.kind with
    | string => exact absurd ⟨entry,hentry,hreport,hkind⟩ h
    | enum names =>
      obtain ⟨text,⟨n,rfl⟩,hnot⟩ :=
        (Set.infinite_range_of_injective htexts).exists_notMem_finset (names.map Prod.snd).toFinset
      refine ⟨n,hone _ (.inr ?_)⟩
      have hnone : names.find? (fun m => m.2 = texts n) = none := by
        rw [List.find?_eq_none]
        intro m hm heq
        simp only [decide_eq_true_eq] at heq
        exact hnot (List.mem_toFinset.mpr (heq ▸ List.mem_map_of_mem hm))
      unfold encodeIntent
      rw [hkind]
      dsimp only
      rw [hnone]
      rfl
    | _ =>
      refine ⟨0,hone _ (.inr ?_)⟩
      unfold encodeIntent
      rw [hkind]

theorem splitWhitespace_blank {blank : List Char} (h : ∀ c ∈ blank, Texts.isWhitespace c) :
    splitWhitespace blank = [] := by
  induction blank with
  | nil => rfl
  | cons c blank ih =>
    have hblank := ih fun c hc => h c (List.mem_cons_of_mem _ hc)
    have hsplit := List.splitOnP_append_cons [] blank (h c List.mem_cons_self)
    rw [splitWhitespace] at hblank ⊢
    rw [← List.nil_append (c::blank),hsplit,List.filter_append,hblank]
    rfl

/-- What is blank at the end does not count. -/
theorem splitWhitespace_append (cs : List Char) {blank : List Char}
    (h : ∀ c ∈ blank, Texts.isWhitespace c) : splitWhitespace (cs ++ blank) = splitWhitespace cs := by
  cases blank with
  | nil => rw [List.append_nil]
  | cons c blank =>
    have hblank := splitWhitespace_blank fun c hc => h c (List.mem_cons_of_mem _ hc)
    rw [splitWhitespace] at hblank
    rw [splitWhitespace,splitWhitespace,List.splitOnP_append_cons cs blank (h c List.mem_cons_self),
      List.filter_append,hblank,List.append_nil]

/-- Six o'clock, twenty-one degrees. -/
def morning : List Char := ['0','6',':','0','0','/','2','1','.','0']

/-- One transition, and as many blanks. -/
def blankedText (n : ℕ) : String := .ofList (morning ++ List.replicate n ' ')

theorem blankedText_injective : Function.Injective blankedText := by
  intro n m h
  have hlist := congrArg String.toList h
  rw [blankedText,blankedText,String.toList_ofList,String.toList_ofList] at hlist
  have hlength := congrArg List.length (List.append_cancel_left hlist)
  rwa [List.length_replicate,List.length_replicate] at hlength

theorem encodeSchedule_blankedText (day : UInt8) (n : ℕ) :
    encodeSchedule day (blankedText n) = some [day,6,0,0,210] := by
  have hsplit : splitWhitespace morning = [morning] := by decide +kernel
  have hone : encodeTransition morning = some [6,0,0,210] := by decide +kernel
  have hblank : ∀ c ∈ List.replicate n ' ', Texts.isWhitespace c := by
    intro c hc
    rw [List.eq_of_mem_replicate hc]
    decide
  rw [encodeSchedule,blankedText,String.toList_ofList,splitWhitespace_append _ hblank,hsplit,
    List.mapM_cons,hone]
  rfl

/-- Every schedule can be sent, under its own number and with its own day's. -/
structure SchedulesReached {resolve : DeviceInfo → Option Definition} {debug : DebugText}
    {behaviors : BehaviorRegistry} (t : Task (Engine.ofDefinitions resolve debug (side behaviors)))
    (ieee : Ieee) (tsn : UInt8) (d : Definition) : Prop where
  reached : ∀ entry, d.Delegates entry → ∃ command day rest,
    scheduleDay entry.name = some day ∧ t.Sends ieee tsn command [⟨entry.dp,.raw (day::rest)⟩]
  named : ∀ entry, d.Delegates entry → ∀ command bytes,
    t.Sends ieee tsn command [⟨entry.dp,.raw bytes⟩] → bytes.head? = scheduleDay entry.name

/-- There is a day in the first schedule's name, presets come to it, and every other schedule has
its number and its day. -/
structure OneSchedule (behaviors : BehaviorRegistry) (d : Definition) (first : TuyaDatapoint) :
    Prop where
  registered : behaviors.Schedules
  unanswered : ¬ d.AnswersPresets
  day : (scheduleDay first.name).isSome
  alike : ∀ entry, d.Delegates entry →
    entry.dp = first.dp ∧ scheduleDay entry.name = scheduleDay first.name

/-- A schedule begins with its day. -/
theorem head?_encodeSchedule {day : UInt8} {text : String} {bytes : Bytes}
    (h : encodeSchedule day text = some bytes) : bytes.head? = some day := by
  obtain ⟨transitions,-,h⟩ := Option.bind_eq_some_iff.mp h
  split at h
  · cases h
  · cases h
    rfl

/-- What is sent as bytes is the first schedule's. -/
theorem Tuya.Scheduled.of_first {behaviors : BehaviorRegistry} {d : Definition} {text : String}
    {dp : UInt8} {bytes : Bytes} (h : Scheduled behaviors d text ⟨dp,.raw bytes⟩)
    {first : TuyaDatapoint} (hfirst : d.scheduleEntry = some first) :
    dp = first.dp ∧ bytes.head? = scheduleDay first.name := by
  obtain ⟨entry,day,bytes,hentry,hday,hbytes,heq⟩ := h.written
  obtain rfl := Option.some.inj (hfirst.symm.trans hentry)
  cases heq
  exact ⟨rfl,(head?_encodeSchedule hbytes).trans hday.symm⟩

/-- Where it is the only one, a preset that the table does not take is written as it. -/
theorem OneSchedule.scheduled {behaviors : BehaviorRegistry} {d : Definition}
    {first : TuyaDatapoint} (h : OneSchedule behaviors d first)
    (hfirst : d.scheduleEntry = some first) : ∃ text day, scheduleDay first.name = some day ∧
      Scheduled behaviors d text ⟨first.dp,.raw [day,6,0,0,210]⟩ := by
  obtain ⟨n,hrefused⟩ := exists_presetRefused h.unanswered blankedText_injective
  obtain ⟨day,hday⟩ := Option.isSome_iff_exists.mp h.day
  exact ⟨_,day,hday,h.registered,hrefused,first,day,_,hfirst,hday,encodeSchedule_blankedText day n,rfl⟩

variable {resolve : DeviceInfo → Option Definition} {debug : DebugText}
  {behaviors : BehaviorRegistry} {t : Task (Engine.ofDefinitions resolve debug (side behaviors))}
  {ieee : Ieee} {tsn : UInt8} {e : Entry} {d : Definition} {first : TuyaDatapoint}

theorem OneSchedule.reached (hshipped : behaviors.Shipped) (he : t.devices.get ieee = some e)
    (hd : t.resolve ieee = some d) (hfirst : d.scheduleEntry = some first)
    (h : OneSchedule behaviors d first) : SchedulesReached t ieee tsn d where
  reached entry hentry := by
    obtain ⟨hdp,hday⟩ := h.alike entry hentry
    obtain ⟨text,day,hnamed,hscheduled⟩ := h.scheduled hfirst
    refine ⟨.setPreset text,day,[6,0,0,210],hday.trans hnamed,?_⟩
    rw [hdp]
    exact (Task.sends_raw hshipped he hd).mpr ⟨text,rfl,hscheduled⟩
  named entry hentry command bytes hsends := by
    obtain ⟨text,-,hscheduled⟩ := (Task.sends_raw hshipped he hd).mp hsends
    rw [(hscheduled.of_first hfirst).2,(h.alike entry hentry).2]

theorem SchedulesReached.oneSchedule (hshipped : behaviors.Shipped)
    (he : t.devices.get ieee = some e) (hd : t.resolve ieee = some d)
    (h : SchedulesReached t ieee tsn d) (hfirst : d.scheduleEntry = some first) :
    OneSchedule behaviors d first := by
  have hsent (entry : TuyaDatapoint) (hentry : d.Delegates entry) : ∃ text bytes,
      Scheduled behaviors d text ⟨entry.dp,.raw bytes⟩ ∧ (scheduleDay entry.name).isSome ∧
        bytes.head? = scheduleDay entry.name := by
    obtain ⟨command,day,rest,hday,hsends⟩ := h.reached entry hentry
    obtain ⟨text,-,hscheduled⟩ := (Task.sends_raw hshipped he hd).mp hsends
    exact ⟨text,_,hscheduled,Option.isSome_of_eq_some hday,hday.symm⟩
  obtain ⟨text,bytes,hscheduled,hday,-⟩ := hsent first (Definition.delegates_of_scheduleEntry hfirst)
  refine ⟨hscheduled.registered,fun hanswers => not_presetRefused hanswers text hscheduled.refused,
    hday,fun entry hentry => ?_⟩
  obtain ⟨_,_,hother,-,hhead⟩ := hsent entry hentry
  obtain ⟨hdp,hfirstDay⟩ := hother.of_first hfirst
  exact ⟨hdp,hhead.symm.trans hfirstDay⟩

/-- Every schedule can be sent exactly when there is no second one, and so never when two have
different numbers or different days. -/
theorem schedules_reached_iff (resolve : DeviceInfo → Option Definition) (debug : DebugText)
    (behaviors : BehaviorRegistry) (hshipped : behaviors.Shipped)
    (t : Task (Engine.ofDefinitions resolve debug (side behaviors))) (ieee : Ieee) (tsn : UInt8)
    {e : Entry} {d : Definition} (he : t.devices.get ieee = some e) (hd : t.resolve ieee = some d) :
    (SchedulesReached t ieee tsn d ↔
      ∀ first, d.scheduleEntry = some first → OneSchedule behaviors d first) ∧
    ((∃ x y, d.Delegates x ∧ d.Delegates y ∧
      (x.dp ≠ y.dp ∨ scheduleDay x.name ≠ scheduleDay y.name)) → ¬ SchedulesReached t ieee tsn d) := by
  have hone (h : SchedulesReached t ieee tsn d) (first : TuyaDatapoint)
      (hfirst : d.scheduleEntry = some first) : OneSchedule behaviors d first :=
    h.oneSchedule hshipped he hd hfirst
  refine ⟨⟨hone,fun h => ?_⟩,?_⟩
  · cases hfirst : d.scheduleEntry with
    | some first => exact (h first hfirst).reached hshipped he hd hfirst
    | none =>
      have hnone (entry : TuyaDatapoint) (hentry : d.Delegates entry) : False := by
        obtain ⟨first,hsome⟩ := Definition.exists_scheduleEntry hentry
        cases hfirst.symm.trans hsome
      exact ⟨fun entry hentry => (hnone entry hentry).elim,
        fun entry hentry => (hnone entry hentry).elim⟩
  · rintro ⟨x,y,hx,hy,hne⟩ h
    obtain ⟨first,hfirst⟩ := Definition.exists_scheduleEntry hx
    obtain ⟨hxdp,hxday⟩ := (hone h first hfirst).alike x hx
    obtain ⟨hydp,hyday⟩ := (hone h first hfirst).alike y hy
    rcases hne with hne | hne
    · exact hne (hxdp.trans hydp.symm)
    · exact hne (hxday.trans hyday.symm)

section Sample

def monday : UInt8 × String := (28,"schedule_monday")

def tuesday : UInt8 × String := (29,"schedule_tuesday")

theorem schedules_reached_iff_monday :
    SchedulesReached (scheduleTask (scheduleValve .set [monday])) ⟨1⟩ 7
        (scheduleValve .set [monday]) ∧
      ¬ SchedulesReached (scheduleTask (scheduleValve .set [monday,tuesday])) ⟨1⟩ 7
        (scheduleValve .set [monday,tuesday]) := by
  have hboth (days : List (UInt8 × String)) := schedules_reached_iff _ _ .withBuiltins
    BehaviorRegistry.shipped_withBuiltins (scheduleTask (scheduleValve .set days)) ⟨1⟩ 7
    (e := { info := Tuya.plug }) (d := scheduleValve .set days) rfl rfl
  refine ⟨(hboth [monday]).1.mpr ?_,(hboth [monday,tuesday]).2 ?_⟩
  · rintro first hfirst
    cases hfirst
    refine ⟨rfl,?_,by decide +kernel,?_⟩
    · rintro ⟨entry,hentry,-⟩
      have hnone : (scheduleValve .set [monday]).tuyaDatapoints.find?
          (fun e => e.name = "preset") = none := by
        decide
      cases hnone.symm.trans hentry
    · rintro entry ⟨hmem,-⟩
      rw [List.mem_singleton.mp hmem]
      exact ⟨rfl,rfl⟩
  · refine ⟨_,_,⟨List.mem_cons_self,rfl⟩,⟨List.mem_cons_of_mem _ List.mem_cons_self,rfl⟩,.inl ?_⟩
    decide

/-- The second day's schedule is never sent. -/
theorem tuesday_unreached :
    ¬ SchedulesReached (scheduleTask (scheduleValve .set [monday,tuesday])) ⟨1⟩ 7
      (scheduleValve .set [monday,tuesday]) := by
  intro h
  obtain ⟨command,day,rest,-,hsends⟩ := h.reached ⟨29,"schedule_tuesday",.behavior Schedule.name,.set⟩
    ⟨List.mem_cons_of_mem _ List.mem_cons_self,rfl⟩
  obtain ⟨text,-,hscheduled⟩ := (Task.sends_raw (e := { info := Tuya.plug })
    (d := scheduleValve .set [monday,tuesday]) BehaviorRegistry.shipped_withBuiltins rfl rfl).mp hsends
  have hfirst : (scheduleValve .set [monday,tuesday]).scheduleEntry =
      some ⟨28,"schedule_monday",.behavior Schedule.name,.set⟩ := rfl
  cases (hscheduled.of_first hfirst).1

end Sample

end Rszigbee
