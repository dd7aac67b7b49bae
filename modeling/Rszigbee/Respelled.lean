import Mathlib.Data.List.Find
import Rszigbee.Foremost
import Rszigbee.Reachable

/-! A model as a definition spells it and as a device reports it: in other letters, or padded.
Of `str::to_lowercase` it matters that ASCII case makes no difference to it, and that it
neither makes nor loses a NUL. -/
namespace Rszigbee

/-- `str::eq_ignore_ascii_case`. -/
def EqIgnoreAsciiCase (a b : String) : Prop :=
  a.toList.map Char.toLower = b.toList.map Char.toLower

instance (a b : String) : Decidable (EqIgnoreAsciiCase a b) :=
  inferInstanceAs (Decidable (_ = _))

/-- No NUL, and no whitespace at either end. -/
structure Plain (s : String) : Prop where
  nul : Char.ofNat 0 ∉ s.toList
  start : s.toList.head?.any Texts.isWhitespace = false
  stop : s.toList.getLast?.any Texts.isWhitespace = false

/-- The second is the first, changed in ASCII case and with NULs appended. -/
def Respelled (s m : String) : Prop :=
  ∃ t n, EqIgnoreAsciiCase s t ∧ m.toList = t.toList ++ List.replicate n (Char.ofNat 0)

section Characters

/-- Only ASCII capitals are changed, and by as much as they are apart from the small letters. -/
theorem toLower_cases (c : Char) :
    c.toLower = c ∨ 65 ≤ c.toNat ∧ c.toNat ≤ 90 ∧ c.toLower.toNat = c.toNat + 32 := by
  by_cases h : c.val ≥ 'A'.val ∧ c.val ≤ 'Z'.val
  · have hlow : 65 ≤ c.toNat := UInt32.le_iff_toNat_le.mp h.1
    have hhigh : c.toNat ≤ 90 := UInt32.le_iff_toNat_le.mp h.2
    have hlower : c.toLower.val = c.val + ('a'.val - 'A'.val) := congrArg Char.val (dif_pos h)
    have hdifference : ('a'.val - 'A'.val).toNat = 32 := rfl
    have hadd := congrArg UInt32.toNat hlower
    rw [UInt32.toNat_add,hdifference] at hadd
    have hval : c.val.toNat = c.toNat := rfl
    have hval' : c.toLower.val.toNat = c.toLower.toNat := rfl
    exact .inr ⟨hlow,hhigh,by omega⟩
  · exact .inl (dif_neg h)

theorem isWhitespace_letter {c : Char} (hlow : 65 ≤ c.toNat) (hhigh : c.toNat ≤ 122) :
    Texts.isWhitespace c = false := by
  simp [Texts.isWhitespace]
  omega

theorem isWhitespace_toLower (c : Char) :
    Texts.isWhitespace c.toLower = Texts.isWhitespace c := by
  rcases toLower_cases c with hsame | ⟨hlow,hhigh,hlower⟩
  · rw [hsame]
  · rw [isWhitespace_letter hlow (by omega),isWhitespace_letter (by omega) (by omega)]

theorem any_isWhitespace_toLower (o : Option Char) :
    (o.map Char.toLower).any Texts.isWhitespace = o.any Texts.isWhitespace := by
  cases o with
  | none => rfl
  | some c => exact isWhitespace_toLower c

theorem toLower_eq_nul {c : Char} : c.toLower = Char.ofNat 0 ↔ c = Char.ofNat 0 := by
  rcases toLower_cases c with hsame | ⟨hlow,-,hlower⟩
  · rw [hsame]
  · refine iff_of_false (fun h => ?_) (fun h => ?_)
    · rw [h] at hlower
      have hzero : (Char.ofNat 0).toNat = 0 := rfl
      omega
    · rw [h] at hlow
      exact absurd hlow (by decide)

end Characters

section Strings

variable {s t m : String}

theorem EqIgnoreAsciiCase.refl (s : String) : EqIgnoreAsciiCase s s := rfl

/-- What lowercasing leaves alone is the same at the same place of both strings. -/
theorem EqIgnoreAsciiCase.plain (h : EqIgnoreAsciiCase s t) (hs : Plain s) : Plain t where
  nul hmem := by
    have hlower : Char.ofNat 0 ∈ t.toList.map Char.toLower :=
      List.mem_map.mpr ⟨_,hmem,rfl⟩
    rw [← h] at hlower
    obtain ⟨c,hc,hzero⟩ := List.mem_map.mp hlower
    exact hs.nul (toLower_eq_nul.mp hzero ▸ hc)
  start := by
    rw [← any_isWhitespace_toLower,← List.head?_map,← h,List.head?_map,any_isWhitespace_toLower]
    exact hs.start
  stop := by
    rw [← any_isWhitespace_toLower,← List.getLast?_map,← h,List.getLast?_map,
      any_isWhitespace_toLower]
    exact hs.stop

theorem dropWhile_of_head {α : Type} {p : α → Bool} {l : List α}
    (h : l.head?.any p = false) : l.dropWhile p = l := by
  cases l with
  | nil => rfl
  | cons c l => exact List.dropWhile_cons_of_neg (Bool.not_eq_true _ ▸ h)

/-- Normalising takes padding off a plain string, and nothing else. -/
theorem normaliseModel_padded {n : ℕ} (ht : Plain t)
    (hm : m.toList = t.toList ++ List.replicate n (Char.ofNat 0)) : normaliseModel m = t := by
  have hcut : m.toList.takeWhile (fun c => decide (c ≠ Char.ofNat 0)) = t.toList := by
    rw [hm,List.takeWhile_append_of_pos fun c hc => ?_]
    · cases n <;> simp [List.replicate_succ]
    · exact decide_eq_true fun hzero => ht.nul (hzero ▸ hc)
  have hstop : t.toList.reverse.head?.any Texts.isWhitespace = false := by
    rw [List.head?_reverse]
    exact ht.stop
  rw [normaliseModel,hcut,Texts.trim,dropWhile_of_head ht.start,dropWhile_of_head hstop,List.reverse_reverse,
    String.ofList_toList]

theorem Plain.normaliseModel (h : Plain s) : normaliseModel s = s :=
  normaliseModel_padded (n := 0) h (by simp)

theorem Respelled.refl (s : String) : Respelled s s := ⟨s,0,.refl s,by simp⟩

/-- Normalised, it is spelled in other letters at most. -/
theorem Respelled.normalised (h : Respelled s m) (hs : Plain s) :
    EqIgnoreAsciiCase s (Rszigbee.normaliseModel m) := by
  obtain ⟨t,n,ht,hm⟩ := h
  rwa [normaliseModel_padded (ht.plain hs) hm]

/-- Without a NUL nothing was appended. -/
theorem Respelled.of_nul_not_mem (h : Respelled s m) (hm : Char.ofNat 0 ∉ m.toList) :
    EqIgnoreAsciiCase s m := by
  obtain ⟨t,n,ht,he⟩ := h
  cases n with
  | zero =>
    rw [List.replicate_zero,List.append_nil] at he
    rwa [String.toList_inj.mp he]
  | succ n => simp [he,List.replicate_succ] at hm

end Strings

/-- A device, reporting the model. -/
def DeviceMatch.reporting (device : DeviceMatch) (model : String) : DeviceMatch :=
  { device with modelId := some model }

/-- Of two models that both are reported, a fingerprint tells apart only what it states. -/
theorem Fingerprint.matches_reporting {f : Fingerprint} {m : String} (hm : f.modelId ≠ some m)
    (device : DeviceMatch) (s : String) : f.matches (device.reporting m) =
      (f.modelId.isNone && f.matches (device.reporting s)) := by
  have hendpoints (model : String) :
      f.endpointsMatch (device.reporting model) = f.endpointsMatch device := rfl
  rw [«matches»,«matches»,hendpoints,hendpoints]
  cases hmodel : f.modelId with
  | none => rfl
  | some x =>
    have hnot : same (some x) (device.reporting m).modelId = false := by
      have hne : m ≠ x := fun h => hm (h ▸ hmodel)
      simp [same,DeviceMatch.reporting,hne]
    rw [hnot]
    rfl

namespace Catalogue

/-- The model strings of the definitions are plain, and no two differ only in case. -/
structure WellSpelled (ds : List Definition) : Prop where
  plain : ∀ d ∈ ds, ∀ s ∈ d.claimed, Plain s
  apart : ∀ d ∈ ds, ∀ d' ∈ ds, ∀ s ∈ d.claimed, ∀ t ∈ d'.claimed, EqIgnoreAsciiCase s t → s = t

theorem WellSpelled.subset {ds ds' : List Definition} (h : WellSpelled ds) (hsub : ds' ⊆ ds) :
    WellSpelled ds' where
  plain d hd := h.plain d (hsub hd)
  apart d hd d' hd' := h.apart d (hsub hd) d' (hsub hd')

/-- Among the fingerprints of the kind, one of the definition is the first of the highest
priority. -/
def Leads (p : Fingerprint → Bool) (ds : List Definition) (d : Definition) : Prop :=
  ∃ f, Foremost (fun e : Definition × Fingerprint => e.2.priority.toInt)
    ((rules ds).filter fun e => p e.2) (d,f)

/-- The definition is the first that lists the model. -/
def FirstLists (model : String) (ds : List Definition) (d : Definition) : Prop :=
  ∃ pre post, ds = pre ++ d::post ∧ model ∈ d.matchRules.models ∧
    ∀ d' ∈ pre, model ∉ d'.matchRules.models

/-- A sole definition, that lists a model. -/
def Sole (ds : List Definition) : Prop := ∃ only, ds = [only] ∧ only.matchRules.models ≠ []

/-- Whatever the rules find with the model as spelled, they find with it as reported: either the
definition that leads also leads where no fingerprint may state a model, or none is left to lead
and it is the first to list what the report is without padding; and where no definition leads,
none lists the model, unless the report is padded only. -/
def Steady (device : DeviceMatch) (ds : List Definition) (s m : String) : Prop :=
  (∀ d, Leads (fun f => f.matches (device.reporting s)) ds d →
    Leads (fun f => f.modelId.isNone && f.matches (device.reporting s)) ds d ∨
      (∀ e ∈ rules ds, ¬ (e.2.modelId.isNone && e.2.matches (device.reporting s)) = true) ∧
        normaliseModel m = s ∧ FirstLists s ds d) ∧
  ((∀ e ∈ rules ds, ¬ e.2.matches (device.reporting s) = true) →
    normaliseModel m = s ∨ ∀ d ∈ ds, s ∉ d.matchRules.models)

/-- The scan for fingerprints of a kind. -/
def leading (p : Fingerprint → Bool) (ds : List Definition) : Option Definition :=
  (@List.argmax _ ℤ Int.instLinearOrder.toPreorder _ (fun e => e.2.priority.toInt)
    ((rules ds).filter fun e => p e.2)).map Prod.fst

def listing (model : String) (ds : List Definition) : Option Definition :=
  ds.find? fun d => model ∈ d.matchRules.models

section Rules

variable {p : Fingerprint → Bool} {ds : List Definition} {d : Definition} {model : String}

theorem leading_eq_some_iff : leading p ds = some d ↔ Leads p ds d := by
  rw [leading,Option.map_eq_some_iff,Leads]
  constructor
  · rintro ⟨⟨d',f⟩,he,rfl⟩
    exact ⟨f,argmax_eq_some_iff_foremost.mp he⟩
  · rintro ⟨f,he⟩
    exact ⟨(d,f),argmax_eq_some_iff_foremost.mpr he,rfl⟩

theorem leading_eq_none_iff : leading p ds = none ↔ ∀ e ∈ rules ds, ¬ p e.2 = true := by
  rw [leading,Option.map_eq_none_iff,List.argmax_eq_none,List.filter_eq_nil_iff]

theorem listing_eq_some_iff : listing model ds = some d ↔ FirstLists model ds d := by
  rw [listing,List.find?_eq_some_iff_append,FirstLists]
  simp only [decide_eq_true_eq,Bool.not_eq_true',decide_eq_false_iff_not]
  constructor
  · rintro ⟨hd,pre,post,he,hpre⟩
    exact ⟨pre,post,he,hd,hpre⟩
  · rintro ⟨pre,post,he,hd,hpre⟩
    exact ⟨hd,pre,post,he,hpre⟩

theorem listing_eq_none_iff :
    listing model ds = none ↔ ∀ d ∈ ds, model ∉ d.matchRules.models := by
  simp [listing]

theorem onlyListing_eq_some_iff :
    (∃ only, onlyListing ds = some only) ↔ Sole ds := by
  match ds with
  | [] => simp [onlyListing,Sole]
  | [d] => simp [onlyListing,Sole]
  | _::_::_ => simp [onlyListing,Sole]

end Rules

section Spelled

variable {lower : String → String} {ds : List Definition} {s m : String}

/-- However it is reported, the candidates are those that claim the model as it is spelled. -/
theorem candidates_respelled (hcase : ∀ a b, EqIgnoreAsciiCase a b → lower a = lower b)
    (hnul : ∀ a, Char.ofNat 0 ∈ (lower a).toList ↔ Char.ofNat 0 ∈ a.toList)
    (hds : WellSpelled ds) (hs : ∃ d ∈ ds, s ∈ d.claimed) (hm : Respelled s m) :
    candidates lower ds m = ds.filter (claims lower (lower s)) := by
  obtain ⟨d,hd,hclaimed⟩ := hs
  have hplain := hds.plain d hd s hclaimed
  have hfound : ¬ (ds.filter (claims lower (lower s))).isEmpty = true := by
    rw [List.isEmpty_iff,List.filter_eq_nil_iff]
    exact fun h => h d hd (claims_of_mem hclaimed)
  have hnormalised : lower (normaliseModel m) = lower s :=
    (hcase _ _ (hm.normalised hplain)).symm
  rw [candidates,hnormalised]
  by_cases hpadded : Char.ofNat 0 ∈ m.toList
  · have hnone : (ds.filter (claims lower (lower m))).isEmpty = true := by
      rw [List.isEmpty_iff,List.filter_eq_nil_iff]
      intro d hd hclaims
      obtain ⟨t,ht,hkey⟩ := List.any_eq_true.mp hclaims
      have ht' := hds.plain d hd t ht
      rw [ht'.normaliseModel,Bool.or_self,decide_eq_true_eq] at hkey
      exact ht'.nul ((hnul t).mp (hkey ▸ (hnul m).mpr hpadded))
    rw [if_pos hnone]
  · rw [← hcase _ _ (hm.of_nul_not_mem hpadded),if_neg hfound]

/-- Spelled otherwise than any definition spells it, the model is claimed by none. -/
theorem not_claimed_respelled (hds : WellSpelled ds) (hs : ∃ d ∈ ds, s ∈ d.claimed)
    (hm : Respelled s m) (hne : m ≠ s) : ∀ d ∈ ds, m ∉ d.claimed := by
  intro d hd hclaimed
  obtain ⟨d',hd',hs⟩ := hs
  have hcase := hm.of_nul_not_mem (hds.plain d hd m hclaimed).nul
  exact hne (hds.apart d' hd' d hd s hs m hclaimed hcase).symm

/-- Without the model they state, only fingerprints that state none are left to match. -/
theorem byFingerprint_respelled (device : DeviceMatch) (hm : ∀ d ∈ ds, m ∉ d.claimed) :
    byFingerprint (device.reporting m) ds =
      leading (fun f => f.modelId.isNone && f.matches (device.reporting s)) ds := by
  have hfilter : (rules ds).filter (fun e => e.2.matches (device.reporting m)) =
      (rules ds).filter fun e => e.2.modelId.isNone && e.2.matches (device.reporting s) := by
    refine List.filter_congr fun e he => Fingerprint.matches_reporting (fun hmodel => ?_) device s
    obtain ⟨hd,hf⟩ := mem_rules.mp he
    exact hm e.1 hd (List.mem_append_right _ (List.mem_filterMap.mpr ⟨e.2,hf,hmodel⟩))
  rw [leading,← hfilter]
  rfl

theorem byModel_plain (hs : Plain s) (ds : List Definition) : byModel s ds = listing s ds := by
  refine List.find?_congr fun d _ => ?_
  rw [hs.normaliseModel,Bool.eq_iff_iff]
  simp

/-- Only padding is seen through by the list of models. -/
theorem byModel_respelled (hds : WellSpelled ds) (hs : ∃ d ∈ ds, s ∈ d.claimed)
    (hm : Respelled s m) (hne : m ≠ s) :
    byModel m ds = if normaliseModel m = s then listing s ds else none := by
  have hunclaimed := not_claimed_respelled hds hs hm hne
  obtain ⟨d,hd,hclaimed⟩ := hs
  have hlisted : byModel m ds = ds.find? fun d => normaliseModel m ∈ d.matchRules.models := by
    refine List.find?_congr fun d hd => ?_
    have hnot : m ∉ d.matchRules.models := fun h => hunclaimed d hd (List.mem_append_left _ h)
    rw [Bool.eq_iff_iff,List.any_eq_true,decide_eq_true_eq]
    constructor
    · rintro ⟨x,hx,hsame⟩
      rw [Bool.or_eq_true,decide_eq_true_eq,decide_eq_true_eq] at hsame
      rcases hsame with rfl | rfl
      · exact absurd hx hnot
      · exact hx
    · exact fun h => ⟨_,h,by simp⟩
  rw [hlisted]
  split
  · rename_i hpadded
    rw [hpadded]
    rfl
  · rename_i hother
    refine List.find?_eq_none.mpr fun d' hd' hlists => hother ?_
    have hlists' : normaliseModel m ∈ d'.claimed :=
      List.mem_append_left _ (of_decide_eq_true hlists)
    exact (hds.apart d hd d' hd' s hclaimed _ hlists'
      (hm.normalised (hds.plain d hd s hclaimed))).symm

/-- The rules after the sole candidate answer alike exactly when they are steady. -/
theorem rules_respelled_iff (device : DeviceMatch) (hds : WellSpelled ds)
    (hs : ∃ d ∈ ds, s ∈ d.claimed) (hm : Respelled s m) (hne : m ≠ s) :
    (byFingerprint (device.reporting m) ds).or (byModel m ds) =
        (byFingerprint (device.reporting s) ds).or (byModel s ds) ↔ Steady device ds s m := by
  obtain ⟨d,hd,hclaimed⟩ := hs
  have hleading : byFingerprint (device.reporting s) ds =
      leading (fun f => f.matches (device.reporting s)) ds := rfl
  have hfewer (h : leading (fun f => f.matches (device.reporting s)) ds = none) :
      leading (fun f => f.modelId.isNone && f.matches (device.reporting s)) ds = none :=
    leading_eq_none_iff.mpr fun e he hboth =>
      leading_eq_none_iff.mp h e he (Bool.and_eq_true .. ▸ hboth).2
  rw [byFingerprint_respelled (s := s) device (not_claimed_respelled hds ⟨d,hd,hclaimed⟩ hm hne),
    byModel_respelled hds ⟨d,hd,hclaimed⟩ hm hne,byModel_plain (hds.plain d hd s hclaimed),
    hleading,or_eq_or_iff hfewer,Steady]
  simp only [leading_eq_some_iff,leading_eq_none_iff,listing_eq_some_iff,listing_eq_none_iff]

/-- A search tells the two strings apart exactly when nothing is sole and the rules are unsteady. -/
theorem search_respelled_iff (hcase : ∀ a b, EqIgnoreAsciiCase a b → lower a = lower b)
    (hnul : ∀ a, Char.ofNat 0 ∈ (lower a).toList ↔ Char.ofNat 0 ∈ a.toList)
    (device : DeviceMatch) (hds : WellSpelled ds) (hs : ∃ d ∈ ds, s ∈ d.claimed)
    (hm : Respelled s m) :
    search lower ds (device.reporting m) = search lower ds (device.reporting s) ↔
      m = s ∨ Sole (ds.filter (claims lower (lower s))) ∨
        Steady device (ds.filter (claims lower (lower s))) s m := by
  let found := ds.filter (claims lower (lower s))
  have hfound : WellSpelled found := hds.subset fun _ => List.mem_of_mem_filter
  have hclaimed : ∃ d ∈ found, s ∈ d.claimed := by
    obtain ⟨d,hd,hs⟩ := hs
    exact ⟨d,List.mem_filter.mpr ⟨hd,claims_of_mem hs⟩,hs⟩
  have hsearch {t : String} (ht : Respelled s t) : search lower ds (device.reporting t) =
      (onlyListing found).or ((byFingerprint (device.reporting t) found).or (byModel t found)) := by
    rw [search,DeviceMatch.reporting,Option.bind_some,candidates_respelled hcase hnul hds hs ht]
  have hsole : (∃ only, onlyListing found = some only) ↔ Sole found := onlyListing_eq_some_iff
  rw [hsearch hm,hsearch (.refl s)]
  cases honly : onlyListing found with
  | some only => exact iff_of_true rfl (.inr (.inl (hsole.mp ⟨only,honly⟩)))
  | none =>
    have hnone : ¬ Sole found := fun h => by simpa [honly] using hsole.mpr h
    rw [Option.none_or,Option.none_or,or_iff_right hnone]
    by_cases hsame : m = s
    · exact iff_of_true (by rw [hsame]) (.inl hsame)
    · rw [or_iff_right hsame]
      exact rules_respelled_iff device hfound hclaimed hm hsame

end Spelled
end Catalogue

namespace DefinitionIndex

open Catalogue

/-- The definitions that claim the model, the newest first. -/
def rivals (lower : String → String) (index : DefinitionIndex) (model : String) : List Definition :=
  index.definitions.reverse.filter (claims lower (lower model))

/-- In an index built by insertions, a device resolves with its model in other letters, or padded,
as it does with the model as spelled, if and only if there is one rival that lists a model, or
the rules that are tried then are steady. -/
theorem resolve_respelled_iff {lower : String → String}
    (hcase : ∀ a b, EqIgnoreAsciiCase a b → lower a = lower b)
    (hnul : ∀ a, Char.ofNat 0 ∈ (lower a).toList ↔ Char.ofNat 0 ∈ a.toList)
    (ds : List Definition) (hds : WellSpelled (insertAll lower ds {}).definitions)
    {s m : String} (hs : ∃ d ∈ (insertAll lower ds {}).definitions, s ∈ d.claimed)
    (hm : Respelled s m) (device : DeviceMatch) :
    (insertAll lower ds {}).resolve lower (device.reporting m) =
        (insertAll lower ds {}).resolve lower (device.reporting s) ↔
      m = s ∨ Sole ((insertAll lower ds {}).rivals lower s) ∨
        Steady device ((insertAll lower ds {}).rivals lower s) s m := by
  obtain ⟨hindex,-⟩ := represents_insertAll ds (represents_empty lower)
  have hnewest : WellSpelled (insertAll lower ds {}).definitions.reverse :=
    hds.subset fun _ => List.mem_reverse.mp
  obtain ⟨d,hd,hclaimed⟩ := hs
  rw [resolve_eq_search hindex,resolve_eq_search hindex]
  exact search_respelled_iff hcase hnul device hnewest ⟨d,List.mem_reverse.mpr hd,hclaimed⟩ hm

section Reported

/-- `str::to_lowercase` of ASCII. -/
def asciiLower (s : String) : String := .ofList (s.toList.map Char.toLower)

theorem asciiLower_case (a b : String) (h : EqIgnoreAsciiCase a b) :
    asciiLower a = asciiLower b := congrArg String.ofList h

theorem nul_mem_asciiLower (a : String) :
    Char.ofNat 0 ∈ (asciiLower a).toList ↔ Char.ofNat 0 ∈ a.toList := by
  rw [asciiLower,String.toList_ofList,List.mem_map]
  constructor
  · rintro ⟨c,hc,hzero⟩
    exact toLower_eq_nul.mp hzero ▸ hc
  · exact fun h => ⟨_,h,rfl⟩

theorem definitions_insertAll (lower : String → String) (ds : List Definition) :
    (insertAll lower ds {}).definitions = ds.filter accepted :=
  (represents_insertAll ds (represents_empty lower)).2

theorem wellSpelled_of_claimed {ds : List Definition} {s : String} (hs : Plain s)
    (hds : ∀ d ∈ ds, ∀ t ∈ d.claimed, t = s) : WellSpelled ds where
  plain d hd t ht := hds d hd t ht ▸ hs
  apart d hd d' hd' t ht u hu _ := (hds d hd t ht).trans (hds d' hd' u hu).symm

/-- A definition that lists a model. -/
def sensor : Definition where
  model := "ht"
  matchRules := { models := ["lumi.sensor_ht"] }

theorem sensor_respelled :
    (insertAll asciiLower [sensor] {}).resolve asciiLower
        (DeviceMatch.reporting {} "LUMI.Sensor_HT\x00\x00") =
      (insertAll asciiLower [sensor] {}).resolve asciiLower
        (DeviceMatch.reporting {} "lumi.sensor_ht") := by
  have hdefinitions : (insertAll asciiLower [sensor] {}).definitions = [sensor] :=
    (definitions_insertAll asciiLower [sensor]).trans (by decide)
  have hclaimed : ∀ d ∈ [sensor], ∀ t ∈ d.claimed, t = "lumi.sensor_ht" := by decide
  refine (resolve_respelled_iff asciiLower_case nul_mem_asciiLower [sensor] ?_
    ⟨sensor,by simp [hdefinitions],by decide⟩ ⟨"LUMI.Sensor_HT",2,by decide +kernel,by decide +kernel⟩
    {}).mpr (.inr (.inl ⟨sensor,?_,by decide⟩))
  · rw [hdefinitions]
    exact wellSpelled_of_claimed ⟨by decide,by decide,by decide⟩ hclaimed
  · rw [rivals,hdefinitions]
    decide +kernel

/-- A definition found by a fingerprint of a model and a manufacturer. -/
def tuya (model : String) : Definition where
  model := model
  matchRules := { fingerprints :=
    [{ modelId := some "TS0601", manufacturerName := some "_TZE200_a" }] }

/-- Of two that claim the model one is found; in other letters none is. -/
theorem tuya_unresolved :
    ¬ ∀ (ds : List Definition) (device : DeviceMatch) (s m : String),
      WellSpelled (insertAll asciiLower ds {}).definitions →
      (∃ d ∈ (insertAll asciiLower ds {}).definitions, s ∈ d.claimed) → Respelled s m →
      (insertAll asciiLower ds {}).resolve asciiLower (device.reporting m) =
        (insertAll asciiLower ds {}).resolve asciiLower (device.reporting s) := by
  intro h
  let ds := [tuya "a",tuya "b"]
  have hdefinitions : (insertAll asciiLower ds {}).definitions = ds :=
    (definitions_insertAll asciiLower ds).trans (by decide)
  have hspelled : WellSpelled (insertAll asciiLower ds {}).definitions := by
    rw [hdefinitions]
    exact wellSpelled_of_claimed (s := "TS0601") ⟨by decide,by decide,by decide⟩ (by decide)
  obtain ⟨hindex,-⟩ := represents_insertAll ds (represents_empty asciiLower)
  have hsame := h ds { manufacturerName := some "_TZE200_a" } "TS0601" "ts0601" hspelled
    ⟨tuya "a",by simp [hdefinitions,ds],by decide⟩ ⟨"ts0601",0,by decide +kernel,by decide +kernel⟩
  rw [resolve_eq_search hindex,resolve_eq_search hindex,hdefinitions] at hsame
  exact absurd hsame (by decide +kernel)

end Reported

end DefinitionIndex
end Rszigbee
