import Rszigbee.Index

/-! Which definitions some device resolves to in an index of their own. -/
namespace Rszigbee

/-- Some device has such an address and such endpoints. -/
def Fingerprint.Satisfiable (f : Fingerprint) : Prop :=
  ∃ device : DeviceMatch, (f.ieeePrefix.all fun start =>
    device.ieee.any fun ieee => start.toList.isPrefixOf ieee.show.toList) = true ∧
    f.endpointsMatch device = true

/-- A device that has every field a fingerprint states. -/
def Fingerprint.sample (f : Fingerprint) (device : DeviceMatch) : DeviceMatch where
  modelId := f.modelId
  manufacturerName := f.manufacturerName
  manufacturerId := f.manufacturerId
  applicationVersion := f.applicationVersion
  stackVersion := f.stackVersion
  zclVersion := f.zclVersion
  hardwareVersion := f.hardwareVersion
  dateCode := f.dateCode
  softwareBuildId := f.softwareBuildId
  powerSource := f.powerSource
  deviceType := f.deviceType
  ieee := device.ieee
  endpoints := device.endpoints

/-- With an address and endpoints that it asks for, such a device matches. -/
theorem Fingerprint.matches_sample {f : Fingerprint} {device : DeviceMatch}
    (hieee : (f.ieeePrefix.all fun start =>
      device.ieee.any fun ieee => start.toList.isPrefixOf ieee.show.toList) = true)
    (hendpoints : f.endpointsMatch device = true) : f.matches (f.sample device) = true := by
  have hsame : ∀ {α : Type} [DecidableEq α] (x : Option α), same x x = true := by
    intro α _ x
    cases x <;> simp [same]
  have hendpoints' : f.endpointsMatch (f.sample device) = true := hendpoints
  have hieee' : (f.ieeePrefix.all fun start => (f.sample device).ieee.any fun ieee =>
      start.toList.isPrefixOf ieee.show.toList) = true := hieee
  rw [«matches»,hieee',hendpoints']
  simp [Fingerprint.sample,hsame]

namespace Catalogue
variable {lower : String → String} {d : Definition}

theorem claims_of_mem {model : String} (h : model ∈ d.claimed) :
    claims lower (lower model) d = true :=
  List.any_eq_true.mpr ⟨model,h,by simp⟩

/-- Alone, a definition is a candidate for the models it claims. -/
theorem candidates_alone {model : String} (h : model ∈ d.claimed) :
    candidates lower [d] model = [d] := by
  rw [candidates,List.filter_cons_of_pos (claims_of_mem h)]
  rfl

theorem candidates_of_claimed_nil (h : d.claimed = []) (model : String) :
    candidates lower [d] model = [] := by
  simp [candidates,claims,h]

/-- The definitions in their order, each with its fingerprints. -/
def rules (ds : List Definition) : List (Definition × Fingerprint) :=
  ds.flatMap fun d => d.matchRules.fingerprints.map (Prod.mk d)

theorem mem_rules {ds : List Definition} {e : Definition × Fingerprint} :
    e ∈ rules ds ↔ e.1 ∈ ds ∧ e.2 ∈ e.1.matchRules.fingerprints := by
  rw [rules,List.mem_flatMap]
  constructor
  · rintro ⟨d,hd,he⟩
    obtain ⟨f,hf,rfl⟩ := List.mem_map.mp he
    exact ⟨hd,hf⟩
  · rintro ⟨hd,hf⟩
    exact ⟨e.1,hd,List.mem_map.mpr ⟨e.2,hf,rfl⟩⟩

/-- The fingerprint that decides is one of a candidate's, and matches. -/
theorem byFingerprint_mem {device : DeviceMatch} {ds : List Definition}
    (h : byFingerprint device ds = some d) :
    d ∈ ds ∧ ∃ f ∈ d.matchRules.fingerprints, f.matches device = true := by
  obtain ⟨e,he,rfl⟩ := Option.map_eq_some_iff.mp h
  obtain ⟨he,hmatch⟩ := List.mem_filter.mp (List.argmax_mem he)
  obtain ⟨hd,hf⟩ := mem_rules.mp he
  exact ⟨hd,e.2,hf,hmatch⟩

theorem byFingerprint_eq_none_iff {device : DeviceMatch} {ds : List Definition} :
    byFingerprint device ds = none ↔
      ∀ d ∈ ds, ∀ f ∈ d.matchRules.fingerprints, ¬f.matches device = true := by
  rw [byFingerprint,Option.map_eq_none_iff,List.argmax_eq_none,List.filter_eq_nil_iff]
  constructor
  · intro h d hd f hf
    exact h (d,f) (mem_rules.mpr ⟨hd,hf⟩)
  · intro h e he
    obtain ⟨hd,hf⟩ := mem_rules.mp he
    exact h e.1 hd e.2 hf

/-- A fingerprint that matches is enough where there is only one definition. -/
theorem byFingerprint_alone {device : DeviceMatch} {f : Fingerprint}
    (hf : f ∈ d.matchRules.fingerprints) (hmatch : f.matches device = true) :
    byFingerprint device [d] = some d := by
  cases hby : byFingerprint device [d] with
  | none => exact absurd hmatch (byFingerprint_eq_none_iff.mp hby d (by simp) f hf)
  | some d' => rw [List.mem_singleton.mp (byFingerprint_mem hby).1]

theorem search_of_claimed_nil (h : d.claimed = []) (device : DeviceMatch) :
    search lower [d] device = none := by
  rw [search]
  cases device.modelId with
  | none => rfl
  | some model =>
    rw [Option.bind_some,candidates_of_claimed_nil h]
    rfl

theorem search_alone {device : DeviceMatch} {model : String}
    (hmodel : device.modelId = some model) (hclaimed : model ∈ d.claimed) :
    search lower [d] device =
      (onlyListing [d]).or ((byFingerprint device [d]).or (byModel model [d])) := by
  rw [search,hmodel,Option.bind_some,candidates_alone hclaimed]

/-- Alone, a definition is found by some device if it claims a model, and only then. -/
theorem search_alone_iff (hsatisfiable : ∀ f ∈ d.matchRules.fingerprints, f.Satisfiable) :
    (∃ device, search lower [d] device = some d) ↔
      d.matchRules.models ≠ [] ∨ ∃ f ∈ d.matchRules.fingerprints, f.modelId ≠ none := by
  constructor
  · rintro ⟨device,hdevice⟩
    by_contra hnone
    rw [not_or,not_not] at hnone
    have hclaimed : d.claimed = [] := by
      rw [Definition.claimed,hnone.1,List.nil_append,List.filterMap_eq_nil_iff]
      intro f hf
      by_contra hmodel
      exact hnone.2 ⟨f,hf,hmodel⟩
    rw [search_of_claimed_nil hclaimed] at hdevice
    cases hdevice
  · intro h
    by_cases hmodels : d.matchRules.models = []
    · obtain ⟨f,hf,hmodel⟩ := h.resolve_left (not_not.mpr hmodels)
      obtain ⟨model,hmodel⟩ := Option.ne_none_iff_exists'.mp hmodel
      obtain ⟨device,hieee,hendpoints⟩ := hsatisfiable f hf
      have hmatch := f.matches_sample hieee hendpoints
      have hclaimed : model ∈ d.claimed :=
        List.mem_append_right _ (List.mem_filterMap.mpr ⟨f,hf,hmodel⟩)
      refine ⟨f.sample device,?_⟩
      have hnot : onlyListing [d] = none := if_pos (by simpa using hmodels)
      rw [search_alone hmodel hclaimed,hnot,byFingerprint_alone hf hmatch]
      rfl
    · obtain ⟨model,models,hcons⟩ := List.exists_cons_of_ne_nil hmodels
      have hclaimed : model ∈ d.claimed := by simp [Definition.claimed,hcons]
      refine ⟨{ modelId := some model },?_⟩
      have honly : onlyListing [d] = some d := if_neg (by simpa using hmodels)
      rw [search_alone rfl hclaimed,honly]
      rfl

end Catalogue

namespace DefinitionIndex

/-- An index of one definition answers as a search through this one does. -/
theorem resolve_alone {lower : String → String} {d : Definition} {index : DefinitionIndex}
    (hinsert : ({} : DefinitionIndex).insert lower d = .ok index) (device : DeviceMatch) :
    index.resolve lower device = Catalogue.search lower [d] device := by
  obtain ⟨hindex,hdefinitions,-⟩ := represents_insert (represents_empty lower) hinsert
  rw [resolve_eq_search hindex,hdefinitions]
  rfl

/-- What is accepted, with addresses and endpoints that some device has, is found in an index of its
own if and only if it lists a model or has a fingerprint that states one. -/
theorem accepted_reachable_iff {lower : String → String} {d : Definition} {index : DefinitionIndex}
    (hinsert : ({} : DefinitionIndex).insert lower d = .ok index)
    (hsatisfiable : ∀ f ∈ d.matchRules.fingerprints, f.Satisfiable) :
    (∃ device, index.resolve lower device = some d) ↔
      d.matchRules.models ≠ [] ∨ ∃ f ∈ d.matchRules.fingerprints, f.modelId ≠ none := by
  rw [← Catalogue.search_alone_iff hsatisfiable]
  exact exists_congr fun device => by rw [resolve_alone hinsert]

/-- A definition that is found by a fingerprint of a model and an endpoint. -/
def ofModel : Definition where
  matchRules := { fingerprints := [{ modelId := some "TS0601", endpoints := [{ id := ⟨1⟩ }] }] }

theorem ofModel_reachable_iff : ∃ index,
    ({} : DefinitionIndex).insert String.toLower ofModel = .ok index ∧
      ((∃ device, index.resolve String.toLower device = some ofModel) ↔
        ofModel.matchRules.models ≠ [] ∨
          ∃ f ∈ ofModel.matchRules.fingerprints, f.modelId ≠ none) := by
  refine ⟨_,rfl,accepted_reachable_iff rfl fun f hf => ?_⟩
  rw [List.mem_singleton.mp hf]
  exact ⟨{ endpoints := [{ id := ⟨1⟩ }] },by decide,by decide⟩

/-- A definition whose only fingerprint is of a manufacturer. -/
def ofManufacturer : Definition where
  model := "any"
  matchRules := { fingerprints := [{ manufacturerName := some "_TZ3000" }] }

/-- It is taken in, and no device is ever given it. -/
theorem ofManufacturer_unreachable : ∃ index,
    ({} : DefinitionIndex).insert String.toLower ofManufacturer = .ok index ∧
      ∀ device, index.resolve String.toLower device ≠ some ofManufacturer := by
  have hclaimed : ofManufacturer.claimed = [] := rfl
  refine ⟨_,rfl,?_⟩
  intro device h
  rw [resolve_alone (d := ofManufacturer) rfl,Catalogue.search_of_claimed_nil hclaimed] at h
  cases h

end DefinitionIndex
end Rszigbee
