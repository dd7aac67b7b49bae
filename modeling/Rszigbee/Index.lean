import Mathlib.Data.List.MinMax
import Mathlib.Data.String.Basic
import Rszigbee.Definition
import Rszigbee.Postings

/-! The definition index, and the search through the catalogue it stands for. -/
namespace Rszigbee

/-- Why a definition could not be added. -/
inductive IndexError
  | unreachable (model : String)
  | emptyFingerprint (model : String)
  deriving DecidableEq

def IndexError.text : IndexError → String
  | unreachable model => "definition '" ++ model ++
    "' has no model strings and no fingerprints, so it is unreachable"
  | emptyFingerprint model => "definition '" ++ model ++
    "' has an empty fingerprint, which would claim every device indexed under the same model"

/-- Definitions, and the positions of those to be found under a key. -/
structure DefinitionIndex where
  definitions : List Definition := []
  byModel : Table String (List ℕ) := ∅

namespace Definition

/-- The strings a definition claims: its models, and those its fingerprints name. -/
def claimed (d : Definition) : List String :=
  d.matchRules.models ++ d.matchRules.fingerprints.filterMap Fingerprint.modelId

/-- Each string under two keys: lowercased as written, and normalised first. -/
def keys (lower : String → String) (d : Definition) : List String :=
  d.claimed.flatMap fun model => [lower model,indexKey lower model]

end Definition

namespace DefinitionIndex

variable (lower : String → String)

def insert (index : DefinitionIndex) (definition : Definition) :
    Except IndexError DefinitionIndex :=
  let rules := definition.matchRules
  if rules.models.isEmpty && rules.fingerprints.isEmpty then
    .error (.unreachable definition.model)
  else if rules.fingerprints.any Fingerprint.isEmpty then
    .error (.emptyFingerprint definition.model)
  else
    .ok {
      definitions := index.definitions ++ [definition]
      byModel := Postings.file index.definitions.length (sortDedup (definition.keys lower))
        index.byModel }

/-- A refused definition leaves the index as it is, as in `bundled`. -/
def insertAll : List Definition → DefinitionIndex → DefinitionIndex
  | [], index => index
  | d::ds, index =>
    match index.insert lower d with
    | .ok index => insertAll ds index
    | .error _ => insertAll ds index

/-- Exact key first, then normalised. -/
def candidates (index : DefinitionIndex) (model : String) : Option (List ℕ) :=
  (index.byModel.lookup (lower model)).or (index.byModel.lookup (indexKey lower model))

section Loops
variable (device : DeviceMatch)

/-- The loop over the fingerprints of one candidate; only a strictly greater priority
replaces the best so far. -/
def betterOf {α : Type} (candidate : α) : List Fingerprint → Option (Int32 × α) →
    Option (Int32 × α)
  | [], best => best
  | f::fs, best =>
    if !f.matches device then betterOf candidate fs best
    else if best.all fun b => b.1 < f.priority then
      betterOf candidate fs (some (f.priority,candidate))
    else betterOf candidate fs best

variable (definitions : List Definition)

/-- The loop over the candidates; an invalid position ends the resolution. -/
def bestFingerprint : List ℕ → Option (Int32 × ℕ) → Option (Option (Int32 × ℕ))
  | [], best => some best
  | p::ps, best => do
    let d ← definitions[p]?
    bestFingerprint ps (betterOf device p d.matchRules.fingerprints best)

/-- The first candidate that lists the model as reported or normalised. -/
def firstListing (model normalised : String) : List ℕ → Option Definition
  | [] => none
  | p::ps => do
    let d ← definitions[p]?
    if d.matchRules.models.any fun m => m = model || m = normalised then definitions[p]?
    else firstListing model normalised ps

end Loops

/-- A sole candidate that lists a model. -/
def sole (index : DefinitionIndex) : List ℕ → Option Definition
  | [only] => index.definitions[only]?.filter fun d => !d.matchRules.models.isEmpty
  | _ => none

def resolve (index : DefinitionIndex) (device : DeviceMatch) : Option Definition := do
  let model ← device.modelId
  let candidates ← index.candidates lower model
  match index.sole candidates with
  | some d => some d
  | none =>
    match ← bestFingerprint device index.definitions candidates none with
    | some (_,position) => index.definitions[position]?
    | none => firstListing index.definitions model (normaliseModel model) candidates

end DefinitionIndex

/-! The catalogue as a list with the newest definition first, and what a search through it finds. -/
namespace Catalogue

/-- The definition claims a string that reads as the key when lowercased, as it is or
normalised. -/
def claims (lower : String → String) (key : String) (d : Definition) : Bool :=
  d.claimed.any fun s => lower s = key || lower (normaliseModel s) = key

/-- Those that claim the reported model; only if there are none, those that claim its
normalised form. -/
def candidates (lower : String → String) (newest : List Definition) (model : String) :
    List Definition :=
  let reported := newest.filter (claims lower (lower model))
  if reported.isEmpty then newest.filter (claims lower (lower (normaliseModel model)))
  else reported

/-- A sole candidate wins when it lists a model. -/
def onlyListing : List Definition → Option Definition
  | [only] => if only.matchRules.models.isEmpty then none else some only
  | _ => none

/-- The first among the matching fingerprints of the highest priority. -/
def byFingerprint (device : DeviceMatch) (ds : List Definition) : Option Definition :=
  let all := ds.flatMap fun d => d.matchRules.fingerprints.map (Prod.mk d)
  (@List.argmax _ ℤ Int.instLinearOrder.toPreorder _ (fun e => e.2.priority.toInt)
    (all.filter fun e => e.2.matches device)).map Prod.fst

def byModel (model : String) (ds : List Definition) : Option Definition :=
  ds.find? fun d => d.matchRules.models.any fun m => m = model || m = normaliseModel model

def search (lower : String → String) (newest : List Definition) (device : DeviceMatch) :
    Option Definition :=
  device.modelId.bind fun model =>
    let found := candidates lower newest model
    (onlyListing found).or ((byFingerprint device found).or (byModel model found))

/-- What the index takes in. -/
def accepted (d : Definition) : Bool :=
  !(d.matchRules.models.isEmpty && d.matchRules.fingerprints.isEmpty) &&
    !d.matchRules.fingerprints.any Fingerprint.isEmpty

theorem claims_iff {lower : String → String} {key : String} {d : Definition} :
    claims lower key d ↔ key ∈ d.keys lower := by
  rw [claims,Definition.keys,List.any_eq_true,List.mem_flatMap]
  refine exists_congr fun s => and_congr_right fun _ => ?_
  simp [indexKey,eq_comm (a := key)]

end Catalogue

namespace DefinitionIndex

variable {lower : String → String} {index : DefinitionIndex}

/-- The positions stored under each key are those of the definitions that claim it, the newest
first. -/
def Represents (lower : String → String) (index : DefinitionIndex) : Prop :=
  Postings.Represents (Definition.keys lower) index.definitions index.byModel

theorem insert_eq (lower : String → String) (index : DefinitionIndex) (d : Definition) :
    (index.insert lower d).toOption = if Catalogue.accepted d then
      some { definitions := index.definitions ++ [d]
             byModel := Postings.file index.definitions.length (sortDedup (d.keys lower))
               index.byModel }
    else none := by
  rw [insert,Catalogue.accepted]
  by_cases hrules : (d.matchRules.models.isEmpty && d.matchRules.fingerprints.isEmpty) = true
  · simp [hrules,Except.toOption]
  · by_cases hempty : d.matchRules.fingerprints.any Fingerprint.isEmpty = true
    · simp [hrules,hempty,Except.toOption]
    · simp [hrules,hempty,Except.toOption]

/-- What one insertion makes of an index that represents its definitions. -/
theorem represents_insert {d : Definition} {index' : DefinitionIndex}
    (h : Represents lower index) (hinsert : index.insert lower d = .ok index') :
    Represents lower index' ∧ index'.definitions = index.definitions ++ [d] ∧
      Catalogue.accepted d := by
  have heq := insert_eq lower index d
  rw [hinsert] at heq
  by_cases haccepted : Catalogue.accepted d = true
  · rw [if_pos haccepted] at heq
    obtain rfl : index' = _ := Option.some.inj heq
    exact ⟨h.file (nodup_sortDedup _) fun _ => mem_sortDedup,rfl,haccepted⟩
  · rw [if_neg haccepted] at heq
    exact absurd heq (by simp [Except.toOption])

theorem not_accepted {d : Definition} {e : IndexError} (hinsert : index.insert lower d = .error e) :
    ¬ Catalogue.accepted d := by
  intro haccepted
  have heq := insert_eq lower index d
  rw [hinsert,if_pos haccepted] at heq
  exact absurd heq (by simp [Except.toOption])

theorem represents_empty (lower : String → String) : Represents lower {} :=
  Postings.represents_nil

theorem represents_insertAll (ds : List Definition) (h : Represents lower index) :
    Represents lower (insertAll lower ds index) ∧
      (insertAll lower ds index).definitions =
        index.definitions ++ ds.filter Catalogue.accepted := by
  induction ds generalizing index with
  | nil => simp [insertAll,h]
  | cons d ds ih =>
    rw [insertAll]
    cases hinsert : index.insert lower d with
    | ok index' =>
      obtain ⟨hnext,hdefinitions,haccepted⟩ := represents_insert h hinsert
      obtain ⟨hall,hall'⟩ := ih hnext
      exact ⟨hall,by rw [hall',hdefinitions,List.filter_cons_of_pos haccepted]; simp⟩
    | error e =>
      obtain ⟨hall,hall'⟩ := ih h
      exact ⟨hall,by rw [hall',List.filter_cons_of_neg (not_accepted hinsert)]⟩

section Search
variable {items : List Definition}

/-- The same best so far, by position and by definition. -/
def SameBest (items : List Definition) (best : Option (Int32 × ℕ))
    (found : Option (Definition × Fingerprint)) : Prop :=
  best.map (fun b => (b.1,items[b.2]?)) = found.map fun e => (e.2.priority,some e.1)

/-- How a list of fingerprints is searched for the first of the highest priority. -/
def best (device : DeviceMatch) (es : List (Definition × Fingerprint))
    (found : Option (Definition × Fingerprint)) : Option (Definition × Fingerprint) :=
  (es.filter fun e => e.2.matches device).foldl
    (List.argAux fun e e' => e'.2.priority.toInt < e.2.priority.toInt) found

theorem sameBest_betterOf (device : DeviceMatch) {p : ℕ} {d : Definition} (hp : items[p]? = some d)
    (fs : List Fingerprint) {b : Option (Int32 × ℕ)} {found : Option (Definition × Fingerprint)}
    (h : SameBest items b found) :
    SameBest items (betterOf device p fs b) (best device (fs.map (Prod.mk d)) found) := by
  induction fs generalizing b found with
  | nil => exact h
  | cons f fs ih =>
    rw [betterOf]
    by_cases hmatch : f.matches device = true
    · have hstep : best device ((f::fs).map (Prod.mk d)) found = best device (fs.map (Prod.mk d))
          (List.argAux (fun e e' => e'.2.priority.toInt < e.2.priority.toInt) found (d,f)) := by
        simp [best,hmatch]
      rw [hstep]
      cases b with
      | none =>
        cases found with
        | some e => simp [SameBest] at h
        | none =>
          simp only [hmatch]
          exact ih (by simp [SameBest,List.argAux,hp])
      | some b =>
        cases found with
        | none => simp [SameBest] at h
        | some e =>
          have hpriority : b.1 = e.2.priority := by
            simp only [SameBest,Option.map_some,Option.some.injEq,Prod.mk.injEq] at h
            exact h.1
          by_cases hlt : b.1 < f.priority
          · have hlt' : e.2.priority.toInt < f.priority.toInt := by
              rwa [← hpriority,← Int32.lt_iff_toInt_lt]
            simp only [hmatch,Option.all_some,hlt]
            exact ih (by simp [SameBest,List.argAux,hlt',hp])
          · have hlt' : ¬ e.2.priority.toInt < f.priority.toInt := by
              rwa [← hpriority,← Int32.lt_iff_toInt_lt]
            simp only [hmatch,Option.all_some,hlt]
            exact ih (by simpa [SameBest,List.argAux,hlt'] using h)
    · have hstep : best device ((f::fs).map (Prod.mk d)) found =
          best device (fs.map (Prod.mk d)) found := by
        simp [best,hmatch]
      simp only [hmatch,hstep]
      exact ih h

/-- The first position finds the first definition. -/
theorem exists_of_map_cons {p : ℕ} {ps : List ℕ} {ds : List Definition}
    (hps : (p::ps).map (items[·]?) = ds.map some) :
    ∃ d ds', ds = d::ds' ∧ items[p]? = some d ∧ ps.map (items[·]?) = ds'.map some := by
  cases ds with
  | nil => simp at hps
  | cons d ds =>
    obtain ⟨hp,hps⟩ := List.cons.inj hps
    exact ⟨d,ds,rfl,hp,hps⟩

theorem bestFingerprint_eq (device : DeviceMatch) {ps : List ℕ} {ds : List Definition}
    (hps : ps.map (items[·]?) = ds.map some) {b : Option (Int32 × ℕ)}
    {found : Option (Definition × Fingerprint)} (h : SameBest items b found) :
    ∃ b', bestFingerprint device items ps b = some b' ∧ SameBest items b'
      (best device (ds.flatMap fun d => d.matchRules.fingerprints.map (Prod.mk d)) found) := by
  induction ps generalizing ds b found with
  | nil =>
    obtain rfl : ds = [] := by simpa using hps.symm
    exact ⟨b,rfl,h⟩
  | cons p ps ih =>
    obtain ⟨d,ds,rfl,hp,hps⟩ := exists_of_map_cons hps
    obtain ⟨b',hb',hsame⟩ := ih hps (sameBest_betterOf device hp d.matchRules.fingerprints h)
    refine ⟨b',?_,?_⟩
    · rw [bestFingerprint,hp]
      exact hb'
    · simpa [best] using hsame

/-- The definition at the best position is the first of the highest priority. -/
theorem byFingerprint_eq (device : DeviceMatch) {ps : List ℕ} {ds : List Definition}
    (hps : ps.map (items[·]?) = ds.map some) : ∃ b, bestFingerprint device items ps none = some b ∧
      b.map (fun b => items[b.2]?) = (Catalogue.byFingerprint device ds).map some := by
  have hstart : SameBest items none none := rfl
  obtain ⟨b,hb,hsame⟩ := bestFingerprint_eq device hps hstart
  refine ⟨b,hb,?_⟩
  have hsecond := congrArg (Option.map Prod.snd) hsame
  rw [Option.map_map,Option.map_map] at hsecond
  rw [Catalogue.byFingerprint,Option.map_map]
  exact hsecond

theorem firstListing_eq (model : String) {ps : List ℕ} {ds : List Definition}
    (hps : ps.map (items[·]?) = ds.map some) :
    firstListing items model (normaliseModel model) ps = Catalogue.byModel model ds := by
  induction ps generalizing ds with
  | nil =>
    obtain rfl : ds = [] := by simpa using hps.symm
    rfl
  | cons p ps ih =>
    obtain ⟨d,ds,rfl,hp,hps⟩ := exists_of_map_cons hps
    rw [firstListing,hp,Catalogue.byModel,List.find?_cons,ih hps,Catalogue.byModel]
    dsimp only [Option.bind_eq_bind,Option.bind_some]
    split
    · rename_i hlisted
      simp [hlisted]
    · rename_i hlisted
      simp [hlisted]

theorem sole_eq {ps : List ℕ} {ds : List Definition}
    (hps : ps.map (index.definitions[·]?) = ds.map some) :
    index.sole ps = Catalogue.onlyListing ds := by
  have hlength : ps.length = ds.length := by simpa using congrArg List.length hps
  match ps,ds,hlength with
  | [],[],_ => rfl
  | [p],[d],_ =>
    have hp : index.definitions[p]? = some d := by simpa using hps
    rw [sole,hp,Catalogue.onlyListing]
    by_cases hmodels : d.matchRules.models = []
    · simp [hmodels]
    · simp [hmodels]
  | _::_::_,_::_::_,_ => rfl

end Search

/-- The keys of the two lookups, and what the definitions that claim them are. -/
theorem candidates_eq (h : Represents lower index) (model : String) :
    (∃ ps, index.candidates lower model = some ps ∧ ps.map (index.definitions[·]?) =
        (Catalogue.candidates lower index.definitions.reverse model).map some) ∨
      index.candidates lower model = none ∧
        Catalogue.candidates lower index.definitions.reverse model = [] := by
  have hclaims : ∀ key, (index.definitions.reverse.filter fun d => key ∈ d.keys lower) =
      index.definitions.reverse.filter (Catalogue.claims lower key) := by
    intro key
    apply List.filter_congr
    intro d _
    rw [Bool.eq_iff_iff,decide_eq_true_eq,Catalogue.claims_iff]
  rw [candidates,Catalogue.candidates]
  cases hreported : index.byModel.lookup (lower model) with
  | some ps =>
    have hat := h.lookup_some hreported
    have hne :
        ¬ (index.definitions.reverse.filter (Catalogue.claims lower (lower model))).isEmpty := by
      rw [List.isEmpty_iff,← hclaims,← h.lookup_eq_none_iff,hreported]
      simp
    left
    exact ⟨ps,rfl,by rw [if_neg hne,hat,hclaims]⟩
  | none =>
    have hempty : (index.definitions.reverse.filter
        (Catalogue.claims lower (lower model))).isEmpty := by
      rw [List.isEmpty_iff,← hclaims,← h.lookup_eq_none_iff,hreported]
    rw [if_pos hempty,Option.none_or,indexKey]
    cases hnormalised : index.byModel.lookup (lower (normaliseModel model)) with
    | some ps =>
      left
      exact ⟨ps,rfl,by rw [h.lookup_some hnormalised,hclaims]⟩
    | none =>
      right
      exact ⟨rfl,by rw [← hclaims,← h.lookup_eq_none_iff,hnormalised]⟩

theorem resolve_eq_search (h : Represents lower index) (device : DeviceMatch) :
    index.resolve lower device = Catalogue.search lower index.definitions.reverse device := by
  rw [resolve,Catalogue.search]
  cases device.modelId with
  | none => rfl
  | some model =>
    dsimp only [Option.bind_eq_bind,Option.bind_some]
    obtain ⟨ps,hps,hat⟩ | ⟨hnone,hempty⟩ := candidates_eq h model
    · obtain ⟨b,hb,hfound⟩ := byFingerprint_eq device hat
      rw [hps,Option.bind_some,sole_eq hat,firstListing_eq model hat,hb]
      cases Catalogue.onlyListing
          (Catalogue.candidates lower index.definitions.reverse model) with
      | some d => rfl
      | none =>
        cases b with
        | none =>
          rw [Option.map_none,eq_comm,Option.map_eq_none_iff] at hfound
          rw [hfound]
          rfl
        | some b =>
          obtain ⟨d,hd,hposition⟩ := Option.map_eq_some_iff.mp hfound.symm
          rw [hd]
          exact hposition.symm
    · rw [hnone,hempty]
      rfl

/-- Insertions, whatever they are, make an index that answers as a search through what it
accepted does, and stores no position without a definition. -/
theorem resolution_refines_search (lower : String → String) (ds : List Definition) :
    (∀ device, (insertAll lower ds {}).resolve lower device =
      Catalogue.search lower (ds.filter Catalogue.accepted).reverse device) ∧
    ∀ key ps, (insertAll lower ds {}).byModel.lookup key = some ps →
      ∀ p ∈ ps, p < (insertAll lower ds {}).definitions.length := by
  obtain ⟨h,hdefinitions⟩ := represents_insertAll ds (represents_empty lower)
  constructor
  · intro device
    rw [resolve_eq_search h,hdefinitions]
    rfl
  · intro key ps hps p hp
    exact Postings.Represents.position_lt h hps hp

end DefinitionIndex
end Rszigbee
