import Mathlib.Data.Finset.Card
import Mathlib.Data.Finset.Dedup
import Rszigbee.Matcher

/-! Lists compared by length and containment, and when that compares what they contain. -/
namespace Rszigbee

section Lists
variable {α : Type} [DecidableEq α] {a b : List α}

theorem setEqual_iff : setEqual a b = true ↔ a.length = b.length ∧ a ⊆ b := by
  simp [setEqual,List.subset_def]

/-- If the lists are as long and one is contained in the other, as many entries are distinct. -/
def EvenlyRepeated (a b : List α) : Prop :=
  a.length = b.length → a ⊆ b ∨ b ⊆ a → a.dedup.length = b.dedup.length

instance (a b : List α) : Decidable (EvenlyRepeated a b) := by
  unfold EvenlyRepeated
  infer_instance

theorem toFinset_subset_iff : a.toFinset ⊆ b.toFinset ↔ a ⊆ b := by
  simp [Finset.subset_iff,List.subset_def]

/-- A list contained in another with as many distinct entries contains it. -/
theorem subset_of_dedup_length (hab : a ⊆ b) (hlength : a.dedup.length = b.dedup.length) :
    b ⊆ a := by
  have hcard : b.toFinset.card ≤ a.toFinset.card := by
    rw [List.card_toFinset,List.card_toFinset,hlength]
  have heq := Finset.eq_of_subset_of_card_le (toFinset_subset_iff.mpr hab) hcard
  exact toFinset_subset_iff.mp heq.ge

theorem dedup_length_of_subset (hab : a ⊆ b) (hba : b ⊆ a) : a.dedup.length = b.dedup.length := by
  have heq : a.toFinset = b.toFinset :=
    Finset.Subset.antisymm (toFinset_subset_iff.mpr hab) (toFinset_subset_iff.mpr hba)
  rw [← List.card_toFinset,← List.card_toFinset,heq]

theorem evenlyRepeated_iff :
    EvenlyRepeated a b ↔ (a.length = b.length → (a ⊆ b ↔ b ⊆ a)) := by
  constructor
  · intro h hlength
    exact ⟨fun hab => subset_of_dedup_length hab (h hlength (.inl hab)),
      fun hba => subset_of_dedup_length hba (h hlength (.inr hba)).symm⟩
  · rintro h hlength (hab | hba)
    · exact dedup_length_of_subset hab ((h hlength).mp hab)
    · exact dedup_length_of_subset ((h hlength).mpr hba) hba

/-- The same entries are in both. -/
def SameEntries (a b : List α) : Prop := ∀ x, x ∈ a ↔ x ∈ b

/-- Compared as sets: whichever list comes first, they are equal only with the same entries. -/
structure ComparedAsSets (a b : List α) : Prop where
  sound : setEqual a b = true → SameEntries a b
  exchange : setEqual a b = setEqual b a

theorem exchange_iff : setEqual a b = setEqual b a ↔ EvenlyRepeated a b := by
  rw [evenlyRepeated_iff,Bool.eq_iff_iff,setEqual_iff,setEqual_iff]
  constructor
  · intro h hlength
    exact ⟨fun hab => (h.mp ⟨hlength,hab⟩).2,fun hba => (h.mpr ⟨hlength.symm,hba⟩).2⟩
  · intro h
    constructor
    · rintro ⟨hlength,hab⟩
      exact ⟨hlength.symm,(h hlength).mp hab⟩
    · rintro ⟨hlength,hba⟩
      exact ⟨hlength.symm,(h hlength.symm).mpr hba⟩

theorem sameEntries_of_setEqual (heven : EvenlyRepeated a b) (h : setEqual a b = true) :
    SameEntries a b := by
  obtain ⟨hlength,hab⟩ := setEqual_iff.mp h
  have hba := (evenlyRepeated_iff.mp heven hlength).mp hab
  exact fun x => ⟨fun hx => hab hx,fun hx => hba hx⟩

theorem comparedAsSets_iff : ComparedAsSets a b ↔ EvenlyRepeated a b := by
  constructor
  · intro h
    exact exchange_iff.mp h.exchange
  · intro h
    exact ⟨sameEntries_of_setEqual h,exchange_iff.mpr h⟩

end Lists

namespace Fingerprint

/-- The numbers a fingerprint and a device have endpoints under. -/
def ids (f : Fingerprint) : List EndpointId := f.endpoints.map FingerprintEndpoint.id

end Fingerprint

def DeviceMatch.ids (device : DeviceMatch) : List EndpointId := device.endpoints.map EndpointMatch.id

namespace Fingerprint
variable {f : Fingerprint} {device : DeviceMatch}

theorem setEqual_ids_of_endpointsMatch (hstated : f.endpoints ≠ [])
    (h : f.endpointsMatch device = true) : setEqual f.ids device.ids = true := by
  rw [endpointsMatch,if_neg (by simpa using hstated)] at h
  split at h
  · cases h
  · rename_i hlength
    split at h
    · cases h
    · rename_i hall
      rw [setEqual_iff,ids,DeviceMatch.ids,List.length_map,List.length_map]
      refine ⟨not_not.mp hlength,?_⟩
      intro id hid
      obtain ⟨required,hrequired,rfl⟩ := List.mem_map.mp hid
      simp at hall
      obtain ⟨e,he,heid⟩ := hall required hrequired
      exact List.mem_map.mpr ⟨e,he,heid⟩

/-- Whenever an endpoint that is required is found, what is said of the cluster lists of both
holds of those that are compared. -/
def ForClusters (f : Fingerprint) (device : DeviceMatch)
    (P : List ClusterId → List ClusterId → Prop) : Prop :=
  ∀ required ∈ f.endpoints, ∀ found,
    device.endpoints.find? (fun e => e.id = required.id) = some found →
    (∀ wanted, required.inputClusters = some wanted → P wanted found.inputClusters) ∧
    ∀ wanted, required.outputClusters = some wanted → P wanted found.outputClusters

/-- Endpoints match only where the same ones are required and there, and every list is compared
as a set. -/
structure ComparesSets (f : Fingerprint) (device : DeviceMatch) : Prop where
  endpoints : f.endpoints ≠ [] → f.endpointsMatch device = true → SameEntries f.ids device.ids
  exchange : setEqual f.ids device.ids = setEqual device.ids f.ids
  clusters : f.ForClusters device ComparedAsSets

theorem ForClusters.imp {P Q : List ClusterId → List ClusterId → Prop}
    (h : f.ForClusters device P) (hPQ : ∀ a b, P a b → Q a b) : f.ForClusters device Q := by
  intro required hrequired found hfound
  obtain ⟨hinput,houtput⟩ := h required hrequired found hfound
  exact ⟨fun wanted hwanted => hPQ _ _ (hinput wanted hwanted),
    fun wanted hwanted => hPQ _ _ (houtput wanted hwanted)⟩

/-- Lists are compared as sets if and only if those compared repeat their entries evenly. -/
theorem comparesSets_iff (f : Fingerprint) (device : DeviceMatch) : f.ComparesSets device ↔
    EvenlyRepeated f.ids device.ids ∧ f.ForClusters device EvenlyRepeated := by
  constructor
  · intro h
    exact ⟨exchange_iff.mp h.exchange,h.clusters.imp fun _ _ => comparedAsSets_iff.mp⟩
  · rintro ⟨hids,hclusters⟩
    exact {
      endpoints := fun hstated hmatch =>
        sameEntries_of_setEqual hids (setEqual_ids_of_endpointsMatch hstated hmatch)
      exchange := exchange_iff.mpr hids
      clusters := hclusters.imp fun _ _ => comparedAsSets_iff.mpr }

/-- A fingerprint that names one cluster twice, and a device that has another besides. -/
def doubled : Fingerprint where
  endpoints := [{ id := ⟨1⟩, inputClusters := some [⟨0⟩,⟨0⟩] }]

def twoClusters : DeviceMatch where
  endpoints := [{ id := ⟨1⟩, inputClusters := [⟨0⟩,⟨6⟩] }]

/-- It matches, though the device has a cluster too many. -/
theorem doubled_matches : doubled.matches twoClusters = true ∧ ¬doubled.ComparesSets twoClusters := by
  refine ⟨by decide,fun h => ?_⟩
  obtain ⟨hinput,-⟩ := h.clusters _ List.mem_cons_self _ rfl
  have hsix := (hinput _ rfl).sound (by decide) ⟨6⟩
  exact absurd (hsix.mpr (by decide)) (by decide)

end Fingerprint
end Rszigbee
