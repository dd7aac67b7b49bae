import Rszigbee.Tables
import Mathlib.Data.UInt

/-! Files as a map from paths to contents, and what a crash leaves of them.
Contents are safe once the file is synced, names once their directory is. -/
namespace Rszigbee.Files

/-- What a program does to files at paths `P`, in directories `D`. -/
inductive Step (P D : Type)
  | create (path : P)
  | write (path : P) (bytes : List UInt8)
  | sync (path : P)
  | rename (old new : P)
  | remove (path : P)
  | syncDir (dir : D)

variable {P D : Type} [DecidableEq P] [DecidableEq D]

/-- Creating truncates, writing appends; what is not there is neither renamed nor removed. -/
def apply (files : Table P (List UInt8)) : Step P D → Table P (List UInt8)
  | .create path => files.insert path []
  | .write path bytes =>
    match files.lookup path with
    | some old => files.insert path (old ++ bytes)
    | none => files
  | .rename old new =>
    match files.lookup old with
    | some bytes => (files.erase old).insert new bytes
    | none => files
  | .remove path => files.erase path
  | .sync _ | .syncDir _ => files

def run (files : Table P (List UInt8)) (steps : List (Step P D)) : Table P (List UInt8) :=
  steps.foldl apply files

/-- The paths a step is about. -/
def Step.Touches : Step P D → P → Prop
  | .create path,p | .write path _,p | .sync path,p | .remove path,p => p = path
  | .rename old new,p => p = old ∨ p = new
  | .syncDir _,_ => False

omit [DecidableEq D] in
theorem lookup_apply {s : Step P D} {p : P} (h : ¬s.Touches p) (files : Table P (List UInt8)) :
    (apply files s).lookup p = files.lookup p := by
  cases s with
  | create path => exact AList.lookup_insert_ne h
  | write path bytes =>
    rw [apply]
    split
    · exact AList.lookup_insert_ne h
    · rfl
  | rename old new =>
    rw [Step.Touches,not_or] at h
    rw [apply]
    split
    · rw [AList.lookup_insert_ne h.2,AList.lookup_erase_ne h.1]
    · rfl
  | remove path => exact AList.lookup_erase_ne h
  | sync | syncDir => rfl

/-- What a name may turn out to stand for. -/
inductive Version
  | absent
  | whole (bytes : List UInt8)
  | torn

/-- Of a file that was not synced anything may be left. -/
def Version.Allows : Version → Option (List UInt8) → Prop
  | absent,found => found = none
  | whole bytes,found => found = some bytes
  | torn,found => found ≠ none

/-- Files, those whose contents are not synced, and the versions of a name that a crash may
still bring back: its directory was not synced since. -/
structure Disk (P : Type) where
  live : Table P (List UInt8)
  unsynced : List P := []
  past : List (P × Version) := []

namespace Disk

def version (d : Disk P) (p : P) : Version :=
  match d.live.lookup p with
  | none => .absent
  | some bytes => if p ∈ d.unsynced then .torn else .whole bytes

/-- What a crash may leave under a name. -/
def May (d : Disk P) (p : P) (found : Option (List UInt8)) : Prop :=
  (d.version p).Allows found ∨ ∃ v, (p,v) ∈ d.past ∧ v.Allows found

/-- A crash: every name by itself falls back to one of its versions. -/
def Crash (d : Disk P) (files : Table P (List UInt8)) : Prop := ∀ p, d.May p (files.lookup p)

variable (dir : P → D)

def step (d : Disk P) : Step P D → Disk P
  | .create path =>
    { live := apply d.live (.create path : Step P D)
      unsynced := path::d.unsynced
      past := if d.live.lookup path = none then (path,.absent)::d.past else d.past }
  | .write path bytes =>
    { d with
      live := apply d.live (.write path bytes : Step P D)
      unsynced := path::d.unsynced }
  | .sync path => { d with unsynced := d.unsynced.filter fun p => p ≠ path }
  | .rename old new =>
    if d.live.lookup old = none then d
    else
      { live := apply d.live (.rename old new : Step P D)
        unsynced :=
          if old ∈ d.unsynced then new::d.unsynced.filter fun p => p ≠ old
          else d.unsynced.filter fun p => p ≠ new
        past := (old,d.version old)::(new,d.version new)::d.past }
  | .remove path =>
    if d.live.lookup path = none then d
    else
      { live := apply d.live (.remove path : Step P D)
        unsynced := d.unsynced.filter fun p => p ≠ path
        past := (path,d.version path)::d.past }
  | .syncDir name => { d with past := d.past.filter fun e => dir e.1 ≠ name }

def run (d : Disk P) (steps : List (Step P D)) : Disk P := steps.foldl (step dir) d

theorem live_step (d : Disk P) (s : Step P D) : (d.step dir s).live = apply d.live s := by
  cases s with
  | rename old new =>
    rw [step]
    split
    · rename_i h
      simp [apply,h]
    · rfl
  | remove path =>
    rw [step]
    split
    · rename_i h
      have hmem : path ∉ d.live := AList.lookup_eq_none.mp h
      rw [apply]
      apply AList.ext
      exact (List.kerase_of_notMem_keys hmem).symm
    · rfl
  | create | write | sync | syncDir => rfl

/-- Without a crash a disk is its files. -/
theorem live_run (d : Disk P) (steps : List (Step P D)) :
    (d.run dir steps).live = Files.run d.live steps := by
  induction steps generalizing d with
  | nil => rfl
  | cons s steps ih =>
    have hrun : d.run dir (s::steps) = (d.step dir s).run dir steps := rfl
    rw [hrun,ih,live_step]
    rfl

theorem may_live (d : Disk P) (p : P) : d.May p (d.live.lookup p) := by
  left
  rw [version]
  cases h : d.live.lookup p with
  | none => rfl
  | some bytes => by_cases hp : p ∈ d.unsynced <;> simp [hp,Version.Allows]

theorem unsynced_step {d : Disk P} {s : Step P D} {p : P} (h : ¬s.Touches p) :
    p ∈ (d.step dir s).unsynced ↔ p ∈ d.unsynced := by
  cases s with
  | create path | write path _ =>
    have hne : p ≠ path := h
    simp [step,hne]
  | sync path =>
    have hne : p ≠ path := h
    simp [step,hne]
  | rename old new =>
    rw [Step.Touches,not_or] at h
    rw [step]
    split
    · rfl
    · by_cases hold : old ∈ d.unsynced <;> simp [hold,h.1,h.2]
  | remove path =>
    have hne : p ≠ path := h
    rw [step]
    split
    · rfl
    · simp [hne]
  | syncDir => rfl

theorem past_step {d : Disk P} {s : Step P D} {p : P} (h : ¬s.Touches p) {v : Version}
    (hv : (p,v) ∈ (d.step dir s).past) : (p,v) ∈ d.past := by
  cases s with
  | create path =>
    have hne : p ≠ path := h
    rw [step] at hv
    by_cases hlookup : d.live.lookup path = none
    · simpa [hlookup,hne] using hv
    · simpa [hlookup] using hv
  | rename old new =>
    rw [Step.Touches,not_or] at h
    by_cases hlookup : d.live.lookup old = none
    · simpa [step,hlookup] using hv
    · simpa [step,hlookup,h.1,h.2] using hv
  | remove path =>
    have hne : p ≠ path := h
    by_cases hlookup : d.live.lookup path = none
    · simpa [step,hlookup] using hv
    · simpa [step,hlookup,hne] using hv
  | syncDir => exact (List.mem_filter.mp hv).1
  | write | sync => exact hv

/-- What a step is not about it does not make less certain. -/
theorem may_of_step {d : Disk P} {s : Step P D} {p : P} (h : ¬s.Touches p)
    {found : Option (List UInt8)} (hmay : (d.step dir s).May p found) : d.May p found := by
  have hversion : (d.step dir s).version p = d.version p := by
    rw [version,version,live_step,lookup_apply h]
    simp only [unsynced_step dir h]
  rcases hmay with hnow | ⟨v,hv,hallows⟩
  · exact .inl (hversion ▸ hnow)
  · exact .inr ⟨v,past_step dir h hv,hallows⟩

theorem may_of_run {steps : List (Step P D)} {p : P} (h : ∀ s ∈ steps, ¬s.Touches p)
    {d : Disk P} {found : Option (List UInt8)} (hmay : (d.run dir steps).May p found) :
    d.May p found := by
  induction steps generalizing d with
  | nil => exact hmay
  | cons s steps ih =>
    have hrest := ih (fun t ht => h t (List.mem_cons_of_mem s ht)) hmay
    exact may_of_step dir (h s List.mem_cons_self) hrest

end Disk

section Replace

/-- Replaces a file through a temporary one: written and synced before it takes the name, and
the name synced after. -/
def replace (tmp path : P) (dir : D) (bytes : List UInt8) : List (Step P D) :=
  [.create tmp,.write tmp bytes,.sync tmp,.rename tmp path,.syncDir dir]

omit [DecidableEq D] in
theorem lookup_replace (files : Table P (List UInt8)) (tmp path : P) (dir : D)
    (bytes : List UInt8) (p : P) : (run files (replace tmp path dir bytes)).lookup p =
      if p = path then some bytes else if p = tmp then none else files.lookup p := by
  simp only [run,replace,List.foldl_cons,List.foldl_nil,apply,AList.lookup_insert,List.nil_append,
    Table.lookup_insert_eq,Table.lookup_erase_eq]
  split
  · rfl
  · split <;> rfl

namespace Disk
variable (dir : P → D) {d : Disk P} {tmp path : P} {bytes : List UInt8}

/-- A name that is taken over stands for what it stood for, or for the file renamed. -/
theorem may_rename {old new : P} (hne : new ≠ old) {found : Option (List UInt8)}
    (hmay : (d.step dir (.rename old new)).May new found) :
    d.May new found ∨ (d.version old).Allows found := by
  cases hold : d.live.lookup old with
  | none =>
    have hstep : d.step dir (.rename old new) = d := by rw [step,if_pos hold]
    rw [hstep] at hmay
    exact .inl hmay
  | some content =>
    have hversion : (d.step dir (.rename old new)).version new = d.version old := by
      by_cases hsynced : old ∈ d.unsynced <;> simp [step,version,apply,hold,hsynced]
    have hpast : (d.step dir (.rename old new)).past =
        (old,d.version old)::(new,d.version new)::d.past := by
      simp [step,hold]
    rcases hmay with hnow | ⟨v,hv,hallows⟩
    · exact .inr (hversion ▸ hnow)
    · left
      rw [hpast] at hv
      rcases List.mem_cons.mp hv with heq | hrest
      · exact absurd (congrArg Prod.fst heq) hne
      · rcases List.mem_cons.mp hrest with heq | hmem
        · cases heq
          exact .inl hallows
        · exact .inr ⟨v,hmem,hallows⟩

/-- Stopped anywhere, a replacement leaves the old file or the new one, and other names alone. -/
theorem may_replace_take {name : D} (k : ℕ) {p : P} (hp : p ≠ tmp)
    {found : Option (List UInt8)}
    (hmay : (d.run dir ((replace tmp path name bytes).take k)).May p found) :
    d.May p found ∨ (p = path ∧ found = some bytes) := by
  by_cases hpath : p = path
  · subst hpath
    have hearly : ∀ s ∈ (replace tmp p name bytes).take 3, ¬s.Touches p := by
      simp [replace,Step.Touches,hp]
    have hwritten : (d.run dir ((replace tmp p name bytes).take 3)).version tmp =
        .whole bytes := by
      simp [run,replace,step,version,apply]
    by_cases hk : k ≤ 3
    · have hsteps : ∀ s ∈ (replace tmp p name bytes).take k, ¬s.Touches p := fun s hs =>
        hearly s (List.take_subset_take_left _ hk hs)
      exact .inl (may_of_run dir hsteps hmay)
    · have hrenamed : ((d.run dir ((replace tmp p name bytes).take 3)).step dir
          (.rename tmp p)).May p found := by
        match k,hk with
        | 4,_ => exact hmay
        | k + 5,_ =>
          apply may_of_step dir (s := .syncDir name) (by simp [Step.Touches])
          simpa [replace,run] using hmay
      rcases may_rename dir hp hrenamed with hbefore | hallows
      · exact .inl (may_of_run dir hearly hbefore)
      · rw [hwritten] at hallows
        exact .inr ⟨rfl,hallows⟩
  · have hsteps : ∀ s ∈ (replace tmp path name bytes).take k, ¬s.Touches p := by
      intro s hs
      have hall : ∀ s ∈ replace tmp path name bytes, ¬s.Touches p := by
        simp [replace,Step.Touches,hp,hpath]
      exact hall s (List.mem_of_mem_take hs)
    exact .inl (may_of_run dir hsteps hmay)

/-- A replacement that is done has settled every name in the directory. -/
theorem run_replace {name : D} (htmp : dir tmp = name) (hpath : dir path = name)
    (hsynced : d.unsynced = []) :
    d.run dir (replace tmp path name bytes) =
      ⟨Files.run d.live (replace tmp path name bytes),[],
        d.past.filter fun e => dir e.1 ≠ name⟩ := by
  have hlive := live_run dir d (replace tmp path name bytes)
  have hunsynced : (d.run dir (replace tmp path name bytes)).unsynced = [] := by
    simp [run,replace,step,apply,hsynced]
  have hpast : (d.run dir (replace tmp path name bytes)).past =
      d.past.filter fun e => dir e.1 ≠ name := by
    by_cases hold : d.live.lookup tmp = none <;> simp [run,replace,step,apply,hold,htmp,hpath]
  rw [← hlive,← hunsynced,← hpast]

/-- Removing what is absent changes nothing. -/
theorem run_remove_absent (hfile : d.live.lookup path = none) :
    d.run dir [.remove path] = d := by
  simp [run,step,hfile]

/-- A name that is removed may still come back. -/
theorem run_remove (hfile : d.live.lookup path = some bytes) (hsynced : d.unsynced = []) :
    d.run dir [.remove path] = ⟨d.live.erase path,[],(path,.whole bytes)::d.past⟩ := by
  simp [run,step,version,hfile,hsynced,apply]

/-- Removing leaves what was there, or nothing. -/
theorem may_remove {p : P} {found : Option (List UInt8)}
    (hmay : (d.step dir (.remove path)).May p found) :
    d.May p found ∨ (p = path ∧ found = none) := by
  by_cases hp : p = path
  · subst hp
    cases hlookup : d.live.lookup p with
    | none =>
      have hstep : d.step dir (.remove p) = d := by rw [step,if_pos hlookup]
      rw [hstep] at hmay
      exact .inl hmay
    | some content =>
      have hversion : (d.step dir (.remove p)).version p = .absent := by
        simp [step,version,apply,hlookup]
      have hpast : (d.step dir (.remove p)).past = (p,d.version p)::d.past := by
        simp [step,hlookup]
      rcases hmay with hnow | ⟨v,hv,hallows⟩
      · rw [hversion] at hnow
        exact .inr ⟨rfl,hnow⟩
      · rw [hpast] at hv
        rcases List.mem_cons.mp hv with heq | hmem
        · cases heq
          exact .inl (.inl hallows)
        · exact .inl (.inr ⟨v,hmem,hallows⟩)
  · exact .inl (may_of_step dir (s := .remove path) hp hmay)

end Disk
end Replace
end Rszigbee.Files
