import Rszigbee.Memory

/-! The file store keeps records as the store in memory does: what each operation does to the
files under their names, and from it what every load finds. -/
namespace Rszigbee.File

open Files

/-- The record is in a form that is read back. -/
def Op.RoundTrips (z : Setup) : Op → Prop
  | .saveNetwork network => z.network.RoundTrips network
  | .upsertDevice device => z.device.RoundTrips device
  | .upsertGroup group => z.group.RoundTrips group
  | _ => True

/-- An operation of the file store. -/
def perform (z : Setup) (files : Content) : (op : Op) → Effect op.Answer
  | .reopen => «open» z files
  | .loadNetwork => (loadNetwork z files,[])
  | .saveNetwork network => saveNetwork z network
  | .loadDevices stamps => loadDevices z files stamps
  | .upsertDevice device => upsertDevice z device
  | .deleteDevice ieee => deleteDevice ieee
  | .loadGroups stamps => loadGroups z files stamps
  | .upsertGroup group => upsertGroup z group
  | .deleteGroup id => deleteGroup id
  | .saveBackup stamp adapter coordinator bytes => saveBackup stamp adapter coordinator bytes
  | .listBackups => (.ok (listBackups files),[])
  | .loadBackup id => (loadBackup files id,[])
  | .flush => (.ok (),[])

/-- The files after operations in turn. -/
def runOps (z : Setup) (files : Content) (ops : List Op) : Content :=
  ops.foldl (fun files op => run files (perform z files op).2) files

/-- A store opened where there was none. -/
def fresh (z : Setup) : Content := run ∅ («open» z ∅).2

/-- The file, where there is one, is the record's. -/
def Stored {R : Type} (serde : Serde R) : Option Bytes → Option R → Prop
  | none,none => True
  | some bytes,some r => serde.fromSlice bytes = .ok r
  | _,_ => False

/-- One directory of records, each in a file named by its key. -/
structure Shelf (K R : Type) where
  serde : Serde R
  dir : Dir
  path : K → Path
  key : R → K
  dir_path : ∀ k, (path k).dir = dir
  extension_path : ∀ k, (path k).extension = some "json"
  path_inj : ∀ {a b}, path a = path b ↔ a = b

theorem extension_device (ieee : Ieee) : (devicePath ieee).extension = some "json" :=
  Path.extension_json (show_ne_empty ieee)

theorem extension_group (id : GroupId) : (groupPath id).extension = some "json" :=
  Path.extension_json (group_ne_empty id)

def Setup.devices (z : Setup) : Shelf Ieee PersistedDevice :=
  ⟨z.device,.devices,devicePath,PersistedDevice.ieee,fun _ => rfl,extension_device,devicePath_inj⟩

def Setup.groups (z : Setup) : Shelf GroupId PersistedGroup :=
  ⟨z.group,.groups,groupPath,PersistedGroup.id,fun _ => rfl,extension_group,groupPath_inj⟩

/-- The files of a directory are these records, each under its own key. -/
structure Shelf.Keeps {K R : Type} (shelf : Shelf K R) (look : Path → Option Bytes)
    (record : K → Option R) : Prop where
  stored : ∀ k, Stored shelf.serde (look (shelf.path k)) (record k)
  keyed : ∀ k r, record k = some r → shelf.key r = k
  only : ∀ p, look p ≠ none → p.dir = shelf.dir → p.extension = some "json" →
    ∃ k, p = shelf.path k

/-- What is under the names is what is held. -/
structure Holds (z : Setup) (look : Path → Option Bytes) (held : Held) : Prop where
  schema : look schemaPath = none ∨ look schemaPath = some schemaBytes
  network : Stored z.network (look networkPath) held.network
  devices : z.devices.Keeps look held.device
  groups : z.groups.Keeps look held.group

section Loads
variable {z : Setup} {files : Content} {R : Type} {serde : Serde R}

theorem lookup_of_stored {found : Option Bytes} {r : R} (h : Stored serde found (some r)) :
    ∃ bytes, found = some bytes ∧ serde.fromSlice bytes = .ok r := by
  cases found with
  | none => cases h
  | some bytes => exact ⟨bytes,rfl,h⟩

theorem readJson_ok {path : Path} {r : R} (h : Stored serde (files.lookup path) (some r)) :
    readJson z serde files path = .ok r := by
  obtain ⟨bytes,hfile,hparse⟩ := lookup_of_stored h
  simp only [readJson,hfile,hparse]

theorem mem_listing {dir : Dir} {p : Path} : p ∈ listing files dir ↔
    files.lookup p ≠ none ∧ p.dir = dir ∧ p.extension = some "json" := by
  rw [listing,List.mem_filter,← AList.mem_keys,← AList.lookup_isSome,
    Option.isSome_iff_ne_none]
  simp

/-- Where every file reads, nothing is quarantined. -/
theorem readAll_ok (stamps : ℕ → Stamp) (k : ℕ) {paths : List Path}
    (h : ∀ p ∈ paths, ∃ r, readJson z serde files p = .ok r) :
    ∃ l, readAll z serde files stamps paths k = (l,[]) ∧
      ∀ r, r ∈ l ↔ ∃ p ∈ paths, readJson z serde files p = .ok r := by
  induction paths with
  | nil => exact ⟨[],rfl,by simp⟩
  | cons p paths ih =>
    obtain ⟨first,hfirst⟩ := h p List.mem_cons_self
    obtain ⟨l,hl,hmem⟩ := ih fun q hq => h q (List.mem_cons_of_mem p hq)
    refine ⟨first::l,by simp only [readAll,hfirst,hl],?_⟩
    intro r
    simp only [List.mem_cons,hmem,exists_eq_or_imp,hfirst,Except.ok.injEq]
    rw [eq_comm (a := r)]

/-- A directory of records loads as those records, and nothing is quarantined. -/
theorem loadDir_ok {K : Type} {shelf : Shelf K R} {record : K → Option R}
    (h : shelf.Keeps files.lookup record) (stamps : ℕ → Stamp) :
    ∃ l, loadDir z shelf.serde files stamps shelf.dir = (.ok l,[]) ∧
      ∀ r, r ∈ l ↔ ∃ k, record k = some r := by
  have hread : ∀ p ∈ listing files shelf.dir, ∃ r, readJson z shelf.serde files p = .ok r ∧
      ∃ k, p = shelf.path k ∧ record k = some r := by
    intro p hp
    obtain ⟨hfile,hdir,hext⟩ := mem_listing.mp hp
    obtain ⟨k,rfl⟩ := h.only p hfile hdir hext
    have hk := h.stored k
    cases hrecord : record k with
    | none =>
      rw [hrecord] at hk
      cases hlookup : files.lookup (shelf.path k) with
      | none => exact absurd hlookup hfile
      | some bytes =>
        rw [hlookup] at hk
        cases hk
    | some r =>
      rw [hrecord] at hk
      exact ⟨r,readJson_ok hk,k,rfl,hrecord⟩
  obtain ⟨l,hl,hmem⟩ := readAll_ok (z := z) stamps 0 fun p hp =>
    (hread p hp).imp fun r hr => hr.1
  refine ⟨l,by rw [loadDir,hl],?_⟩
  intro r
  rw [hmem]
  constructor
  · rintro ⟨p,hp,hr⟩
    obtain ⟨r',hr',k,-,hk⟩ := hread p hp
    rw [hr] at hr'
    cases hr'
    exact ⟨k,hk⟩
  · rintro ⟨k,hk⟩
    have hstored := h.stored k
    rw [hk] at hstored
    obtain ⟨bytes,hfile,-⟩ := lookup_of_stored hstored
    have hlisted : shelf.path k ∈ listing files shelf.dir :=
      mem_listing.mpr ⟨by simp [hfile],shelf.dir_path k,shelf.extension_path k⟩
    exact ⟨shelf.path k,hlisted,readJson_ok hstored⟩

theorem loadNetwork_ok {network : Option PersistedNetwork}
    (h : Stored z.network (files.lookup networkPath) network) :
    loadNetwork z files = .ok network := by
  cases network with
  | none =>
    have hfile : files.lookup networkPath = none := by
      cases hlookup : files.lookup networkPath with
      | none => rfl
      | some bytes =>
        rw [hlookup] at h
        cases h
    simp only [loadNetwork,readJson,hfile]
  | some network =>
    have hread : readJson z z.network files networkPath = .ok network := readJson_ok h
    simp only [loadNetwork,hread]

theorem open_ok (h : files.lookup schemaPath = none ∨ files.lookup schemaPath = some schemaBytes) :
    («open» z files).1 = .ok () ∧ ((«open» z files).2 = [] ∨
      («open» z files).2 = writeAtomic schemaPath schemaBytes) := by
  have htext : String.fromUTF8? ⟨schemaBytes.toArray⟩ = some (toString schema) :=
    Utf8.fromUTF8?_toUTF8 (toString schema)
  have hnumber : Texts.fromStrRadix 10 (2 ^ 32) (Texts.trim (toString schema).toList) =
      some schema := by
    decide
  rcases h with hfile | hfile
  · simp [«open»,hfile]
  · have hopen : «open» z files = (.ok (),[]) := by
      simp only [«open»,hfile,htext,hnumber]
      rfl
    exact ⟨by rw [hopen],.inl (by rw [hopen])⟩

end Loads

section Changes
variable {z : Setup} {look look' : Path → Option Bytes} {held : Held}

/-- Files at rest stay what they were, but for one name. -/
def Updates (look look' : Path → Option Bytes) (path : Path) (found : Option Bytes) : Prop :=
  ∀ p : Path, ¬p.Temporary → look' p = if p = path then found else look p

theorem Updates.other {path : Path} {found : Option Bytes} (h : Updates look look' path found)
    {p : Path} (hrest : ¬p.Temporary) (hne : p ≠ path) : look' p = look p := by
  rw [h p hrest,if_neg hne]

theorem Updates.self {path : Path} {found : Option Bytes} (h : Updates look look' path found)
    (hrest : ¬path.Temporary) : look' path = found := by
  rw [h path hrest,if_pos rfl]

theorem not_temporary_of_json {p : Path} (h : p.extension = some "json") : ¬p.Temporary := by
  rw [Path.Temporary,h]
  decide

theorem not_temporary_schema : ¬schemaPath.Temporary := by decide

theorem not_temporary_network : ¬networkPath.Temporary := by decide

namespace Shelf.Keeps
variable {K R : Type} {shelf : Shelf K R} {record : K → Option R}

theorem congr (h : shelf.Keeps look record)
    (hsame : ∀ p : Path, p.dir = shelf.dir → p.extension = some "json" → look' p = look p) :
    shelf.Keeps look' record where
  stored k := by
    rw [hsame _ (shelf.dir_path k) (shelf.extension_path k)]
    exact h.stored k
  keyed := h.keyed
  only p hp hdir hext := by
    rw [hsame p hdir hext] at hp
    exact h.only p hp hdir hext

/-- A change of a file elsewhere. -/
theorem elsewhere {path : Path} {found : Option Bytes} (h : shelf.Keeps look record)
    (hupdates : Updates look look' path found) (hpath : path.dir ≠ shelf.dir) :
    shelf.Keeps look' record := by
  apply h.congr
  intro p hdir hext
  apply hupdates.other (not_temporary_of_json hext)
  rintro rfl
  exact hpath hdir

/-- A change of one record. -/
theorem updated [DecidableEq K] {k : K} {found : Option Bytes} {r : Option R}
    (h : shelf.Keeps look record) (hupdates : Updates look look' (shelf.path k) found)
    (hfound : Stored shelf.serde found r) (hkey : ∀ r', r = some r' → shelf.key r' = k) :
    shelf.Keeps look' (Function.update record k r) where
  stored other := by
    have hrest := not_temporary_of_json (shelf.extension_path other)
    by_cases heq : other = k
    · subst heq
      rw [hupdates.self hrest,Function.update_self]
      exact hfound
    · have hne : shelf.path other ≠ shelf.path k := fun hpath => heq (shelf.path_inj.mp hpath)
      rw [hupdates.other hrest hne,Function.update_of_ne heq]
      exact h.stored other
  keyed other r' hr' := by
    by_cases heq : other = k
    · subst heq
      rw [Function.update_self] at hr'
      exact hkey r' hr'
    · rw [Function.update_of_ne heq] at hr'
      exact h.keyed other r' hr'
  only p hp hdir hext := by
    by_cases heq : p = shelf.path k
    · exact ⟨k,heq⟩
    · rw [hupdates.other (not_temporary_of_json hext) heq] at hp
      exact h.only p hp hdir hext

end Shelf.Keeps

theorem Holds.congr (h : Holds z look held)
    (hsame : ∀ p : Path, ¬p.Temporary → look' p = look p) : Holds z look' held where
  schema := by
    rw [hsame _ not_temporary_schema]
    exact h.schema
  network := by
    rw [hsame _ not_temporary_network]
    exact h.network
  devices := h.devices.congr fun p _ hext => hsame p (not_temporary_of_json hext)
  groups := h.groups.congr fun p _ hext => hsame p (not_temporary_of_json hext)

/-- What an operation may leave under which name. -/
def Op.Leaves (z : Setup) : Op → Path → Option Bytes → Prop
  | .reopen,p,found => p = schemaPath ∧ found = some schemaBytes
  | .saveNetwork network,p,found => p = networkPath ∧ Stored z.network found (some network)
  | .upsertDevice device,p,found =>
    p = devicePath device.ieee ∧ Stored z.device found (some device)
  | .deleteDevice ieee,p,found => p = devicePath ieee ∧ found = none
  | .upsertGroup group,p,found => p = groupPath group.id ∧ Stored z.group found (some group)
  | .deleteGroup id,p,found => p = groupPath id ∧ found = none
  | .saveBackup stamp adapter coordinator bytes,p,found =>
    p = backupPath (backupId stamp adapter coordinator) ∧ found = some bytes
  | _,_,_ => False

/-- What lies at the root is left alone by what happens in the directories. -/
theorem Holds.of_shelves {path : Path} {found : Option Bytes} (h : Holds z look held)
    (hupdates : Updates look look' path found) (hdir : path.dir ≠ .root)
    {device : Ieee → Option PersistedDevice} {group : GroupId → Option PersistedGroup}
    (hdevices : z.devices.Keeps look' device) (hgroups : z.groups.Keeps look' group) :
    Holds z look' ⟨held.network,device,group⟩ where
  schema := by
    rw [hupdates.other not_temporary_schema fun heq => hdir (heq ▸ rfl)]
    exact h.schema
  network := by
    rw [hupdates.other not_temporary_network fun heq => hdir (heq ▸ rfl)]
    exact h.network
  devices := hdevices
  groups := hgroups

theorem keyed_some {K R : Type} {key : R → K} {r : R} :
    ∀ r', some r = some r' → key r' = key r := by
  rintro r' ⟨⟩
  rfl

/-- What an operation leaves is what it makes of the records. -/
theorem Op.Leaves.holds {op : Op} {path : Path} {found : Option Bytes}
    (hleaves : op.Leaves z path found) (h : Holds z look held)
    (hupdates : Updates look look' path found) : Holds z look' (held.after op) := by
  cases op with
  | reopen =>
    obtain ⟨rfl,rfl⟩ := hleaves
    have hnetwork : look' networkPath = look networkPath :=
      hupdates.other not_temporary_network (by decide)
    exact ⟨.inr (hupdates.self not_temporary_schema),hnetwork ▸ h.network,
      h.devices.elsewhere hupdates (fun hdir => nomatch hdir),
      h.groups.elsewhere hupdates (fun hdir => nomatch hdir)⟩
  | saveNetwork network =>
    obtain ⟨rfl,hfound⟩ := hleaves
    have hschema : look' schemaPath = look schemaPath :=
      hupdates.other not_temporary_schema (by decide)
    refine ⟨hschema ▸ h.schema,?_,h.devices.elsewhere hupdates (fun hdir => nomatch hdir),
      h.groups.elsewhere hupdates (fun hdir => nomatch hdir)⟩
    rw [hupdates.self not_temporary_network]
    exact hfound
  | upsertDevice device =>
    obtain ⟨rfl,hfound⟩ := hleaves
    exact h.of_shelves hupdates (fun hdir => nomatch hdir)
      (h.devices.updated hupdates hfound keyed_some)
      (h.groups.elsewhere hupdates fun hdir => nomatch hdir)
  | deleteDevice ieee =>
    obtain ⟨rfl,rfl⟩ := hleaves
    exact h.of_shelves hupdates (fun hdir => nomatch hdir)
      (h.devices.updated hupdates trivial (by simp))
      (h.groups.elsewhere hupdates fun hdir => nomatch hdir)
  | upsertGroup group =>
    obtain ⟨rfl,hfound⟩ := hleaves
    exact h.of_shelves hupdates (fun hdir => nomatch hdir)
      (h.devices.elsewhere hupdates fun hdir => nomatch hdir)
      (h.groups.updated hupdates hfound keyed_some)
  | deleteGroup id =>
    obtain ⟨rfl,rfl⟩ := hleaves
    exact h.of_shelves hupdates (fun hdir => nomatch hdir)
      (h.devices.elsewhere hupdates fun hdir => nomatch hdir)
      (h.groups.updated hupdates trivial (by simp))
  | saveBackup stamp adapter coordinator bytes =>
    obtain ⟨rfl,rfl⟩ := hleaves
    exact h.of_shelves hupdates (fun hdir => nomatch hdir)
      (h.devices.elsewhere hupdates fun hdir => nomatch hdir)
      (h.groups.elsewhere hupdates fun hdir => nomatch hdir)
  | loadNetwork | loadDevices | loadGroups | listBackups | loadBackup | flush => exact hleaves.elim

/-- The steps that put a file under a name, or take it away. -/
def changing (path : Path) : Option Bytes → List (Step Path Dir)
  | some bytes => writeAtomic path bytes
  | none => [.remove path]

theorem updates_changing {path : Path} (hname : path.name ≠ "") (found : Option Bytes)
    (files : Content) :
    Updates files.lookup (run files (changing path found)).lookup path found := by
  intro p hrest
  cases found with
  | some bytes =>
    have htmp : p ≠ path.withExtension "tmp" := by
      rintro rfl
      exact hrest (Path.temporary_withExtension hname)
    have hlookup := lookup_replace files (path.withExtension "tmp") path path.dir bytes p
    rw [if_neg htmp] at hlookup
    exact hlookup
  | none => exact Table.lookup_erase_eq files path p

/-- The names an operation changes are those of files at rest. -/
theorem Op.Leaves.path {op : Op} {path : Path} {found : Option Bytes}
    (hleaves : op.Leaves z path found) : path.name ≠ "" ∧ ¬path.Temporary := by
  cases op with
  | reopen =>
    obtain ⟨rfl,-⟩ := hleaves
    exact ⟨by decide,not_temporary_schema⟩
  | saveNetwork network =>
    obtain ⟨rfl,-⟩ := hleaves
    exact ⟨by decide,not_temporary_network⟩
  | upsertDevice device =>
    obtain ⟨rfl,-⟩ := hleaves
    exact ⟨Path.json_name_ne _ _,not_temporary_of_json (extension_device _)⟩
  | deleteDevice ieee =>
    obtain ⟨rfl,-⟩ := hleaves
    exact ⟨Path.json_name_ne _ _,not_temporary_of_json (extension_device _)⟩
  | upsertGroup group =>
    obtain ⟨rfl,-⟩ := hleaves
    exact ⟨Path.json_name_ne _ _,not_temporary_of_json (extension_group _)⟩
  | deleteGroup id =>
    obtain ⟨rfl,-⟩ := hleaves
    exact ⟨Path.json_name_ne _ _,not_temporary_of_json (extension_group _)⟩
  | saveBackup stamp adapter coordinator bytes =>
    obtain ⟨rfl,-⟩ := hleaves
    have hid : backupId stamp adapter coordinator ≠ "" := by simp [backupId]
    exact ⟨Path.json_name_ne _ _,Path.not_temporary_json hid⟩
  | loadNetwork | loadDevices | loadGroups | listBackups | loadBackup | flush => exact hleaves.elim

theorem writeJson_ok {R : Type} {serde : Serde R} {r : R} (h : serde.RoundTrips r)
    (path : Path) : ∃ found, Stored serde found (some r) ∧
      writeJson z serde path r = (.ok (),changing path found) := by
  obtain ⟨bytes,hwrite,hread⟩ := h
  exact ⟨some bytes,hread,by simp only [writeJson,hwrite,changing]⟩

/-- All that an operation does to the files: nothing, or one name is changed; and the records
it loads are those held. -/
theorem perform_steps {files : Content} (h : Holds z files.lookup held) {op : Op}
    (hop : op.RoundTrips z) : held.Answers op (perform z files op).1 ∧
      (((perform z files op).2 = [] ∧ held.after op = held) ∨
        ∃ path found, op.Leaves z path found ∧
          (perform z files op).2 = changing path found) := by
  cases op with
  | reopen =>
    obtain ⟨hanswer,hsteps⟩ := open_ok (z := z) h.schema
    refine ⟨hanswer,?_⟩
    rcases hsteps with hnone | hmarker
    · exact .inl ⟨hnone,rfl⟩
    · exact .inr ⟨schemaPath,some schemaBytes,⟨rfl,rfl⟩,hmarker⟩
  | saveNetwork network =>
    obtain ⟨found,hfound,hwrite⟩ := writeJson_ok (z := z) hop networkPath
    have hperform : perform z files (.saveNetwork network) = (.ok (),changing networkPath found) :=
      hwrite
    rw [hperform]
    exact ⟨rfl,.inr ⟨networkPath,found,⟨rfl,hfound⟩,rfl⟩⟩
  | upsertDevice device =>
    obtain ⟨found,hfound,hwrite⟩ := writeJson_ok (z := z) hop (devicePath device.ieee)
    have hperform : perform z files (.upsertDevice device) =
        (.ok (),changing (devicePath device.ieee) found) := hwrite
    rw [hperform]
    exact ⟨rfl,.inr ⟨devicePath device.ieee,found,⟨rfl,hfound⟩,rfl⟩⟩
  | upsertGroup group =>
    obtain ⟨found,hfound,hwrite⟩ := writeJson_ok (z := z) hop (groupPath group.id)
    have hperform : perform z files (.upsertGroup group) =
        (.ok (),changing (groupPath group.id) found) := hwrite
    rw [hperform]
    exact ⟨rfl,.inr ⟨groupPath group.id,found,⟨rfl,hfound⟩,rfl⟩⟩
  | deleteDevice ieee => exact ⟨rfl,.inr ⟨devicePath ieee,none,⟨rfl,rfl⟩,rfl⟩⟩
  | deleteGroup id => exact ⟨rfl,.inr ⟨groupPath id,none,⟨rfl,rfl⟩,rfl⟩⟩
  | saveBackup stamp adapter coordinator bytes =>
    exact ⟨trivial,.inr ⟨_,some bytes,⟨rfl,rfl⟩,rfl⟩⟩
  | loadNetwork => exact ⟨loadNetwork_ok h.network,.inl ⟨rfl,rfl⟩⟩
  | loadDevices stamps =>
    obtain ⟨l,hl,hmem⟩ := loadDir_ok (z := z) h.devices stamps
    have hperform : perform z files (.loadDevices stamps) = (.ok l,[]) := hl
    rw [hperform]
    exact ⟨⟨l,rfl,hmem⟩,.inl ⟨rfl,rfl⟩⟩
  | loadGroups stamps =>
    obtain ⟨l,hl,hmem⟩ := loadDir_ok (z := z) h.groups stamps
    have hperform : perform z files (.loadGroups stamps) = (.ok l,[]) := hl
    rw [hperform]
    exact ⟨⟨l,rfl,hmem⟩,.inl ⟨rfl,rfl⟩⟩
  | listBackups | loadBackup => exact ⟨trivial,.inl ⟨rfl,rfl⟩⟩
  | flush => exact ⟨rfl,.inl ⟨rfl,rfl⟩⟩

/-- One operation keeps the files and the records in step. -/
theorem Holds.perform {files : Content} (h : Holds z files.lookup held) {op : Op}
    (hop : op.RoundTrips z) :
    Holds z (run files (File.perform z files op).2).lookup (held.after op) := by
  rcases (perform_steps h hop).2 with ⟨hsteps,hafter⟩ | ⟨path,found,hleaves,hsteps⟩
  · rw [hsteps,hafter]
    exact h
  · rw [hsteps]
    exact hleaves.holds h (updates_changing hleaves.path.1 found files)

theorem Holds.runOps {files : Content} {ops : List Op} (h : Holds z files.lookup held)
    (hops : ∀ op ∈ ops, op.RoundTrips z) :
    Holds z (File.runOps z files ops).lookup (ops.foldl Held.after held) := by
  induction ops generalizing files held with
  | nil => exact h
  | cons op ops ih =>
    apply ih (h.perform (hops op List.mem_cons_self))
    intro other hother
    exact hops other (List.mem_cons_of_mem op hother)

theorem holds_empty (z : Setup) : Holds z (∅ : Content).lookup Held.empty where
  schema := .inl rfl
  network := trivial
  devices := ⟨fun _ => trivial,by simp [Held.empty],fun _ hp => absurd rfl hp⟩
  groups := ⟨fun _ => trivial,by simp [Held.empty],fun _ hp => absurd rfl hp⟩

end Changes

/-- After any operations, opening again among them, the store on disk answers as the one in
memory, and a start on its files finds the network that is in memory. -/
theorem answers_as_memory (z : Setup) {ops : List Op} (hops : ∀ op ∈ ops, op.RoundTrips z)
    {op : Op} (hop : op.RoundTrips z) :
    op.Agrees (perform z (runOps z (fresh z) ops) op).1
      ((MemoryStore.new.run ops).perform op).1 ∧
    ∀ store : FileStore, store.networkPath = z.display networkPath →
      store.network = networkFile z (runOps z (fresh z) ops) →
        store.loadNetwork = .ok (MemoryStore.new.run ops).network := by
  have hreopen : Op.RoundTrips z .reopen := trivial
  have hfresh : Holds z (fresh z).lookup Held.empty := (holds_empty z).perform hreopen
  have hheld := hfresh.runOps hops
  have hempty : MemoryStore.new.held = Held.empty := rfl
  constructor
  · have hfile := (perform_steps hheld hop).1
    have hmemory := (MemoryStore.new.run ops).perform_answers op
    rw [MemoryStore.held_run,hempty] at hmemory
    exact hfile.agrees hmemory
  · intro store hpath hfile
    have hnetwork : (MemoryStore.new.run ops).network = (ops.foldl Held.after Held.empty).network := by
      rw [← hempty,← MemoryStore.held_run]
      rfl
    rw [loadNetwork_start z hpath hfile,hnetwork]
    exact loadNetwork_ok hheld.network

section Sample

/-- Groups without members, and the files they are written to. -/
def hallway : PersistedGroup := ⟨⟨901⟩,[]⟩

def kitchen : PersistedGroup := ⟨⟨902⟩,[]⟩

def memberless (id : String) : Bytes :=
  ("\x7b\n  \"id\": " ++ id ++ ",\n  \"members\": []\n\x7d").toUTF8.toList

/-- A store for groups as these. -/
def hallwaySetup : Setup where
  root := "/var/lib/zigbee"
  network := ⟨fun _ => .error "unsupported",fun _ => .error "expected value"⟩
  device := ⟨fun _ => .error "unsupported",fun _ => .error "expected value"⟩
  group :=
    ⟨fun g =>
      if g = hallway then .ok (memberless "901")
      else if g = kitchen then .ok (memberless "902")
      else .error "unsupported",
    fun bytes =>
      if bytes = memberless "901" then .ok hallway
      else if bytes = memberless "902" then .ok kitchen
      else .error "expected value"⟩
  debug text := "\"" ++ text ++ "\""
  notFound := "No such file or directory (os error 2)"

theorem hallway_round_trips : hallwaySetup.group.RoundTrips hallway :=
  ⟨memberless "901",by simp [hallwaySetup],by simp [hallwaySetup]⟩

theorem kitchen_round_trips : hallwaySetup.group.RoundTrips kitchen := by
  have hgroups : kitchen ≠ hallway := by decide
  have hfiles : memberless "902" ≠ memberless "901" := by decide +kernel
  exact ⟨memberless "902",by simp [hallwaySetup,hgroups],by simp [hallwaySetup,hfiles]⟩

theorem answers_as_memory_hallway :
    (Op.loadGroups fun _ => ⟨0,0⟩).Agrees
      (perform hallwaySetup (runOps hallwaySetup (fresh hallwaySetup)
        [.upsertGroup hallway,.reopen]) (.loadGroups fun _ => ⟨0,0⟩)).1
      ((MemoryStore.new.run [.upsertGroup hallway,.reopen]).perform
        (.loadGroups fun _ => ⟨0,0⟩)).1 := by
  have hops : ∀ op ∈ [Op.upsertGroup hallway,.reopen], op.RoundTrips hallwaySetup := by
    intro op hop
    rcases List.mem_pair.mp hop with rfl | rfl
    · exact hallway_round_trips
    · trivial
  have hop : Op.RoundTrips hallwaySetup (.loadGroups fun _ => ⟨0,0⟩) := trivial
  exact (answers_as_memory hallwaySetup hops hop).1

end Sample
end Rszigbee.File
