import Rszigbee.Keeping

/-! The file store across crashes. A write leaves the old record or the new one, and nothing
else is touched; a removal is not made durable, and a crash in a later operation may undo it. -/
namespace Rszigbee.File

open Files

/-- A stored record of either directory. -/
inductive Record
  | device (d : PersistedDevice)
  | group (g : PersistedGroup)
  deriving DecidableEq

namespace Record

def path : Record → Path
  | device d => devicePath d.ieee
  | group g => groupPath g.id

def dir (r : Record) : Dir := r.path.dir

/-- The operation that writes it. -/
def upsert : Record → Op
  | device d => .upsertDevice d
  | group g => .upsertGroup g

end Record

/-- A record more, if there was one. -/
def addRead {R : Type} (f : R → Record) (removed : List Record) :
    Except StoreError R → List Record
  | .ok r => f r::removed
  | .error _ => removed

/-- The records removed whose directory has not been synced since. -/
def unsettled (z : Setup) (files : Content) (removed : List Record) : Op → List Record
  | .deleteDevice ieee => addRead .device removed (readJson z z.device files (devicePath ieee))
  | .deleteGroup id => addRead .group removed (readJson z z.group files (groupPath id))
  | .upsertDevice _ => removed.filter fun r => r.dir ≠ .devices
  | .upsertGroup _ => removed.filter fun r => r.dir ≠ .groups
  | _ => removed

/-- The disks between operations, with the removals not settled: operations were done, or
stopped by a crash after some of their steps. -/
inductive Reaches (z : Setup) : Disk Path → List Record → Prop
  | fresh : Reaches z ⟨∅,[],[]⟩ []
  | done {d : Disk Path} {removed : List Record} (op : Op) (h : Reaches z d removed)
      (hop : op.RoundTrips z) :
      Reaches z (d.run Path.dir (perform z d.live op).2) (unsettled z d.live removed op)
  | crash {d : Disk Path} {removed : List Record} (op : Op) (k : ℕ) (files : Content)
      (h : Reaches z d removed) (hop : op.RoundTrips z)
      (hcrash : (d.run Path.dir ((perform z d.live op).2.take k)).Crash files) :
      Reaches z ⟨files,[],[]⟩ []

/-- Opened again, the store loads these records: nothing is corrupt, nothing quarantined. -/
structure Recovers (z : Setup) (files : Content) (held : Held) : Prop where
  opens : («open» z files).1 = .ok ()
  network : loadNetwork z (run files («open» z files).2) = .ok held.network
  devices : ∀ stamps, ∃ l, loadDevices z (run files («open» z files).2) stamps = (.ok l,[]) ∧
    ∀ d, d ∈ l ↔ ∃ ieee, held.device ieee = some d
  groups : ∀ stamps, ∃ l, loadGroups z (run files («open» z files).2) stamps = (.ok l,[]) ∧
    ∀ g, g ∈ l ↔ ∃ id, held.group id = some g

/-- Wherever the operation is stopped, the store has what it had before or what the operation
makes of it; and so has every backup. -/
def CrashSafe (z : Setup) (d : Disk Path) (op : Op) : Prop :=
  ∃ held, Recovers z d.live held ∧ ∀ k files,
    (d.run Path.dir ((perform z d.live op).2.take k)).Crash files →
      (Recovers z files held ∨ Recovers z files (held.after op)) ∧
        ∀ id, loadBackup files id = loadBackup d.live id ∨
          loadBackup files id = loadBackup (run d.live (perform z d.live op).2) id

section Recovery
variable {z : Setup} {held : Held}

theorem Holds.recovers {files : Content} (h : Holds z files.lookup held) :
    Recovers z files held := by
  have hopens : («open» z files).1 = .ok () := (open_ok h.schema).1
  have hreopen : Op.RoundTrips z .reopen := trivial
  have hopened : Holds z (run files («open» z files).2).lookup held := h.perform hreopen
  exact ⟨hopens,loadNetwork_ok hopened.network,fun stamps => loadDir_ok hopened.devices stamps,
    fun stamps => loadDir_ok hopened.groups stamps⟩

/-- The record is held, under whatever key. -/
def Held.Has (held : Held) : Record → Prop
  | .device d => ∃ ieee, held.device ieee = some d
  | .group g => ∃ id, held.group id = some g

/-- What is loaded is one set of records. -/
theorem Recovers.has_iff {files : Content} {held' : Held} (h : Recovers z files held)
    (h' : Recovers z files held') (r : Record) : held.Has r ↔ held'.Has r := by
  cases r with
  | device d =>
    obtain ⟨l,hl,hmem⟩ := h.devices fun _ => ⟨0,0⟩
    obtain ⟨l',hl',hmem'⟩ := h'.devices fun _ => ⟨0,0⟩
    rw [hl] at hl'
    cases hl'
    exact (hmem d).symm.trans (hmem' d)
  | group g =>
    obtain ⟨l,hl,hmem⟩ := h.groups fun _ => ⟨0,0⟩
    obtain ⟨l',hl',hmem'⟩ := h'.groups fun _ => ⟨0,0⟩
    rw [hl] at hl'
    cases hl'
    exact (hmem g).symm.trans (hmem' g)

theorem exists_update {K R : Type} [DecidableEq K] {record : K → Option R} {k : K}
    {new : Option R} {r : R} (h : ∃ k', Function.update record k new k' = some r) :
    (∃ k', record k' = some r) ∨ new = some r := by
  obtain ⟨k',hk'⟩ := h
  by_cases heq : k' = k
  · subst heq
    rw [Function.update_self] at hk'
    exact .inr hk'
  · rw [Function.update_of_ne heq] at hk'
    exact .inl ⟨k',hk'⟩

/-- An operation adds only the record it writes. -/
theorem Held.has_after {op : Op} {r : Record} (h : (held.after op).Has r) :
    held.Has r ∨ op = r.upsert := by
  cases r with
  | device d =>
    cases op with
    | upsertDevice device =>
      rcases exists_update h with hbefore | hnew
      · exact .inl hbefore
      · cases hnew
        exact .inr rfl
    | deleteDevice ieee =>
      rcases exists_update h with hbefore | hnew
      · exact .inl hbefore
      · cases hnew
    | _ => exact .inl h
  | group g =>
    cases op with
    | upsertGroup group =>
      rcases exists_update h with hbefore | hnew
      · exact .inl hbefore
      · cases hnew
        exact .inr rfl
    | deleteGroup id =>
      rcases exists_update h with hbefore | hnew
      · exact .inl hbefore
      · cases hnew
    | _ => exact .inl h

theorem Shelf.Keeps.lookup_key {K R : Type} {shelf : Shelf K R} {look : Path → Option Bytes}
    {record : K → Option R} (h : shelf.Keeps look record) {k : K} {r : R}
    (hk : record k = some r) : look (shelf.path (shelf.key r)) ≠ none := by
  have hstored := h.stored k
  rw [hk] at hstored
  obtain ⟨bytes,hfile,-⟩ := lookup_of_stored hstored
  rw [h.keyed k r hk,hfile]
  simp

/-- A record that is held has its file. -/
theorem Holds.lookup_has {look : Path → Option Bytes} (h : Holds z look held) {r : Record}
    (hr : held.Has r) : look r.path ≠ none := by
  cases r with
  | device d =>
    obtain ⟨ieee,hieee⟩ := hr
    exact h.devices.lookup_key hieee
  | group g =>
    obtain ⟨id,hid⟩ := hr
    exact h.groups.lookup_key hid

end Recovery

section Invariant
variable {z : Setup} {d : Disk Path} {removed : List Record}

/-- Between operations: every content is synced, and the names a crash may bring back are those
of the removed records. -/
structure Sound (z : Setup) (d : Disk Path) (removed : List Record) : Prop where
  held : ∃ held, Holds z d.live.lookup held
  synced : d.unsynced = []
  past : ∀ e ∈ d.past, ∃ r ∈ removed, e.1 = r.path ∧ ∃ bytes, e.2 = .whole bytes ∧
    r.upsert.Leaves z r.path (some bytes)
  gone : ∀ r ∈ removed, d.live.lookup r.path = none ∧ ∃ bytes, (r.path,.whole bytes) ∈ d.past ∧
    r.upsert.Leaves z r.path (some bytes)

/-- What a crash may leave between operations: what there is, or a record removed. -/
theorem Sound.may (h : Sound z d removed) {p : Path} {found : Option Bytes}
    (hmay : d.May p found) : found = d.live.lookup p ∨
      ∃ r ∈ removed, p = r.path ∧ r.upsert.Leaves z r.path found := by
  rcases hmay with hnow | ⟨v,hv,hallows⟩
  · left
    rw [Disk.version,h.synced] at hnow
    cases hlookup : d.live.lookup p with
    | none => simpa [hlookup,Version.Allows] using hnow
    | some bytes => simpa [hlookup,Version.Allows] using hnow
  · right
    obtain ⟨r,hr,hp,bytes,hwhole,hleaves⟩ := h.past (p,v) hv
    have hv : v = .whole bytes := hwhole
    subst hv
    have hfound : found = some bytes := hallows
    exact ⟨r,hr,hp,hfound ▸ hleaves⟩

/-- Stopped anywhere, an operation leaves every name but its own as a crash before it might. -/
theorem crash_lookup {path p : Path} {found content : Option Bytes} {k : ℕ}
    (hname : path.name ≠ "") (hrest : ¬p.Temporary)
    (hmay : (d.run Path.dir ((changing path found).take k)).May p content) :
    d.May p content ∨ (p = path ∧ content = found) := by
  cases found with
  | some bytes =>
    have htmp : p ≠ path.withExtension "tmp" := by
      rintro rfl
      exact hrest (Path.temporary_withExtension hname)
    exact Disk.may_replace_take Path.dir k htmp hmay
  | none =>
    match k with
    | 0 => exact .inl hmay
    | k + 1 =>
      have hstep : (d.step Path.dir (.remove path)).May p content := by
        simpa [changing,Disk.run] using hmay
      exact Disk.may_remove Path.dir hstep

theorem Record.not_temporary (r : Record) : ¬r.path.Temporary := by
  cases r with
  | device d => exact not_temporary_of_json (extension_device d.ieee)
  | group g => exact not_temporary_of_json (extension_group g.id)

theorem Record.dir_ne_root (r : Record) : r.dir ≠ .root := by
  cases r <;> exact fun h => nomatch h

/-- A write that is done settles the removals of its directory. -/
theorem Sound.write (h : Sound z d removed) {op : Op} {path : Path} {bytes : Bytes}
    (hleaves : op.Leaves z path (some bytes)) :
    Sound z (d.run Path.dir (changing path (some bytes)))
      (removed.filter fun r => r.dir ≠ path.dir) := by
  have hrun : d.run Path.dir (changing path (some bytes)) =
      ⟨run d.live (changing path (some bytes)),[],
        d.past.filter fun e => e.1.dir ≠ path.dir⟩ :=
    Disk.run_replace Path.dir rfl rfl h.synced
  have hupdates := updates_changing hleaves.path.1 (some bytes) d.live
  obtain ⟨held,hheld⟩ := h.held
  rw [hrun]
  constructor
  · exact ⟨held.after op,hleaves.holds hheld hupdates⟩
  · rfl
  · intro e he
    obtain ⟨hmem,hdir⟩ := List.mem_filter.mp he
    obtain ⟨r,hr,hpath,hrest⟩ := h.past e hmem
    refine ⟨r,List.mem_filter.mpr ⟨hr,?_⟩,hpath,hrest⟩
    rw [Record.dir,← hpath]
    exact hdir
  · intro r hr
    obtain ⟨hmem,hdir⟩ := List.mem_filter.mp hr
    have hdir : r.path.dir ≠ path.dir := of_decide_eq_true hdir
    obtain ⟨hgone,bytes',hpast,hbytes⟩ := h.gone r hmem
    have hne : r.path ≠ path := fun heq => hdir (by rw [heq])
    have hlookup := hupdates.other r.not_temporary hne
    exact ⟨hlookup.trans hgone,bytes',List.mem_filter.mpr ⟨hpast,decide_eq_true hdir⟩,hbytes⟩

/-- A record that is removed may still come back. -/
theorem Sound.remove (h : Sound z d removed) {op : Op} {r : Record}
    (hleaves : op.Leaves z r.path none) {bytes : Bytes}
    (hfile : d.live.lookup r.path = some bytes)
    (hrecord : r.upsert.Leaves z r.path (some bytes)) :
    Sound z (d.run Path.dir [.remove r.path]) (r::removed) := by
  have hrun : d.run Path.dir [.remove r.path] =
      ⟨d.live.erase r.path,[],(r.path,.whole bytes)::d.past⟩ :=
    Disk.run_remove Path.dir hfile h.synced
  have hupdates : Updates d.live.lookup (d.live.erase r.path).lookup r.path none :=
    fun p _ => Table.lookup_erase_eq d.live r.path p
  obtain ⟨held,hheld⟩ := h.held
  rw [hrun]
  constructor
  · exact ⟨held.after op,hleaves.holds hheld hupdates⟩
  · rfl
  · intro e he
    rcases List.mem_cons.mp he with rfl | hmem
    · exact ⟨r,List.mem_cons_self,rfl,bytes,rfl,hrecord⟩
    · obtain ⟨r',hr',hrest⟩ := h.past e hmem
      exact ⟨r',List.mem_cons_of_mem r hr',hrest⟩
  · intro r' hr'
    rcases List.mem_cons.mp hr' with rfl | hmem
    · exact ⟨AList.lookup_erase _ _,bytes,List.mem_cons_self,hrecord⟩
    · obtain ⟨hgone,bytes',hpast,hbytes⟩ := h.gone r' hmem
      refine ⟨?_,bytes',List.mem_cons_of_mem _ hpast,hbytes⟩
      have hlookup := Table.lookup_erase_eq d.live r.path r'.path
      rw [hgone,ite_self] at hlookup
      exact hlookup

theorem Shelf.Keeps.of_file {K R : Type} {shelf : Shelf K R} {look : Path → Option Bytes}
    {record : K → Option R} (h : shelf.Keeps look record) {k : K} {bytes : Bytes}
    (hfile : look (shelf.path k) = some bytes) :
    ∃ r, shelf.serde.fromSlice bytes = .ok r ∧ shelf.key r = k := by
  have hstored := h.stored k
  rw [hfile] at hstored
  cases hrecord : record k with
  | none =>
    rw [hrecord] at hstored
    cases hstored
  | some r =>
    rw [hrecord] at hstored
    exact ⟨r,hstored,h.keyed k r hrecord⟩

/-- Writing settles a directory's removals, and there are none outside the two directories. -/
theorem unsettled_write {op : Op} {path : Path} {bytes : Bytes} (files : Content)
    (hleaves : op.Leaves z path (some bytes)) :
    unsettled z files removed op = removed.filter fun r => r.dir ≠ path.dir := by
  have hall : ∀ dir : Dir, dir ≠ .devices → dir ≠ .groups →
      removed = removed.filter fun r => r.dir ≠ dir := by
    intro dir hdevices hgroups
    symm
    rw [List.filter_eq_self]
    intro r _
    cases r with
    | device d => exact decide_eq_true hdevices.symm
    | group g => exact decide_eq_true hgroups.symm
  cases op with
  | reopen | saveNetwork | saveBackup =>
    obtain ⟨rfl,-⟩ := hleaves
    exact hall _ (fun h => nomatch h) fun h => nomatch h
  | upsertDevice | upsertGroup =>
    obtain ⟨rfl,-⟩ := hleaves
    rfl
  | deleteDevice | deleteGroup => cases hleaves.2
  | loadNetwork | loadDevices | loadGroups | listBackups | loadBackup | flush => exact hleaves.elim

theorem Record.upsert_steps {r : Record} (hop : r.upsert.RoundTrips z) (files : Content) :
    ∃ bytes, r.upsert.Leaves z r.path (some bytes) ∧
      (perform z files r.upsert).2 = changing r.path (some bytes) := by
  cases r with
  | device d =>
    obtain ⟨found,hfound,hwrite⟩ := writeJson_ok (z := z) hop (devicePath d.ieee)
    obtain ⟨bytes,rfl,hread⟩ := lookup_of_stored hfound
    exact ⟨bytes,⟨rfl,hread⟩,congrArg Prod.snd hwrite⟩
  | group g =>
    obtain ⟨found,hfound,hwrite⟩ := writeJson_ok (z := z) hop (groupPath g.id)
    obtain ⟨bytes,rfl,hread⟩ := lookup_of_stored hfound
    exact ⟨bytes,⟨rfl,hread⟩,congrArg Prod.snd hwrite⟩

theorem changing_ne_nil (path : Path) (found : Option Bytes) : changing path found ≠ [] := by
  cases found <;> exact List.cons_ne_nil _ _

/-- One record of a directory is deleted. -/
theorem Sound.delete {K R : Type} {shelf : Shelf K R} {record : K → Option R} {f : R → Record}
    (h : Sound z d removed) (hkeeps : shelf.Keeps d.live.lookup record)
    (hpath : ∀ r, (f r).path = shelf.path (shelf.key r))
    (hread : ∀ r bytes, shelf.serde.fromSlice bytes = .ok r →
      (f r).upsert.Leaves z (f r).path (some bytes)) {op : Op} {k : K}
    (hleaves : op.Leaves z (shelf.path k) none) :
    Sound z (d.run Path.dir [.remove (shelf.path k)])
      (addRead f removed (readJson z shelf.serde d.live (shelf.path k))) := by
  cases hfile : d.live.lookup (shelf.path k) with
  | none =>
    rw [Disk.run_remove_absent Path.dir hfile,readJson,hfile]
    exact h
  | some bytes =>
    obtain ⟨r,hparse,rfl⟩ := hkeeps.of_file hfile
    simp only [readJson,hfile,hparse,addRead]
    rw [← hpath r] at hleaves hfile ⊢
    exact h.remove hleaves hfile (hread r bytes hparse)

/-- An operation that is done. -/
theorem Sound.done (h : Sound z d removed) {op : Op} (hop : op.RoundTrips z) :
    Sound z (d.run Path.dir (perform z d.live op).2) (unsettled z d.live removed op) := by
  obtain ⟨held,hheld⟩ := h.held
  rcases (perform_steps hheld hop).2 with ⟨hnone,-⟩ | ⟨path,found,hleaves,hsteps⟩
  · have hquiet : unsettled z d.live removed op = removed := by
      cases op with
      | upsertDevice device =>
        obtain ⟨bytes,-,hsteps⟩ := Record.upsert_steps (r := .device device) hop d.live
        exact absurd (hsteps.symm.trans hnone) (changing_ne_nil _ _)
      | upsertGroup group =>
        obtain ⟨bytes,-,hsteps⟩ := Record.upsert_steps (r := .group group) hop d.live
        exact absurd (hsteps.symm.trans hnone) (changing_ne_nil _ _)
      | deleteDevice | deleteGroup => cases hnone
      | reopen | loadNetwork | saveNetwork | loadDevices | loadGroups | saveBackup | listBackups
        | loadBackup | flush => rfl
    rw [hnone,hquiet]
    exact h
  · cases found with
    | some bytes =>
      rw [hsteps,unsettled_write d.live hleaves]
      exact h.write hleaves
    | none =>
      cases op with
      | deleteDevice ieee =>
        have hdelete : (Op.deleteDevice ieee).Leaves z (devicePath ieee) none := ⟨rfl,rfl⟩
        exact h.delete (f := .device) hheld.devices (fun r => rfl)
          (fun r bytes hparse => ⟨rfl,hparse⟩) hdelete
      | deleteGroup id =>
        have hdelete : (Op.deleteGroup id).Leaves z (groupPath id) none := ⟨rfl,rfl⟩
        exact h.delete (f := .group) hheld.groups (fun r => rfl)
          (fun r bytes hparse => ⟨rfl,hparse⟩) hdelete
      | reopen | saveNetwork | upsertDevice | upsertGroup | saveBackup =>
        obtain ⟨-,hfound⟩ := hleaves
        cases hfound
      | loadNetwork | loadDevices | loadGroups | listBackups | loadBackup | flush =>
        exact hleaves.elim

section Returned
variable {held : Held} {look look' : Path → Option Bytes}

theorem Shelf.Keeps.returned {K R : Type} {shelf : Shelf K R} {record : K → Option R}
    (h : shelf.Keeps look record)
    (hlook : ∀ p : Path, p.dir = shelf.dir → p.extension = some "json" → look' p = look p ∨
      ∃ r, p = shelf.path (shelf.key r) ∧ Stored shelf.serde (look' p) (some r)) :
    ∃ record', shelf.Keeps look' record' := by
  have hone : ∀ k, ∃ found : Option R, Stored shelf.serde (look' (shelf.path k)) found ∧
      ∀ r, found = some r → shelf.key r = k := by
    intro k
    rcases hlook (shelf.path k) (shelf.dir_path k) (shelf.extension_path k) with
      hsame | ⟨r,hpath,hstored⟩
    · rw [hsame]
      exact ⟨record k,h.stored k,h.keyed k⟩
    · refine ⟨some r,hstored,?_⟩
      rintro r' ⟨⟩
      exact (shelf.path_inj.mp hpath).symm
  choose record' hrecord' using hone
  refine ⟨record',fun k => (hrecord' k).1,fun k => (hrecord' k).2,?_⟩
  intro p hp hdir hext
  rcases hlook p hdir hext with hsame | ⟨r,hpath,-⟩
  · rw [hsame] at hp
    exact h.only p hp hdir hext
  · exact ⟨shelf.key r,hpath⟩

/-- With removed records back in place the files still are records. -/
theorem Holds.returned (h : Holds z look held)
    (hlook : ∀ p : Path, ¬p.Temporary → look' p = look p ∨
      ∃ r : Record, p = r.path ∧ r.upsert.Leaves z r.path (look' p)) :
    ∃ held', Holds z look' held' := by
  have hroot : ∀ p : Path, ¬p.Temporary → p.dir = .root → look' p = look p := by
    intro p hrest hdir
    rcases hlook p hrest with hsame | ⟨r,rfl,-⟩
    · exact hsame
    · exact absurd hdir r.dir_ne_root
  have hdevices : ∀ p : Path, p.dir = .devices → p.extension = some "json" →
      look' p = look p ∨ ∃ d : PersistedDevice, p = devicePath d.ieee ∧
        Stored z.device (look' p) (some d) := by
    intro p hdir hext
    rcases hlook p (not_temporary_of_json hext) with hsame | ⟨r,rfl,hleaves⟩
    · exact .inl hsame
    · cases r with
      | device d => exact .inr ⟨d,rfl,hleaves.2⟩
      | group g => cases hdir
  have hgroups : ∀ p : Path, p.dir = .groups → p.extension = some "json" →
      look' p = look p ∨ ∃ g : PersistedGroup, p = groupPath g.id ∧
        Stored z.group (look' p) (some g) := by
    intro p hdir hext
    rcases hlook p (not_temporary_of_json hext) with hsame | ⟨r,rfl,hleaves⟩
    · exact .inl hsame
    · cases r with
      | device d => cases hdir
      | group g => exact .inr ⟨g,rfl,hleaves.2⟩
  obtain ⟨device,hdevice⟩ := h.devices.returned hdevices
  obtain ⟨group,hgroup⟩ := h.groups.returned hgroups
  refine ⟨⟨held.network,device,group⟩,?_,?_,hdevice,hgroup⟩
  · rw [hroot _ not_temporary_schema rfl]
    exact h.schema
  · rw [hroot _ not_temporary_network rfl]
    exact h.network

end Returned

/-- After a crash the files are records again. -/
theorem Sound.crash (h : Sound z d removed) {op : Op} (hop : op.RoundTrips z) {k : ℕ}
    {files : Content}
    (hcrash : (d.run Path.dir ((perform z d.live op).2.take k)).Crash files) :
    Sound z ⟨files,[],[]⟩ [] := by
  obtain ⟨held,hheld⟩ := h.held
  have hrecords : ∃ held', Holds z files.lookup held' := by
    rcases (perform_steps hheld hop).2 with ⟨hnone,-⟩ | ⟨path,found,hleaves,hsteps⟩
    · rw [hnone,List.take_nil] at hcrash
      apply hheld.returned
      intro p hrest
      exact (h.may (hcrash p)).imp_right fun ⟨r,_,hr⟩ => ⟨r,hr⟩
    · rw [hsteps] at hcrash
      have hupdates := updates_changing hleaves.path.1 found d.live
      have hlookup : ∀ p : Path, ¬p.Temporary → (files.lookup p = d.live.lookup p ∨
          ∃ r : Record, p = r.path ∧ r.upsert.Leaves z r.path (files.lookup p)) ∨
            (p = path ∧ files.lookup p = found) := by
        intro p hrest
        apply (crash_lookup hleaves.path.1 hrest (hcrash p)).imp_left
        intro hmay
        exact (h.may hmay).imp_right fun ⟨r,_,hr⟩ => ⟨r,hr⟩
      by_cases hown : files.lookup path = found
      · -- the operation took effect, and the rest is as a crash before it might leave it
        apply (hleaves.holds hheld hupdates).returned
        intro p hrest
        by_cases hp : p = path
        · subst hp
          exact .inl (hown.trans (hupdates.self hrest).symm)
        · have hsame : (run d.live (changing path found)).lookup p = d.live.lookup p :=
            hupdates.other hrest hp
          rw [hsame]
          exact (hlookup p hrest).resolve_right fun h => hp h.1
      · apply hheld.returned
        intro p hrest
        apply (hlookup p hrest).resolve_right
        rintro ⟨rfl,hfound⟩
        exact hown hfound
  exact ⟨hrecords,rfl,by simp,by simp⟩

theorem Reaches.sound (h : Reaches z d removed) : Sound z d removed := by
  induction h with
  | fresh => exact ⟨⟨.empty,holds_empty z⟩,rfl,by simp,by simp⟩
  | done op h hop ih => exact ih.done hop
  | crash op k files h hop hcrash ih => exact ih.crash hop hcrash

theorem Op.Leaves.path_eq {op : Op} {p p' : Path} {found found' : Option Bytes}
    (h : op.Leaves z p found) (h' : op.Leaves z p' found') : p = p' := by
  cases op with
  | reopen | saveNetwork | upsertDevice | deleteDevice | upsertGroup | deleteGroup | saveBackup =>
    exact h.1.trans h'.1.symm
  | loadNetwork | loadDevices | loadGroups | listBackups | loadBackup | flush => exact h.elim

theorem loadBackup_congr {files files' : Content} {id : String}
    (h : files.lookup (backupPath id) = files'.lookup (backupPath id)) :
    loadBackup files id = loadBackup files' id := by
  rw [loadBackup,loadBackup,h]

theorem backup_not_temporary (id : String) : ¬(backupPath id).Temporary := by
  by_cases hid : id = ""
  · subst hid
    decide
  · exact Path.not_temporary_json hid

/-- With nothing unsettled but the record being written, a crash leaves everything as it was, or
as the operation makes it. -/
theorem Sound.safe (h : Sound z d removed) {op : Op} (hop : op.RoundTrips z)
    (hsettled : ∀ r ∈ removed, op = r.upsert) : CrashSafe z d op := by
  obtain ⟨held,hheld⟩ := h.held
  refine ⟨held,hheld.recovers,?_⟩
  intro k files hcrash
  rcases (perform_steps hheld hop).2 with ⟨hnone,-⟩ | ⟨path,found,hleaves,hsteps⟩
  · have hsame : ∀ p, files.lookup p = d.live.lookup p := by
      intro p
      rw [hnone,List.take_nil] at hcrash
      rcases h.may (hcrash p) with hsame | ⟨r,hr,-⟩
      · exact hsame
      · -- what writes a record takes steps
        obtain rfl := hsettled r hr
        obtain ⟨bytes,-,hsteps⟩ := Record.upsert_steps hop d.live
        exact absurd (hsteps.symm.trans hnone) (changing_ne_nil _ _)
    exact ⟨.inl (hheld.congr fun p _ => hsame p).recovers,
      fun id => .inl (loadBackup_congr (hsame _))⟩
  · rw [hsteps] at hcrash ⊢
    have hupdates := updates_changing hleaves.path.1 found d.live
    have hlookup : ∀ p : Path, ¬p.Temporary → (files.lookup p = d.live.lookup p ∨
        ∃ r ∈ removed, p = r.path ∧ r.upsert.Leaves z r.path (files.lookup p)) ∨
          (p = path ∧ files.lookup p = found) := by
      intro p hrest
      exact (crash_lookup hleaves.path.1 hrest (hcrash p)).imp_left h.may
    constructor
    · have hown : ∀ p : Path, ¬p.Temporary → files.lookup p = d.live.lookup p ∨
          p = path ∧ op.Leaves z path (files.lookup path) := by
        intro p hrest
        rcases hlookup p hrest with (hsame | ⟨r,hr,rfl,hrecord⟩) | ⟨rfl,hfound⟩
        · exact .inl hsame
        · obtain rfl := hsettled r hr
          obtain rfl := hrecord.path_eq hleaves
          exact .inr ⟨rfl,hrecord⟩
        · exact .inr ⟨rfl,hfound ▸ hleaves⟩
      by_cases hpath : files.lookup path = d.live.lookup path
      · left
        apply (hheld.congr _).recovers
        intro p hrest
        rcases hown p hrest with hsame | ⟨rfl,-⟩
        · exact hsame
        · exact hpath
      · right
        have hrecord := ((hown path hleaves.path.2).resolve_left hpath).2
        apply (hrecord.holds hheld _).recovers
        intro p hrest
        by_cases hp : p = path
        · rw [if_pos hp,hp]
        · rw [if_neg hp]
          exact (hown p hrest).resolve_right fun h => hp h.1
    · intro id
      rcases hlookup (backupPath id) (backup_not_temporary id) with
        (hsame | ⟨r,-,hpath,-⟩) | ⟨hpath,hfound⟩
      · exact .inl (loadBackup_congr hsame)
      · cases r <;> cases hpath
      · right
        apply loadBackup_congr
        rw [hfound,hpath]
        exact (hupdates.self hleaves.path.2).symm

theorem Held.has_upsert (held : Held) (r : Record) : (held.after r.upsert).Has r := by
  cases r with
  | device d => exact ⟨d.ieee,Function.update_self ..⟩
  | group g => exact ⟨g.id,Function.update_self ..⟩

/-- A removed record comes back when the next operation is stopped before its first step. -/
theorem Sound.not_safe (h : Sound z d removed) {op : Op} {r : Record}
    (hr : r ∈ removed) (hne : op ≠ r.upsert) : ¬CrashSafe z d op := by
  obtain ⟨held,hheld⟩ := h.held
  obtain ⟨hgone,bytes,hpast,hrecord⟩ := h.gone r hr
  rintro ⟨held',hbefore,hsafe⟩
  have hcrash : d.Crash (d.live.insert r.path bytes) := by
    intro p
    by_cases hp : p = r.path
    · subst hp
      rw [AList.lookup_insert]
      exact .inr ⟨.whole bytes,hpast,rfl⟩
    · rw [AList.lookup_insert_ne hp]
      exact d.may_live p
  have hback : Recovers z (d.live.insert r.path bytes) (held.after r.upsert) := by
    apply (hrecord.holds hheld _).recovers
    intro p _
    exact Table.lookup_insert_eq d.live r.path p bytes
  have hhas := held.has_upsert r
  have hnot : ¬held'.Has r := by
    intro hhas
    exact hheld.lookup_has ((hbefore.has_iff hheld.recovers r).mp hhas) hgone
  rcases (hsafe 0 (d.live.insert r.path bytes) hcrash).1 with hold | hnew
  · exact hnot ((hback.has_iff hold r).mp hhas)
  · rcases Held.has_after ((hback.has_iff hnew r).mp hhas) with hheld' | hwrites
    · exact hnot hheld'
    · exact hne hwrites

/-- An operation is safe to be stopped anywhere, after any operations and crashes, if and only
if no removal is unsettled but of the record it writes. -/
theorem crash_safe_iff (h : Reaches z d removed) {op : Op} (hop : op.RoundTrips z) :
    CrashSafe z d op ↔ ∀ r ∈ removed, op = r.upsert := by
  constructor
  · intro hsafe r hr
    by_contra hne
    exact h.sound.not_safe hr hne hsafe
  · exact h.sound.safe hop

end Invariant
section Sample

/-- The disk of a new store once the group is written, and once it is removed again. -/
def hallwayWritten : Disk Path :=
  (⟨∅,[],[]⟩ : Disk Path).run Path.dir (perform hallwaySetup ∅ (.upsertGroup hallway)).2

def hallwayRemoved : Disk Path :=
  hallwayWritten.run Path.dir (perform hallwaySetup hallwayWritten.live (.deleteGroup ⟨901⟩)).2

theorem reaches_written : Reaches hallwaySetup hallwayWritten [] :=
  .done (.upsertGroup hallway) .fresh hallway_round_trips

theorem reaches_removed : Reaches hallwaySetup hallwayRemoved [.group hallway] := by
  have hunsettled : unsettled hallwaySetup hallwayWritten.live [] (.deleteGroup ⟨901⟩) =
      [.group hallway] := by decide +kernel
  rw [← hunsettled]
  exact .done (.deleteGroup ⟨901⟩) reaches_written trivial

theorem crash_safe_iff_hallway :
    CrashSafe hallwaySetup hallwayWritten (.deleteGroup ⟨901⟩) ↔
      ∀ r ∈ ([] : List Record), .deleteGroup ⟨901⟩ = r.upsert :=
  crash_safe_iff reaches_written trivial

/-- A group that was removed is back after a crash in the writing of another one. -/
theorem removed_group_returns : Reaches hallwaySetup hallwayRemoved [.group hallway] ∧
    (Op.upsertGroup kitchen).RoundTrips hallwaySetup ∧
    ¬CrashSafe hallwaySetup hallwayRemoved (.upsertGroup kitchen) := by
  have hne : Op.upsertGroup kitchen ≠ (Record.group hallway).upsert := by
    intro h
    injection h with h
    exact absurd h (by decide)
  exact ⟨reaches_removed,kitchen_round_trips,
    reaches_removed.sound.not_safe List.mem_cons_self hne⟩

end Sample
end Rszigbee.File
