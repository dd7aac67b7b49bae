import Rszigbee.File
import Mathlib.Logic.Function.Basic

/-! What a store is for, as three maps, and the two stores that keep them: the one in memory and
the one on disk answer every load alike. -/
namespace Rszigbee.File

open Files

/-- An operation on a store, with the stamps it may draw; opening again is one too. -/
inductive Op
  | reopen
  | loadNetwork
  | saveNetwork (network : PersistedNetwork)
  | loadDevices (stamps : ℕ → Stamp)
  | upsertDevice (device : PersistedDevice)
  | deleteDevice (ieee : Ieee)
  | loadGroups (stamps : ℕ → Stamp)
  | upsertGroup (group : PersistedGroup)
  | deleteGroup (id : GroupId)
  | saveBackup (stamp : Stamp) (adapter : NamePart) (coordinator : Ieee) (bytes : Bytes)
  | listBackups
  | loadBackup (id : String)
  | flush

/-- What an operation answers when it does not fail. -/
def Op.Result : Op → Type
  | .loadNetwork => Option PersistedNetwork
  | .loadDevices _ => List PersistedDevice
  | .loadGroups _ => List PersistedGroup
  | .saveBackup .. => String
  | .listBackups => List BackupMeta
  | .loadBackup _ => Bytes
  | _ => Unit

abbrev Op.Answer (op : Op) : Type := Except StoreError op.Result

/-- The records a store holds. -/
structure Held where
  network : Option PersistedNetwork
  device : Ieee → Option PersistedDevice
  group : GroupId → Option PersistedGroup

namespace Held

def empty : Held := ⟨none,fun _ => none,fun _ => none⟩

/-- What an operation makes of the records. -/
def after (held : Held) : Op → Held
  | .saveNetwork network => { held with network := some network }
  | .upsertDevice device =>
    { held with device := Function.update held.device device.ieee (some device) }
  | .deleteDevice ieee => { held with device := Function.update held.device ieee none }
  | .upsertGroup group =>
    { held with group := Function.update held.group group.id (some group) }
  | .deleteGroup id => { held with group := Function.update held.group id none }
  | _ => held

/-- Nothing fails, and a load answers with what is held, lists as sets; of backups nothing is
said. -/
def Answers (held : Held) : (op : Op) → op.Answer → Prop
  | .loadNetwork,answer => answer = .ok held.network
  | .loadDevices _,answer =>
    ∃ l : List PersistedDevice, answer = .ok l ∧ ∀ d, d ∈ l ↔ ∃ ieee, held.device ieee = some d
  | .loadGroups _,answer =>
    ∃ l : List PersistedGroup, answer = .ok l ∧ ∀ g, g ∈ l ↔ ∃ id, held.group id = some g
  | .saveBackup .., _ | .listBackups,_ | .loadBackup _,_ => True
  | .reopen,answer | .saveNetwork _,answer | .upsertDevice _,answer | .deleteDevice _,answer
  | .upsertGroup _,answer | .deleteGroup _,answer | .flush,answer => answer = .ok ()

end Held

/-- The same set of records, and no error. -/
def SameRecords {R : Type} : Except StoreError (List R) → Except StoreError (List R) → Prop
  | .ok a,.ok b => ∀ r, r ∈ a ↔ r ∈ b
  | _,_ => False

/-- Two answers that hold the same records; backups are not compared. -/
def Op.Agrees : (op : Op) → op.Answer → op.Answer → Prop
  | .loadDevices _,a,b => SameRecords (R := PersistedDevice) a b
  | .loadGroups _,a,b => SameRecords (R := PersistedGroup) a b
  | .saveBackup .., _,_ | .listBackups,_,_ | .loadBackup _,_,_ => True
  | _,a,b => a = b

theorem Held.Answers.agrees {held : Held} {op : Op} {a b : op.Answer} (ha : held.Answers op a)
    (hb : held.Answers op b) : op.Agrees a b := by
  cases op with
  | loadDevices stamps =>
    obtain ⟨l,rfl,hl⟩ := ha
    obtain ⟨l',rfl,hl'⟩ := hb
    intro d
    rw [hl,hl']
  | loadGroups stamps =>
    obtain ⟨l,rfl,hl⟩ := ha
    obtain ⟨l',rfl,hl'⟩ := hb
    intro g
    rw [hl,hl']
  | saveBackup | listBackups | loadBackup => trivial
  | loadNetwork | reopen | saveNetwork | upsertDevice | deleteDevice | upsertGroup | deleteGroup
    | flush => exact Eq.trans ha (Eq.symm hb)

end Rszigbee.File

namespace Rszigbee

open File

/-- The store in memory. -/
structure MemoryStore where
  network : Option PersistedNetwork := none
  devices : Table Ieee PersistedDevice := ∅
  groups : Table UInt16 PersistedGroup := ∅
  backups : List (BackupMeta × Bytes) := []

namespace MemoryStore

def new : MemoryStore := {}

def values {K V : Type} (t : Table K V) : List V := t.entries.map Sigma.snd

def perform (m : MemoryStore) : (op : Op) → op.Answer × MemoryStore
  | .reopen | .flush => (.ok (),m)
  | .loadNetwork => (.ok m.network,m)
  | .saveNetwork network => (.ok (),{ m with network := some network })
  | .loadDevices _ => (.ok (values m.devices),m)
  | .upsertDevice device => (.ok (),{ m with devices := m.devices.insert device.ieee device })
  | .deleteDevice ieee => (.ok (),{ m with devices := m.devices.erase ieee })
  | .loadGroups _ => (.ok (values m.groups),m)
  | .upsertGroup group => (.ok (),{ m with groups := m.groups.insert group.id.raw group })
  | .deleteGroup id => (.ok (),{ m with groups := m.groups.erase id.raw })
  | .saveBackup stamp adapter coordinator bytes =>
    let id := "backup-" ++ toString (m.backups.length + 1)
    (.ok id,{ m with
      backups := m.backups ++ [(⟨id,stamp.millis,adapter.text,coordinator⟩,bytes)] })
  | .listBackups => (.ok (m.backups.reverse.map Prod.fst),m)
  | .loadBackup id =>
    match m.backups.find? fun b => b.1.id = id with
    | some b => (.ok b.2,m)
    | none => (.error (.backupNotFound id),m)

/-- The store after operations in turn. -/
def run (m : MemoryStore) (ops : List Op) : MemoryStore :=
  ops.foldl (fun m op => (m.perform op).2) m

def held (m : MemoryStore) : Held :=
  ⟨m.network,m.devices.lookup,fun id => m.groups.lookup id.raw⟩

theorem mem_values {K V : Type} [DecidableEq K] {t : Table K V} {v : V} :
    v ∈ values t ↔ ∃ k, t.lookup k = some v := by
  simp only [values,List.mem_map,Table.lookup_eq_some]
  constructor
  · rintro ⟨⟨k,v⟩,hmem,rfl⟩
    exact ⟨k,hmem⟩
  · rintro ⟨k,hmem⟩
    exact ⟨⟨k,v⟩,hmem,rfl⟩

theorem raw_inj {a b : GroupId} : a.raw = b.raw ↔ a = b := by
  cases a
  cases b
  simp

theorem held_perform (m : MemoryStore) (op : Op) :
    (m.perform op).2.held = m.held.after op := by
  cases op with
  | upsertDevice device =>
    have hdevices : (m.devices.insert device.ieee device).lookup =
        Function.update m.devices.lookup device.ieee (some device) := by
      funext ieee
      rw [Table.lookup_insert_eq,Function.update_apply]
    rw [Held.after,perform,held,hdevices]
    rfl
  | deleteDevice ieee =>
    have hdevices : (m.devices.erase ieee).lookup = Function.update m.devices.lookup ieee none := by
      funext other
      rw [Table.lookup_erase_eq,Function.update_apply]
    rw [Held.after,perform,held,hdevices]
    rfl
  | upsertGroup group =>
    have hgroups : (fun id : GroupId => (m.groups.insert group.id.raw group).lookup id.raw) =
        Function.update (fun id : GroupId => m.groups.lookup id.raw) group.id (some group) := by
      funext id
      rw [Table.lookup_insert_eq,Function.update_apply]
      simp only [raw_inj]
    rw [Held.after,perform,held,hgroups]
    rfl
  | deleteGroup id =>
    have hgroups : (fun other : GroupId => (m.groups.erase id.raw).lookup other.raw) =
        Function.update (fun other : GroupId => m.groups.lookup other.raw) id none := by
      funext other
      rw [Table.lookup_erase_eq,Function.update_apply]
      simp only [raw_inj]
    rw [Held.after,perform,held,hgroups]
    rfl
  | loadBackup id =>
    rw [perform]
    split <;> rfl
  | reopen | loadNetwork | saveNetwork | loadDevices | loadGroups | saveBackup | listBackups
    | flush => rfl

theorem held_run (m : MemoryStore) (ops : List Op) :
    (m.run ops).held = ops.foldl Held.after m.held := by
  induction ops generalizing m with
  | nil => rfl
  | cons op ops ih =>
    have hrun : m.run (op::ops) = (m.perform op).2.run ops := rfl
    rw [hrun,ih,m.held_perform,List.foldl_cons]

theorem perform_answers (m : MemoryStore) (op : Op) : m.held.Answers op (m.perform op).1 := by
  cases op with
  | loadDevices stamps => exact ⟨values m.devices,rfl,fun d => mem_values⟩
  | loadGroups stamps =>
    refine ⟨values m.groups,rfl,?_⟩
    intro g
    rw [mem_values]
    constructor
    · rintro ⟨raw,hraw⟩
      exact ⟨⟨raw⟩,hraw⟩
    · rintro ⟨id,hid⟩
      exact ⟨id.raw,hid⟩
  | saveBackup | listBackups | loadBackup => trivial
  | reopen | loadNetwork | saveNetwork | upsertDevice | deleteDevice | upsertGroup | deleteGroup
    | flush => rfl

end MemoryStore
end Rszigbee
