import Rszigbee.Adapter
import Rszigbee.Device
import Rszigbee.Tables

/-! Persisted state.
A store is what it holds; whether an operation succeeds is its environment's
choice, and a failed write may or may not have taken effect. -/
namespace Rszigbee

/-- Persisted network identity and security material. -/
structure PersistedNetwork where
  panId : UInt16
  extendedPanId : UInt64
  channel : UInt8
  nwkUpdateId : UInt8
  coordinatorIeee : Ieee
  keySequence : UInt8
  frameCounter : UInt32
  networkKey : Option SecretKey
  deriving DecidableEq

/-- Whether the record lacks something only the coordinator can supply. -/
def PersistedNetwork.needsCompleting (n : PersistedNetwork) : Bool :=
  n.networkKey.isNone || n.frameCounter = 0

/-- How far ahead of the live value the frame counter is stored. -/
def frameCounterMargin : UInt32 := 1024

/-- `u32::saturating_add`. -/
def saturatingAdd (a b : UInt32) : UInt32 :=
  if a.toNat + b.toNat < 2^32 then a + b else 0xffffffff

theorem le_saturatingAdd (a b : UInt32) : a ≤ saturatingAdd a b := by
  rw [saturatingAdd,UInt32.le_iff_toNat_le]
  split
  · rename_i h
    rw [UInt32.toNat_add,Nat.mod_eq_of_lt h]
    omega
  · have := a.toNat_lt
    simp only [UInt32.reduceToNat]
    omega

/-- Adding the margin gives something larger, or the largest value there is. -/
theorem lt_saturatingAdd (a : UInt32) {b : UInt32} (hb : b ≠ 0) :
    a < saturatingAdd a b ∨ saturatingAdd a b = 0xffffffff := by
  rw [saturatingAdd]
  split
  · rename_i h
    left
    have hpos : b.toNat ≠ 0 := fun h0 => hb (UInt32.toNat_inj.mp h0)
    rw [UInt32.lt_iff_toNat_lt,UInt32.toNat_add,Nat.mod_eq_of_lt h]
    omega
  · exact Or.inr rfl

/-- One persisted group. -/
structure PersistedGroup where
  id : GroupId
  members : List (Ieee × EndpointId)
  deriving DecidableEq

/-- A stored coordinator backup. -/
structure BackupMeta where
  id : String
  takenEpochMs : UInt64
  adapter : String
  coordinatorIeee : Ieee
  deriving DecidableEq

inductive StoreError
  | unavailable (detail : String)
  | corrupt (location detail : String)
  | backupNotFound (id : String)
  | io (detail : String)
  deriving DecidableEq

/-- How a write went: done, or failed, having taken effect or not. -/
inductive WriteAnswer
  | done
  | failed (error : StoreError) (applied : Bool)
  deriving DecidableEq

namespace WriteAnswer

def effective : WriteAnswer → Bool
  | done => true
  | failed _ applied => applied

def isDone : WriteAnswer → Bool
  | done => true
  | failed _ _ => false

end WriteAnswer

/-- What the store holds for the runtime. -/
structure Store where
  network : Option PersistedNetwork
  devices : Table Ieee PersistedDevice

namespace Store

def new : Store := ⟨none,∅⟩

def saveNetwork (s : Store) (network : PersistedNetwork) (answer : WriteAnswer) : Store :=
  if answer.effective then { s with network := some network } else s

def upsertDevice (s : Store) (device : PersistedDevice) (answer : WriteAnswer) : Store :=
  if answer.effective then { s with devices := s.devices.insert device.ieee device } else s

def deleteDevice (s : Store) (ieee : Ieee) (answer : WriteAnswer) : Store :=
  if answer.effective then { s with devices := s.devices.erase ieee } else s

@[simp] theorem upsertDevice_network (s : Store) (device : PersistedDevice)
    (answer : WriteAnswer) : (s.upsertDevice device answer).network = s.network := by
  unfold upsertDevice
  split <;> rfl

@[simp] theorem deleteDevice_network (s : Store) (ieee : Ieee) (answer : WriteAnswer) :
    (s.deleteDevice ieee answer).network = s.network := by
  unfold deleteDevice
  split <;> rfl

@[simp] theorem saveNetwork_devices (s : Store) (network : PersistedNetwork)
    (answer : WriteAnswer) : (s.saveNetwork network answer).devices = s.devices := by
  unfold saveNetwork
  split <;> rfl

end Store
end Rszigbee
