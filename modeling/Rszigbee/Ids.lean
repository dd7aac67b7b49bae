import Mathlib.Data.UInt

/-! Addresses and identifiers shared by every layer.
They are fixed-width as in the source; times are counts of nanoseconds. -/
namespace Rszigbee

/-- The permanent identity of a node. -/
structure Ieee where
  raw : UInt64
  deriving DecidableEq

/-- A short address, reassigned on rejoin. -/
structure Nwk where
  raw : UInt16
  deriving DecidableEq

structure ClusterId where
  raw : UInt16
  deriving DecidableEq

structure AttrId where
  raw : UInt16
  deriving DecidableEq

structure CommandId where
  raw : UInt8
  deriving DecidableEq

structure EndpointId where
  raw : UInt8
  deriving DecidableEq

structure GroupId where
  raw : UInt16
  deriving DecidableEq

structure ProfileId where
  raw : UInt16
  deriving DecidableEq

structure ManufacturerCode where
  raw : UInt16
  deriving DecidableEq

/-- A ZDO cluster: requests below `0x8000`, responses above. -/
structure ZdoClusterId where
  raw : UInt16
  deriving DecidableEq

abbrev Bytes := List UInt8

/-- What holds of each of the 256 bytes holds of every byte. -/
theorem forall_byte {P : UInt8 → Prop} (h : ∀ n : Fin 256, P (.ofNat n)) (b : UInt8) : P b := by
  have hb := h ⟨b.toNat,b.toNat_lt⟩
  rwa [UInt8.ofNat_toNat] at hb

/-- A span of time. -/
abbrev Duration := ℕ

/-- A reading of the monotonic clock. -/
abbrev Instant := ℕ

/-- A reading of the wall clock, from the Unix epoch; it may step backwards. -/
abbrev SystemTime := ℤ

def Duration.fromSecs (s : ℕ) : Duration := s * 1000000000

def Duration.fromMillis (ms : ℕ) : Duration := ms * 1000000

namespace Nwk

def coordinator : Nwk := ⟨0x0000⟩

end Nwk

namespace ProfileId

def ha : ProfileId := ⟨0x0104⟩

end ProfileId

namespace ZdoClusterId

def nodeDescReq : ZdoClusterId := ⟨0x0002⟩
def simpleDescReq : ZdoClusterId := ⟨0x0004⟩
def activeEpReq : ZdoClusterId := ⟨0x0005⟩
def bindReq : ZdoClusterId := ⟨0x0021⟩

def response (c : ZdoClusterId) : ZdoClusterId := ⟨c.raw ||| 0x8000⟩

end ZdoClusterId

end Rszigbee
