import Rszigbee.Values
import Rszigbee.Tables

/-! The cluster registry: global clusters, and the ones of single devices before them. -/
namespace Rszigbee

structure AttrDef where
  id : AttrId
  name : String
  ty : ZclType
  manufacturer : Option ManufacturerCode := none
  deriving DecidableEq

structure ParamDef where
  name : String
  ty : ZclType
  deriving DecidableEq

/-- A command; `untypedParameters` marks one that cannot be encoded. -/
structure CommandDef where
  id : CommandId
  name : String
  params : List ParamDef
  untypedParameters : Bool := false
  deriving DecidableEq

structure ClusterDef where
  id : ClusterId
  name : String
  manufacturer : Option ManufacturerCode := none
  attributes : Table UInt16 AttrDef := ∅
  commands : Table UInt8 CommandDef := ∅
  responses : Table UInt8 CommandDef := ∅

namespace ClusterDef

def new (id : UInt16) (name : String) : ClusterDef where
  id := ⟨id⟩
  name := name

def attr (c : ClusterDef) (id : UInt16) (name : String) (ty : ZclType) : ClusterDef :=
  { c with attributes := c.attributes.insert id ⟨⟨id⟩,name,ty,none⟩ }

def command (id : UInt8) (name : String) (params : List (String × ZclType)) : CommandDef where
  id := ⟨id⟩
  name := name
  params := params.map fun p => ⟨p.1,p.2⟩

def cmd (c : ClusterDef) (id : UInt8) (name : String) (params : List (String × ZclType)) :
    ClusterDef :=
  { c with commands := c.commands.insert id (command id name params) }

def rsp (c : ClusterDef) (id : UInt8) (name : String) (params : List (String × ZclType)) :
    ClusterDef :=
  { c with responses := c.responses.insert id (command id name params) }

end ClusterDef

structure ClusterRegistry where
  global : Table UInt16 ClusterDef := ∅
  perDevice : Table Ieee (Table UInt16 ClusterDef) := ∅

namespace ClusterRegistry

def insertGlobal (r : ClusterRegistry) (c : ClusterDef) : ClusterRegistry :=
  { r with global := r.global.insert c.id.raw c }

def insertForDevice (r : ClusterRegistry) (ieee : Ieee) (c : ClusterDef) : ClusterRegistry :=
  let own := (r.perDevice.lookup ieee).getD ∅
  { r with perDevice := r.perDevice.insert ieee (own.insert c.id.raw c) }

/-- A cluster as the device has it. -/
def get (r : ClusterRegistry) (ieee : Option Ieee) (id : ClusterId) : Option ClusterDef :=
  ((ieee.bind r.perDevice.lookup).bind fun own => own.lookup id.raw) <|> r.global.lookup id.raw

def attr (r : ClusterRegistry) (ieee : Option Ieee) (cluster : ClusterId) (attr : AttrId) :
    Option AttrDef :=
  (r.get ieee cluster).bind fun c => c.attributes.lookup attr.raw

end ClusterRegistry
end Rszigbee
