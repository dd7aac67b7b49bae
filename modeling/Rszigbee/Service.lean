import Rszigbee.Ember
import Rszigbee.LittleEndian

/-! The Ember adapter in service: what it asks the NCP about the network it is on, and the join
window it has it open. -/
namespace Rszigbee

/-- The address some bytes denote, most significant first. -/
def Ieee.fromBeBytes (b : Bytes) : Ieee := ⟨.ofNat (LittleEndian.value b.reverse)⟩

namespace Ember

structure NetworkKeyInfo where
  networkKeySequenceNumber : UInt8
  networkKeyFrameCounter : UInt32
  deriving DecidableEq

/-- Which key is exported. -/
inductive SecurityManContext
  | networkKey
  deriving DecidableEq

/-- Whose key is imported. -/
inductive Eui64
  | wildcard
  deriving DecidableEq

inductive SecurityManFlags
  | none
  deriving DecidableEq

/-- The EZSP commands about the network that a running adapter sends. -/
inductive Request
  | getNetworkParameters
  | getNetworkKeyInfo
  | exportKey (context : SecurityManContext)
  | importTransientKey (eui64 : Eui64) (key : Vector UInt8 16) (flags : SecurityManFlags)
  | clearTransientLinkKeys
  | permitJoining (duration : UInt8)
  deriving DecidableEq

namespace Request

def Response : Request → Type
  | getNetworkParameters => SlStatus × NetworkParameters
  | getNetworkKeyInfo => SlStatus × NetworkKeyInfo
  | exportKey _ => SlStatus × Vector UInt8 16
  | importTransientKey _ _ _ => SlStatus
  | clearTransientLinkKeys => Unit
  | permitJoining _ => SlStatus

end Request

/-- What the NCP answers while the adapter does one thing in service. -/
abbrev Answers := (c : Request) → Except EzspError c.Response

abbrev Service := Dialogue Request (fun c => Except EzspError c.Response) AdapterError

/-- One request, with what to say if it is not answered. -/
def ask (what : String) (c : Request) : Service c.Response := do
  match ← Dialogue.command c with
  | .ok response => pure response
  | .error e => .done (.error (context what e))

theorem result_ask_eq_ok (answers : Answers) (what : String) (c : Request) (r : c.Response) :
    (ask what c).result answers = .ok r ↔ answers c = .ok r := by
  rw [ask,Dialogue.result_bind,Dialogue.result_command]
  cases answers c <;> simp

theorem issued_ask (answers : Answers) (what : String) (c : Request) :
    (ask what c).issued answers = [c] := by
  rw [ask,Dialogue.issued_bind,Dialogue.result_command]
  cases answers c <;> rfl

variable (z : Rsezsp)

namespace Bringup

/-- The well-known Zigbee 3.0 default trust-centre link key: the same ASCII bytes as the one a
network is formed with. -/
def wellKnownTcLinkKey : Vector UInt8 16 := Form.zigbeeAlliance09

def importCommissioningKey : Request := .importTransientKey .wildcard wellKnownTcLinkKey .none

/-- Installs the commissioning key for the duration of a join window. -/
def installCommissioningKey : Service Unit := do
  let status ← ask ("cannot install the commissioning key. Without it a Zigbee 3.0 device " ++
    "joins at the MAC layer and can never finish commissioning") importCommissioningKey
  .done (check z "installing the commissioning key" status)

/-- Removes it again once joining is closed. -/
def clearCommissioningKey : Service Unit :=
  ask "cannot clear the commissioning key" .clearTransientLinkKeys

end Bringup

namespace EmberAdapter

variable (adapter : EmberAdapter)

def connection : Except AdapterError UInt8 :=
  match adapter.session with
  | some session => .ok session
  | none => .error .notConnected

def networkInfo : Service NetworkInfo := do
  let _ ← .done adapter.connection
  let (status,params) ← ask "cannot read the network parameters" .getNetworkParameters
  .done (check z "reading the network parameters" status)
  let (status,keyInfo) ← ask "cannot read the network key info" .getNetworkKeyInfo
  .done (check z "reading the network key info" status)
  pure {
    panId := params.panId
    extendedPanId := (Ieee.fromBeBytes params.extendedPanId).raw
    channel := params.radioChannel
    nwkUpdateId := params.nwkUpdateId
    keySequence := keyInfo.networkKeySequenceNumber
    frameCounter := keyInfo.networkKeyFrameCounter }

def exportKey : Service (Except EzspError (SlStatus × Vector UInt8 16)) :=
  Dialogue.command (Request.exportKey .networkKey)

/-- A refusal to export the key is an answer. -/
def networkKey : Service (Option SecretKey) := do
  let _ ← .done adapter.connection
  match ← exportKey with
  | .ok (status,key) => pure (if z.isOk status then some ⟨key⟩ else none)
  | .error _ => pure none

/-- EZSP takes the seconds as a byte, and 255 as "forever". -/
def joinSeconds (duration : Duration) : UInt8 :=
  let seconds := duration / 1000000000
  min (if seconds < 256 then .ofNat seconds else 254) 254

/-- The key is in place before the window opens. -/
def permitJoin (duration : Duration) (via : Option Nwk) : Service Unit := do
  if via.isSome then
    .done (.error (.unsupported
      "permit join via a specific router (send Mgmt_Permit_Joining_req instead)"))
  else
    let seconds := joinSeconds duration
    let _ ← .done adapter.connection
    if seconds = 0 then Bringup.clearCommissioningKey else Bringup.installCommissioningKey z
    let status ← ask "cannot open the join window" (.permitJoining seconds)
    .done (check z "opening the join window" status)

end EmberAdapter
end Ember
end Rszigbee
