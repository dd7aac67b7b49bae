import Rszigbee.Adapter
import Rszigbee.Dialogue

/-! The Ember adapter bringing a coordinator up: the EZSP commands it puts to the NCP, in
order, and what it makes of the answers. -/
namespace Rszigbee
namespace Ember

structure NetworkStatus where
  raw : UInt8
  deriving DecidableEq

structure SlStatus where
  raw : UInt32
  deriving DecidableEq

abbrev EzspError := String

/-- Stack settings the adapter writes. -/
inductive ConfigId
  | stackProfile | securityLevel | maxEndDeviceChildren | endDevicePollTimeout
  | indirectTransmissionTimeout | trustCenterAddressCacheSize
  deriving DecidableEq

inductive PolicyId
  | trustCenter | tcKeyRequest | appKeyRequest
  deriving DecidableEq

inductive NetworkInitBitmask
  | parentInfoInToken
  deriving DecidableEq

inductive SecurityFlag
  | trustCenterGlobalLinkKey | havePreconfiguredKey | haveNetworkKey
  | trustCenterUsesHashedLinkKey | requireEncryptedKey
  deriving DecidableEq

structure InitialSecurityState where
  bitmask : List SecurityFlag
  preconfiguredKey : Vector UInt8 16
  networkKey : Vector UInt8 16
  networkKeySequenceNumber : UInt8
  preconfiguredTrustCenterEui64 : UInt64
  deriving DecidableEq

structure NetworkParameters where
  extendedPanId : Bytes
  panId : UInt16
  radioTxPower : UInt8
  radioChannel : UInt8
  joinMethod : UInt8
  nwkManagerId : UInt16
  nwkUpdateId : UInt8
  channels : UInt32
  deriving DecidableEq

/-- The EZSP commands of a start that are answered with a status alone. -/
inductive Order
  | addEndpoint (endpoint : EndpointId) (profileId : ProfileId) (deviceId : UInt16)
      (appFlags : UInt8) (inputClusters outputClusters : List UInt16)
  | setConfigurationValue (configId : ConfigId) (value : UInt16)
  | setPolicy (policyId : PolicyId) (decision : UInt8)
  | networkInit (bitmask : NetworkInitBitmask)
  | setInitialSecurityState (state : InitialSecurityState)
  | formNetwork (parameters : NetworkParameters)
  deriving DecidableEq

inductive Command
  | getEui64
  | setManufacturerCode (code : ManufacturerCode)
  | getConfigurationValue (configId : ConfigId)
  | networkState
  | order (o : Order)
  deriving DecidableEq

namespace Command

/-- What the NCP says to a command; an address comes as its wire bytes. -/
def Response : Command → Type
  | getEui64 => Vector UInt8 8
  | setManufacturerCode _ => Unit
  | getConfigurationValue _ => SlStatus × UInt16
  | networkState => NetworkStatus
  | order _ => SlStatus

/-- The one command that creates a network. -/
def Forms : Command → Prop
  | order (.formNetwork _) => True
  | _ => False

end Command

/-- What the NCP answers while the adapter starts. No command is sent twice in a start, so
this is a function of the command. -/
abbrev Ncp := (c : Command) → Except EzspError c.Response

/-- Work over an EZSP connection. -/
abbrev Ezsp := Dialogue Command (fun c => Except EzspError c.Response) AdapterError

/-- What the adapter uses of `rsezsp`: its constants, which statuses are good, and how
its values are shown. -/
structure Rsezsp where
  isOk : SlStatus → Bool
  isJoined : NetworkStatus → Bool
  noNetwork : NetworkStatus
  allowTcKeyRequestSameKey : UInt8
  denyAppKeyRequests : UInt8
  showStatus : SlStatus → String
  showNetworkStatus : NetworkStatus → String
  showConfig : ConfigId → String
  showPolicy : PolicyId → String
  noNetwork_not_joined : isJoined noNetwork = false

/-- Turns an EZSP failure into the adapter's error type, with context. -/
def context (what : String) (error : EzspError) : AdapterError :=
  .transport (what ++ ": " ++ error)

/-- One command, with what to say if it is not answered. -/
def call (what : String) (c : Command) : Ezsp c.Response := do
  match ← Dialogue.command c with
  | .ok response => pure response
  | .error e => .done (.error (context what e))

def getEui64 : Ezsp (Vector UInt8 8) := call "cannot read the coordinator address" .getEui64

def networkState : Ezsp NetworkStatus := call "cannot read the network state" .networkState

/-- An order, as far as its status. -/
def order (what : String) (o : Order) : Ezsp SlStatus := call what (.order o)

/-- An order, with whatever comes of it. -/
def attempt (o : Order) : Ezsp (Except EzspError (Command.order o).Response) :=
  Dialogue.command (Command.order o)

variable (z : Rsezsp)

/-- Turns a non-success status into an adapter error, with context. -/
def check (what : String) (status : SlStatus) : Except AdapterError Unit :=
  if z.isOk status then .ok () else .error (context what (z.showStatus status))

namespace Bringup

def primaryEndpoint : EndpointId := ⟨1⟩
def coordinatorDeviceId : UInt16 := 0x0065
def inClusters : List UInt16 := [0x0000,0x0003,0x0006,0x0008,0x000a,0x0019,0x0300]
def outClusters : List UInt16 :=
  [0x0000,0x0003,0x0004,0x0005,0x0006,0x0008,0x0020,0x0300,0x0400,0x0402,0x0405,0x0406,
    0x0500,0x0702,0x0b01,0x0b03,0x0b04,0x1000]

/-- Whether a stored network was found and resumed. -/
inductive StoredNetwork
  | resumed | none
  deriving DecidableEq

def coordinatorEndpoint : Order :=
  .addEndpoint primaryEndpoint .ha coordinatorDeviceId 0 inClusters outClusters

def setManufacturerCode (manufacturer : ManufacturerCode) : Ezsp Unit :=
  call "cannot set the manufacturer code" (.setManufacturerCode manufacturer)

def configureEndpoints (manufacturer : ManufacturerCode) : Ezsp Unit := do
  let status ← order
    ("cannot register coordinator endpoint 1. Without an endpoint the coordinator has " ++
      "nowhere to receive ZCL traffic") coordinatorEndpoint
  .done (check z "registering the coordinator endpoint" status)
  setManufacturerCode manufacturer

structure Setting where
  configId : ConfigId
  value : UInt16
  required : Bool
  affects : String

/-- The three a device reads out of a beacon are required. -/
def settings : List Setting :=
  [⟨.stackProfile,2,true,"ZigBee Pro; advertised in every beacon"⟩,
   ⟨.securityLevel,5,true,"standard security; advertised in every beacon"⟩,
   ⟨.maxEndDeviceChildren,32,true,
    "beacon end-device capacity; sleepy devices join as children"⟩,
   ⟨.endDevicePollTimeout,8,false,
    "how long a sleepy child may stay silent before it is dropped"⟩,
   ⟨.indirectTransmissionTimeout,7680,false,
    "how long a message for a sleepy child is held for its next poll"⟩,
   ⟨.trustCenterAddressCacheSize,2,false,"trust-centre address cache"⟩]

def Setting.order (s : Setting) : Order := .setConfigurationValue s.configId s.value

/-- Writes a setting, and says what went wrong if it was not taken. -/
def write (s : Setting) : Ezsp (Option String) := do
  match ← attempt s.order with
  | .ok status => pure (if z.isOk status then none else some (z.showStatus status))
  | .error e => pure (some e)

/-- The value is read back for the log before it is written; a failure to read it is
ignored, and so is one to write it unless the setting is required. -/
def configure (s : Setting) : Ezsp Unit := do
  let _ ← Dialogue.command (.getConfigurationValue s.configId)
  match ← write z s with
  | none => pure ()
  | some e =>
    if !s.required then pure ()
    else .done (.error (.transport
      ("cannot set " ++ z.showConfig s.configId ++ " to " ++ toString s.value ++ " (" ++
        s.affects ++ "): transport error: setting a configuration value: " ++ e ++
        ". A device scanning for a network reads this out of the coordinator's beacon, " ++
        "and will not attempt to join at all if it is wrong.")))

def configureStack : Ezsp Unit := forM settings (configure z)

/-- `ALLOW_JOINS | ALLOW_UNSECURED_REJOINS`. -/
def allowJoins : UInt8 := 0x01 ||| 0x02

def joinPolicies : List (PolicyId × UInt8 × String) :=
  [(.trustCenter,allowJoins,"admit joining devices"),
   (.tcKeyRequest,z.allowTcKeyRequestSameKey,"answer link key requests"),
   (.appKeyRequest,z.denyAppKeyRequests,"refuse application key requests")]

def setJoinPolicy (policy : PolicyId × UInt8 × String) : Ezsp Unit := do
  let status ← order
    ("cannot set the " ++ z.showPolicy policy.1 ++ " policy to " ++ policy.2.2 ++
      ". Without it a device cannot join even while joining is open")
    (.setPolicy policy.1 policy.2.1)
  .done (check z ("setting the " ++ z.showPolicy policy.1 ++ " policy") status)

def configureJoinPolicies : Ezsp Unit := forM (joinPolicies z) (setJoinPolicy z)

/-- `EMBER_NOT_JOINED`, the answer for "nothing stored". -/
def notJoined : UInt32 := 0x93

def resumeStoredNetwork : Ezsp StoredNetwork := do
  let status ← order "network_init failed" (.networkInit .parentInfoInToken)
  if z.isOk status then pure .resumed
  else if status.raw = notJoined then pure .none
  else .done (.error (.transport ("network_init failed: " ++ z.showStatus status)))

end Bringup

/-- How opening the serial port went. -/
inductive OpenAnswer
  | opened
  | failed (error : String)
  | taskFailed (error : String)
  | timedOut

/-- How the reset handshake and version negotiation went. -/
inductive NegotiateAnswer
  | negotiated (version : UInt8)
  | unsupportedVersion (negotiated : UInt8)
  | failed (error : String)
  | timedOut

/-- What the operating system answers while the adapter starts: the serial port, and its
random source for a key and for a PAN id. -/
structure Host where
  openPort : OpenAnswer
  negotiate : NegotiateAnswer
  randomKey : Except String (Vector UInt8 16)
  randomPanId : Except String UInt16

namespace Session

def negotiateTimeout : Duration := .fromSecs 10

def openPort (path : String) : OpenAnswer → Except AdapterError Unit
  | .opened => .ok ()
  | .failed e => .error (.transport ("cannot open " ++ path ++ ": " ++ e))
  | .taskFailed e => .error (.transport ("open task failed: " ++ e))
  | .timedOut => .error (.transport
      ("opening " ++ path ++ " did not complete within 5s. This is what a hardware flow " ++
        "control mismatch looks like: open(2) blocks in the kernel waiting for CTS. Try " ++
        "flow control off."))

/-- Opens the port and brings an EZSP session up, which speaks the version returned. -/
def connect (path : String) (host : Host) : Except AdapterError UInt8 := do
  openPort path host.openPort
  match host.negotiate with
  | .negotiated version => .ok version
  | .unsupportedVersion v => .error (.incompatibleFirmware
      ("the NCP speaks EZSP " ++ toString v ++ ", which this build does not support"))
  | .failed e => .error (.transport ("EZSP negotiation failed: " ++ e))
  | .timedOut => .error (.timeout negotiateTimeout)

end Session

namespace Form

/-- The well-known global trust-centre link key, in ASCII. -/
def zigbeeAlliance09 : Vector UInt8 16 :=
  #v[0x5a,0x69,0x67,0x42,0x65,0x65,0x41,0x6c,0x6c,0x69,0x61,0x6e,0x63,0x65,0x30,0x39]

def generateNetworkKey (host : Host) : Except AdapterError SecretKey :=
  match host.randomKey with
  | .ok key => .ok ⟨key⟩
  | .error e => .error (.transport
      ("cannot generate a network key from the system CSPRNG: " ++ e ++
        ". Refusing to form a network rather than use weak key material."))

def deriveExtendedPanId (coordinator : Ieee) : UInt64 := coordinator.raw

/-- Maps a value into the usable PAN id range. -/
def sanitisePanId (candidate : UInt16) : UInt16 :=
  if candidate = 0x0000 ∨ candidate = 0xffff then 0x1a62 else candidate

def choosePanId (host : Host) : Except AdapterError UInt16 :=
  match host.randomPanId with
  | .ok candidate => .ok (sanitisePanId candidate)
  | .error e => .error (.transport ("cannot generate a PAN id: " ++ e))

def initialSecurityState (networkKey : SecretKey) : InitialSecurityState where
  bitmask := [.trustCenterGlobalLinkKey,.havePreconfiguredKey,.haveNetworkKey,
    .trustCenterUsesHashedLinkKey,.requireEncryptedKey]
  preconfiguredKey := zigbeeAlliance09
  networkKey := networkKey.bytes
  networkKeySequenceNumber := 0
  preconfiguredTrustCenterEui64 := 0

/-- What forming produced. -/
structure Formed where
  panId : UInt16
  extendedPanId : UInt64
  channel : UInt8
  networkKey : SecretKey
  deriving DecidableEq

def networkKey (host : Host) (config : NetworkConfig) : Except AdapterError SecretKey :=
  match config.networkKey with
  | some key => .ok key
  | none => generateNetworkKey host

def panId (host : Host) (config : NetworkConfig) : Except AdapterError UInt16 :=
  match config.panId with
  | some p => .ok (sanitisePanId p)
  | none => choosePanId host

/-- What the NCP is told to form. The mask overflows from channel 32 on: the source panics there,
and this wraps. -/
def parameters (panId : UInt16) (extendedPanId : UInt64) (channel : UInt8) :
    NetworkParameters where
  extendedPanId := le64 extendedPanId
  panId := panId
  radioTxPower := 8
  radioChannel := channel
  joinMethod := 0
  nwkManagerId := 0
  nwkUpdateId := 0
  channels := 1 <<< channel.toUInt32

/-- Forms a new network on the coordinator. -/
def form (host : Host) (coordinator : Ieee) (config : NetworkConfig) : Ezsp Formed := do
  let key ← .done (networkKey host config)
  let pan ← .done (panId host config)
  let extended := config.extendedPanId.getD (deriveExtendedPanId coordinator)
  let status ← order "cannot set the initial security state"
    (.setInitialSecurityState (initialSecurityState key))
  .done (check z "setting the initial security state" status)
  let status ← order "form_network failed"
    (.formNetwork (parameters pan extended config.channel))
  .done (check z "forming the network" status)
  pure ⟨pan,extended,config.channel,key⟩

end Form

/-- Silicon Labs' manufacturer code. -/
def silabs : ManufacturerCode := ⟨0x1049⟩

/-- The wire order is little-endian. -/
def euiToIeee (eui : Vector UInt8 8) : Ieee :=
  ⟨eui.reverse.toList.foldl (fun acc b => acc <<< 8 ||| b.toUInt64) 0⟩

structure EmberAdapter where
  path : String
  session : Option UInt8 := none
  coordinator : Option Ieee := none
  formed : Option Form.Formed := none
  deriving DecidableEq

namespace EmberAdapter

/-- Derives the start outcome from the coordinator's reported network state. -/
def outcomeFor (state : NetworkStatus) (policy : MismatchPolicy) :
    Except AdapterError StartOutcome :=
  if z.isJoined state then .ok .resumed
  else if state = z.noNetwork then
    match policy with
    | .form => .ok .formed
    | .fail => .error (.networkMismatch
        ("the coordinator has no network formed. Forming one would create a new network " ++
          "that no existing device is joined to; pass MismatchPolicy::Form to do that " ++
          "deliberately."))
  else .error (.networkMismatch
    ("coordinator is in a transient network state (" ++ z.showNetworkStatus state ++
      "); retry shortly"))

/-- `start` as far as the outcome: the session, the coordinator's address, the stack's
configuration, the stored network resumed, the network state. -/
def bringUp (path : String) (host : Host) (policy : MismatchPolicy) :
    Ezsp (UInt8 × Ieee × StartOutcome) := do
  let version ← .done (Session.connect path host)
  let eui ← getEui64
  Bringup.configureEndpoints z silabs
  Bringup.configureStack z
  Bringup.configureJoinPolicies z
  let _ ← Bringup.resumeStoredNetwork z
  let state ← networkState
  let outcome ← .done (outcomeFor z state policy)
  pure (version,euiToIeee eui,outcome)

def start (adapter : EmberAdapter) (host : Host) (network : NetworkConfig) :
    Ezsp (StartOutcome × EmberAdapter) := do
  let (version,coordinator,outcome) ← bringUp z adapter.path host network.onMismatch
  match outcome with
  | .formed =>
    let formed ← Form.form z host coordinator network
    pure (outcome,{ adapter with
      formed := some formed, coordinator := some coordinator, session := some version })
  | _ => pure (outcome,{ adapter with
      coordinator := some coordinator, session := some version })

/-- The address is kept from the start, and read again only when it is not known. -/
def coordinatorIeee (adapter : EmberAdapter) : Ezsp Ieee :=
  match adapter.coordinator,adapter.session with
  | some known,_ => pure known
  | none,none => .done (.error .notConnected)
  | none,some _ => do
    let eui ← getEui64
    pure (euiToIeee eui)

end EmberAdapter

/-- Which statuses the adapter goes on from. -/
def Order.accepted : Order → SlStatus → Bool
  | .networkInit _,status => z.isOk status || decide (status.raw = Bringup.notJoined)
  | _,status => z.isOk status

/-- The NCP takes an order. -/
def Ncp.Accepts (ncp : Ncp) (o : Order) : Prop :=
  ∃ status, ncp (.order o) = .ok status ∧ o.accepted z status

theorem Ncp.accepts_iff {ncp : Ncp} {o : Order} {status : SlStatus}
    (h : ncp (.order o) = .ok status) : ncp.Accepts z o ↔ o.accepted z status := by
  constructor
  · rintro ⟨other,hother,haccepted⟩
    obtain rfl : status = other := Except.ok.inj (h.symm.trans hother)
    exact haccepted
  · intro haccepted
    exact ⟨status,h,haccepted⟩

section Answers

variable (ncp : Ncp)

theorem result_call_eq_ok (what : String) (c : Command) (r : c.Response) :
    (call what c).result ncp = .ok r ↔ ncp c = .ok r := by
  rw [call,Dialogue.result_bind,Dialogue.result_command]
  cases ncp c <;> simp

theorem result_order_eq_ok (what : String) (o : Order) (status : SlStatus) :
    (order what o).result ncp = .ok status ↔ ncp (.order o) = .ok status :=
  result_call_eq_ok ncp what (.order o) status

theorem check_eq_ok (what : String) (status : SlStatus) (u : Unit) :
    check z what status = .ok u ↔ z.isOk status := by
  unfold check
  split <;> simp_all

/-- What a bring-up needs of the NCP before it asks for the network state. -/
structure Ncp.Prepared : Prop where
  endpoint : ncp.Accepts z Bringup.coordinatorEndpoint
  manufacturer : ncp (.setManufacturerCode silabs) = .ok ()
  settings : ∀ s ∈ Bringup.settings, s.required → ncp.Accepts z s.order
  policies : ∀ p ∈ Bringup.joinPolicies z, ncp.Accepts z (.setPolicy p.1 p.2.1)
  network : ncp.Accepts z (.networkInit .parentInfoInToken)

namespace Bringup

theorem configureEndpoints_eq_ok (manufacturer : ManufacturerCode) :
    (configureEndpoints z manufacturer).result ncp = .ok () ↔
      ncp.Accepts z coordinatorEndpoint ∧ ncp (.setManufacturerCode manufacturer) = .ok () := by
  have hset : (setManufacturerCode manufacturer).result ncp = .ok () ↔ _ :=
    result_call_eq_ok ncp _ (.setManufacturerCode manufacturer) ()
  simp only [configureEndpoints,Dialogue.result_bind_eq_ok,result_order_eq_ok,
    Dialogue.result_done,check_eq_ok,hset,Ncp.Accepts]
  constructor
  · rintro ⟨status,hstatus,_,hok,hset⟩
    exact ⟨⟨status,hstatus,hok⟩,hset⟩
  · rintro ⟨⟨status,hstatus,hok⟩,hset⟩
    exact ⟨status,hstatus,(),hok,hset⟩

/-- A write comes to nothing wrong exactly when the NCP takes it. -/
theorem write_eq_ok (s : Setting) :
    ∃ refused, (write z s).result ncp = .ok refused ∧
      (refused = none ↔ ncp.Accepts z s.order) := by
  have hattempt : (attempt s.order).result ncp = .ok (ncp (.order s.order)) := rfl
  rw [write,Dialogue.result_bind,hattempt]
  cases h : ncp (.order s.order) with
  | error e => exact ⟨some e,rfl,by simp [Ncp.Accepts,h]⟩
  | ok status =>
    refine ⟨_,rfl,?_⟩
    have haccepts : ncp.Accepts z s.order ↔ z.isOk status := Ncp.accepts_iff z h
    rw [haccepts]
    by_cases hok : z.isOk status <;> simp [hok]

theorem configure_eq_ok (s : Setting) :
    (configure z s).result ncp = .ok () ↔ (s.required → ncp.Accepts z s.order) := by
  obtain ⟨refused,hwrite,hrefused⟩ := write_eq_ok z ncp s
  rw [configure,Dialogue.result_bind,Dialogue.result_command,← hrefused]
  show (write z s >>= _).result ncp = _ ↔ _
  rw [Dialogue.result_bind,hwrite]
  cases refused with
  | none => simp
  | some e => by_cases hrequired : s.required <;> simp [hrequired]

theorem configureStack_eq_ok :
    (configureStack z).result ncp = .ok () ↔
      ∀ s ∈ settings, s.required → ncp.Accepts z s.order := by
  rw [configureStack,Dialogue.result_forM_eq_ok]
  exact forall₂_congr fun s _ => configure_eq_ok z ncp s

theorem setJoinPolicy_eq_ok (policy : PolicyId × UInt8 × String) :
    (setJoinPolicy z policy).result ncp = .ok () ↔
      ncp.Accepts z (.setPolicy policy.1 policy.2.1) := by
  simp only [setJoinPolicy,Dialogue.result_bind_eq_ok,result_order_eq_ok,
    Dialogue.result_done,check_eq_ok]
  exact Iff.rfl

theorem configureJoinPolicies_eq_ok :
    (configureJoinPolicies z).result ncp = .ok () ↔
      ∀ p ∈ joinPolicies z, ncp.Accepts z (.setPolicy p.1 p.2.1) := by
  rw [configureJoinPolicies,Dialogue.result_forM_eq_ok]
  exact forall₂_congr fun p _ => setJoinPolicy_eq_ok z ncp p

theorem resumeStoredNetwork_eq_ok :
    (∃ stored, (resumeStoredNetwork z).result ncp = .ok stored) ↔
      ncp.Accepts z (.networkInit .parentInfoInToken) := by
  simp only [resumeStoredNetwork,Dialogue.result_bind_eq_ok,result_order_eq_ok,Ncp.Accepts,
    Order.accepted]
  rw [exists_comm]
  refine exists_congr fun status => ?_
  rw [exists_and_left]
  refine and_congr_right fun _ => ?_
  by_cases hok : z.isOk status
  · simp [hok]
  · by_cases hjoined : status.raw = notJoined <;> simp [hok,hjoined]

end Bringup

/-- What forming needs of the random source and the NCP. -/
def Formable (host : Host) (coordinator : Ieee) (config : NetworkConfig) : Prop :=
  ∃ key pan, Form.networkKey host config = .ok key ∧ Form.panId host config = .ok pan ∧
    ncp.Accepts z (.setInitialSecurityState (Form.initialSecurityState key)) ∧
    ncp.Accepts z (.formNetwork (Form.parameters pan
      (config.extendedPanId.getD (Form.deriveExtendedPanId coordinator)) config.channel))

namespace Form

theorem form_eq_ok (host : Host) (coordinator : Ieee) (config : NetworkConfig) :
    (∃ formed, (form z host coordinator config).result ncp = .ok formed) ↔
      Formable z ncp host coordinator config := by
  simp only [form,Dialogue.result_bind_eq_ok,result_order_eq_ok,Dialogue.result_done,
    check_eq_ok,Dialogue.result_pure]
  constructor
  · rintro ⟨_,key,hkey,pan,hpan,security,hsecurity,_,hsecured,status,hstatus,_,hok,_⟩
    exact ⟨key,pan,hkey,hpan,⟨security,hsecurity,hsecured⟩,status,hstatus,hok⟩
  · rintro ⟨key,pan,hkey,hpan,⟨security,hsecurity,hsecured⟩,status,hstatus,hok⟩
    exact ⟨_,key,hkey,pan,hpan,security,hsecurity,(),hsecured,status,hstatus,(),hok,rfl⟩

end Form

namespace EmberAdapter

theorem bringUp_eq_ok (path : String) (host : Host) (policy : MismatchPolicy)
    (version : UInt8) (coordinator : Ieee) (outcome : StartOutcome) :
    (bringUp z path host policy).result ncp = .ok (version,coordinator,outcome) ↔
      Session.connect path host = .ok version ∧
      (∃ eui, ncp .getEui64 = .ok eui ∧ euiToIeee eui = coordinator) ∧ ncp.Prepared z ∧
      ∃ state, ncp .networkState = .ok state ∧ outcomeFor z state policy = .ok outcome := by
  have heui : ∀ eui, (getEui64).result ncp = .ok eui ↔ ncp .getEui64 = .ok eui :=
    result_call_eq_ok ncp _ .getEui64
  have hstate : ∀ state, (networkState).result ncp = .ok state ↔
      ncp .networkState = .ok state := result_call_eq_ok ncp _ .networkState
  simp only [bringUp,Dialogue.result_bind_eq_ok,Dialogue.result_done,heui,hstate,
    Dialogue.result_pure,Except.ok.injEq,Prod.mk.injEq]
  constructor
  · rintro ⟨_,hconnect,eui,heui,_,hendpoint,_,hstack,_,hpolicies,stored,hstored,state,hstate,_,
      houtcome,rfl,rfl,rfl⟩
    have hnetwork := (Bringup.resumeStoredNetwork_eq_ok z ncp).mp ⟨stored,hstored⟩
    have hendpoint := (Bringup.configureEndpoints_eq_ok z ncp silabs).mp hendpoint
    exact ⟨hconnect,⟨eui,heui,rfl⟩,⟨hendpoint.1,hendpoint.2,
      (Bringup.configureStack_eq_ok z ncp).mp hstack,
      (Bringup.configureJoinPolicies_eq_ok z ncp).mp hpolicies,hnetwork⟩,state,hstate,houtcome⟩
  · rintro ⟨hconnect,⟨eui,heui,rfl⟩,hprepared,state,hstate,houtcome⟩
    obtain ⟨stored,hstored⟩ := (Bringup.resumeStoredNetwork_eq_ok z ncp).mpr hprepared.network
    exact ⟨_,hconnect,eui,heui,(),
      (Bringup.configureEndpoints_eq_ok z ncp silabs).mpr
        ⟨hprepared.endpoint,hprepared.manufacturer⟩,(),
      (Bringup.configureStack_eq_ok z ncp).mpr hprepared.settings,(),
      (Bringup.configureJoinPolicies_eq_ok z ncp).mpr hprepared.policies,stored,hstored,
      state,hstate,_,houtcome,rfl,rfl,rfl⟩

theorem outcomeFor_eq_formed (state : NetworkStatus) (policy : MismatchPolicy) :
    outcomeFor z state policy = .ok .formed ↔ state = z.noNetwork ∧ policy = .form := by
  unfold outcomeFor
  by_cases hjoined : z.isJoined state
  · have hne : state ≠ z.noNetwork := by
      rintro rfl
      rw [z.noNetwork_not_joined] at hjoined
      cases hjoined
    simp [hjoined,hne]
  · rw [if_neg hjoined]
    by_cases hnone : state = z.noNetwork
    · rw [if_pos hnone]
      cases policy with
      | fail => exact iff_of_false nofun (fun h => nomatch h.2)
      | form => exact iff_of_true rfl ⟨hnone,rfl⟩
    · rw [if_neg hnone]
      exact iff_of_false nofun fun h => hnone h.1

/-- When starting the adapter forms a network: the session opens and the NCP takes the
bring-up, it says it has no network, forming was asked for, and nothing stops that. -/
structure Forms (path : String) (host : Host) (network : NetworkConfig) : Prop where
  connected : ∃ version, Session.connect path host = .ok version
  prepared : ncp.Prepared z
  blank : ncp .networkState = .ok z.noNetwork
  optedIn : network.onMismatch = .form
  formable : ∃ eui, ncp .getEui64 = .ok eui ∧ Formable z ncp host (euiToIeee eui) network

/-- What a start that succeeds has done after bringing the coordinator up. -/
theorem start_eq_ok (adapter : EmberAdapter) (host : Host) (network : NetworkConfig)
    (outcome : StartOutcome) (started : EmberAdapter) :
    (start z adapter host network).result ncp = .ok (outcome,started) ↔
      ∃ version coordinator,
        (bringUp z adapter.path host network.onMismatch).result ncp =
          .ok (version,coordinator,outcome) ∧
        started.session = some version ∧ started.coordinator = some coordinator ∧
        started.path = adapter.path ∧
        if outcome = .formed then
          ∃ formed, (Form.form z host coordinator network).result ncp = .ok formed ∧
            started.formed = some formed
        else started.formed = adapter.formed := by
  rw [start,Dialogue.result_bind_eq_ok]
  constructor
  · rintro ⟨⟨version,coordinator,reached⟩,hup,hrest⟩
    cases reached with
    | formed =>
      obtain ⟨formed,hform,hstarted⟩ := (Dialogue.result_bind_eq_ok ..).mp hrest
      obtain ⟨rfl,rfl⟩ := Prod.mk.inj (Except.ok.inj hstarted)
      exact ⟨version,coordinator,hup,rfl,rfl,rfl,formed,hform,rfl⟩
    | resumed | restored =>
      obtain ⟨rfl,rfl⟩ := Prod.mk.inj (Except.ok.inj hrest)
      exact ⟨version,coordinator,hup,rfl,rfl,rfl,rfl⟩
  · rintro ⟨version,coordinator,hup,hsession,hcoordinator,hpath,hformed⟩
    refine ⟨(version,coordinator,outcome),hup,?_⟩
    obtain ⟨path,session,known,formed⟩ := started
    cases outcome with
    | formed =>
      obtain ⟨form,hform,rfl⟩ := hformed
      refine (Dialogue.result_bind_eq_ok ..).mpr ⟨form,hform,?_⟩
      cases hsession
      cases hcoordinator
      cases hpath
      rfl
    | resumed | restored =>
      cases hsession
      cases hcoordinator
      cases hpath
      cases hformed
      rfl

theorem start_eq_formed (adapter : EmberAdapter) (host : Host) (network : NetworkConfig) :
    (∃ started, (start z adapter host network).result ncp = .ok (.formed,started)) ↔
      Forms z ncp adapter.path host network := by
  constructor
  · rintro ⟨started,hstart⟩
    obtain ⟨version,coordinator,hup,_,_,_,formed,hform,_⟩ := (start_eq_ok ..).mp hstart
    obtain ⟨hconnect,⟨eui,heui,rfl⟩,hprepared,state,hstate,houtcome⟩ :=
      (bringUp_eq_ok ..).mp hup
    obtain ⟨rfl,hpolicy⟩ := (outcomeFor_eq_formed ..).mp houtcome
    exact ⟨⟨version,hconnect⟩,hprepared,hstate,hpolicy,eui,heui,
      (Form.form_eq_ok z ncp host _ network).mp ⟨formed,hform⟩⟩
  · rintro ⟨⟨version,hconnect⟩,hprepared,hblank,hpolicy,eui,heui,hformable⟩
    obtain ⟨formed,hform⟩ := (Form.form_eq_ok z ncp host _ network).mpr hformable
    have houtcome := (outcomeFor_eq_formed z z.noNetwork network.onMismatch).mpr ⟨rfl,hpolicy⟩
    have hup := (bringUp_eq_ok z ncp adapter.path host network.onMismatch version
      (euiToIeee eui) .formed).mpr ⟨hconnect,⟨eui,heui,rfl⟩,hprepared,_,hblank,houtcome⟩
    exact ⟨⟨adapter.path,some version,some (euiToIeee eui),some formed⟩,
      (start_eq_ok ..).mpr ⟨version,_,hup,rfl,rfl,rfl,formed,hform,rfl⟩⟩

/-- The coordinator a started adapter names is the one the NCP named. -/
theorem coordinatorIeee_of_start (adapter : EmberAdapter) (host : Host)
    (network : NetworkConfig) (outcome : StartOutcome) (started : EmberAdapter)
    (h : (start z adapter host network).result ncp = .ok (outcome,started)) :
    ∃ eui, ncp .getEui64 = .ok eui ∧ started.coordinatorIeee = pure (euiToIeee eui) := by
  obtain ⟨version,coordinator,hup,_,hcoordinator,_⟩ := (start_eq_ok ..).mp h
  obtain ⟨_,⟨eui,heui,rfl⟩,_⟩ := (bringUp_eq_ok ..).mp hup
  refine ⟨eui,heui,?_⟩
  rw [coordinatorIeee,hcoordinator]

end EmberAdapter
end Answers

section Forming

theorem avoids_call {what : String} {c : Command} (h : ¬ c.Forms) :
    (call what c).Avoids Command.Forms := by
  refine Dialogue.Avoids.bind (Dialogue.avoids_command h) fun answer => ?_
  cases answer with
  | ok r => exact Dialogue.avoids_pure r
  | error e => exact Dialogue.avoids_done _

theorem configureEndpoints_avoids (manufacturer : ManufacturerCode) :
    (Bringup.configureEndpoints z manufacturer).Avoids Command.Forms :=
  Dialogue.Avoids.bind (avoids_call not_false) fun _ =>
    Dialogue.Avoids.bind (Dialogue.avoids_done _) fun _ => avoids_call not_false

theorem configure_avoids (s : Bringup.Setting) :
    (Bringup.configure z s).Avoids Command.Forms := by
  have hwrite : (Bringup.write z s).Avoids Command.Forms := by
    refine Dialogue.Avoids.bind (Dialogue.avoids_command not_false) fun answer => ?_
    cases answer <;> exact Dialogue.avoids_pure _
  refine Dialogue.Avoids.bind (Dialogue.avoids_command not_false) fun _ =>
    hwrite.bind fun refused => ?_
  cases refused with
  | none => exact Dialogue.avoids_pure _
  | some e =>
    dsimp only
    split
    · exact Dialogue.avoids_pure _
    · exact Dialogue.avoids_done _

theorem setJoinPolicy_avoids (policy : PolicyId × UInt8 × String) :
    (Bringup.setJoinPolicy z policy).Avoids Command.Forms :=
  Dialogue.Avoids.bind (avoids_call not_false) fun _ => Dialogue.avoids_done _

theorem resumeStoredNetwork_avoids :
    (Bringup.resumeStoredNetwork z).Avoids Command.Forms := by
  refine Dialogue.Avoids.bind (avoids_call not_false) fun status => ?_
  split
  · exact Dialogue.avoids_pure _
  · split
    · exact Dialogue.avoids_pure _
    · exact Dialogue.avoids_done _

/-- Nothing before the outcome is known creates a network. -/
theorem bringUp_avoids (path : String) (host : Host) (policy : MismatchPolicy) :
    (EmberAdapter.bringUp z path host policy).Avoids Command.Forms := by
  refine Dialogue.Avoids.bind (Dialogue.avoids_done _) fun _ => ?_
  refine Dialogue.Avoids.bind (avoids_call not_false) fun _ => ?_
  refine (configureEndpoints_avoids z silabs).bind fun _ => ?_
  refine (Dialogue.Avoids.forM fun s _ => configure_avoids z s).bind fun _ => ?_
  refine (Dialogue.Avoids.forM fun p _ => setJoinPolicy_avoids z p).bind fun _ => ?_
  refine (resumeStoredNetwork_avoids z).bind fun _ => ?_
  refine Dialogue.Avoids.bind (avoids_call not_false) fun _ => ?_
  exact (Dialogue.avoids_done _).bind fun _ => Dialogue.avoids_pure _

/-- Forming that succeeds has created a network. -/
theorem form_sends (host : Host) (coordinator : Ieee) (config : NetworkConfig) :
    (Form.form z host coordinator config).Sends Command.Forms := by
  refine .right fun _ => .right fun pan => .right fun _ => .right fun _ => .left ?_
  exact Dialogue.Sends.left (Dialogue.sends_command trivial)

/-- A start that succeeds created a network exactly when it says it formed one. -/
theorem start_formed_iff (ncp : Ncp) (adapter : EmberAdapter) (host : Host)
    (network : NetworkConfig) (outcome : StartOutcome) (started : EmberAdapter)
    (h : (adapter.start z host network).result ncp = .ok (outcome,started)) :
    (∃ c ∈ (adapter.start z host network).issued ncp, c.Forms) ↔ outcome = .formed := by
  obtain ⟨version,coordinator,hup,_,_,_,hformed⟩ := (EmberAdapter.start_eq_ok ..).mp h
  rw [EmberAdapter.start]
  constructor
  · rintro ⟨c,hc,hforms⟩
    rcases (Dialogue.mem_issued_bind ..).mp hc with hc | ⟨reached,hreached,hc⟩
    · exact absurd hforms (bringUp_avoids z _ _ _ ncp c hc)
    · obtain rfl := Except.ok.inj (hreached.symm.trans hup)
      cases outcome with
      | formed => rfl
      | resumed | restored => cases hc
  · rintro rfl
    obtain ⟨formed,hform,_⟩ := hformed
    obtain ⟨c,hc,hforms⟩ := form_sends z host coordinator network ncp formed hform
    refine ⟨c,(Dialogue.mem_issued_bind ..).mpr (.inr ⟨_,hup,?_⟩),hforms⟩
    exact (Dialogue.mem_issued_bind ..).mpr (.inl hc)

end Forming
end Ember
end Rszigbee
