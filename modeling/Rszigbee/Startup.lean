import Rszigbee.System
import Rszigbee.Ember

/-! Starting a runtime on an Ember coordinator and an on-disk store: what has been done to
the coordinator by the time the store refuses. -/
namespace Rszigbee

open Ember

/-- `Display`. -/
def StoreError.show : StoreError → String
  | .unavailable detail => "store unavailable: " ++ detail
  | .corrupt location detail => "stored data is corrupt at " ++ location ++ ": " ++ detail
  | .backupNotFound id => "backup '" ++ id ++ "' not found"
  | .io detail => "io error: " ++ detail

/-- What reading `network.json` comes to: not read, with whether the path exists all the
same; read, but not a record; a record. -/
inductive NetworkFile
  | unread (error : String) (present : Bool)
  | unparsed (error : String)
  | record (network : PersistedNetwork)

/-- `FileStore`, as a start finds it. -/
structure FileStore where
  networkPath : String
  network : NetworkFile
  devices : Table Ieee PersistedDevice
  loadDevices : Option StoreError := none

namespace FileStore

/-- Reads and deserialises one JSON file. -/
def readJson (path : String) : NetworkFile → Except StoreError PersistedNetwork
  | .unread error _ => .error (.io ("cannot read " ++ path ++ ": " ++ error))
  | .unparsed error => .error (.corrupt path error)
  | .record network => .ok network

def present : NetworkFile → Bool
  | .unread _ present => present
  | _ => true

/-- Deliberately not quarantined: whatever is wrong with the file stops the caller. -/
def loadNetwork (files : FileStore) : Except StoreError (Option PersistedNetwork) :=
  match readJson files.networkPath files.network,present files.network with
  | .ok network,_ => .ok (some network)
  | .error (.io _),false => .ok none
  | .error e,_ => .error (.corrupt files.networkPath (e.show ++
      ". Network identity cannot be regenerated: without it the network is lost. Restore " ++
      "a backup rather than deleting this file."))

/-- What the store holds once it is loaded. -/
def store (files : FileStore) : Store where
  network := match files.loadNetwork with
    | .ok stored => stored
    | .error _ => none
  devices := files.devices

/-- The stored network loads, and if there is one the coordinator formed it. -/
def OwnedBy (files : FileStore) (coordinator : Ieee) : Prop :=
  ∃ stored, files.loadNetwork = .ok stored ∧
    ∀ network, stored = some network → network.coordinatorIeee = coordinator

end FileStore

variable (z : Rsezsp)

/-- The adapter's part of a start: it is started, then asked for its address. -/
def Ember.EmberAdapter.openFor (adapter : EmberAdapter) (host : Host) (network : NetworkConfig) :
    Ezsp (StartOutcome × Ieee) := do
  let (outcome,started) ← adapter.start z host network
  let coordinator ← started.coordinatorIeee
  pure (outcome,coordinator)

/-- What a start hears from an Ember coordinator and a file store. -/
def emberAnswers (network : NetworkConfig) (adapter : EmberAdapter) (host : Host) (ncp : Ncp)
    (files : FileStore) (startup : Env) : StartAnswers where
  adapterStart := ((adapter.openFor z host network).result ncp).map Prod.fst
  coordinatorIeee := ((adapter.openFor z host network).result ncp).map Prod.snd
  loadNetwork := match files.loadNetwork with
    | .ok _ => none
    | .error e => some e
  loadDevices := files.loadDevices
  startup := startup

/-- A start on an Ember coordinator and a file store. -/
def ZigbeeBuilder.startOn {E : Engine} (builder : ZigbeeBuilder E) (adapter : EmberAdapter)
    (host : Host) (ncp : Ncp) (files : FileStore) (startup : Env) :
    Except RuntimeError (TaskConfig E) :=
  builder.start files.store (emberAnswers z builder.network adapter host ncp files startup)

/-- The commands it puts to the NCP. -/
def ZigbeeBuilder.commands {E : Engine} (builder : ZigbeeBuilder E) (adapter : EmberAdapter)
    (host : Host) (ncp : Ncp) : List Command :=
  (adapter.openFor z host builder.network).issued ncp

/-- The start was refused over the stored network: it cannot be loaded, or another
coordinator formed it. -/
def FileStore.Refuses (files : FileStore) {α : Type} : Except RuntimeError α → Prop
  | .error (.store e) => files.loadNetwork = .error e
  | .error (.coordinatorMismatch _ _) => True
  | _ => False

section Opening

variable (ncp : Ncp) (adapter : EmberAdapter) (host : Host) (network : NetworkConfig)

theorem openFor_eq_ok (outcome : StartOutcome) (coordinator : Ieee) :
    (adapter.openFor z host network).result ncp = .ok (outcome,coordinator) ↔
      (∃ started, (adapter.start z host network).result ncp = .ok (outcome,started)) ∧
        ∃ eui, ncp .getEui64 = .ok eui ∧ euiToIeee eui = coordinator := by
  rw [EmberAdapter.openFor,Dialogue.result_bind_eq_ok]
  constructor
  · rintro ⟨⟨reached,started⟩,hstart,hrest⟩
    obtain ⟨eui,heui,hknown⟩ :=
      EmberAdapter.coordinatorIeee_of_start z ncp adapter host network reached started hstart
    obtain ⟨known,hask,hdone⟩ := (Dialogue.result_bind_eq_ok ..).mp hrest
    obtain ⟨rfl,rfl⟩ := Prod.mk.inj (Except.ok.inj hdone)
    rw [hknown,Dialogue.result_pure] at hask
    exact ⟨⟨started,hstart⟩,eui,heui,Except.ok.inj hask⟩
  · rintro ⟨⟨started,hstart⟩,eui,heui,rfl⟩
    obtain ⟨other,hother,hknown⟩ :=
      EmberAdapter.coordinatorIeee_of_start z ncp adapter host network outcome started hstart
    obtain rfl : eui = other := Except.ok.inj (heui.symm.trans hother)
    refine ⟨(outcome,started),hstart,(Dialogue.result_bind_eq_ok ..).mpr ⟨euiToIeee eui,?_,rfl⟩⟩
    rw [hknown,Dialogue.result_pure]

/-- The address is known by then: asking for it puts no command. -/
theorem openFor_issued : (adapter.openFor z host network).issued ncp =
    (adapter.start z host network).issued ncp := by
  rw [EmberAdapter.openFor,Dialogue.issued_bind]
  cases h : (adapter.start z host network).result ncp with
  | error e => exact List.append_nil _
  | ok reached =>
    obtain ⟨eui,_,hknown⟩ :=
      EmberAdapter.coordinatorIeee_of_start z ncp adapter host network reached.1 reached.2 h
    have hrest : (do
        let coordinator ← reached.2.coordinatorIeee
        pure (reached.1,coordinator) : Ezsp (StartOutcome × Ieee)).issued ncp = [] := by
      rw [hknown]
      rfl
    exact (congrArg _ hrest).trans (List.append_nil _)

end Opening

theorem foreignNetwork_eq_none (store : Store) (coordinator : Ieee) :
    foreignNetwork store coordinator = none ↔
      ∀ network, store.network = some network → network.coordinatorIeee = coordinator := by
  unfold foreignNetwork
  cases store.network <;> simp

section Refusal

variable {E : Engine} (builder : ZigbeeBuilder E) (adapter : EmberAdapter) (host : Host)
  (ncp : Ncp) (files : FileStore) (startup : Env)

/-- A start is refused over the stored network when the coordinator came up and does not own
what is stored. -/
theorem refuses_iff : files.Refuses (builder.startOn z adapter host ncp files startup) ↔
    ∃ outcome coordinator, (adapter.openFor z host builder.network).result ncp =
      .ok (outcome,coordinator) ∧ ¬ files.OwnedBy coordinator := by
  rw [ZigbeeBuilder.startOn,ZigbeeBuilder.start,emberAnswers]
  cases hopen : (adapter.openFor z host builder.network).result ncp with
  | error e => simp [Except.map,FileStore.Refuses]
  | ok reached =>
    obtain ⟨outcome,coordinator⟩ := reached
    have howned : (∃ o c, Except.ok (outcome,coordinator) = (.ok (o,c) :
        Except AdapterError _) ∧ ¬ files.OwnedBy c) ↔ ¬ files.OwnedBy coordinator := by
      simp
    rw [howned,FileStore.OwnedBy]
    cases hload : files.loadNetwork with
    | error e => simp [Except.map,FileStore.Refuses,hload]
    | ok stored =>
      have hheld : files.store.network = stored := by simp [FileStore.store,hload]
      have hown : (∃ held, (.ok stored : Except StoreError _) = .ok held ∧
          ∀ network, held = some network → network.coordinatorIeee = coordinator) ↔
            foreignNetwork files.store coordinator = none := by
        rw [foreignNetwork_eq_none,hheld]
        simp
      rw [hown]
      cases hforeign : foreignNetwork files.store coordinator with
      | some network => simp [Except.map,FileStore.Refuses,hforeign]
      | none =>
        cases files.loadDevices <;> simp [Except.map,FileStore.Refuses,hforeign,hload]

/-- A start that is refused over the stored network has formed none, exactly when the stored
network is the coordinator's own wherever the coordinator would form one. -/
theorem refused_start_forms_nothing_iff :
    (files.Refuses (builder.startOn z adapter host ncp files startup) →
      ∀ c ∈ builder.commands z adapter host ncp, ¬ c.Forms) ↔
    (EmberAdapter.Forms z ncp adapter.path host builder.network →
      ∀ eui, ncp .getEui64 = .ok eui → files.OwnedBy (euiToIeee eui)) := by
  rw [refuses_iff,ZigbeeBuilder.commands,openFor_issued]
  constructor
  · intro h hforms eui heui
    by_contra hown
    obtain ⟨started,hstart⟩ :=
      (EmberAdapter.start_eq_formed z ncp adapter host builder.network).mpr hforms
    obtain ⟨c,hc,hcreates⟩ :=
      (start_formed_iff z ncp adapter host builder.network .formed started hstart).mpr rfl
    have hopen := (openFor_eq_ok z ncp adapter host builder.network .formed (euiToIeee eui)).mpr
      ⟨⟨started,hstart⟩,eui,heui,rfl⟩
    exact h ⟨_,_,hopen,hown⟩ c hc hcreates
  · rintro h ⟨outcome,coordinator,hopen,hown⟩ c hc hcreates
    obtain ⟨⟨started,hstart⟩,eui,heui,rfl⟩ :=
      (openFor_eq_ok z ncp adapter host builder.network outcome coordinator).mp hopen
    obtain rfl := (start_formed_iff z ncp adapter host builder.network outcome started
      hstart).mp ⟨c,hc,hcreates⟩
    have hforms := (EmberAdapter.start_eq_formed z ncp adapter host builder.network).mp
      ⟨started,hstart⟩
    exact hown (h hforms eui heui)

end Refusal

section Lost

/-- Status zero is success; states two and three are joined ones. -/
def rsezsp : Rsezsp where
  isOk status := status.raw = 0
  isJoined state := state.raw = 2 || state.raw = 3
  noNetwork := ⟨0⟩
  allowTcKeyRequestSameKey := 0x51
  denyAppKeyRequests := 0x60
  showStatus _ := "status"
  showNetworkStatus _ := "state"
  showConfig _ := "setting"
  showPolicy _ := "policy"
  noNetwork_not_joined := rfl

/-- An NCP that takes every order, and has no network. -/
def blankNcp : Ncp
  | .getEui64 => .ok (Vector.replicate 8 0xc0)
  | .setManufacturerCode _ => .ok ()
  | .getConfigurationValue _ => .ok (⟨0⟩,0)
  | .networkState => .ok ⟨0⟩
  | .order (.networkInit _) => .ok ⟨0x93⟩
  | .order _ => .ok ⟨0⟩

def lostHost : Host where
  openPort := .opened
  negotiate := .negotiated 13
  randomKey := .ok (Vector.replicate 16 0x5c)
  randomPanId := .ok 0x2f4d

def formingBuilder : ZigbeeBuilder Engine.bare where
  network := ⟨none,none,11,none,.form⟩
  backup := none
  reachability := silencePolicy defaultSilenceLimit
  interviewOnJoin := true
  registry := ()

/-- A store whose `network.json` was truncated. -/
def truncatedStore : FileStore where
  networkPath := "network.json"
  network := .unparsed "EOF while parsing a value at line 1 column 0"
  devices := ∅

/-- The start stops at the unreadable record, with a new network already on the coordinator. -/
theorem refused_start_has_formed :
    truncatedStore.Refuses (formingBuilder.startOn rsezsp ⟨"/dev/ttyUSB0",none,none,none⟩
      lostHost blankNcp truncatedStore {}) ∧
    ∃ c ∈ formingBuilder.commands rsezsp ⟨"/dev/ttyUSB0",none,none,none⟩ lostHost blankNcp,
      c.Forms := by
  refine ⟨rfl,.order (.formNetwork (Form.parameters 0x2f4d 0xc0c0c0c0c0c0c0c0 11)),?_,trivial⟩
  decide +kernel

end Lost
end Rszigbee
