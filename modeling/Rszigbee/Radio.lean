import Rszigbee.Addresses

/-! What the task puts on the air, and the addresses it goes by. A handler that moves no device
leaves the addresses alone, and everything it sends goes to one of them, in a frame built for it. -/
namespace Rszigbee

/-- A ZCL frame to a device at its recorded address, between the endpoints and on the profile
the runtime uses. Only a probe goes without route recovery. -/
structure ZclAddressed (nwkOf : Ieee → Option Nwk) (s : Sent ZclTx) : Prop where
  recorded : ∃ ieee nwk, nwkOf ieee = some nwk ∧ s.tx.dest = .unicast ieee nwk
  source : s.tx.sourceEndpoint = ⟨1⟩
  profile : s.tx.profile = .ha
  recovery : s.tx.options.disableRecovery = true → s.purpose = .probe

def ZdoAddressed (nwkOf : Ieee → Option Nwk) (s : Sent ZdoTx) : Prop :=
  ∃ ieee nwk, nwkOf ieee = some nwk ∧ s.tx.dest = .unicast ieee nwk

/-- What the runtime builds a ZCL frame for. -/
inductive Outgoing
  | command (request : ZclCommand)
  | attributeWrite (request : ZclAttributeWrite)
  -- What a definition or a datapoint table makes of a capability.
  | planned (cluster : ClusterId) (id : CommandId) (payload : Bytes)
  | readAttributes (cluster : ClusterId) (attributes : List AttrId)
  | probe
  | configureReporting (cluster : ClusterId) (records : List ReportRecord)
  | otaNoImage

namespace Outgoing

def cluster : Outgoing → ClusterId
  | command request => request.cluster
  | attributeWrite request => request.cluster
  | planned cluster _ _ => cluster
  | readAttributes cluster _ => cluster
  | probe => Task.probeCluster
  | configureReporting cluster _ => cluster
  | otaNoImage => Task.otaCluster

/-- The frame an engine builds for it. -/
def frame (E : Engine) (registry : E.Registry) (device : Ieee) (tsn : UInt8) :
    Outgoing → Except String Bytes
  | command request => E.encodeCommand registry device tsn request
  | attributeWrite request => E.attributeWrite registry device tsn request
  | planned _ id payload => .ok (Task.plannedFrame tsn id payload)
  | readAttributes _ attributes => .ok (Task.readAttributes tsn attributes)
  | probe => .ok (Task.probeFrame tsn)
  | configureReporting _ records => E.configureReporting tsn records
  | otaNoImage => .ok (Task.otaNoImage tsn)

end Outgoing

/-- The frame is built for something on its cluster, for the device it goes to. -/
def Composed {E : Engine} (registry : E.Registry) (s : Sent ZclTx) : Prop :=
  ∃ device nwk, s.tx.dest = .unicast device nwk ∧ ∃ o : Outgoing, o.cluster = s.tx.cluster ∧
    o.frame E registry device s.sequence = .ok s.tx.frame

namespace Task

variable {E : Engine}

/-- What was sent, the short addresses on record, the registry that frames are built with, and
whether the loop has ended. -/
def radio (t : Task E) :
    List (Sent ZclTx) × List (Sent ZdoTx) × (Ieee → Option Nwk) × E.Registry × Bool :=
  (t.sentZcl,t.sentZdo,t.devices.nwkOf,t.registry,t.stopped)

theorem restsOn_radio :
    RestsOn see [.sentZcl,.sentZdo,.addresses,.registry,.stopped] (radio (E := E)) := by
  intro t u h
  have hzcl : u.sentZcl = t.sentZcl := h .sentZcl (by decide)
  have hzdo : u.sentZdo = t.sentZdo := h .sentZdo (by decide)
  have hnwkOf : u.devices.nwkOf = t.devices.nwkOf := h .addresses (by decide)
  have hregistry : u.registry = t.registry := h .registry (by decide)
  have hstopped : u.stopped = t.stopped := h .stopped (by decide)
  simp only [radio,hzcl,hzdo,hnwkOf,hregistry,hstopped]

/-- The same without what it goes by. -/
def sent (t : Task E) : List (Sent ZclTx) × List (Sent ZdoTx) × Bool :=
  (t.sentZcl,t.sentZdo,t.stopped)

theorem restsOn_sent : RestsOn see [.sentZcl,.sentZdo,.stopped] (sent (E := E)) := by
  intro t u h
  have hzcl : u.sentZcl = t.sentZcl := h .sentZcl (by decide)
  have hzdo : u.sentZdo = t.sentZdo := h .sentZdo (by decide)
  have hstopped : u.stopped = t.stopped := h .stopped (by decide)
  simp only [sent,hzcl,hzdo,hstopped]

theorem sent_shutdown (t : Task E) (env : Env) :
    (t.shutdown env).sent = (t.sentZcl,t.sentZdo,true) := by
  have hshut := t.alters_shutdown env
  have hzcl : (t.shutdown env).sentZcl = t.sentZcl := hshut .sentZcl (by decide)
  have hzdo : (t.shutdown env).sentZdo = t.sentZdo := hshut .sentZdo (by decide)
  rw [sent,hzcl,hzdo]
  rfl

/-- Work that moves no device, registers no cluster and sends these frames, each to a device on
record. -/
structure Airs (t u : Task E) (zs : List (Sent ZclTx)) (ds : List (Sent ZdoTx)) : Prop where
  radio : u.radio = (t.sentZcl ++ zs,t.sentZdo ++ ds,t.devices.nwkOf,t.registry,t.stopped)
  zcl : ∀ s ∈ zs, ZclAddressed t.devices.nwkOf s
  composed : ∀ s ∈ zs, Composed t.registry s
  zdo : ∀ s ∈ ds, ZdoAddressed t.devices.nwkOf s

namespace Airs

variable {t u v : Task E} {zs zs' : List (Sent ZclTx)} {ds ds' : List (Sent ZdoTx)}

theorem of_radio (h : u.radio = t.radio) : Airs t u [] [] where
  radio := by
    rw [h,Task.radio,List.append_nil,List.append_nil]
  zcl := by simp
  composed := by simp
  zdo := by simp

theorem sentZcl (h : Airs t u zs ds) : u.sentZcl = t.sentZcl ++ zs := congrArg Prod.fst h.radio

theorem sentZdo (h : Airs t u zs ds) : u.sentZdo = t.sentZdo ++ ds :=
  congrArg (fun r => r.2.1) h.radio

theorem nwkOf (h : Airs t u zs ds) : u.devices.nwkOf = t.devices.nwkOf :=
  congrArg (fun r => r.2.2.1) h.radio

theorem registry (h : Airs t u zs ds) : u.registry = t.registry :=
  congrArg (fun r => r.2.2.2.1) h.radio

theorem stopped (h : Airs t u zs ds) : u.stopped = t.stopped :=
  congrArg (fun r => r.2.2.2.2) h.radio

theorem trans (h : Airs t u zs ds) (h' : Airs u v zs' ds') : Airs t v (zs ++ zs') (ds ++ ds') where
  radio := by
    rw [h'.radio,h.sentZcl,h.sentZdo,h.nwkOf,h.registry,h.stopped,List.append_assoc,
      List.append_assoc]
  zcl s hs := by
    rcases List.mem_append.mp hs with hs | hs
    · exact h.zcl s hs
    · exact h.nwkOf ▸ h'.zcl s hs
  composed s hs := by
    rcases List.mem_append.mp hs with hs | hs
    · exact h.composed s hs
    · exact h.registry ▸ h'.composed s hs
  zdo s hs := by
    rcases List.mem_append.mp hs with hs | hs
    · exact h.zdo s hs
    · exact h.nwkOf ▸ h'.zdo s hs

/-- Silent work before and after changes nothing. -/
theorem congr {t' u' : Task E} (h : Airs t u zs ds) (ht : t.radio = t'.radio)
    (hu : u'.radio = u.radio) : Airs t' u' zs ds := by
  have h' := ((of_radio ht).trans h).trans (of_radio hu)
  rwa [List.nil_append,List.nil_append,List.append_nil,List.append_nil] at h'

/-- One frame to a device on record. -/
theorem transmitZcl (t : Task E) (p : Purpose) (n : UInt8) (tx : ZclTx) (env : Env)
    (h : ZclAddressed t.devices.nwkOf ⟨p,n,tx,env.now⟩)
    (hcomposed : Composed t.registry ⟨p,n,tx,env.now⟩) :
    Airs t (t.transmitZcl p n tx env) [⟨p,n,tx,env.now⟩] [] where
  radio := by
    rw [List.append_nil]
    rfl
  zcl s hs := by
    rw [List.mem_singleton.mp hs]
    exact h
  composed s hs := by
    rw [List.mem_singleton.mp hs]
    exact hcomposed
  zdo := by simp

theorem transmitZdo (t : Task E) (p : Purpose) (n : UInt8) (tx : ZdoTx) (env : Env)
    (h : ZdoAddressed t.devices.nwkOf ⟨p,n,tx,env.now⟩) :
    Airs t (t.transmitZdo p n tx env) [] [⟨p,n,tx,env.now⟩] where
  radio := by
    rw [List.append_nil]
    rfl
  zcl := by simp
  composed := by simp
  zdo s hs := by
    rw [List.mem_singleton.mp hs]
    exact h

end Airs

end Task
end Rszigbee
