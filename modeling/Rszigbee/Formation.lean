import Rszigbee.Fidelity
import Rszigbee.Handlers
import Rszigbee.Service
import Rszigbee.Startup

/-! What becomes of the extended PAN id a network is formed with: the NCP is given its bytes, the
bytes are read back, and the runtime stores what was read. -/
namespace Rszigbee

/-- A value whose bytes are the same from either end is read the same in either order. -/
theorem fromBeBytes_le64_iff (v : UInt64) :
    (Ieee.fromBeBytes (le64 v)).raw = v ↔ (le64 v).reverse = le64 v := by
  have hlength : (le64 v).length = 8 := rfl
  have hsize : LittleEndian.value (le64 v).reverse < UInt64.size := by
    have hlt := LittleEndian.value_lt (le64 v).reverse
    rwa [List.length_reverse,hlength] at hlt
  have hvalue : LittleEndian.value (le64 v) = v.toNat := by
    rw [le64_eq]
    exact LittleEndian.value_bytes_of_lt v.toNat_lt
  rw [Ieee.fromBeBytes,← UInt64.toNat_inj,UInt64.toNat_ofNat_of_lt' hsize,← hvalue]
  exact LittleEndian.value_inj (by simp)

namespace Ember

section Formed

variable (z : Rsezsp)

theorem issued_call (ncp : Ncp) (what : String) (c : Command) :
    (call what c).issued ncp = [c] := by
  rw [call,Dialogue.issued_bind,Dialogue.result_command]
  cases ncp c <;> rfl

theorem issued_order (ncp : Ncp) (what : String) (o : Order) :
    (order what o).issued ncp = [.order o] :=
  issued_call ncp what (.order o)

namespace Form

/-- What is formed with: what is configured, or the coordinator's address. -/
def extendedPanId (coordinator : Ieee) (config : NetworkConfig) : UInt64 :=
  config.extendedPanId.getD (deriveExtendedPanId coordinator)

/-- Forming a network gives the NCP the extended PAN id, least significant byte first. -/
theorem form_extendedPanId {ncp : Ncp} {host : Host} {coordinator : Ieee}
    {config : NetworkConfig} {sent : NetworkParameters}
    (h : .order (.formNetwork sent) ∈ (form z host coordinator config).issued ncp) :
    sent.extendedPanId = le64 (extendedPanId coordinator config) := by
  simp only [form,Dialogue.mem_issued_bind,issued_order,Dialogue.issued_done,Dialogue.issued_pure,
    List.mem_singleton,List.not_mem_nil,false_or,Command.order.injEq,reduceCtorEq,
    Order.formNetwork.injEq,and_false,exists_false,or_false] at h
  obtain ⟨key,-,pan,-,_,-,_,-,rfl⟩ := h
  rfl

end Form

theorem networkInfo_extendedPanId {answers : Answers} {adapter : EmberAdapter}
    {info : NetworkInfo} (h : (adapter.networkInfo z).result answers = .ok info) :
    ∃ status params, answers .getNetworkParameters = .ok (status,params) ∧
      info.extendedPanId = (Ieee.fromBeBytes params.extendedPanId).raw := by
  obtain ⟨_,-,h⟩ := (Dialogue.result_bind_eq_ok ..).mp h
  obtain ⟨⟨status,params⟩,hparams,h⟩ := (Dialogue.result_bind_eq_ok ..).mp h
  obtain ⟨_,-,h⟩ := (Dialogue.result_bind_eq_ok ..).mp h
  obtain ⟨⟨_,keyInfo⟩,-,h⟩ := (Dialogue.result_bind_eq_ok ..).mp h
  obtain ⟨_,-,h⟩ := (Dialogue.result_bind_eq_ok ..).mp h
  obtain rfl := Except.ok.inj h
  exact ⟨status,params,(result_ask_eq_ok ..).mp hparams,rfl⟩

/-- What is read back is what was formed with exactly when its bytes are the same from either
end, and the record stored then holds what was read. -/
theorem extendedPanId_survives_iff {E : Engine} {host : Host} {coordinator : Ieee}
    {config : NetworkConfig} {ncp : Ncp} {sent params : NetworkParameters} {answers : Answers}
    {status : SlStatus} {adapter : EmberAdapter} {info : NetworkInfo} {t : Task E} {env : Env}
    (hsent : .order (.formNetwork sent) ∈ (Form.form z host coordinator config).issued ncp)
    (hparams : answers .getNetworkParameters = .ok (status,params))
    (hbytes : params.extendedPanId = sent.extendedPanId)
    (hinfo : (adapter.networkInfo z).result answers = .ok info)
    (henv : env.networkInfo = .ok info) (hunknown : t.networkKnown = false)
    (hsaved : env.saveNetwork = .done) :
    let extendedPanId := Form.extendedPanId coordinator config
    (info.extendedPanId = extendedPanId ∧
      (t.persistNetworkIfNeeded env).store.network.map PersistedNetwork.extendedPanId =
        some extendedPanId) ↔
      (le64 extendedPanId).reverse = le64 extendedPanId := by
  intro extendedPanId
  have hformed : sent.extendedPanId = le64 extendedPanId := Form.form_extendedPanId z hsent
  obtain ⟨status',params',hparams',hread⟩ := networkInfo_extendedPanId z hinfo
  obtain ⟨rfl,rfl⟩ := Prod.mk.inj (Except.ok.inj (hparams.symm.trans hparams'))
  rw [hbytes,hformed] at hread
  have hstored : (t.persistNetworkIfNeeded env).store.network.map
      PersistedNetwork.extendedPanId = some info.extendedPanId := by
    simp [Task.persistNetworkIfNeeded,hunknown,henv,hsaved,Store.saveNetwork,
      WriteAnswer.effective,WriteAnswer.isDone]
  rw [hstored,Option.some.injEq,and_self,hread,fromBeBytes_le64_iff]

end Formed

section Reversed

/-- An NCP on a network, which does whatever it is asked. -/
def obliging (params : NetworkParameters) : Answers
  | .getNetworkParameters => .ok (⟨0⟩,params)
  | .getNetworkKeyInfo => .ok (⟨0⟩,⟨0,1⟩)
  | .exportKey _ => .ok (⟨0⟩,Vector.replicate 16 0x5c)
  | .importTransientKey _ _ _ => .ok ⟨0⟩
  | .clearTransientLinkKeys => .ok ()
  | .permitJoining _ => .ok ⟨0⟩

def connected : EmberAdapter := { path := "/dev/ttyUSB0", session := some 13 }

/-- A task on an empty store. -/
def emptyTask : Task Engine.bare := .new {
  reachability := silencePolicy defaultSilenceLimit
  interviewOnJoin := false
  devices := []
  outcome := .formed
  coordinator := ⟨0xc0⟩
  networkKnown := false
  registry := ()
  store := .new }

/-- What is sent when this extended PAN id is configured. -/
theorem sent_parameters (extendedPanId : UInt64) :
    .order (.formNetwork (Form.parameters 0x2f4d extendedPanId 11)) ∈
      (Form.form rsezsp lostHost ⟨0xc0⟩ ⟨none,some extendedPanId,11,none,.form⟩).issued
        blankNcp := by
  refine List.mem_of_getElem? (i := 1) ?_
  rfl

/-- The bytes of this id are all alike: it is read back and stored as it was. -/
theorem palindrome_survives :
    let info : NetworkInfo := ⟨0x2f4d,0xdddddddddddddddd,11,0,0,1⟩
    let env : Env := { networkInfo := .ok info }
    info.extendedPanId = 0xdddddddddddddddd ∧
      (emptyTask.persistNetworkIfNeeded env).store.network.map PersistedNetwork.extendedPanId =
        some 0xdddddddddddddddd := by
  intro info env
  let params := Form.parameters 0x2f4d 0xdddddddddddddddd 11
  have hparams : obliging params .getNetworkParameters = .ok (⟨0⟩,params) := rfl
  have hinfo : (connected.networkInfo rsezsp).result (obliging params) = .ok info := rfl
  have henv : env.networkInfo = .ok info := rfl
  have hunknown : emptyTask.networkKnown = false := rfl
  exact (extendedPanId_survives_iff rsezsp (sent_parameters 0xdddddddddddddddd) hparams rfl hinfo
    henv hunknown rfl).mpr rfl

/-- Formed with one id, the network is reported with its bytes reversed. -/
theorem extendedPanId_reversed : ¬ ∀ (z : Rsezsp) (host : Host) (coordinator : Ieee)
    (config : NetworkConfig) (ncp : Ncp) (sent params : NetworkParameters) (answers : Answers)
    (status : SlStatus) (adapter : EmberAdapter) (info : NetworkInfo) (t : Task Engine.bare)
    (env : Env),
    .order (.formNetwork sent) ∈ (Form.form z host coordinator config).issued ncp →
    answers .getNetworkParameters = .ok (status,params) →
    params.extendedPanId = sent.extendedPanId →
    (adapter.networkInfo z).result answers = .ok info → env.networkInfo = .ok info →
    t.networkKnown = false → env.saveNetwork = .done →
      info.extendedPanId = Form.extendedPanId coordinator config ∧
      (t.persistNetworkIfNeeded env).store.network.map PersistedNetwork.extendedPanId =
        some (Form.extendedPanId coordinator config) := by
  intro h
  have hread := (h rsezsp lostHost ⟨0xc0⟩ ⟨none,some 0x94a081fffed96e5c,11,none,.form⟩ blankNcp _
    _ (obliging _) ⟨0⟩ connected ⟨0x2f4d,0x5c6ed9feff81a094,11,0,0,1⟩ emptyTask
    { networkInfo := .ok ⟨0x2f4d,0x5c6ed9feff81a094,11,0,0,1⟩ }
    (sent_parameters 0x94a081fffed96e5c) rfl rfl rfl rfl rfl rfl).1
  revert hread
  decide

end Reversed
end Ember
end Rszigbee
