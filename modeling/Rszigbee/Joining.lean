import Rszigbee.Formation
import Rszigbee.Intents
import Rszigbee.Published

/-! A request to permit joining on its way from the broker through the runtime to the NCP, on a
clock that has an end. -/
namespace Rszigbee

/-- `Instant + Duration`, which panics beyond the last instant there is. -/
def Instant.add (latest now : Instant) (duration : Duration) : Option Instant :=
  if now + duration ≤ latest then some (now + duration) else none

namespace Task

variable {E : Engine} (latest : Instant) (t : Task E) (duration : Duration) (via : Option Ieee)
  (env : Env)

/-- `permit_join` with its addition to the clock; a panic leaves no task. -/
def permitJoinChecked : Option (Task E × Except RuntimeError Unit) :=
  match via.bind fun ieee => if (t.devices.get ieee).isSome then none else some ieee with
  | some ieee => some (t,.error (.unknownDevice ieee))
  | none =>
    match env.permitJoin with
    | .error e => some (t,.error (.adapter e))
    | .ok () =>
      if duration = 0 then some (t.emit (.permitJoinChanged false none via),.ok ())
      else (Instant.add latest env.now duration).map fun closes =>
        (t.emit (.permitJoinChanged true (some closes) via),.ok ())

/-- The window was opened, and closes after the last instant. -/
def JoinOverflows : Prop :=
  (∀ ieee, via = some ieee → (t.devices.get ieee).isSome) ∧ env.permitJoin = .ok () ∧
    duration ≠ 0 ∧ latest < env.now + duration

/-- Either it panics, or it does what it does on a clock without an end. -/
theorem permitJoinChecked_cases :
    (t.JoinOverflows latest duration via env ∧
      t.permitJoinChecked latest duration via env = none) ∨
    (¬ t.JoinOverflows latest duration via env ∧
      t.permitJoinChecked latest duration via env = some (t.permitJoin duration via env)) := by
  unfold permitJoinChecked permitJoin JoinOverflows
  cases hvia : via.bind fun ieee => if (t.devices.get ieee).isSome then none else some ieee with
  | some ieee =>
    obtain ⟨router,rfl,hunknown⟩ := Option.bind_eq_some_iff.mp hvia
    have hget : ¬ (t.devices.get router).isSome := by
      intro hsome
      simp [hsome] at hunknown
    exact .inr ⟨fun h => hget (h.1 router rfl),rfl⟩
  | none =>
    have hknown : ∀ ieee, via = some ieee → (t.devices.get ieee).isSome := by
      rintro router rfl
      by_contra hget
      simp [hget] at hvia
    cases hjoin : env.permitJoin with
    | error e => exact .inr ⟨by simp,rfl⟩
    | ok u =>
      by_cases hzero : duration = 0
      · exact .inr ⟨by simp [hzero],by simp [hzero]⟩
      · by_cases hfits : env.now + duration ≤ latest
        · exact .inr ⟨by simp [hfits],by simp [Instant.add,hfits,hzero]⟩
        · refine .inl ⟨⟨hknown,rfl,hzero,lt_of_not_ge hfits⟩,?_⟩
          simp [Instant.add,hfits,hzero]

end Task

namespace Ember

section Window

variable (z : Rsezsp) (answers : Answers) (adapter : EmberAdapter)

/-- The NCP takes the commissioning key and opens a window of so many seconds. -/
structure EmberAdapter.Opens (seconds : UInt8) : Prop where
  connected : adapter.session.isSome
  key : ∃ status, answers Bringup.importCommissioningKey = .ok status ∧ z.isOk status
  window : ∃ status, answers (.permitJoining seconds) = .ok status ∧ z.isOk status

theorem connection_eq_ok : (∃ session, adapter.connection = .ok session) ↔
    adapter.session.isSome := by
  unfold EmberAdapter.connection
  cases adapter.session <;> simp

theorem installCommissioningKey_eq_ok : (Bringup.installCommissioningKey z).result answers =
      .ok () ↔ ∃ status, answers Bringup.importCommissioningKey = .ok status ∧ z.isOk status := by
  rw [Bringup.installCommissioningKey,Dialogue.result_bind_eq_ok]
  exact exists_congr fun status => and_congr (result_ask_eq_ok ..) (check_eq_ok ..)

/-- A window is opened exactly when everything asked for on the way is done. -/
theorem permitJoin_eq_ok {duration : Duration} (h : EmberAdapter.joinSeconds duration ≠ 0) :
    (adapter.permitJoin z duration none).result answers = .ok () ↔
      adapter.Opens z answers (EmberAdapter.joinSeconds duration) := by
  rw [EmberAdapter.permitJoin,if_neg (by simp),Dialogue.result_bind_eq_ok]
  simp only [if_neg h]
  constructor
  · rintro ⟨session,hsession,hrest⟩
    obtain ⟨_,hkey,hrest⟩ := (Dialogue.result_bind_eq_ok ..).mp hrest
    obtain ⟨status,hstatus,hok⟩ := (Dialogue.result_bind_eq_ok ..).mp hrest
    exact ⟨(connection_eq_ok adapter).mp ⟨session,hsession⟩,
      (installCommissioningKey_eq_ok z answers).mp hkey,
      status,(result_ask_eq_ok ..).mp hstatus,(check_eq_ok ..).mp hok⟩
  · rintro ⟨hconnected,hkey,status,hstatus,hok⟩
    obtain ⟨session,hsession⟩ := (connection_eq_ok adapter).mpr hconnected
    refine ⟨session,hsession,(Dialogue.result_bind_eq_ok ..).mpr
      ⟨(),(installCommissioningKey_eq_ok z answers).mpr hkey,?_⟩⟩
    exact (Dialogue.result_bind_eq_ok ..).mpr
      ⟨status,(result_ask_eq_ok ..).mpr hstatus,(check_eq_ok ..).mpr hok⟩

theorem min_eq (seconds : UInt8) : min seconds 254 = if seconds ≤ 254 then seconds else 254 := rfl

theorem joinSeconds_le (duration : Duration) : EmberAdapter.joinSeconds duration ≤ 254 := by
  have hmin : ∀ seconds : UInt8, min seconds 254 ≤ 254 := by
    intro seconds
    rw [min_eq]
    split
    · assumption
    · exact UInt8.le_refl 254
  exact hmin _

end Window

section Bounded

/-- A window longer than the byte's 254 seconds. -/
def Request.TooLong : Request → Prop
  | permitJoining seconds => 254 < seconds
  | _ => False

theorem avoids_ask {P : Request → Prop} (what : String) {c : Request} (h : ¬ P c) :
    (ask what c).Avoids P := by
  intro answers d hd
  rw [issued_ask,List.mem_singleton] at hd
  rwa [hd]

/-- However long a window is asked for, the NCP is never asked for one longer than that. -/
theorem permitJoin_avoids (z : Rsezsp) (adapter : EmberAdapter) (duration : Duration)
    (via : Option Nwk) : (adapter.permitJoin z duration via).Avoids Request.TooLong := by
  have hwindow : ¬ Request.TooLong (.permitJoining (EmberAdapter.joinSeconds duration)) :=
    UInt8.not_lt.mpr (joinSeconds_le duration)
  rw [EmberAdapter.permitJoin]
  split
  · exact Dialogue.avoids_done _
  · refine (Dialogue.avoids_done _).bind fun _ => ?_
    have hopen : (ask "cannot open the join window" (.permitJoining
        (EmberAdapter.joinSeconds duration)) >>= fun status =>
          .done (check z "opening the join window" status)).Avoids Request.TooLong :=
      (avoids_ask _ hwindow).bind fun _ => Dialogue.avoids_done _
    dsimp only
    split
    · exact Dialogue.Avoids.bind (avoids_ask _ not_false) fun _ => hopen
    · refine Dialogue.Avoids.bind ?_ fun _ => hopen
      exact (avoids_ask _ not_false).bind fun _ => Dialogue.avoids_done _

end Bounded
end Ember

/-- What a device is asked is no request to permit joining. -/
theorem parseAddressed_ne_permitJoin {text : JsonText} {message : Message} {rest : String}
    {duration : Duration} : parseAddressed text message rest ≠ .ok (.permitJoin duration) := by
  intro h
  unfold parseAddressed at h
  split at h
  · cases h
  · split at h
    · cases h
    · split at h
      · obtain ⟨changes,-,hset⟩ := map_eq_ok.mp h
        cases hset
      · split at h
        · obtain ⟨names,-,hget⟩ := map_eq_ok.mp h
          cases hget
        · cases h

/-- What is asked for is a number of seconds that fits 64 bits. -/
theorem exists_of_parse_permitJoin {text : JsonText} {topics : Topics} {message : Message}
    {duration : Duration} (h : parse text topics message = .ok (.permitJoin duration)) :
    ∃ seconds : UInt64, duration = .fromSecs seconds.toNat := by
  unfold parse at h
  split at h
  · cases h
  · split at h
    · rw [parseRequest] at h
      split at h
      · cases h
      · obtain ⟨_,hjoin,heq⟩ := map_eq_ok.mp h
        obtain rfl := Inbound.permitJoin.inj heq
        obtain ⟨value,-,hvalue⟩ := bind_eq_ok.mp hjoin
        obtain ⟨seconds,-,hseconds⟩ := bind_eq_ok.mp hvalue
        exact ⟨seconds,(Except.ok.inj hseconds).symm⟩
    · exact absurd h parseAddressed_ne_permitJoin

/-- Only a window of no time at all is one of no seconds. -/
theorem joinSeconds_eq_zero_iff (seconds : UInt64) :
    Ember.EmberAdapter.joinSeconds (.fromSecs seconds.toNat) = 0 ↔
      Duration.fromSecs seconds.toNat = 0 := by
  have hdiv : Duration.fromSecs seconds.toNat / 1000000000 = seconds.toNat :=
    Nat.mul_div_cancel _ (by decide)
  have hzero : Duration.fromSecs seconds.toNat = 0 ↔ seconds.toNat = 0 := by
    simp [Duration.fromSecs]
  rw [Ember.EmberAdapter.joinSeconds,hdiv,hzero]
  by_cases hbyte : seconds.toNat < 256
  · have hmin : ∀ byte : UInt8, min byte 254 = 0 ↔ byte = 0 := by
      intro byte
      rw [Ember.min_eq]
      split
      · rfl
      · rename_i hlong
        exact iff_of_false (by decide) fun hnone => hlong (hnone ▸ by decide)
    rw [if_pos hbyte,hmin,← UInt8.toNat_inj,UInt8.toNat_ofNat_of_lt' hbyte]
    rfl
  · rw [if_neg hbyte]
    exact iff_of_false (by decide) (by omega)

/-- What a request to permit joining comes to: what the NCP is sent, what the task is then and
what it says, and what is published in answer. -/
structure Joining (E : Engine) where
  commands : List Ember.Request
  runtime : Option (Task E × Except RuntimeError Unit)
  response : Publication

namespace Joining

variable {E : Engine} (text : JsonText) (store : StateStore) (z : Ember.Rsezsp)
  (adapter : Ember.EmberAdapter) (answers : Ember.Answers) (latest : Instant) (t : Task E)
  (env : Env) (duration : Duration)

/-- What the runtime hears, the adapter being the Ember one. -/
def heard : Env := { env with permitJoin := (adapter.permitJoin z duration none).result answers }

/-- The gateway's arm for `permit_join`, down to the NCP. A runtime that is gone is an error. -/
def handle : Joining E :=
  let runtime := t.permitJoinChecked latest duration none (heard z adapter answers env duration)
  { commands := (adapter.permitJoin z duration none).issued answers
    runtime := runtime
    response := store.response text "permit_join"
      (.ofFields [("time",.number (.posInt (.ofNat (duration / 1000000000))))])
      (match runtime with
        | some (_,.ok ()) => true
        | _ => false) }

/-- Nothing panics, and the NCP is asked for at most 254 seconds. -/
structure Completes (j : Joining E) : Prop where
  runs : j.runtime.isSome
  bounded : ∀ seconds, .permitJoining seconds ∈ j.commands → seconds ≤ 254

theorem completes_iff : (handle text store z adapter answers latest t env duration).Completes ↔
    ¬ t.JoinOverflows latest duration none (heard z adapter answers env duration) := by
  have hbounded : ∀ seconds, .permitJoining seconds ∈
      (adapter.permitJoin z duration none).issued answers → seconds ≤ 254 :=
    fun seconds h => UInt8.not_lt.mp (Ember.permitJoin_avoids z adapter duration none answers _ h)
  rcases t.permitJoinChecked_cases latest duration none (heard z adapter answers env duration) with
    ⟨hover,hnone⟩ | ⟨hfits,hsome⟩
  · refine iff_of_false (fun hdone => ?_) fun hfits => hfits hover
    have hruns := hdone.runs
    simp [handle,hnone] at hruns
  · refine iff_of_true ⟨?_,hbounded⟩ hfits
    simp [handle,hsome]

end Joining

/-- A request completes exactly when it asks for no time, or for a time that ends within the
clock's range, or the window is not opened. -/
theorem permitJoin_completes_iff {E : Engine} {text : JsonText} {topics : Topics}
    {message : Message} {duration : Duration}
    (h : parse text topics message = .ok (.permitJoin duration)) (store : StateStore)
    (z : Ember.Rsezsp) (adapter : Ember.EmberAdapter) (answers : Ember.Answers) (latest : Instant)
    (t : Task E) (env : Env) :
    (Joining.handle text store z adapter answers latest t env duration).Completes ↔
      duration = 0 ∨ env.now + duration ≤ latest ∨
        ¬ adapter.Opens z answers (Ember.EmberAdapter.joinSeconds duration) := by
  obtain ⟨seconds,rfl⟩ := exists_of_parse_permitJoin h
  rw [Joining.completes_iff]
  by_cases hzero : Duration.fromSecs seconds.toNat = 0
  · simp [Task.JoinOverflows,hzero]
  · have hopen := Ember.permitJoin_eq_ok z answers adapter
      (mt (joinSeconds_eq_zero_iff seconds).mp hzero)
    have hnow : (Joining.heard z adapter answers env (.fromSecs seconds.toNat)).now = env.now := rfl
    have hheard : (Joining.heard z adapter answers env (.fromSecs seconds.toNat)).permitJoin =
      (adapter.permitJoin z (.fromSecs seconds.toNat) none).result answers := rfl
    rw [Task.JoinOverflows,hnow,hheard,hopen]
    simp only [reduceCtorEq,false_imp_iff,implies_true,true_and,hzero,ne_eq,not_false_eq_true,
      not_and,not_lt,false_or]
    tauto

section Endless

/-- The last instant of a clock that counts seconds in 63 bits. -/
def lastInstant : Instant := Duration.fromSecs (2 ^ 63) - 1

/-- A reader of one number. -/
def secondsText (payload : Bytes) (seconds : UInt64) : JsonText :=
  .reading payload (.number (.posInt seconds))

/-- The most seconds there can be. -/
def mostSeconds : Bytes :=
  [0x31,0x38,0x34,0x34,0x36,0x37,0x34,0x34,0x30,0x37,0x33,0x37,0x30,0x39,0x35,0x35,0x31,0x36,0x31,
    0x35]

/-- A minute is within the clock's range. -/
theorem minute_completes : (Joining.handle (secondsText [0x36,0x30] 60)
    (.new (.new "zigbee2mqtt")) rsezsp
    Ember.connected (Ember.obliging (Ember.Form.parameters 0x2f4d 1 11)) lastInstant
    Ember.emptyTask {} (.fromSecs 60)).Completes := by
  have hparse : parse (secondsText [0x36,0x30] 60) (.new "zigbee2mqtt")
      ⟨"zigbee2mqtt/bridge/request/permit_join",[0x36,0x30]⟩ =
        .ok (.permitJoin (.fromSecs 60)) := rfl
  have hwithin : (0 : Instant) + Duration.fromSecs 60 ≤ lastInstant := by decide
  exact (permitJoin_completes_iff hparse _ _ _ _ _ _ _).mpr (.inr (.inl hwithin))

/-- They are beyond the last instant, and the window is open by then. -/
theorem endless_panics : ¬ ∀ (text : JsonText) (topics : Topics) (message : Message)
    (duration : Duration) (store : StateStore) (z : Ember.Rsezsp) (adapter : Ember.EmberAdapter)
    (answers : Ember.Answers) (t : Task Engine.bare) (env : Env),
    parse text topics message = .ok (.permitJoin duration) → env.now ≤ lastInstant →
      (Joining.handle text store z adapter answers lastInstant t env duration).Completes := by
  intro h
  have hdone := h (secondsText mostSeconds 0xffffffffffffffff) (.new "zigbee2mqtt")
    ⟨"zigbee2mqtt/bridge/request/permit_join",mostSeconds⟩ (.fromSecs 0xffffffffffffffff)
    (.new (.new "zigbee2mqtt")) rsezsp
    Ember.connected (Ember.obliging (Ember.Form.parameters 0x2f4d 1 11)) Ember.emptyTask {} rfl
    (Nat.zero_le _)
  rw [Joining.completes_iff] at hdone
  refine hdone ⟨by simp,rfl,by decide,?_⟩
  decide

end Endless

end Rszigbee
