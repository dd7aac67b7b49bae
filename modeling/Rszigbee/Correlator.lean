import Rszigbee.Runs
import Rszigbee.Tables

/-! The adapter's request/response correlator.
A registration is a one-shot channel and is named by its position in the list of
all registrations; the map holds the sender halves. Threads meet between the
steps below, never inside one: a step is what happens under the lock, or what
one channel operation does. -/
namespace Rszigbee
namespace Correlator

open Runs

/-- What the sender half of a channel has done so far. -/
inductive Slot (V : Type)
  | empty | cancelled | ready (v : V)
  deriving DecidableEq

inductive WaitError
  | cancelled | consumed
  deriving DecidableEq

/-- A registered interest in one response. -/
structure Pending (K V : Type) where
  key : K
  slot : Slot V := .empty
  rx : Bool := true
  outcome : Option (Except WaitError V) := none
  dropped : Bool := false

/-- One call of `resolve`: the sender it took out of the map, and what it has returned. -/
structure Resolve (K V : Type) where
  key : K
  value : V
  registered : ℕ
  sender : Option ℕ
  returned : Option (Option V)

def Resolve.finish {K V : Type} (result : Option V) (r : Resolve K V) : Resolve K V :=
  { r with returned := some result }

structure State (K V : Type) where
  inner : Table K ℕ
  pendings : List (Pending K V)
  resolves : List (Resolve K V)

inductive Op (K V : Type)
  | register (key : K)
  | resolve (key : K) (value : V)
  | send (call : ℕ)
  | wait (id : ℕ)
  | hangUp (id : ℕ)
  | drop (id : ℕ)

namespace Pending

variable {K V : Type}

def disconnect (p : Pending K V) : Pending K V := { p with slot := .cancelled }

def deliver (v : V) (p : Pending K V) : Pending K V := { p with slot := .ready v }

def close (p : Pending K V) : Pending K V := { p with rx := false }

def retire (p : Pending K V) : Pending K V := { p with dropped := true }

/-- One poll of the wait. -/
def wait (p : Pending K V) : Pending K V :=
  match p.rx,p.slot with
  | false,_ => { p with outcome := p.outcome.or (some (.error .consumed)) }
  | true,.empty => p
  | true,.ready v => { p with rx := false, outcome := some (.ok v) }
  | true,.cancelled => { p with rx := false, outcome := some (.error .cancelled) }

@[simp] theorem wait_key (p : Pending K V) : p.wait.key = p.key := by
  unfold wait
  split <;> rfl

@[simp] theorem wait_slot (p : Pending K V) : p.wait.slot = p.slot := by
  unfold wait
  split <;> rfl

@[simp] theorem wait_dropped (p : Pending K V) : p.wait.dropped = p.dropped := by
  unfold wait
  split <;> rfl

theorem wait_outcome {p : Pending K V} {v : V} (h : p.wait.outcome = some (.ok v)) :
    p.outcome = some (.ok v) ∨ p.rx = true ∧ p.slot = .ready v := by
  unfold wait at h
  split at h
  · cases ho : p.outcome with
    | none => simp [ho] at h
    | some o =>
      rw [ho] at h
      exact Or.inl h
  · exact Or.inl h
  · rename_i hr hs
    cases h
    exact Or.inr ⟨hr,hs⟩
  · cases h

end Pending

variable {K V : Type}

namespace State

/-- `Correlator::new`. -/
def new : State K V := ⟨∅,[],[]⟩

def update (s : State K V) (i : ℕ) (f : Pending K V → Pending K V) : State K V :=
  { s with pendings := s.pendings.modify i f }

/-- The sender of channel `o`, if there is one, is dropped unused. -/
def disconnect (s : State K V) (o : Option ℕ) : State K V :=
  o.elim s fun i => s.update i .disconnect

/-- The key of registration `i`. -/
def key (s : State K V) (i : ℕ) : Option K := (s.pendings[i]?).map Pending.key

def slot (s : State K V) (i : ℕ) : Option (Slot V) := (s.pendings[i]?).map Pending.slot

def dropped (s : State K V) (i : ℕ) : Option Bool := (s.pendings[i]?).map Pending.dropped

/-- The registration whose sender the `c`-th call of `resolve` took. -/
def sender (s : State K V) (c : ℕ) : Option ℕ := (s.resolves[c]?).bind Resolve.sender

/-- Among the first `n` registrations, `i` is the last one of key `k`. -/
def LatestAt (s : State K V) (n : ℕ) (k : K) (i : ℕ) : Prop :=
  s.key i = some k ∧ i < n ∧ ∀ j, i < j → j < n → s.key j ≠ some k

/-- The latest registration of `k` is `i`, and it is neither dropped nor resolved. -/
def Outstanding (s : State K V) (k : K) (i : ℕ) : Prop :=
  s.LatestAt s.pendings.length k i ∧ s.dropped i = some false ∧ ∀ c, s.sender c ≠ some i

/-- What has become of the value of a call: handed back, still in the caller's
hand with the sender of the then latest registrant, or in that registrant's channel. -/
def Accounted (s : State K V) (e : Resolve K V) : Prop :=
  e.returned = some (some e.value) ∨
    ∃ i, e.sender = some i ∧ s.LatestAt e.registered e.key i ∧
      (e.returned = none ∧ s.slot i = some .empty ∨
        e.returned = some none ∧ s.slot i = some (.ready e.value))

variable [DecidableEq K]

/-- `Correlator::register`. -/
def register (s : State K V) (key : K) : State K V :=
  let s' := s.disconnect (s.inner.lookup key)
  { s' with
    inner := s.inner.insert key s.pendings.length
    pendings := s'.pendings ++ [{ key := key }] }

/-- What `resolve` finds in the map. -/
def call (s : State K V) (key : K) (value : V) : Resolve K V where
  key := key
  value := value
  registered := s.pendings.length
  sender := s.inner.lookup key
  returned := if (s.inner.lookup key).isSome then none else some (some value)

/-- `Correlator::resolve` up to the removal under the lock. -/
def resolve (s : State K V) (key : K) (value : V) : State K V :=
  { s with
    inner := s.inner.erase key
    resolves := s.resolves ++ [s.call key value] }

omit [DecidableEq K] in
/-- The call of `resolve` returns. -/
def finish (s : State K V) (call : ℕ) (result : Option V) : State K V :=
  { s with resolves := s.resolves.modify call (.finish result) }

omit [DecidableEq K] in
/-- `tx.send(value).err()` of a call of `resolve` that took a sender. -/
def send (s : State K V) (call : ℕ) : State K V :=
  match s.resolves[call]? with
  | some ⟨_,value,_,some i,none⟩ =>
    if (s.pendings[i]?).any Pending.rx then (s.update i (.deliver value)).finish call none
    else s.finish call (some value)
  | _ => s

/-- `Correlator::remove`. -/
def remove (s : State K V) (key : K) : State K V :=
  { s.disconnect (s.inner.lookup key) with inner := s.inner.erase key }

/-- `Drop for Pending`, once for each guard. -/
def drop (s : State K V) (id : ℕ) : State K V :=
  match s.pendings[id]? with
  | some ⟨key,_,_,_,false⟩ => (s.remove key).update id .retire
  | _ => s

end State

variable [DecidableEq K]

def step (s : State K V) : Op K V → State K V
  | .register key => s.register key
  | .resolve key value => s.resolve key value
  | .send call => s.send call
  | .wait id => s.update id .wait
  | .hangUp id => s.update id .close
  | .drop id => s.drop id

namespace State

omit [DecidableEq K]

section Update

variable (s : State K V) (i j : ℕ) {f : Pending K V → Pending K V}

@[simp] theorem update_length : (s.update i f).pendings.length = s.pendings.length := by
  simp [update]

theorem update_key (h : ∀ p, (f p).key = p.key) : (s.update i f).key j = s.key j :=
  map_getElem?_modify h s.pendings i j

theorem update_slot (h : ∀ p, (f p).slot = p.slot) : (s.update i f).slot j = s.slot j :=
  map_getElem?_modify h s.pendings i j

theorem update_dropped (h : ∀ p, (f p).dropped = p.dropped) :
    (s.update i f).dropped j = s.dropped j :=
  map_getElem?_modify h s.pendings i j

theorem update_slot_ne (h : i ≠ j) : (s.update i f).slot j = s.slot j := by
  simp [slot,update,List.getElem?_modify_ne _ _ h]

theorem update_dropped_ne (h : i ≠ j) : (s.update i f).dropped j = s.dropped j := by
  simp [dropped,update,List.getElem?_modify_ne _ _ h]

theorem update_pending {p : Pending K V} (h : (s.update i f).pendings[j]? = some p) :
    ∃ q, s.pendings[j]? = some q ∧ (i = j ∧ p = f q ∨ i ≠ j ∧ p = q) := by
  rw [update,List.getElem?_modify] at h
  cases hq : s.pendings[j]? with
  | none => simp [hq] at h
  | some q =>
    refine ⟨q,rfl,?_⟩
    by_cases hij : i = j
    · simp only [hq,hij,if_true,Option.map_eq_map,Option.map_some,Option.some.injEq] at h
      exact Or.inl ⟨hij,h.symm⟩
    · simp only [hq,hij,if_false,Option.map_eq_map,Option.map_some,Option.some.injEq] at h
      exact Or.inr ⟨hij,h.symm⟩

theorem slot_update {x : Slot V} (h : (s.update i f).slot j = some x) :
    i ≠ j ∧ s.slot j = some x ∨ ∃ p, s.pendings[j]? = some p ∧ i = j ∧ x = (f p).slot := by
  obtain ⟨p,hp,rfl⟩ := Option.map_eq_some_iff.mp h
  obtain ⟨q,hq,⟨hij,rfl⟩ | ⟨hij,rfl⟩⟩ := update_pending s i j hp
  · exact Or.inr ⟨q,hq,hij,rfl⟩
  · exact Or.inl ⟨hij,by rw [slot,hq,Option.map_some]⟩

theorem finish_sender (c : ℕ) (r : Option V) (d : ℕ) : (s.finish c r).sender d = s.sender d := by
  rw [sender,finish,List.getElem?_modify,sender]
  cases s.resolves[d]? with
  | none => rfl
  | some e =>
    by_cases h : c = d
    · simp [h,Resolve.finish]
    · simp [h]

theorem finish_call {c d : ℕ} {r : Option V} {e : Resolve K V}
    (h : (s.finish c r).resolves[d]? = some e) : c ≠ d ∧ s.resolves[d]? = some e ∨
      c = d ∧ ∃ e', s.resolves[c]? = some e' ∧ e = e'.finish r := by
  rw [finish,List.getElem?_modify] at h
  cases hd : s.resolves[d]? with
  | none => simp [hd] at h
  | some e' =>
    by_cases hcd : c = d
    · simp only [hd,hcd,if_true,Option.map_eq_map,Option.map_some,Option.some.injEq] at h
      exact Or.inr ⟨hcd,e',by rw [hcd,hd],h.symm⟩
    · simp only [hd,hcd,if_false,Option.map_eq_map,Option.map_some,Option.some.injEq] at h
      exact Or.inl ⟨hcd,by rw [h]⟩

theorem finish_call_ne {c d : ℕ} (r : Option V) (h : c ≠ d) :
    (s.finish c r).resolves[d]? = s.resolves[d]? := by
  simp [finish,List.getElem?_modify_ne _ _ h]

theorem finish_call_eq {c : ℕ} (r : Option V) {e : Resolve K V} (h : s.resolves[c]? = some e) :
    (s.finish c r).resolves[c]? = some (e.finish r) := by
  simp [finish,h]

end Update

section Disconnect

variable (s : State K V) (o : Option ℕ)

@[simp] theorem disconnect_resolves : (s.disconnect o).resolves = s.resolves := by
  cases o <;> rfl
@[simp] theorem disconnect_length : (s.disconnect o).pendings.length = s.pendings.length := by
  cases o <;> simp [disconnect]
@[simp] theorem disconnect_key (i : ℕ) : (s.disconnect o).key i = s.key i := by
  cases o with
  | none => rfl
  | some j => exact update_key s j i fun _ => rfl
@[simp] theorem disconnect_dropped (i : ℕ) : (s.disconnect o).dropped i = s.dropped i := by
  cases o with
  | none => rfl
  | some j => exact update_dropped s j i fun _ => rfl

theorem disconnect_slot {i : ℕ} (h : o ≠ some i) : (s.disconnect o).slot i = s.slot i := by
  cases o with
  | none => rfl
  | some j => exact update_slot_ne s j i fun he => h (by rw [he])

end Disconnect

theorem key_lt {s : State K V} {i : ℕ} {k : K} (h : s.key i = some k) : i < s.pendings.length := by
  by_contra hi
  simp [key,List.getElem?_eq_none (Nat.le_of_not_lt hi)] at h

theorem sender_lt {s : State K V} {c i : ℕ} (h : s.sender c = some i) : c < s.resolves.length := by
  by_contra hc
  simp [sender,List.getElem?_eq_none (Nat.le_of_not_lt hc)] at h

/-- Only one registration is the latest. -/
theorem LatestAt.unique {s : State K V} {n i j : ℕ} {k : K} (hi : s.LatestAt n k i)
    (hj : s.LatestAt n k j) : i = j := by
  rcases Nat.lt_trichotomy i j with h | h | h
  · exact absurd hj.1 (hi.2.2 j h hj.2.1)
  · exact h
  · exact absurd hi.1 (hj.2.2 i h hi.2.1)

/-- What is latest among the first registrations depends on their keys only. -/
theorem LatestAt.congr {s s' : State K V} {n i : ℕ} {k : K}
    (h : ∀ j, j < n → s'.key j = s.key j) (hl : s.LatestAt n k i) : s'.LatestAt n k i := by
  obtain ⟨hk,hi,hlast⟩ := hl
  refine ⟨(h i hi).trans hk,hi,?_⟩
  intro j hij hj
  rw [h j hj]
  exact hlast j hij hj

/-- An accounted value stays accounted while its registration's slot does. -/
theorem Accounted.congr {s s' : State K V} {e : Resolve K V}
    (hkey : ∀ j, j < e.registered → s'.key j = s.key j)
    (hslot : ∀ i, e.sender = some i → s'.slot i = s.slot i) (h : s.Accounted e) :
    s'.Accounted e := by
  rcases h with h | ⟨i,hi,hl,h⟩
  · exact Or.inl h
  · refine Or.inr ⟨i,hi,hl.congr hkey,?_⟩
    rw [hslot i hi]
    exact h

end State

/-- The map, the guards and the calls of `resolve` in a reachable state. -/
structure Inv (s : State K V) : Prop where
  held : ∀ k i, s.inner.lookup k = some i → s.Outstanding k i ∧ s.slot i = some .empty
  taken : ∀ c i, s.sender c = some i → i < s.pendings.length
  once : ∀ c d i, s.sender c = some i → s.sender d = some i → c = d
  registered : ∀ (c : ℕ) (e : Resolve K V), s.resolves[c]? = some e → e.registered ≤ s.pendings.length
  accounted : ∀ (c : ℕ) (e : Resolve K V), s.resolves[c]? = some e → s.Accounted e
  received : ∀ i v, s.slot i = some (.ready v) →
    ∃ c : ℕ, ∃ e : Resolve K V, s.resolves[c]? = some e ∧ e.sender = some i ∧ e.value = v ∧ e.returned = some none
  awaited : ∀ (i : ℕ) (p : Pending K V) (v : V), s.pendings[i]? = some p → p.outcome = some (.ok v) → p.slot = .ready v

namespace Inv

open State

theorem new : Inv (State.new : State K V) where
  held k i h := by simp [State.new] at h
  taken c i h := by simp [State.new,sender] at h
  once c d i h := by simp [State.new,sender] at h
  registered c e h := by simp [State.new] at h
  accounted c e h := by simp [State.new] at h
  received i v h := by simp [State.new,slot] at h
  awaited i p v h := by simp [State.new] at h

/-- Polling a wait and hanging up touch neither the map nor what others receive. -/
theorem update {s : State K V} (hs : Inv s) (i : ℕ) {f : Pending K V → Pending K V}
    (hkey : ∀ p, (f p).key = p.key) (hslot : ∀ p, (f p).slot = p.slot)
    (hdropped : ∀ p, (f p).dropped = p.dropped)
    (hok : ∀ p v, (f p).outcome = some (.ok v) → p.outcome = some (.ok v) ∨ p.slot = .ready v) :
    Inv (s.update i f) where
  held k j h := by
    obtain ⟨⟨hl,hd,hn⟩,hsl⟩ := hs.held k j h
    refine ⟨⟨?_,?_,hn⟩,?_⟩
    · rw [update_length]
      exact hl.congr fun m _ => update_key s i m hkey
    · rw [update_dropped s i j hdropped,hd]
    · rw [update_slot s i j hslot,hsl]
  taken c j h := by
    rw [update_length]
    exact hs.taken c j h
  once := hs.once
  registered c e h := by
    rw [update_length]
    exact hs.registered c e h
  accounted c e h := (hs.accounted c e h).congr (fun j _ => update_key s i j hkey)
    fun j _ => update_slot s i j hslot
  received j v h := by
    rw [update_slot s i j hslot] at h
    exact hs.received j v h
  awaited j p v h hp := by
    obtain ⟨q,hq,⟨-,rfl⟩ | ⟨-,rfl⟩⟩ := update_pending s i j h
    · rw [hslot]
      rcases hok q v hp with h | h
      · exact hs.awaited j q v hq h
      · exact h
    · exact hs.awaited j p v hq hp

/-- The key of a held sender is the key it is held under. -/
theorem held_key {s : State K V} (hs : Inv s) {k : K} {i : ℕ} (h : s.inner.lookup k = some i) :
    s.key i = some k := (hs.held k i h).1.1.1

/-- Dropping the sender under a key disturbs no other key and no taken sender. -/
theorem remove {s : State K V} (hs : Inv s) (k : K) : Inv (s.remove k) where
  held k' i h := by
    simp only [State.remove,Table.lookup_erase_eq] at h
    split at h
    · cases h
    · rename_i hk
      have hne : s.inner.lookup k ≠ some i := by
        intro hc
        have hkey := (hs.held_key h).symm.trans (hs.held_key hc)
        exact hk (Option.some.inj hkey)
      obtain ⟨⟨hl,hd,hn⟩,hsl⟩ := hs.held k' i h
      refine ⟨⟨?_,?_,?_⟩,?_⟩
      · simp only [State.remove,disconnect_length]
        exact hl.congr fun m _ => disconnect_key s _ m
      · exact (disconnect_dropped s _ i).trans hd
      · intro c hc
        exact hn c (by simpa [sender,State.remove] using hc)
      · exact (disconnect_slot s _ hne).trans hsl
  taken c i h := by
    simp only [State.remove,disconnect_length]
    exact hs.taken c i (by simpa [sender,State.remove] using h)
  once c d i hc hd := hs.once c d i (by simpa [sender,State.remove] using hc)
    (by simpa [sender,State.remove] using hd)
  registered c e h := by
    simp only [State.remove,disconnect_length]
    exact hs.registered c e (by simpa [State.remove] using h)
  accounted c e h := by
    have he : s.resolves[c]? = some e := by simpa [State.remove] using h
    refine (hs.accounted c e he).congr (fun j _ => disconnect_key s _ j) fun i hi => ?_
    refine disconnect_slot s _ fun hc => ?_
    exact (hs.held k i hc).1.2.2 c (by simp [sender,he,hi])
  received i v h := by
    have hsl : s.slot i = some (.ready v) := by
      cases ho : s.inner.lookup k with
      | none => simpa [State.remove,ho,disconnect,slot] using h
      | some j =>
        simp only [State.remove,ho,disconnect,Option.elim_some] at h
        obtain ⟨-,h⟩ | ⟨p,-,-,h⟩ := slot_update s j i h
        · exact h
        · cases h
    simpa [State.remove] using hs.received i v hsl
  awaited i p v h hp := by
    cases ho : s.inner.lookup k with
    | none => exact hs.awaited i p v (by simpa [State.remove,ho,disconnect] using h) hp
    | some j =>
      simp only [State.remove,ho,disconnect,Option.elim_some] at h
      obtain ⟨q,hq,⟨rfl,rfl⟩ | ⟨-,rfl⟩⟩ := update_pending s j i h
      · have hempty := (hs.held k j ho).2
        have hready := hs.awaited j q v hq hp
        simp [slot,hq,hready] at hempty
      · exact hs.awaited i p v hq hp

theorem remove_lookup (s : State K V) (k : K) : (s.remove k).inner.lookup k = none := by
  simp [State.remove]

/-- A guard without a sender in the map can be dropped. -/
theorem retire {s : State K V} (hs : Inv s) {i : ℕ} (hi : ∀ k, s.inner.lookup k ≠ some i) :
    Inv (s.update i .retire) where
  held k j h := by
    have hne : i ≠ j := fun he => hi k (he ▸ h)
    obtain ⟨⟨hl,hd,hn⟩,hsl⟩ := hs.held k j h
    refine ⟨⟨?_,(update_dropped_ne s i j hne).trans hd,hn⟩,(update_slot_ne s i j hne).trans hsl⟩
    rw [update_length]
    exact hl.congr fun m _ => update_key s i m fun _ => rfl
  taken c j h := by
    rw [update_length]
    exact hs.taken c j h
  once := hs.once
  registered c e h := by
    rw [update_length]
    exact hs.registered c e h
  accounted c e h := (hs.accounted c e h).congr (fun j _ => update_key s i j fun _ => rfl)
    fun j _ => update_slot s i j fun _ => rfl
  received j v h :=
    hs.received j v ((update_slot s i j (f := .retire) fun _ => rfl).symm.trans h)
  awaited j p v h hp := by
    obtain ⟨q,hq,⟨-,rfl⟩ | ⟨-,rfl⟩⟩ := update_pending s i j h
    · exact hs.awaited j q v hq hp
    · exact hs.awaited j p v hq hp

theorem drop {s : State K V} (hs : Inv s) (i : ℕ) : Inv (s.drop i) := by
  unfold State.drop
  split
  · rename_i key slot rx outcome hp
    refine (hs.remove key).retire fun k hk => ?_
    have hik : s.key i = some key := by simp [State.key,hp]
    have hrk : (s.remove key).key i = some key := (disconnect_key s _ i).trans hik
    have hkey : k = key := Option.some.inj (((hs.remove key).held_key hk).symm.trans hrk)
    rw [hkey,remove_lookup] at hk
    cases hk
  · exact hs

end Inv

namespace State

/-- A registration whose key the map does not hold. -/
def enter (s : State K V) (k : K) : State K V :=
  { s with
    inner := s.inner.insert k s.pendings.length
    pendings := s.pendings ++ [{ key := k }] }

theorem register_eq (s : State K V) (k : K) : s.register k = (s.remove k).enter k := by
  simp [register,enter,remove,Table.insert_erase]

section Enter

variable (s : State K V) (k : K)

theorem enter_lookup (k' : K) : (s.enter k).inner.lookup k' =
    if k' = k then some s.pendings.length else s.inner.lookup k' :=
  Table.lookup_insert_eq _ _ _ _

theorem enter_pending (j : ℕ) : (s.enter k).pendings[j]? =
    if j = s.pendings.length then some { key := k } else s.pendings[j]? :=
  getElem?_concat _ _ _

theorem enter_length : (s.enter k).pendings.length = s.pendings.length + 1 := by
  simp [enter]

theorem enter_key (j : ℕ) : (s.enter k).key j =
    if j = s.pendings.length then some k else s.key j := by
  rw [key,enter_pending]
  split <;> rfl

theorem enter_slot (j : ℕ) : (s.enter k).slot j =
    if j = s.pendings.length then some .empty else s.slot j := by
  rw [slot,enter_pending]
  split <;> rfl

theorem enter_dropped (j : ℕ) : (s.enter k).dropped j =
    if j = s.pendings.length then some false else s.dropped j := by
  rw [dropped,enter_pending]
  split <;> rfl

/-- The new registration is the latest of its key. -/
theorem enter_latest : (s.enter k).LatestAt (s.enter k).pendings.length k s.pendings.length := by
  refine ⟨by rw [enter_key,if_pos rfl],by rw [enter_length]; omega,?_⟩
  intro j hj hl
  rw [enter_length] at hl
  omega

/-- The latest registration of another key stays the latest. -/
theorem LatestAt.enter {s : State K V} {k k' : K} {i : ℕ} (hne : k' ≠ k)
    (h : s.LatestAt s.pendings.length k' i) :
    (s.enter k).LatestAt (s.enter k).pendings.length k' i := by
  obtain ⟨hk,hi,hlast⟩ := h
  refine ⟨by rw [enter_key,if_neg (by omega),hk],by rw [enter_length]; omega,?_⟩
  intro j hij hj
  rw [enter_length] at hj
  rw [enter_key]
  split
  · intro he
    exact hne (Option.some.inj he).symm
  · exact hlast j hij (by omega)

end Enter

end State

namespace Inv

open State

theorem enter {s : State K V} (hs : Inv s) (k : K) : Inv (s.enter k) where
  held k' i h := by
    rw [enter_lookup] at h
    split at h
    · rename_i he
      cases h
      subst he
      refine ⟨⟨enter_latest s k',by rw [enter_dropped,if_pos rfl],?_⟩,by rw [enter_slot,if_pos rfl]⟩
      intro c hc
      exact absurd (hs.taken c _ hc) (Nat.lt_irrefl _)
    · rename_i hne
      obtain ⟨⟨hl,hd,hn⟩,hsl⟩ := hs.held k' i h
      have hi := hl.2.1
      refine ⟨⟨hl.enter hne,?_,hn⟩,?_⟩
      · rw [enter_dropped,if_neg (by omega),hd]
      · rw [enter_slot,if_neg (by omega),hsl]
  taken c i h := by
    have := hs.taken c i h
    rw [enter_length]
    omega
  once := hs.once
  registered c e h := by
    have := hs.registered c e h
    rw [enter_length]
    omega
  accounted c e h := by
    have hb := hs.registered c e h
    refine (hs.accounted c e h).congr (fun j hj => ?_) fun i hi => ?_
    · rw [enter_key,if_neg (by omega)]
    · have he : s.resolves[c]? = some e := h
      have := hs.taken c i (by rw [sender,he]; exact hi)
      rw [enter_slot,if_neg (by omega)]
  received i v h := by
    rw [enter_slot] at h
    split at h
    · cases h
    · exact hs.received i v h
  awaited i p v h ho := by
    rw [enter_pending] at h
    split at h
    · cases h
      cases ho
    · exact hs.awaited i p v h ho

/-- The sender leaves the map for the hand of the resolver. -/
theorem resolve {s : State K V} (hs : Inv s) (k : K) (v : V) : Inv (s.resolve k v) := by
  have hcall : ∀ c e, (s.resolve k v).resolves[c]? = some e → s.resolves[c]? = some e ∨
      c = s.resolves.length ∧ e = s.call k v := by
    intro c e h
    rw [State.resolve,getElem?_concat] at h
    split at h
    · rename_i hc
      exact Or.inr ⟨hc,(Option.some.inj h).symm⟩
    · exact Or.inl h
  have hsender : ∀ c i, (s.resolve k v).sender c = some i → s.sender c = some i ∨
      c = s.resolves.length ∧ s.inner.lookup k = some i := by
    intro c i h
    obtain ⟨e,he,hi⟩ := Option.bind_eq_some_iff.mp h
    rcases hcall c e he with he | ⟨hc,rfl⟩
    · exact Or.inl (by rw [sender,he]; exact hi)
    · exact Or.inr ⟨hc,hi⟩
  constructor
  case held =>
    intro k' i h
    simp only [State.resolve,Table.lookup_erase_eq] at h
    split at h
    · cases h
    · rename_i hne
      obtain ⟨⟨hl,hd,hn⟩,hsl⟩ := hs.held k' i h
      refine ⟨⟨hl,hd,fun c hc => ?_⟩,hsl⟩
      rcases hsender c i hc with hc | ⟨-,hc⟩
      · exact hn c hc
      · exact hne (Option.some.inj ((hs.held_key h).symm.trans (hs.held_key hc)))
  case taken =>
    intro c i h
    rcases hsender c i h with h | ⟨-,h⟩
    · exact hs.taken c i h
    · exact (hs.held k i h).1.1.2.1
  case once =>
    intro c d i hc hd
    rcases hsender c i hc with hc | ⟨hc',hc⟩
    · rcases hsender d i hd with hd | ⟨-,hd⟩
      · exact hs.once c d i hc hd
      · exact absurd hc ((hs.held k i hd).1.2.2 c)
    · rcases hsender d i hd with hd | ⟨hd',-⟩
      · exact absurd hd ((hs.held k i hc).1.2.2 d)
      · rw [hc',hd']
  case registered =>
    intro c e h
    rcases hcall c e h with h | ⟨-,rfl⟩
    · exact hs.registered c e h
    · exact le_rfl
  case accounted =>
    intro c e h
    rcases hcall c e h with h | ⟨-,rfl⟩
    · exact hs.accounted c e h
    · cases ho : s.inner.lookup k with
      | none => exact Or.inl (by simp [State.call,ho])
      | some i =>
        obtain ⟨⟨hl,-,-⟩,hsl⟩ := hs.held k i ho
        exact Or.inr ⟨i,by simp [State.call,ho],hl,Or.inl ⟨by simp [State.call,ho],hsl⟩⟩
  case received =>
    intro i w h
    obtain ⟨c,e,he,h⟩ := hs.received i w h
    refine ⟨c,e,?_,h⟩
    have hc := (List.getElem?_eq_some_iff.mp he).1
    rw [State.resolve,getElem?_concat,if_neg (Nat.ne_of_lt hc),he]
  case awaited => exact hs.awaited

/-- A returned value stays returned when another call returns. -/
theorem received_finish {s : State K V} (hs : Inv s) {c i : ℕ} {v : V} {e : Resolve K V}
    (he : s.resolves[c]? = some e) (hn : e.returned = none) (h : s.slot i = some (.ready v))
    (r : Option V) : ∃ d : ℕ, ∃ e : Resolve K V, (s.finish c r).resolves[d]? = some e ∧
      e.sender = some i ∧ e.value = v ∧ e.returned = some none := by
  obtain ⟨d,e',he',hi,hv,hr⟩ := hs.received i v h
  refine ⟨d,e',?_,hi,hv,hr⟩
  rw [finish_call_ne s r fun hcd => ?_,he']
  subst hcd
  obtain rfl := Option.some.inj (he.symm.trans he')
  rw [hn] at hr
  cases hr

theorem giveBack {s : State K V} (hs : Inv s) {c : ℕ} {e : Resolve K V}
    (he : s.resolves[c]? = some e) (hn : e.returned = none) :
    Inv (s.finish c (some e.value)) where
  held k i h := by
    obtain ⟨⟨hl,hd,ht⟩,hsl⟩ := hs.held k i h
    exact ⟨⟨hl,hd,fun d => (finish_sender s c _ d).symm ▸ ht d⟩,hsl⟩
  taken d i h := hs.taken d i ((finish_sender s c _ d).symm.trans h)
  once d d' i h h' := hs.once d d' i ((finish_sender s c _ d).symm.trans h)
    ((finish_sender s c _ d').symm.trans h')
  registered d e' h := by
    obtain ⟨-,h⟩ | ⟨-,e'',h₀,rfl⟩ := finish_call s h
    · exact hs.registered d e' h
    · exact hs.registered c e'' h₀
  accounted d e' h := by
    obtain ⟨-,h⟩ | ⟨-,e'',h₀,rfl⟩ := finish_call s h
    · exact hs.accounted d e' h
    · obtain rfl := Option.some.inj (he.symm.trans h₀)
      exact Or.inl rfl
  received i v h := hs.received_finish he hn h _
  awaited := hs.awaited

theorem deliver {s : State K V} (hs : Inv s) {c i : ℕ} {e : Resolve K V}
    (he : s.resolves[c]? = some e) (hi : e.sender = some i) (hn : e.returned = none) :
    Inv ((s.update i (.deliver e.value)).finish c none) := by
  have hci : s.sender c = some i := by simp [sender,he,hi]
  have hsame : s.LatestAt e.registered e.key i ∧ s.slot i = some .empty := by
    rcases hs.accounted c e he with h | ⟨j,hj,hl,⟨-,h⟩ | ⟨h,-⟩⟩
    · rw [hn] at h
      cases h
    · obtain rfl := Option.some.inj (hi.symm.trans hj)
      exact ⟨hl,h⟩
    · rw [hn] at h
      cases h
  have hkey : ∀ j, (s.update i (.deliver e.value)).key j = s.key j :=
    fun j => update_key s i j fun _ => rfl
  constructor
  case held =>
    intro k j h
    obtain ⟨⟨hl,hd,ht⟩,hsl⟩ := hs.held k j h
    have hne : i ≠ j := fun he => ht c (he ▸ hci)
    refine ⟨⟨?_,(update_dropped_ne s i j hne).trans hd,fun d => ?_⟩,
      (update_slot_ne s i j hne).trans hsl⟩
    · simp only [State.finish,update_length]
      exact hl.congr fun m _ => hkey m
    · rw [finish_sender]
      exact ht d
  case taken =>
    intro d j h
    rw [finish_sender] at h
    simp only [State.finish,update_length]
    exact hs.taken d j h
  case once =>
    intro d d' j h h'
    rw [finish_sender] at h h'
    exact hs.once d d' j h h'
  case registered =>
    intro d e' h
    simp only [State.finish,update_length]
    obtain ⟨-,h⟩ | ⟨-,e'',h₀,rfl⟩ := finish_call _ h
    · exact hs.registered d e' h
    · exact hs.registered c e'' h₀
  case accounted =>
    intro d e' h
    obtain ⟨hcd,h⟩ | ⟨-,e'',h₀,rfl⟩ := finish_call _ h
    · refine (hs.accounted d e' h).congr (fun j _ => hkey j) fun j hj => ?_
      have hdj : s.sender d = some j := by
        have h' : s.resolves[d]? = some e' := h
        simp [sender,h',hj]
      exact update_slot_ne s i j fun hij => hcd (hs.once c d i hci (hij ▸ hdj))
    · obtain rfl := Option.some.inj (he.symm.trans h₀)
      refine Or.inr ⟨i,hi,hsame.1.congr fun j _ => hkey j,Or.inr ⟨rfl,?_⟩⟩
      obtain ⟨p,hp,-⟩ := Option.map_eq_some_iff.mp hsame.2
      simp [slot,State.finish,State.update,hp,Pending.deliver,Resolve.finish]
  case received =>
    intro j v h
    obtain ⟨-,h⟩ | ⟨p,hp,rfl,hv⟩ := slot_update s i j h
    · exact hs.received_finish he hn h _
    · cases hv
      exact ⟨c,_,finish_call_eq _ none he,hi,rfl,rfl⟩
  case awaited =>
    intro j p v h ho
    obtain ⟨q,hq,⟨rfl,rfl⟩ | ⟨-,rfl⟩⟩ := update_pending s i j h
    · have hempty := hsame.2
      have hready := hs.awaited i q v hq ho
      simp [slot,hq,hready] at hempty
    · exact hs.awaited j p v hq ho

theorem send {s : State K V} (hs : Inv s) (c : ℕ) : Inv (s.send c) := by
  unfold State.send
  split
  · rename_i key value n i he
    split
    · exact hs.deliver he rfl rfl
    · exact hs.giveBack he rfl
  · exact hs

theorem step {s : State K V} (hs : Inv s) (op : Op K V) : Inv (step s op) := by
  cases op with
  | register k =>
    rw [Correlator.step,register_eq]
    exact (hs.remove k).enter k
  | resolve k v => exact hs.resolve k v
  | send c => exact hs.send c
  | wait i =>
    refine hs.update i Pending.wait_key Pending.wait_slot Pending.wait_dropped fun p v h => ?_
    exact (Pending.wait_outcome h).imp_right And.right
  | hangUp i => exact hs.update i (fun _ => rfl) (fun _ => rfl) (fun _ => rfl) fun p v h => Or.inl h
  | drop i => exact hs.drop i

end Inv

open State

theorem reachable_inv (ops : List (Op K V)) : Inv (run step State.new ops) :=
  run_invariant step (fun _ op hs => hs.step op) Inv.new ops

/-- Nothing leaks and nothing is misdelivered, in whatever order the threads meet:
every key in the map belongs to a guard not yet dropped; the value of every call is
handed back or goes to the latest registrant of its key; no two calls have one
recipient; and what a waiter receives is the value of a call that took its sender. -/
theorem deliveries_accounted (ops : List (Op K V)) :
    let s := run step State.new ops
    (∀ k i, s.inner.lookup k = some i → s.key i = some k ∧ s.dropped i = some false) ∧
    (∀ (c : ℕ) (e : Resolve K V), s.resolves[c]? = some e → s.Accounted e) ∧
    (∀ c d i, s.sender c = some i → s.sender d = some i → c = d) ∧
    (∀ i v, s.slot i = some (.ready v) → ∃ c : ℕ, ∃ e : Resolve K V,
      s.resolves[c]? = some e ∧ e.sender = some i ∧ e.value = v ∧ e.returned = some none) ∧
    ∀ (i : ℕ) (p : Pending K V) (v : V), s.pendings[i]? = some p →
      p.outcome = some (.ok v) → p.slot = .ready v := by
  have hs := reachable_inv ops
  refine ⟨fun k i h => ?_,hs.accounted,hs.once,hs.received,hs.awaited⟩
  obtain ⟨⟨hl,hd,-⟩,-⟩ := hs.held k i h
  exact ⟨hl.1,hd⟩

namespace State

/-- Outstanding registrations are in the map, and the next value for the key is theirs. -/
def Kept (s : State K V) : Prop :=
  ∀ k i, s.Outstanding k i → s.inner.lookup k = some i ∧
    ∀ v, (s.pendings[i]?).any Pending.rx →
      ((s.resolve k v).send s.resolves.length).slot i = some (.ready v)

omit [DecidableEq K] in
/-- No guard is dropped while another, newer registration of its key is outstanding. -/
def Unshadowed (s : State K V) : Op K V → Prop
  | .drop id => ∀ k i, s.key id = some k → s.dropped id = some false → s.Outstanding k i → i = id
  | _ => True

theorem resolve_send_slot {s : State K V} {k : K} {i : ℕ} (h : s.inner.lookup k = some i) (v : V)
    (hrx : (s.pendings[i]?).any Pending.rx) :
    ((s.resolve k v).send s.resolves.length).slot i = some (.ready v) := by
  have hcall : (s.resolve k v).resolves[s.resolves.length]? =
      some ⟨k,v,s.pendings.length,some i,none⟩ := by
    rw [resolve,getElem?_concat,if_pos rfl]
    simp [call,h]
  have hp : (s.resolve k v).pendings = s.pendings := rfl
  rw [send]
  simp only [hcall,hp,hrx,if_true]
  cases hq : s.pendings[i]? with
  | none => simp [hq] at hrx
  | some q => simp [slot,finish,update,hp,hq,Pending.deliver]

theorem kept_iff {s : State K V} :
    s.Kept ↔ ∀ k i, s.Outstanding k i → s.inner.lookup k = some i := by
  refine ⟨fun h k i ho => (h k i ho).1,fun h k i ho => ?_⟩
  exact ⟨h k i ho,fun v hrx => resolve_send_slot (h k i ho) v hrx⟩

omit [DecidableEq K] in
/-- Who is outstanding depends on the keys, the drops and the senders taken. -/
theorem Outstanding.congr {s s' : State K V} {k : K} {i : ℕ}
    (hlen : s'.pendings.length = s.pendings.length) (hkey : ∀ j, s'.key j = s.key j)
    (hdropped : s'.dropped i = s.dropped i) (hsender : ∀ c, s'.sender c = s.sender c)
    (h : s.Outstanding k i) : s'.Outstanding k i := by
  obtain ⟨hl,hd,hn⟩ := h
  refine ⟨?_,hdropped.trans hd,fun c => (hsender c).symm ▸ hn c⟩
  rw [hlen]
  exact hl.congr fun j _ => hkey j

theorem Kept.of_outstanding {s s' : State K V} (hs : s.Kept)
    (h : ∀ k i, s'.Outstanding k i → s.Outstanding k i ∧ s'.inner.lookup k = s.inner.lookup k) :
    s'.Kept := by
  refine kept_iff.mpr fun k i ho => ?_
  obtain ⟨ho,hl⟩ := h k i ho
  exact hl.trans (kept_iff.mp hs k i ho)

omit [DecidableEq K] in
theorem send_frame (s : State K V) (c : ℕ) : (s.send c).inner = s.inner ∧
    (s.send c).pendings.length = s.pendings.length ∧ (∀ j, (s.send c).key j = s.key j) ∧
    (∀ j, (s.send c).dropped j = s.dropped j) ∧ ∀ d, (s.send c).sender d = s.sender d := by
  unfold send
  split
  · rename_i key value n i he
    split
    · exact ⟨rfl,update_length s i,fun j => update_key s i j fun _ => rfl,
        fun j => update_dropped s i j fun _ => rfl,finish_sender _ c none⟩
    · exact ⟨rfl,rfl,fun _ => rfl,fun _ => rfl,finish_sender s c _⟩
  · exact ⟨rfl,rfl,fun _ => rfl,fun _ => rfl,fun _ => rfl⟩

theorem Kept.send {s : State K V} (hs : s.Kept) (c : ℕ) : (s.send c).Kept := by
  obtain ⟨hin,hlen,hkey,hdropped,hsender⟩ := send_frame s c
  refine hs.of_outstanding fun k i ho => ⟨?_,by rw [hin]⟩
  exact ho.congr hlen.symm (fun j => (hkey j).symm) (hdropped i).symm fun d => (hsender d).symm

theorem Kept.update {s : State K V} (hs : s.Kept) (i : ℕ) {f : Pending K V → Pending K V}
    (hkey : ∀ p, (f p).key = p.key) (hdropped : ∀ p, (f p).dropped = p.dropped) :
    (s.update i f).Kept := by
  refine hs.of_outstanding fun k j ho => ⟨?_,rfl⟩
  exact ho.congr (update_length s i).symm (fun m => (update_key s i m hkey).symm)
    (update_dropped s i j hdropped).symm fun _ => rfl

/-- Taking a sender out resolves its registration. -/
theorem Kept.resolve {s : State K V} (hs : s.Kept) (k : K) (v : V) : (s.resolve k v).Kept := by
  have hnew : (s.resolve k v).sender s.resolves.length = s.inner.lookup k := by
    rw [sender,State.resolve,getElem?_concat,if_pos rfl]
    rfl
  have hsender : ∀ c i, s.sender c = some i → (s.resolve k v).sender c = some i := by
    intro c i h
    have hc := sender_lt h
    rw [sender] at h
    rw [sender,State.resolve,getElem?_concat,if_neg (Nat.ne_of_lt hc),h]
  refine hs.of_outstanding fun k' i ho => ?_
  obtain ⟨hl,hd,hn⟩ := ho
  have ho : s.Outstanding k' i := ⟨hl,hd,fun c hc => hn c (hsender c i hc)⟩
  refine ⟨ho,?_⟩
  rw [State.resolve,Table.lookup_erase_eq]
  split
  · rename_i he
    subst he
    exact absurd (hnew.trans (kept_iff.mp hs k' i ho)) (hn _)
  · rfl

omit [DecidableEq K] in
theorem remove_outstanding [DecidableEq K] {s : State K V} {k k' : K} {i : ℕ} :
    (s.remove k).Outstanding k' i ↔ s.Outstanding k' i := by
  have hlen : (s.remove k).pendings.length = s.pendings.length := disconnect_length s _
  have hkey : ∀ j, (s.remove k).key j = s.key j := disconnect_key s _
  have hdropped : ∀ j, (s.remove k).dropped j = s.dropped j := disconnect_dropped s _
  have hsender : ∀ c, (s.remove k).sender c = s.sender c := by
    intro c
    simp [sender,remove]
  constructor
  · exact fun h => h.congr hlen.symm (fun j => (hkey j).symm) (hdropped i).symm
      fun c => (hsender c).symm
  · exact fun h => h.congr hlen hkey (hdropped i) hsender

theorem enter_outstanding {s : State K V} {k k' : K} {i : ℕ} (h : (s.enter k).Outstanding k' i) :
    k' = k ∧ i = s.pendings.length ∨ k' ≠ k ∧ s.Outstanding k' i := by
  by_cases hk : k' = k
  · subst hk
    exact Or.inl ⟨rfl,h.1.unique (enter_latest s k')⟩
  · obtain ⟨⟨hkey,hi,hlast⟩,hd,hn⟩ := h
    have hne : i ≠ s.pendings.length := by
      rintro rfl
      rw [enter_key,if_pos rfl] at hkey
      exact hk (Option.some.inj hkey).symm
    rw [enter_length] at hi
    rw [enter_key,if_neg hne] at hkey
    rw [enter_dropped,if_neg hne] at hd
    refine Or.inr ⟨hk,⟨hkey,by omega,fun j hij hj => ?_⟩,hd,hn⟩
    have := hlast j hij (by rw [enter_length]; omega)
    rwa [enter_key,if_neg (by omega)] at this

theorem Kept.register {s : State K V} (hs : s.Kept) (k : K) : (s.register k).Kept := by
  rw [register_eq]
  refine kept_iff.mpr fun k' i ho => ?_
  rw [enter_lookup]
  rcases enter_outstanding ho with ⟨rfl,rfl⟩ | ⟨hk,ho⟩
  · rw [if_pos rfl]
  · rw [if_neg hk,remove,Table.lookup_erase_eq,if_neg hk]
    exact kept_iff.mp hs k' i (remove_outstanding.mp ho)

theorem drop_live {s : State K V} {i : ℕ} {k : K} (hk : s.key i = some k)
    (hd : s.dropped i = some false) : s.drop i = (s.remove k).update i .retire := by
  obtain ⟨p,hp,rfl⟩ := Option.map_eq_some_iff.mp hk
  obtain ⟨key,slot,rx,outcome,dropped⟩ := p
  rw [State.dropped,hp] at hd
  obtain rfl : dropped = false := Option.some.inj hd
  simp only [drop,hp]

theorem drop_dead {s : State K V} {i : ℕ} (hd : s.dropped i ≠ some false) : s.drop i = s := by
  unfold drop
  split
  · rename_i hp
    exact absurd (by simp [State.dropped,hp]) hd
  · rfl

omit [DecidableEq K] in
theorem retire_outstanding {s : State K V} {k : K} {i j : ℕ} :
    (s.update j .retire).Outstanding k i ↔ i ≠ j ∧ s.Outstanding k i := by
  have hkey : ∀ m, (s.update j .retire).key m = s.key m := fun m => update_key s j m fun _ => rfl
  constructor
  · intro h
    have hne : i ≠ j := by
      rintro rfl
      have hd := h.2.1
      obtain ⟨p,hp,hd⟩ := Option.map_eq_some_iff.mp hd
      obtain ⟨q,-,⟨-,rfl⟩ | ⟨hii,-⟩⟩ := update_pending s i i hp
      · cases hd
      · exact hii rfl
    refine ⟨hne,h.congr (update_length s j).symm (fun m => (hkey m).symm) ?_ fun _ => rfl⟩
    exact (update_dropped_ne s j i hne.symm).symm
  · rintro ⟨hne,h⟩
    exact h.congr (update_length s j) hkey (update_dropped_ne s j i hne.symm) fun _ => rfl

theorem kept_drop {s : State K V} (hs : s.Kept) (id : ℕ) :
    (s.drop id).Kept ↔ s.Unshadowed (.drop id) := by
  by_cases hd : s.dropped id = some false
  · obtain ⟨k,hk⟩ : ∃ k, s.key id = some k := by
      obtain ⟨p,hp,-⟩ := Option.map_eq_some_iff.mp hd
      exact ⟨p.key,by simp [key,hp]⟩
    rw [drop_live hk hd,kept_iff]
    have hlookup : ∀ k', ((s.remove k).update id .retire).inner.lookup k' =
        if k' = k then none else s.inner.lookup k' := fun k' => Table.lookup_erase_eq _ _ _
    constructor
    · intro h k' i hk' _ ho
      obtain rfl := Option.some.inj (hk.symm.trans hk')
      by_contra hne
      have hi := h k i (retire_outstanding.mpr ⟨hne,remove_outstanding.mpr ho⟩)
      rw [hlookup,if_pos rfl] at hi
      cases hi
    · intro h k' i ho
      obtain ⟨hne,ho⟩ := retire_outstanding.mp ho
      have ho := remove_outstanding.mp ho
      rw [hlookup]
      split
      · rename_i he
        exact absurd (h k' i (he ▸ hk) hd ho) hne
      · exact kept_iff.mp hs k' i ho
  · rw [drop_dead hd]
    exact ⟨fun _ _ _ _ hd' _ => absurd hd' hd,fun _ => hs⟩

theorem kept_step {s : State K V} (hs : s.Kept) (op : Op K V) :
    (step s op).Kept ↔ s.Unshadowed op := by
  cases op with
  | register k => exact iff_of_true (hs.register k) trivial
  | resolve k v => exact iff_of_true (hs.resolve k v) trivial
  | send c => exact iff_of_true (hs.send c) trivial
  | wait i => exact iff_of_true (hs.update i Pending.wait_key Pending.wait_dropped) trivial
  | hangUp i => exact iff_of_true (hs.update i (fun _ => rfl) fun _ => rfl) trivial
  | drop i => exact kept_drop hs i

theorem new_kept : (new : State K V).Kept := by
  refine kept_iff.mpr fun k i h => ?_
  have := key_lt h.1.1
  simp [new] at this

end State

/-- The newest registration of a key survives a whole run exactly when no guard is
dropped while another, newer registration of its key is outstanding. -/
theorem kept_iff_unshadowed (ops : List (Op K V)) :
    (∀ pre, pre <+: ops → (run step State.new pre).Kept) ↔
      Meets step State.Unshadowed State.new ops :=
  always_iff_meets step (J := fun _ => True) (P := State.Kept) (fun _ _ _ => trivial)
    (fun _ op _ hs => kept_step hs op) trivial new_kept ops

/-- The first waiter of a key used twice gives up and takes the second one's entry with it. -/
theorem replaced_drop_cancels :
    ¬ ∀ ops : List (Op UInt8 UInt8), (run step State.new ops).Kept := by
  intro h
  have hkept := kept_iff.mp (h [.register 5,.register 5,.drop 0]) 5 1
  have hlast : (run step State.new [.register 5,.register 5,.drop 0] :
      State UInt8 UInt8).Outstanding 5 1 := by
    refine ⟨⟨by decide,by decide,fun j hj hl => ?_⟩,by decide,fun c => ?_⟩
    · have hn : (run step State.new [.register 5,.register 5,.drop 0] :
          State UInt8 UInt8).pendings.length = 2 := by decide
      omega
    · have hr : (run step State.new [.register 5,.register 5,.drop 0] :
          State UInt8 UInt8).resolves = [] := rfl
      rw [sender,hr]
      simp
  have hlookup := hkept hlast
  revert hlookup
  decide

end Correlator
end Rszigbee
