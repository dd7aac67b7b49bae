import Rszigbee.Channels

/-! A channel with many readers, each at its own pace. It keeps the newest of what is sent; a
reader that has fallen behind it is told how much it has missed, and goes on with the oldest that
is left. -/
namespace Rszigbee

/-- What a reader is given. -/
inductive Reading (α : Type)
  | item (a : α)
  | lagged (skipped : ℕ)
  deriving DecidableEq

def Reading.item? {α : Type} : Reading α → Option α
  | item a => some a
  | lagged _ => none

def Reading.skipped {α : Type} : Reading α → ℕ
  | item _ => 0
  | lagged n => n

/-- How many a reader was told it missed. -/
def missed {α : Type} : List (Reading α) → ℕ
  | [] => 0
  | r::rs => r.skipped + missed rs

theorem missed_concat {α : Type} (rs : List (Reading α)) (r : Reading α) :
    missed (rs ++ [r]) = missed rs + r.skipped := by
  induction rs with
  | nil => simp [missed]
  | cons r' rs ih => rw [List.cons_append,missed,missed,ih,Nat.add_assoc]

structure Broadcast (α : Type) (capacity : ℕ) where
  /-- How many have been overwritten. -/
  dropped : ℕ
  kept : Channel α capacity
  /-- The last sender is gone. -/
  closed : Bool

namespace Broadcast

variable {α : Type} {capacity : ℕ}

def new : Broadcast α capacity := ⟨0,.empty,false⟩

section Operations

variable (b : Broadcast α capacity)

/-- Where the next one goes, and where a new reader begins. -/
def tail : ℕ := b.dropped + b.kept.items.length

/-- The newest is kept, in place of the oldest where there is no room. -/
def send (a : α) : Broadcast α capacity :=
  if room : b.kept.Room then { b with kept := b.kept.push a room }
  else { b with
    dropped := b.dropped + 1
    kept := ⟨(b.kept.items ++ [a]).tail,by
      rw [List.length_tail,List.length_append]; exact b.kept.bound⟩ }

def close : Broadcast α capacity := { b with closed := true }

/-- What a reader at `next` is given, and where it is then; nothing while it has read all. -/
def recv (next : ℕ) : Option (Reading α × ℕ) :=
  if next < b.dropped then some (.lagged (b.dropped - next),b.dropped)
  else (b.kept.items[next - b.dropped]?).map fun a => (.item a,next + 1)

end Operations

section Keeping

/-- The channel after all this was sent. -/
structure Holds (b : Broadcast α capacity) (sent : List α) : Prop where
  dropped : b.dropped = sent.length - capacity
  kept : b.kept.items = sent.drop b.dropped

variable {b : Broadcast α capacity} {sent : List α}

theorem Holds.new : Holds (new : Broadcast α capacity) [] := ⟨by simp [Broadcast.new],rfl⟩

theorem Holds.length (h : b.Holds sent) : b.kept.items.length = sent.length - b.dropped := by
  rw [h.kept,List.length_drop]

theorem Holds.tail (h : b.Holds sent) : b.tail = sent.length := by
  rw [Broadcast.tail,h.length,h.dropped]
  omega

theorem Holds.send (h : b.Holds sent) (a : α) : (b.send a).Holds (sent ++ [a]) := by
  have hlength := h.length
  have hdropped := h.dropped
  have hfits : b.dropped ≤ sent.length := by omega
  by_cases room : b.kept.Room
  · have hroom := room
    rw [Channel.Room] at hroom
    rw [Broadcast.send,dif_pos room]
    refine ⟨?_,?_⟩
    · simp only [List.length_append,List.length_singleton]
      omega
    · rw [Channel.push_items,h.kept,List.drop_append_of_le_length hfits]
  · have hfull := Channel.length_of_not_room room
    rw [Broadcast.send,dif_neg room]
    refine ⟨?_,?_⟩
    · simp only [List.length_append,List.length_singleton]
      omega
    · show (b.kept.items ++ [a]).tail = (sent ++ [a]).drop (b.dropped + 1)
      rw [h.kept,← List.drop_append_of_le_length hfits,List.tail_drop]

theorem Holds.close (h : b.Holds sent) : b.close.Holds sent := ⟨h.dropped,h.kept⟩

end Keeping

section Reading

/-- Readings that tell of all of this, item by item or by how many were missed. -/
inductive Accounts : List (Reading α) → List α → Prop
  | nil : Accounts [] []
  | item {rs as} (a : α) : Accounts rs as → Accounts (rs ++ [.item a]) (as ++ [a])
  | lagged {rs as} (gap : List α) : gap ≠ [] → Accounts rs as →
      Accounts (rs ++ [.lagged gap.length]) (as ++ gap)

theorem Accounts.sublist {rs : List (Reading α)} {as : List α} (h : Accounts rs as) :
    (rs.filterMap Reading.item?).Sublist as := by
  induction h with
  | nil => exact .refl _
  | item a _ ih =>
    rw [List.filterMap_append]
    exact ih.append (.refl _)
  | lagged gap _ _ ih =>
    rw [List.filterMap_append]
    exact ih.append (List.nil_sublist _)

/-- What a reader was given, and what it was told it missed, is everything. -/
theorem Accounts.length_eq {rs : List (Reading α)} {as : List α} (h : Accounts rs as) :
    as.length = (rs.filterMap Reading.item?).length + missed rs := by
  induction h with
  | nil => rfl
  | @item rs as a _ ih =>
    have hone : [Reading.item a].filterMap Reading.item? = [a] := rfl
    rw [List.length_append,ih,List.filterMap_append,List.length_append,missed_concat,hone,
      Reading.skipped]
    omega
  | @lagged rs as gap _ _ ih =>
    have hnone : [Reading.lagged (α := α) gap.length].filterMap Reading.item? = [] := rfl
    rw [List.length_append,ih,List.filterMap_append,List.length_append,missed_concat,hnone,
      Reading.skipped,List.length_nil]
    omega

/-- A reader that was told of no gap has been given everything. -/
theorem Accounts.eq_of_item {rs : List (Reading α)} {as : List α} (h : Accounts rs as)
    (hnone : ∀ n, .lagged n ∉ rs) : rs.filterMap Reading.item? = as := by
  induction h with
  | nil => rfl
  | item a _ ih =>
    rw [List.filterMap_append,ih fun n hn => hnone n (List.mem_append_left _ hn)]
    rfl
  | lagged gap _ _ _ => exact absurd (List.mem_append_right _ (List.mem_singleton_self _)) (hnone _)

variable {b : Broadcast α capacity} {sent : List α} {next : ℕ}

/-- What a reader is given tells of the next of what was sent, or of a gap up to what is kept. -/
theorem recv_accounts (h : b.Holds sent) {since : ℕ} {rs : List (Reading α)} (hsince : since ≤ next)
    (hnext : next ≤ sent.length) (hrs : Accounts rs ((sent.take next).drop since))
    {r : Reading α} {next' : ℕ} (hrecv : b.recv next = some (r,next')) :
    Accounts (rs ++ [r]) ((sent.take next').drop since) ∧ next < next' ∧ next' ≤ sent.length := by
  have hdropped := h.dropped
  have hlonger (n : ℕ) (hn : next ≤ n) :
      (sent.take n).drop since = (sent.take next).drop since ++ (sent.take n).drop next := by
    have hsplit : sent.take n = sent.take next ++ (sent.take n).drop next := by
      conv_lhs => rw [← List.take_append_drop next (sent.take n)]
      rw [List.take_take,Nat.min_eq_left hn]
    have hlong : since ≤ (sent.take next).length := by rw [List.length_take]; omega
    conv_lhs => rw [hsplit,List.drop_append_of_le_length hlong]
  rw [recv] at hrecv
  by_cases hlags : next < b.dropped
  · rw [if_pos hlags,Option.some.injEq,Prod.mk.injEq] at hrecv
    obtain ⟨rfl,rfl⟩ := hrecv
    have hgap : ((sent.take b.dropped).drop next).length = b.dropped - next := by
      rw [List.length_drop,List.length_take]
      omega
    refine ⟨?_,hlags,by omega⟩
    rw [hlonger b.dropped (Nat.le_of_lt hlags),← hgap]
    refine .lagged _ (fun hnone => ?_) hrs
    rw [hnone,List.length_nil] at hgap
    omega
  · rw [if_neg hlags,Option.map_eq_some_iff] at hrecv
    obtain ⟨a,ha,heq⟩ := hrecv
    obtain ⟨rfl,rfl⟩ := Prod.mk.inj heq
    have hat : sent[next]? = some a := by
      rw [h.kept,List.getElem?_drop] at ha
      rwa [show b.dropped + (next - b.dropped) = next by omega] at ha
    obtain ⟨hlt,rfl⟩ := List.getElem?_eq_some_iff.mp hat
    refine ⟨?_,Nat.lt_succ_self _,hlt⟩
    have hone : (sent.take (next + 1)).drop next = [sent[next]] := by
      rw [List.drop_take,Nat.add_sub_cancel_left,List.drop_eq_getElem_cons hlt]
      rfl
    rw [hlonger (next + 1) (Nat.le_succ _),hone]
    exact .item _ hrs

/-- A reader that has read everything is given the next at once. -/
theorem recv_send (h : b.Holds sent) (hcapacity : 0 < capacity) (a : α) :
    (b.send a).recv sent.length = some (.item a,sent.length + 1) := by
  have hsent := h.send a
  have hdropped := hsent.dropped
  rw [List.length_append,List.length_singleton] at hdropped
  have hat : (b.send a).dropped + (sent.length - (b.send a).dropped) = sent.length := by omega
  rw [recv,if_neg (by omega),hsent.kept,List.getElem?_drop,hat]
  simp

end Reading
end Broadcast
end Rszigbee
