import Mathlib.Data.List.Basic

/-! Bounded channels: what is sent is received in the order it was sent, and never more of it
is waiting than the channel has room for. -/
namespace Rszigbee

/-- What waits in a channel, oldest first. -/
structure Channel (α : Type) (capacity : ℕ) where
  items : List α
  bound : items.length ≤ capacity

namespace Channel

variable {α : Type} {capacity : ℕ}

def empty : Channel α capacity := ⟨[],Nat.zero_le _⟩

/-- Something more can be sent. -/
def Room (c : Channel α capacity) : Prop := c.items.length < capacity

instance (c : Channel α capacity) : Decidable c.Room := inferInstanceAs (Decidable (_ < _))

def push (c : Channel α capacity) (a : α) (h : c.Room) : Channel α capacity :=
  ⟨c.items ++ [a],by rw [List.length_append]; exact h⟩

/-- The channel once its oldest item has been received. -/
def tail (c : Channel α capacity) : Channel α capacity :=
  ⟨c.items.tail,by rw [List.length_tail]; exact Nat.le_trans (Nat.sub_le _ _) c.bound⟩

/-- The channel once some of its oldest items have been received. -/
def drop (c : Channel α capacity) (n : ℕ) : Channel α capacity :=
  ⟨c.items.drop n,by rw [List.length_drop]; exact Nat.le_trans (Nat.sub_le _ _) c.bound⟩

@[simp] theorem empty_items : (empty : Channel α capacity).items = [] := rfl
@[simp] theorem push_items (c : Channel α capacity) (a : α) (h : c.Room) :
    (c.push a h).items = c.items ++ [a] := rfl
@[simp] theorem tail_items (c : Channel α capacity) : c.tail.items = c.items.tail := rfl
@[simp] theorem drop_items (c : Channel α capacity) (n : ℕ) :
    (c.drop n).items = c.items.drop n := rfl

/-- A channel without room is full. -/
theorem length_of_not_room {c : Channel α capacity} (h : ¬ c.Room) : c.items.length = capacity :=
  Nat.le_antisymm c.bound (Nat.le_of_not_lt h)

/-- A full channel has something to receive, unless it never holds anything. -/
theorem exists_of_not_room {c : Channel α capacity} (h : ¬ c.Room) (hcapacity : 0 < capacity) :
    ∃ a rest, c.items = a::rest := by
  have hlength := length_of_not_room h
  cases hitems : c.items with
  | nil => rw [hitems] at hlength; exact absurd hlength (Nat.ne_of_lt hcapacity)
  | cons a rest => exact ⟨a,rest,rfl⟩

/-- A channel is what waits in it. -/
theorem ext_items {c c' : Channel α capacity} (h : c.items = c'.items) : c = c' := by
  cases c
  cases c'
  cases h
  rfl

end Channel
end Rszigbee
