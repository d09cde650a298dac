import Mathlib.Data.List.Basic
import Mathlib.Data.Nat.Notation
import Mathlib.Tactic.Common

/-!
# Bounded queues with a history

A queue remembers everything that has ever entered it and how much of that has
left it again; what is in it is the difference.  That no more has left than has
entered and that the difference fits are fields, so a value of this type is a
first-in first-out queue within its capacity.
-/

namespace HttpCerver.Queues

/-- A first-in first-out queue of at most `capacity` items. -/
structure Queue (α : Type*) (capacity : ℕ) where
  entered : List α
  left : ℕ
  left_le : left ≤ entered.length
  length_le : entered.length - left ≤ capacity

namespace Queue

variable {α : Type*} {capacity : ℕ} (queue : Queue α capacity)

/-- What is in the queue, the oldest item first. -/
def items : List α :=
  queue.entered.drop queue.left

theorem length_items :
    queue.items.length = queue.entered.length - queue.left :=
  List.length_drop

theorem length_items_le : queue.items.length ≤ capacity := by
  rw [length_items]
  exact queue.length_le

/-- The queue that nothing has entered. -/
def empty (α : Type*) (capacity : ℕ) : Queue α capacity where
  entered := []
  left := 0
  left_le := Nat.le_refl 0
  length_le := Nat.zero_le capacity

/-- Items enter at the back, all of them or none. -/
def enter (more : List α) : Queue α capacity :=
  if hfits : queue.items.length + more.length ≤ capacity then
    { entered := queue.entered ++ more
      left := queue.left
      left_le := by
        have hleft := queue.left_le
        rw [List.length_append]
        omega
      length_le := by
        have hlength := queue.length_items
        have hleft := queue.left_le
        rw [List.length_append]
        omega }
  else queue

/-- Items leave from the front, as many as asked for or none. -/
def leave (count : ℕ) : Queue α capacity :=
  if hcount : count ≤ queue.items.length then
    { entered := queue.entered
      left := queue.left + count
      left_le := by
        have hlength := queue.length_items
        have hleft := queue.left_le
        omega
      length_le := by
        have hle := queue.length_le
        omega }
  else queue

variable {queue} {more : List α} {count : ℕ}

theorem enter_of_full (hfull : capacity < queue.items.length + more.length) :
    queue.enter more = queue :=
  dif_neg (Nat.not_le.mpr hfull)

theorem leave_of_more (hmore : queue.items.length < count) :
    queue.leave count = queue :=
  dif_neg (Nat.not_le.mpr hmore)

section Enter

variable (hfits : queue.items.length + more.length ≤ capacity)

include hfits

theorem entered_enter :
    (queue.enter more).entered = queue.entered ++ more := by
  rw [enter, dif_pos hfits]

theorem left_enter : (queue.enter more).left = queue.left := by
  rw [enter, dif_pos hfits]

theorem items_enter : (queue.enter more).items = queue.items ++ more := by
  rw [items, entered_enter hfits, left_enter hfits,
    List.drop_append_of_le_length queue.left_le, items]

end Enter

section Leave

variable (hcount : count ≤ queue.items.length)

include hcount

theorem entered_leave : (queue.leave count).entered = queue.entered := by
  rw [leave, dif_pos hcount]

theorem left_leave : (queue.leave count).left = queue.left + count := by
  rw [leave, dif_pos hcount]

theorem items_leave : (queue.leave count).items = queue.items.drop count := by
  rw [items, entered_leave hcount, left_leave hcount, items, List.drop_drop]

end Leave

end Queue

end HttpCerver.Queues
