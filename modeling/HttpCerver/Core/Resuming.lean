import Mathlib.Data.List.Basic
import Mathlib.Data.Nat.Notation
import Mathlib.Tactic.Common

/-!
# Messages written in several goes

A writer that counts how much of its message is out can be interrupted at any
element and called again.  A message in two parts may have a counter for each,
as long as the second one does not move before the first part is out.
-/

namespace HttpCerver.Resuming

variable {α : Type*}

/-- Writing `items` has taken a writer from the first `sent` elements of a
message to its first `sent'`. -/
structure Advance (message : List α) (sent : ℕ) (items : List α)
    (sent' : ℕ) : Prop where
  written : message.take sent' = message.take sent ++ items
  sent_eq : sent' = sent + items.length
  within : sent' ≤ message.length

section Advance

variable {message front back items more : List α} {sent sent' sent'' : ℕ}

theorem Advance.refl (hwithin : sent ≤ message.length) :
    Advance message sent [] sent where
  written := (List.append_nil _).symm
  sent_eq := rfl
  within := hwithin

theorem Advance.le (h : Advance message sent items sent') : sent ≤ sent' := by
  rw [h.sent_eq]
  exact Nat.le_add_right _ _

theorem Advance.trans (first : Advance message sent items sent')
    (second : Advance message sent' more sent'') :
    Advance message sent (items ++ more) sent'' where
  written := by
    rw [second.written, first.written, List.append_assoc]
  sent_eq := by
    rw [second.sent_eq, first.sent_eq, List.length_append, Nat.add_assoc]
  within := second.within

/-- The elements come off the front of what was left. -/
theorem advance_of_drop_eq
    (hdrop : message.drop sent = items ++ message.drop sent')
    (hsent : sent' = sent + items.length)
    (hwithin : sent' ≤ message.length) :
    Advance message sent items sent' where
  written := by
    rw [hsent, List.take_add, hdrop, List.take_left]
  sent_eq := hsent
  within := hwithin

/-- From the start, an advance has written the beginning of its message. -/
theorem Advance.eq_take (h : Advance message 0 items sent) :
    items = message.take sent := by
  rw [h.written, List.take_zero, List.nil_append]

theorem Advance.appendLeft (h : Advance front sent items sent')
    (back : List α) : Advance (front ++ back) sent items sent' where
  written := by
    have hstart : sent ≤ front.length := Nat.le_trans h.le h.within
    rw [List.take_append_of_le_length h.within,
      List.take_append_of_le_length hstart, h.written]
  sent_eq := h.sent_eq
  within := by
    rw [List.length_append]
    exact Nat.le_trans h.within (Nat.le_add_right _ _)

theorem Advance.appendRight (h : Advance back sent items sent')
    (front : List α) :
    Advance (front ++ back) (front.length + sent) items
      (front.length + sent') where
  written := by
    rw [List.take_length_add_append, List.take_length_add_append, h.written,
      List.append_assoc]
  sent_eq := by rw [h.sent_eq, Nat.add_assoc]
  within := by
    rw [List.length_append]
    exact Nat.add_le_add_left h.within _

/-- The first counter has moved and not come to the end of its part. -/
theorem Advance.inFirst {later : ℕ} (h : Advance front sent items sent')
    (back : List α) (horder : sent < front.length → later = 0)
    (hshort : sent' < front.length) :
    Advance (front ++ back) (sent + later) items (sent' + later) := by
  rw [horder (Nat.lt_of_le_of_lt h.le hshort)]
  exact h.appendLeft back

/-- The first counter has come to the end of its part and the second one has
moved. -/
theorem Advance.inBoth {later later' : ℕ}
    (hfirst : Advance front sent items front.length)
    (hsecond : Advance back later more later')
    (horder : sent < front.length → later = 0) :
    Advance (front ++ back) (sent + later) (items ++ more)
      (front.length + later') := by
  rcases Nat.lt_or_ge sent front.length with hlt | hge
  · rw [horder hlt] at hsecond ⊢
    exact (hfirst.appendLeft back).trans (hsecond.appendRight front)
  · have hempty : items = [] := by
      rw [← List.length_eq_zero_iff]
      have hsent := hfirst.sent_eq
      omega
    subst hempty
    have hsame : front.length = sent := hfirst.sent_eq
    rw [List.nil_append, ← hsame]
    exact hsecond.appendRight front

end Advance

section Runs

variable {State Call : Type*} (call : State → Call → State)
variable (output : State → Call → List α)

end Runs

end HttpCerver.Resuming
