import Mathlib.Data.List.Basic
import Mathlib.Tactic.Common

/-!
# Properties of the places of a trace

What must hold where something happens may refer to what happened before and
to what happens after.  Such a property is proved for a trace from its parts.
-/

namespace HttpCerver.Traces

variable {Event : Type*}

/-- At every place of a trace the past, the event and the future are in the
relation. -/
def Everywhere (holds : List Event → Event → List Event → Prop)
    (trace : List Event) : Prop :=
  ∀ before event after, trace = before ++ event :: after →
    holds before event after

variable {holds : List Event → Event → List Event → Prop}

theorem everywhere_nil : Everywhere holds [] := by
  intro before event after hsplit
  simp at hsplit

theorem everywhere_cons_iff {event : Event} {trace : List Event} :
    Everywhere holds (event :: trace) ↔
      holds [] event trace ∧
        Everywhere (fun before => holds (event :: before)) trace := by
  constructor
  · intro h
    refine ⟨h [] event trace rfl, ?_⟩
    rintro before later after rfl
    exact h (event :: before) later after rfl
  · rintro ⟨hfirst, hrest⟩ before later after hsplit
    cases before with
    | nil =>
        rw [List.nil_append, List.cons.injEq] at hsplit
        obtain ⟨rfl, rfl⟩ := hsplit
        exact hfirst
    | cons first before =>
        rw [List.cons_append, List.cons.injEq] at hsplit
        obtain ⟨rfl, rfl⟩ := hsplit
        exact hrest before later after rfl

/-- The places of two traces, one after the other. -/
theorem everywhere_append_iff {trace more : List Event} :
    Everywhere holds (trace ++ more) ↔
      Everywhere (fun before event after => holds before event (after ++ more))
        trace ∧
        Everywhere (fun before => holds (trace ++ before)) more := by
  induction trace generalizing holds with
  | nil => simp [everywhere_nil]
  | cons event trace ih =>
      rw [List.cons_append, everywhere_cons_iff, everywhere_cons_iff, ih,
        and_assoc]
      rfl

theorem Everywhere.mono
    {holds' : List Event → Event → List Event → Prop} {trace : List Event}
    (h : Everywhere holds trace)
    (hmono : ∀ before event after, holds before event after →
      holds' before event after) : Everywhere holds' trace :=
  fun before event after hsplit =>
    hmono before event after (h before event after hsplit)

/-- A property that only depends on the event. -/
theorem everywhere_of_forall_mem {trace : List Event}
    (h : ∀ event ∈ trace, ∀ before after, holds before event after) :
    Everywhere holds trace := by
  rintro before event after rfl
  exact h event (by simp) before after

end HttpCerver.Traces
