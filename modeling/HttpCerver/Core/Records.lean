import Mathlib.Data.List.Induction
import Mathlib.Tactic.Common

/-!
# Records and assignments

A record is a state whose fields can be read and written one by one and that is
determined by them.  A list of assignments leaves in every field the last value
assigned to it, so that only assignments to the same field need to stay in
order.
-/

namespace HttpCerver.Records

/-- The fields of a state. -/
structure Record (State Field : Type*) (Value : Field → Type*) where
  get : (field : Field) → State → Value field
  set : (field : Field) → Value field → State → State
  get_set : ∀ field value state, get field (set field value state) = value
  get_set_of_ne : ∀ {field other}, other ≠ field → ∀ value state,
    get other (set field value state) = get other state
  ext : ∀ {left right}, (∀ field, get field left = get field right) →
    left = right

namespace Record

variable {State Field : Type*} {Value : Field → Type*}
variable (record : Record State Field Value)

/-- Assignments, one after the other. -/
def assign (entries : List (Σ field, Value field)) (state : State) : State :=
  entries.foldl (fun state entry => record.set entry.1 entry.2 state) state

theorem assign_append (entries more : List (Σ field, Value field))
    (state : State) :
    record.assign (entries ++ more) state =
      record.assign more (record.assign entries state) :=
  List.foldl_append

/-- Assignments that are read from something else and can be refused. -/
theorem foldlM_assign {Source : Type*}
    (read : Source → Option (Σ field, Value field)) (sources : List Source)
    (state : State) :
    (sources.foldlM (fun state source => (read source).map fun entry =>
        record.set entry.1 entry.2 state) state) =
      (sources.mapM read).map fun entries => record.assign entries state := by
  induction sources generalizing state with
  | nil => rfl
  | cons source sources ih =>
      rw [List.foldlM_cons, List.mapM_cons]
      cases read source with
      | none => rfl
      | some entry =>
          refine (ih _).trans ?_
          cases sources.mapM read with
          | none => rfl
          | some entries => rfl

variable [DecidableEq Field]

/-- The value an assignment gives to a field, if it is one to that field. -/
def valueFor (field : Field) (entry : Σ field, Value field) :
    Option (Value field) :=
  if hfield : entry.1 = field then some (hfield ▸ entry.2) else none

theorem valueFor_self (field : Field)
    (value : Value field) : valueFor field ⟨field, value⟩ = some value :=
  dif_pos rfl

theorem valueFor_of_ne {field : Field} {entry : Σ field, Value field}
    (hfield : entry.1 ≠ field) : valueFor field entry = none :=
  dif_neg hfield

/-- The last value assigned to a field. -/
def lastValue (field : Field) (entries : List (Σ field, Value field)) :
    Option (Value field) :=
  (entries.filterMap (valueFor field)).getLast?

/-- The last assignment to a field wins, and without one the field stays. -/
theorem get_assign (field : Field) (entries : List (Σ field, Value field))
    (state : State) :
    record.get field (record.assign entries state) =
      (lastValue field entries).getD (record.get field state) := by
  induction entries using List.reverseRecOn with
  | nil => rfl
  | append_singleton entries entry ih =>
      obtain ⟨written, value⟩ := entry
      rw [assign_append, lastValue, List.filterMap_append]
      by_cases hfield : written = field
      · subst hfield
        rw [List.filterMap_cons_some (valueFor_self written value),
          List.filterMap_nil, List.getLast?_concat]
        exact record.get_set written value _
      · rw [List.filterMap_cons_none (valueFor_of_ne hfield),
          List.filterMap_nil, List.append_nil, ← lastValue, ← ih]
        exact record.get_set_of_ne (Ne.symm hfield) value _

/-- Only the last value of each field matters. -/
theorem assign_congr {entries others : List (Σ field, Value field)}
    (hlast : ∀ field : Field, lastValue field entries = lastValue field others)
    (state : State) :
    record.assign entries state = record.assign others state := by
  apply record.ext
  intro field
  rw [get_assign, get_assign, hlast]

end Record

end HttpCerver.Records
