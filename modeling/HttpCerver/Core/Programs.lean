import Mathlib.Tactic.Common

/-!
# Programs and their contracts

A program computes until it needs something from outside; it then makes a call
and goes on with the answer.  A contract says, phase by phase, which calls may
be made, what they can answer and in which phase an answer leaves the program.
A program keeps a contract when each of its calls is permitted, whatever the
answers before it were.
-/

namespace HttpCerver.Programs

universe u v

/-- A program that makes calls and ends in a result. -/
inductive Program (Call : Type u) (Answer : Call → Type u) (Result : Type u)
  | done (result : Result)
  | await (call : Call) (rest : Answer call → Program Call Answer Result)

/-- What a call can answer in a phase, and the phase it leads to. -/
structure Contract (Call : Type u) (Answer : Call → Type u) (Phase : Type v) where
  Answers : Phase → (call : Call) → Answer call → Phase → Prop

/-- A call is permitted in a phase that has an answer to it. -/
def Contract.Permits {Call : Type u} {Answer : Call → Type u} {Phase : Type v}
    (contract : Contract Call Answer Phase) (phase : Phase) (call : Call) :
    Prop :=
  ∃ answer next, contract.Answers phase call answer next

namespace Program

variable {Call : Type u} {Answer : Call → Type u} {Result Result' : Type u}
variable {Phase : Type v}

def bind : Program Call Answer Result →
    (Result → Program Call Answer Result') → Program Call Answer Result'
  | .done result, next => next result
  | .await call rest, next => .await call fun answer => (rest answer).bind next

instance : Monad (Program Call Answer) where
  pure := .done
  bind := .bind

/-- A single call. -/
def request (call : Call) : Program Call Answer (Answer call) :=
  .await call .done

/-- Every call is permitted, and the result fits the phase in which the program
ends. -/
def Keeps (contract : Contract Call Answer Phase)
    (post : Result → Phase → Prop) : Program Call Answer Result → Phase → Prop
  | .done result, phase => post result phase
  | .await call rest, phase => contract.Permits phase call ∧
      ∀ answer next, contract.Answers phase call answer next →
        (rest answer).Keeps contract post next

variable {contract : Contract Call Answer Phase} {post : Result → Phase → Prop}
variable {phase : Phase}

@[simp]
theorem keeps_pure {result : Result} :
    (pure result : Program Call Answer Result).Keeps contract post phase ↔
      post result phase :=
  Iff.rfl

theorem Keeps.mono {program : Program Call Answer Result}
    {weaker : Result → Phase → Prop}
    (h : program.Keeps contract post phase)
    (hpost : ∀ result phase, post result phase → weaker result phase) :
    program.Keeps contract weaker phase := by
  induction program generalizing phase with
  | done result => exact hpost result phase h
  | await call rest ih =>
      obtain ⟨hpermits, hrest⟩ := h
      exact ⟨hpermits, fun answer next hanswers =>
        ih answer (hrest answer next hanswers)⟩

/-- The rule for one program behind another. -/
theorem keeps_bind_iff {program : Program Call Answer Result}
    {next : Result → Program Call Answer Result'}
    {post : Result' → Phase → Prop} :
    (program >>= next).Keeps contract post phase ↔
      program.Keeps contract
        (fun result phase => (next result).Keeps contract post phase)
        phase := by
  change (program.bind next).Keeps contract post phase ↔ _
  induction program generalizing phase with
  | done result => exact Iff.rfl
  | await call rest ih =>
      simp only [bind, Keeps, ih]

theorem Keeps.bind {program : Program Call Answer Result}
    {next : Result → Program Call Answer Result'}
    {post' : Result' → Phase → Prop}
    (h : program.Keeps contract post phase)
    (hnext : ∀ result phase, post result phase →
      (next result).Keeps contract post' phase) :
    (program >>= next).Keeps contract post' phase :=
  keeps_bind_iff.mpr (h.mono hnext)

/-- The rule for a single call. -/
theorem keeps_request_iff {call : Call}
    {post : Answer call → Phase → Prop} :
    (request call).Keeps contract post phase ↔
      contract.Permits phase call ∧
        ∀ answer next, contract.Answers phase call answer next →
          post answer next :=
  Iff.rfl

/-- The rule for a call and what is done with its answer. -/
theorem keeps_request_bind_iff {call : Call}
    {next : Answer call → Program Call Answer Result} :
    (request call >>= next).Keeps contract post phase ↔
      contract.Permits phase call ∧
        ∀ answer later, contract.Answers phase call answer later →
          (next answer).Keeps contract post later := by
  rw [keeps_bind_iff, keeps_request_iff]

end Program

end HttpCerver.Programs
