import Mathlib.Logic.Function.Basic
import Mathlib.Logic.Relation
import Mathlib.Tactic.Common

/-!
# Machines and interleavings

A machine takes one action after the other, in whatever order a schedule gives
them.  An interleaving is made of components that arrive one by one and then
advance independently: at every step at most one of them arrives or advances.
A machine that follows an interleaving inherits what holds of each component on
its own.
-/

namespace HttpCerver.Machines

universe u v w

/-- A machine; an action that cannot be taken gives `none`. -/
structure Machine (State : Type u) (Action : Type v) where
  step : State → Action → Option State

namespace Machine

variable {State : Type u} {Action : Type v} (machine : Machine State Action)

/-- The actions of a schedule, one after the other. -/
def run : State → List Action → Option State
  | state, [] => some state
  | state, action :: schedule =>
      (machine.step state action).bind fun next => run next schedule

def Reachable (start state : State) : Prop :=
  ∃ schedule, machine.run start schedule = some state

variable {machine}

theorem run_append (state : State) (schedule more : List Action) :
    machine.run state (schedule ++ more) =
      (machine.run state schedule).bind fun next => machine.run next more := by
  induction schedule generalizing state with
  | nil => rfl
  | cons action schedule ih =>
      rw [List.cons_append, run, run, Option.bind_assoc]
      congr 1
      funext next
      exact ih next

/-- What every step adds to, a run adds to in the order of its schedule. -/
theorem run_history {Entry : Type w} {record : State → List Entry}
    {adds : Action → List Entry} {state final : State} {schedule : List Action}
    (hstep : ∀ state action next, machine.step state action = some next →
      record next = record state ++ adds action)
    (hrun : machine.run state schedule = some final) :
    record final = record state ++ schedule.flatMap adds := by
  induction schedule generalizing state with
  | nil =>
      cases hrun
      rw [List.flatMap_nil, List.append_nil]
  | cons action schedule ih =>
      obtain ⟨next, hnext, hrest⟩ := Option.bind_eq_some_iff.mp hrun
      rw [ih hrest, hstep state action next hnext, List.append_assoc,
        List.flatMap_cons]

/-- The ranking rule: the actions that count lower the rank and no allowed
action raises it, so it bounds how many of them there are. -/
theorem run_countP_le (invariant : State → Prop) (rank : State → ℕ)
    (allowed : Action → Prop) (counts : Action → Bool) {state final : State}
    {schedule : List Action}
    (hstep : ∀ state action next, invariant state → allowed action →
      machine.step state action = some next → invariant next ∧
        rank next + (if counts action then 1 else 0) ≤ rank state)
    (hstate : invariant state)
    (hallowed : ∀ action ∈ schedule, allowed action)
    (hrun : machine.run state schedule = some final) :
    invariant final ∧ schedule.countP counts + rank final ≤ rank state := by
  induction schedule generalizing state with
  | nil =>
      cases hrun
      exact ⟨hstate, Nat.le_of_eq (Nat.zero_add _)⟩
  | cons action schedule ih =>
      obtain ⟨next, hnext, hrest⟩ := Option.bind_eq_some_iff.mp hrun
      obtain ⟨hfirst, hothers⟩ := List.forall_mem_cons.mp hallowed
      obtain ⟨hinvariant, hrank⟩ := hstep state action next hstate hfirst hnext
      obtain ⟨hfinal, hlater⟩ := ih hinvariant hothers hrest
      refine ⟨hfinal, ?_⟩
      rw [List.countP_cons]
      omega

/-- The exhaustion rule: while the rank is not zero an allowed action lowers
it, so allowed actions alone lead to a state of rank zero. -/
theorem exists_exhausted (invariant : State → Prop) (rank : State → ℕ)
    (allowed : Action → Prop) {state : State}
    (hstep : ∀ state, invariant state → rank state ≠ 0 →
      ∃ action next, allowed action ∧ machine.step state action = some next ∧
        invariant next ∧ rank next < rank state)
    (hstate : invariant state) :
    ∃ schedule final, (∀ action ∈ schedule, allowed action) ∧
      schedule.length ≤ rank state ∧
      machine.run state schedule = some final ∧ invariant final ∧
      rank final = 0 := by
  induction hrank : rank state using Nat.strongRecOn generalizing state with
  | ind bound ih =>
      by_cases hzero : rank state = 0
      · exact ⟨[], state, by simp, Nat.zero_le _, rfl, hstate, hzero⟩
      · obtain ⟨action, next, hallowed, hnext, hinvariant, hlt⟩ :=
          hstep state hstate hzero
        obtain ⟨schedule, final, hall, hlength, hrun, hfinal, hexhausted⟩ :=
          ih (rank next) (hrank ▸ hlt) hinvariant rfl
        refine ⟨action :: schedule, final, ?_, ?_, ?_, hfinal, hexhausted⟩
        · exact List.forall_mem_cons.mpr ⟨hallowed, hall⟩
        · rw [List.length_cons]
          omega
        · rw [run, hnext]
          exact hrun

/-- The stopping rule: where every allowed action lowers the rank, allowed
actions lead to a state in which none of them can be taken. -/
theorem exists_stopped (invariant : State → Prop) (rank : State → ℕ)
    (allowed : Action → Prop) {state : State}
    (hstep : ∀ state action next, invariant state → allowed action →
      machine.step state action = some next →
        invariant next ∧ rank next < rank state)
    (hstate : invariant state) :
    ∃ schedule final, (∀ action ∈ schedule, allowed action) ∧
      machine.run state schedule = some final ∧ invariant final ∧
      ∀ action, allowed action → machine.step final action = none := by
  induction hrank : rank state using Nat.strongRecOn generalizing state with
  | ind bound ih =>
      by_cases hstopped : ∀ action, allowed action →
          machine.step state action = none
      · exact ⟨[], state, by simp, rfl, hstate, hstopped⟩
      · push Not at hstopped
        obtain ⟨action, hallowed, hmoves⟩ := hstopped
        obtain ⟨next, hnext⟩ := Option.ne_none_iff_exists'.mp hmoves
        obtain ⟨hinvariant, hlt⟩ := hstep state action next hstate hallowed hnext
        obtain ⟨schedule, final, hall, hrun, hfinal⟩ :=
          ih (rank next) (hrank ▸ hlt) hinvariant rfl
        refine ⟨action :: schedule, final, ?_, ?_, hfinal⟩
        · exact List.forall_mem_cons.mpr ⟨hallowed, hall⟩
        · rw [run, hnext]
          exact hrun

/-- The invariant rule, for the actions that are allowed. -/
theorem run_invariant (invariant : State → Prop) (allowed : Action → Prop)
    {state final : State} {schedule : List Action}
    (hstep : ∀ state action next, invariant state → allowed action →
      machine.step state action = some next → invariant next)
    (hstate : invariant state)
    (hallowed : ∀ action ∈ schedule, allowed action)
    (hrun : machine.run state schedule = some final) : invariant final := by
  induction schedule generalizing state with
  | nil =>
      cases hrun
      exact hstate
  | cons action schedule ih =>
      obtain ⟨next, hnext, hrest⟩ := Option.bind_eq_some_iff.mp hrun
      obtain ⟨hfirst, hothers⟩ := List.forall_mem_cons.mp hallowed
      exact ih (hstep state action next hstate hfirst hnext) hothers hrest

/-- The invariant rule. -/
theorem Reachable.invariant {start state : State}
    (hreachable : machine.Reachable start state) (invariant : State → Prop)
    (hstep : ∀ state action next, invariant state →
      machine.step state action = some next → invariant next)
    (hstart : invariant start) : invariant state := by
  obtain ⟨schedule, hrun⟩ := hreachable
  exact run_invariant invariant (fun _ => True)
    (fun state action next hstate _ => hstep state action next hstate) hstart
    (fun _ _ => trivial) hrun

/-- The simulation rule: what follows every step follows every run. -/
theorem Reachable.simulation {Abstract : Type w} {start state : State}
    (hreachable : machine.Reachable start state)
    (Moves : Abstract → Abstract → Prop) (Related : State → Abstract → Prop)
    (hstep : ∀ state action next abstract, Related state abstract →
      machine.step state action = some next →
        ∃ abstract', Moves abstract abstract' ∧ Related next abstract')
    {abstract : Abstract} (hstart : Related start abstract) :
    ∃ abstract', Relation.ReflTransGen Moves abstract abstract' ∧
      Related state abstract' := by
  obtain ⟨schedule, hrun⟩ := hreachable
  induction schedule generalizing start abstract with
  | nil =>
      cases hrun
      exact ⟨abstract, .refl, hstart⟩
  | cons action schedule ih =>
      obtain ⟨next, hnext, hrest⟩ := Option.bind_eq_some_iff.mp hrun
      obtain ⟨middle, hmoves, hmiddle⟩ :=
        hstep start action next abstract hstart hnext
      obtain ⟨abstract', hrun', hrelated⟩ := ih hmiddle hrest
      exact ⟨abstract', .head hmoves hrun', hrelated⟩

end Machine

section Interleaving

variable {Index : Type u} [DecidableEq Index] {Component : Type v}
variable {Arrives : Component → Prop}
variable {Advances : Component → Component → Prop}

/-- A step of an interleaving; a component that has not arrived is `none`. -/
inductive Interleaved (Arrives : Component → Prop)
    (Advances : Component → Component → Prop) (view : Index → Option Component) :
    (Index → Option Component) → Prop
  | idle : Interleaved Arrives Advances view view
  | arrives {index : Index} {component : Component}
      (hnew : view index = none) (harrives : Arrives component) :
      Interleaved Arrives Advances view
        (Function.update view index (some component))
  | advances {index : Index} {component next : Component}
      (hold : view index = some component)
      (hadvances : Advances component next) :
      Interleaved Arrives Advances view
        (Function.update view index (some next))

/-- One step, seen from one component. -/
theorem Interleaved.component {view view' : Index → Option Component}
    (hstep : Interleaved Arrives Advances view view') {index : Index}
    {component : Component} (hview : view' index = some component) :
    (view index = none ∧ Arrives component) ∨
      ∃ before, view index = some before ∧
        Relation.ReflTransGen Advances before component := by
  cases hstep with
  | idle => exact .inr ⟨component, hview, .refl⟩
  | @arrives other arrived hnew harrives =>
      by_cases hsame : index = other
      · subst hsame
        rw [Function.update_self] at hview
        cases hview
        exact .inl ⟨hnew, harrives⟩
      · rw [Function.update_of_ne hsame] at hview
        exact .inr ⟨component, hview, .refl⟩
  | @advances other before next hold hadvances =>
      by_cases hsame : index = other
      · subst hsame
        rw [Function.update_self] at hview
        cases hview
        exact .inr ⟨before, hold, .single hadvances⟩
      · rw [Function.update_of_ne hsame] at hview
        exact .inr ⟨component, hview, .refl⟩

/-- A component of an interleaving that began empty has come where it is on its
own. -/
theorem component_of_interleaving {view : Index → Option Component}
    (hrun : Relation.ReflTransGen (Interleaved Arrives Advances)
      (fun _ => none) view) {index : Index} {component : Component}
    (hview : view index = some component) :
    ∃ first, Arrives first ∧
      Relation.ReflTransGen Advances first component := by
  induction hrun generalizing component with
  | refl => cases hview
  | tail _ hstep ih =>
      obtain ⟨-, harrives⟩ | ⟨before, hbefore, hadvances⟩ :=
        hstep.component hview
      · exact ⟨component, harrives, .refl⟩
      · obtain ⟨first, harrives, hearlier⟩ := ih hbefore
        exact ⟨first, harrives, hearlier.trans hadvances⟩

end Interleaving

end HttpCerver.Machines
