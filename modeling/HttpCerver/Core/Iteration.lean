import Mathlib.Logic.Relation
import Mathlib.Tactic.Common
import Mathlib.Data.Nat.Notation

/-!
# Loops with a variant

A C `while` loop is given by its body, which either goes round again with a
new state or leaves with a result, together with a variant that every further
round decreases.  The variant is a field, so a value of this type is a loop
that terminates, and `run` is total.  Evaluation counts the variant down, which
keeps runs on concrete states computable in the kernel.
-/

namespace HttpCerver.Iteration

/-- A loop body together with the variant that bounds its rounds. -/
structure Loop (State Result : Type*) where
  body : State → State ⊕ Result
  rank : State → ℕ
  rank_lt : ∀ {state next : State}, body state = .inl next →
    rank next < rank state

namespace Loop

variable {State Result : Type*} (loop : Loop State Result)

/-- Run with an explicit bound on the number of rounds. -/
def runWithin : (rounds : ℕ) → (state : State) →
    loop.rank state < rounds → Result
  | 0, _, hrank => absurd hrank (Nat.not_lt_zero _)
  | rounds + 1, state, hrank =>
      match hbody : loop.body state with
      | .inl next => runWithin rounds next
          (Nat.lt_of_lt_of_le (loop.rank_lt hbody) (Nat.le_of_lt_succ hrank))
      | .inr result => result

/-- The result with which the loop leaves when started in `state`. -/
def run (state : State) : Result :=
  loop.runWithin (loop.rank state + 1) state (Nat.lt_succ_self _)

private theorem runWithin_of_exit {rounds : ℕ} {state : State}
    {result : Result} (hrank : loop.rank state < rounds)
    (hbody : loop.body state = .inr result) :
    loop.runWithin rounds state hrank = result := by
  cases rounds with
  | zero => exact absurd hrank (Nat.not_lt_zero _)
  | succ rounds =>
      rw [runWithin]
      split
      · next hnext => simp [hbody] at hnext
      · next hresult => simpa [hbody] using hresult.symm

private theorem runWithin_of_continue {rounds : ℕ} {state next : State}
    (hrank : loop.rank state < rounds + 1)
    (hbody : loop.body state = .inl next)
    (hnext : loop.rank next < rounds) :
    loop.runWithin (rounds + 1) state hrank =
      loop.runWithin rounds next hnext := by
  rw [runWithin]
  split
  · next other hother =>
      have hsame : next = other := by simpa [hbody] using hother
      subst hsame
      rfl
  · next hresult => simp [hbody] at hresult

/-- Two sufficient bounds on the rounds give the same result. -/
private theorem runWithin_congr {left right : ℕ} {state : State}
    (hleft : loop.rank state < left) (hright : loop.rank state < right) :
    loop.runWithin left state hleft = loop.runWithin right state hright := by
  induction left generalizing right state with
  | zero => exact absurd hleft (Nat.not_lt_zero _)
  | succ left ih =>
      cases right with
      | zero => exact absurd hright (Nat.not_lt_zero _)
      | succ right =>
          cases hbody : loop.body state with
          | inr result =>
              rw [loop.runWithin_of_exit hleft hbody,
                loop.runWithin_of_exit hright hbody]
          | inl next =>
              have hlt := loop.rank_lt hbody
              rw [loop.runWithin_of_continue hleft hbody (by omega),
                loop.runWithin_of_continue hright hbody (by omega)]
              exact ih (by omega) (by omega)

theorem run_of_exit {state : State} {result : Result}
    (hbody : loop.body state = .inr result) : loop.run state = result :=
  loop.runWithin_of_exit _ hbody

theorem run_of_continue {state next : State}
    (hbody : loop.body state = .inl next) :
    loop.run state = loop.run next := by
  have hlt := loop.rank_lt hbody
  rw [run, loop.runWithin_of_continue _ hbody hlt, run]
  exact loop.runWithin_congr hlt _

/-- Induction along a run: a relation between states and results that holds
at every exit and travels backwards over every round holds of the run. -/
theorem run_induction {motive : State → Result → Prop}
    (hexit : ∀ state result, loop.body state = .inr result →
      motive state result)
    (hround : ∀ state next result, loop.body state = .inl next →
      motive next result → motive state result)
    (state : State) : motive state (loop.run state) := by
  induction hrank : loop.rank state using Nat.strongRecOn
    generalizing state with
  | ind rank ih =>
      cases hbody : loop.body state with
      | inr result =>
          rw [loop.run_of_exit hbody]
          exact hexit state result hbody
      | inl next =>
          rw [loop.run_of_continue hbody]
          have hlt := loop.rank_lt hbody
          exact hround state next _ hbody (ih _ (hrank ▸ hlt) next rfl)

/-- The invariant rule: what every round preserves holds at the exit. -/
theorem run_invariant (invariant : State → Prop) (post : Result → Prop)
    (hround : ∀ state next, invariant state → loop.body state = .inl next →
      invariant next)
    (hexit : ∀ state result, invariant state →
      loop.body state = .inr result → post result)
    (state : State) (hstate : invariant state) : post (loop.run state) := by
  refine loop.run_induction
    (motive := fun state result => invariant state → post result) ?_ ?_
    state hstate
  · intro state result hbody hinvariant
    exact hexit state result hinvariant hbody
  · intro state next result hbody hnext hinvariant
    exact hnext (hround state next hinvariant hbody)

/-- The simulation rule: a second loop that follows every round of the first
ends in a result related to that of the first, if it does so wherever the first
one leaves. -/
theorem run_simulation {State' Result' : Type*} (loop' : Loop State' Result')
    (related : State → State' → Prop) (post : Result → Result' → Prop)
    (hround : ∀ state state' next, related state state' →
      loop.body state = .inl next →
        ∃ next', loop'.body state' = .inl next' ∧ related next next')
    (hexit : ∀ state state' result, related state state' →
      loop.body state = .inr result → post result (loop'.run state'))
    (state : State) (state' : State') (hstate : related state state') :
    post (loop.run state) (loop'.run state') := by
  refine loop.run_induction
    (motive := fun state result => ∀ state', related state state' →
      post result (loop'.run state')) ?_ ?_ state state' hstate
  · intro state result hbody state' hrelated
    exact hexit state state' result hrelated hbody
  · intro state next result hbody hnext state' hrelated
    obtain ⟨next', hbody', hagain⟩ := hround state state' next hrelated hbody
    rw [loop'.run_of_continue hbody']
    exact hnext next' hagain

/-- The states that a run goes through. -/
def Reaches : State → State → Prop :=
  Relation.ReflTransGen fun state next => loop.body state = .inl next

variable {loop}

/-- A run and what is left of it end the same. -/
theorem Reaches.run_eq {state later : State}
    (hreaches : loop.Reaches state later) : loop.run state = loop.run later := by
  induction hreaches with
  | refl => rfl
  | tail _ hbody ih => rw [ih, loop.run_of_continue hbody]

/-- What every round preserves holds of every state on the way. -/
theorem Reaches.invariant {state later : State}
    (hreaches : loop.Reaches state later) (invariant : State → Prop)
    (hround : ∀ state next, invariant state → loop.body state = .inl next →
      invariant next)
    (hstate : invariant state) : invariant later := by
  induction hreaches with
  | refl => exact hstate
  | tail _ hbody ih => exact hround _ _ ih hbody

theorem Reaches.rank_le {state later : State}
    (hreaches : loop.Reaches state later) :
    loop.rank later ≤ loop.rank state :=
  hreaches.invariant (fun next => loop.rank next ≤ loop.rank state)
    (fun _ _ hrank hbody =>
      Nat.le_trans (Nat.le_of_lt (loop.rank_lt hbody)) hrank)
    (Nat.le_refl _)

end Loop

end HttpCerver.Iteration
