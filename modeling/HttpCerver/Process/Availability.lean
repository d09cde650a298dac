import HttpCerver.Process.Completion
import HttpCerver.Process.Opening

/-!
# Availability

Nothing that goes wrong later stops a server that listens.  It goes on
listening, never exits and is back in `accept` after four steps at most,
whether its calls succeed or fail.
-/

namespace HttpCerver.Availability

open HttpCerver.Bytes
open HttpCerver.Calls
open HttpCerver.Completion
open HttpCerver.Config
open HttpCerver.Forking
open HttpCerver.Interleaving
open HttpCerver.Machines
open HttpCerver.Machines.Machine
open HttpCerver.Main
open HttpCerver.Opening
open HttpCerver.Programs
open HttpCerver.Programs.Program
open HttpCerver.Protocol
open HttpCerver.Service
open HttpCerver.System
open HttpCerver.Visits

/-- How many steps the server is away from `accept`. -/
def distance (server : Process) : ℕ :=
  duty { waiting := [], accepted := [] } server

section Server

variable {host : Host} {config : ServerConfig} {phase : Phase}
variable {server server' : Process} {network network' : Network}
variable {forked : List Process} {succeeds : Bool}

/-- A server that listens is in `accept` or comes closer to it with each of its
steps. -/
theorem distance_lt (hstands : ServerStands host config phase server)
    (hlistens : isListening server.table = true)
    (haway : ¬ accepting server (some (listenerFd host)))
    (hstep : processStep host succeeds network server =
      some (server', network', forked)) :
    distance server' < distance server := by
  have hstarted := started_of_isListening hstands hlistens
  cases serverStep_spec hstands hstep with
  | again => exact Nat.one_pos
  | exits => exact hstarted.elim
  | @answers _ later call answer rest hlocal hserver hanswers hperform hkeeps =>
      have hcloser : Started later → phase ≠ .idle →
          dutyOf ⟨[], []⟩ later < dutyOf ⟨[], []⟩ phase →
          distance (serverAt host config later (rest answer)) <
            distance (serverAt host config phase (.await call rest)) := by
        intro hlater hbusy hless
        rw [distance, distance,
          duty_await hstarted ⟨answer, later, hanswers⟩, if_neg hbusy]
        exact (duty_le hlater hkeeps).trans_lt hless
      cases hanswers with
      | limits | limitFails | rejects | drops | leaves =>
          exact hcloser trivial (by simp) (by simp [dutyOf, promised])
      | _ => first | exact hstarted.elim | cases hlocal
  | acceptFails | accepts => exact absurd ⟨_, rfl⟩ haway
  | @forkFails id inode rest hfails hkeeps =>
      have hafter : distance (serverAt host config (.unforked id inode)
          (rest .failed)) ≤ 2 := duty_le trivial hkeeps
      exact hafter.trans_lt (by
        simp [distance, duty, serverAt, tableOf, connections_clientEntry,
          promised])
  | @forks id inode rest hkeeps hchild =>
      have hafter : distance (serverAt host config (.given id inode)
          (rest .parent)) ≤ 2 := duty_le trivial hkeeps
      exact hafter.trans_lt (by
        simp [distance, duty, serverAt, tableOf, connections_clientEntry,
          promised])

theorem distance_le (hstands : ServerStands host config phase server)
    (hlistens : isListening server.table = true) : distance server ≤ 4 := by
  have hstarted := started_of_isListening hstands hlistens
  cases hstands with
  | exited => exact hstarted.elim
  | running hserver hkeeps =>
      refine (duty_le hstarted hkeeps).trans ?_
      cases phase <;> simp [dutyOf, promised]

end Server

/-- A server that listens, wherever it is in its program. -/
def Listens (host : Host) (config : ServerConfig) (server : Process) : Prop :=
  isListening server.table = true ∧
    ∃ phase, ServerStands host config phase server

section Runs

variable {host : Host} {config : ServerConfig} {daemon next : Daemon}

theorem Listens.step {action : Action}
    (h : Listens host config daemon.server)
    (hstep : daemonStep host daemon action = some next) :
    Listens host config next.server := by
  obtain ⟨hlistens, phase, hstands⟩ := h
  cases action with
  | server succeeds =>
      obtain ⟨later, hmove⟩ := daemonStep_server hstands hstep
      refine ⟨?_, later, hmove.stands⟩
      rw [daemonStep] at hstep
      split_ifs at hstep
      obtain ⟨result, hresult, rfl⟩ := Option.map_eq_some_iff.mp hstep
      exact isListening_of_step hstands hlistens hresult
  | child index succeeds | hang index count part =>
      obtain ⟨child, -, hrest⟩ := Option.bind_eq_some_iff.mp hstep
      obtain ⟨result, -, rfl⟩ := Option.map_eq_some_iff.mp hrest
      exact ⟨hlistens, phase, hstands⟩
  | reap index =>
      obtain ⟨child, -, hrest⟩ := Option.bind_eq_some_iff.mp hstep
      split_ifs at hrest
      cases hrest
      exact ⟨hlistens, phase, hstands⟩
  | connect | interrupt | reaped =>
      rw [daemonStep] at hstep
      split_ifs at hstep
      cases hstep
      exact ⟨hlistens, phase, hstands⟩

/-- Away from `accept` nothing holds the server up. -/
theorem Listens.comes_closer (h : Listens host config daemon.server)
    (hquiet : daemon.reaping = false)
    (haway : ¬ accepting daemon.server (some (listenerFd host)))
    (succeeds : Bool) :
    ∃ next, daemonStep host daemon (.server succeeds) = some next ∧
      next.reaping = false ∧
      distance next.server < distance daemon.server := by
  obtain ⟨hlistens, phase, hstands⟩ := h
  have hlives : daemon.server.activity ≠ .exited .failure := by
    intro hexited
    generalize daemon.server = server at hstands hlistens hexited
    cases hstands with
    | running => cases hexited
    | exited => cases hlistens
  have hexists : (processStep host succeeds daemon.network
      daemon.server).isSome = true ∨ _ :=
    serverStep_exists succeeds hstands hlives
  obtain hstep | ⟨-, haccepting, -⟩ := hexists
  · obtain ⟨⟨server, network, forked⟩, hresult⟩ :=
      Option.isSome_iff_exists.mp hstep
    have hnext : daemonStep host daemon (.server succeeds) = some
        { daemon with
          server := server
          network := network
          children := daemon.children ++ forked } := by
      rw [daemonStep, hquiet, if_neg Bool.false_ne_true, hresult]
      rfl
    exact ⟨_, hnext, hquiet, distance_lt hstands hlistens haway hresult⟩
  · exact absurd haccepting haway

/-- Without a step of anybody else the server gets back to `accept`. -/
theorem exists_accepting (outcomes : List Bool)
    (h : Listens host config daemon.server) (hquiet : daemon.reaping = false)
    (hlong : distance daemon.server ≤ outcomes.length) :
    ∃ count ready, count ≤ distance daemon.server ∧
      (daemonMachine host).run daemon
        ((outcomes.take count).map .server) = some ready ∧
      accepting ready.server (some (listenerFd host)) := by
  by_cases haway : accepting daemon.server (some (listenerFd host))
  · exact ⟨0, daemon, Nat.zero_le _, rfl, haway⟩
  · induction outcomes generalizing daemon with
    | nil =>
        obtain ⟨next, -, -, hcloser⟩ := h.comes_closer hquiet haway false
        rw [List.length_nil] at hlong
        omega
    | cons succeeds outcomes ih =>
        obtain ⟨next, hstep, hnext, hcloser⟩ :=
          h.comes_closer hquiet haway succeeds
        rw [List.length_cons] at hlong
        by_cases hthere : accepting next.server (some (listenerFd host))
        · refine ⟨1, next, by omega, ?_, hthere⟩
          exact Option.bind_eq_some_iff.mpr ⟨next, hstep, rfl⟩
        · obtain ⟨count, ready, hcount, hrun, hready⟩ :=
            ih (h.step hstep) hnext (by omega) hthere
          refine ⟨count + 1, ready, by omega, ?_, hready⟩
          exact Option.bind_eq_some_iff.mpr ⟨next, hstep, hrun⟩

end Runs

/-- Availability: whatever happens from when the server listens, it goes on
listening and so can be connected to, it does not exit, and unless it is
waiting for its children it is back in `accept` after four steps at most,
however its calls turn out. -/
theorem stays_available {host : Host} {argv : List CString}
    {past schedule : List Action} {daemon later : Daemon}
    (hpast : (daemonMachine host).run (boot host argv) past = some daemon)
    (hlistens : isListening daemon.server.table = true)
    (hrun : (daemonMachine host).run daemon schedule = some later) :
    (∀ client, (daemonStep host later (.connect client)).isSome = true) ∧
      (∀ code, ¬ leaving later.server code) ∧
      (later.reaping = false → ∀ outcomes : List Bool, outcomes.length = 4 →
        ∃ count ready, count ≤ 4 ∧
          (daemonMachine host).run later
            ((outcomes.take count).map .server) = some ready ∧
          accepting ready.server (some (listenerFd host))) := by
  obtain ⟨phase, view, hrepresents, -⟩ := represents_of_run hpast
  have hlater : Listens host (configured argv) later.server :=
    Reachable.invariant ⟨schedule, hrun⟩
      (fun state => Listens host (configured argv) state.server)
      (fun _ _ _ h hstep => h.step hstep) ⟨hlistens, phase, hrepresents.server⟩
  obtain ⟨hstill, later', hstands⟩ := hlater
  refine ⟨?_, ?_, ?_⟩
  · intro client
    rw [daemonStep, if_pos hstill]
    rfl
  · intro code hleaving
    obtain ⟨-, htable | htable⟩ := started_of_leaving hstands hleaving
    · rw [htable, isListening_inheritedTable] at hstill
      cases hstill
    · rw [htable] at hstill
      cases hstill
  · intro hquiet outcomes hlength
    have hnear := distance_le hstands hstill
    obtain ⟨count, ready, hcount, hready⟩ :=
      exists_accepting outcomes ⟨hstill, later', hstands⟩ hquiet (by omega)
    exact ⟨count, ready, hcount.trans hnear, hready⟩

theorem stays_available_refusing :
    ∃ daemon, (daemonMachine smallHost).run (boot smallHost [])
        (gathering [caller, caller] ++
          [.server true, .server false, .server true]) = some daemon ∧
      ∃ count ready, count ≤ 4 ∧
        (daemonMachine smallHost).run daemon
          (([false, false, true, true].take count).map .server) =
            some ready ∧
        accepting ready.server (some 3) := by
  have hpast : ∃ daemon, (daemonMachine smallHost).run (boot smallHost [])
      (gathering [caller, caller]) = some daemon ∧
        isListening daemon.server.table = true := ⟨_, rfl, rfl⟩
  obtain ⟨daemon, hpast, hlistens⟩ := hpast
  have hrun : ∃ later, (daemonMachine smallHost).run (boot smallHost [])
      (gathering [caller, caller] ++
        [.server true, .server false, .server true]) = some later ∧
      later.reaping = false := ⟨_, rfl, rfl⟩
  obtain ⟨later, hrun, hquiet⟩ := hrun
  have hafter := hrun
  rw [run_append, hpast, Option.bind_some] at hafter
  exact ⟨later, hrun, (stays_available hpast hlistens hafter).2.2 hquiet
    [false, false, true, true] rfl⟩

end HttpCerver.Availability
