import HttpCerver.Process.Forking

/-!
# Reaping

A child that has exited is a zombie until the handler of `SIGCHLD` has waited
for it.  Several children can exit for one signal, and while the handler runs;
the loop of `reap_children` and the one signal that is remembered see to it
that none is forgotten.
-/

namespace HttpCerver.Reaping

open HttpCerver.Bytes
open HttpCerver.Calls
open HttpCerver.Forking
open HttpCerver.Machines
open HttpCerver.Machines.Machine
open HttpCerver.Main
open HttpCerver.Programs
open HttpCerver.System

/-- A zombie has been waited for. -/
def bury (process : Process) : Process :=
  if process.isZombie then { process with activity := .reaped } else process

theorem bury_of_isZombie {process : Process} (h : process.isZombie = true) :
    bury process = { process with activity := .reaped } :=
  if_pos h

theorem bury_of_not_isZombie {process : Process}
    (h : process.isZombie = false) : bury process = process := by
  rw [bury, h]
  rfl

@[simp]
theorem isZombie_bury (process : Process) :
    (bury process).isZombie = false := by
  cases h : process.isZombie with
  | false => rw [bury_of_not_isZombie h, h]
  | true => rw [bury_of_isZombie h]; rfl

@[simp]
theorem bury_bury (process : Process) : bury (bury process) = bury process :=
  bury_of_not_isZombie (isZombie_bury process)

/-- How many children have exited and have not been waited for. -/
def zombies (daemon : Daemon) : ℕ :=
  daemon.children.countP Process.isZombie

/-- The same server, where some of the zombies have been buried. -/
def BuriedSome (daemon state : Daemon) : Prop :=
  ∃ children, state = { daemon with children := children } ∧
    children.map bury = daemon.children.map bury

/-- Everyone is buried, and the handler has returned. -/
def settled (daemon : Daemon) : Daemon :=
  { daemon with
    children := daemon.children.map bury
    pendingSignal := false
    reaping := false }

/-- The actions of the handler of `SIGCHLD`. -/
def ofHandler : Action → Prop
  | .interrupt | .reap _ | .reaped => True
  | _ => False

section Handler

variable {host : Host} {daemon next : Daemon}

/-- Replacing one of the children, with the other children named. -/
theorem exists_split {children : List Process} {index : ℕ} {child : Process}
    (hindex : children[index]? = some child) (process : Process) :
    ∃ before after, children = before ++ child :: after ∧
      children.set index process = before ++ process :: after := by
  obtain ⟨hlt, hchild⟩ := List.getElem?_eq_some_iff.mp hindex
  obtain ⟨before, after, hsplit, -, hset⟩ :
      ∃ before after, children = before ++ children[index] :: after ∧
        before.length = index ∧
        children.set index process = before ++ process :: after :=
    List.exists_of_set hlt
  rw [hchild] at hsplit
  exact ⟨before, after, hsplit, hset⟩

/-- One zombie buried brings the whole burial nearer. -/
theorem map_bury_set {children : List Process} {index : ℕ} {child : Process}
    (hindex : children[index]? = some child) (hzombie : child.isZombie = true) :
    (children.set index (bury child)).map bury = children.map bury ∧
      (children.set index (bury child)).countP Process.isZombie <
        children.countP Process.isZombie := by
  obtain ⟨before, after, hsplit, hset⟩ := exists_split hindex (bury child)
  rw [hset, hsplit]
  constructor
  · rw [List.map_append, List.map_append, List.map_cons, List.map_cons,
      bury_bury]
  · rw [List.countP_append, List.countP_append,
      List.countP_cons_of_pos hzombie, List.countP_cons_of_neg (by simp)]
    omega

/-- A child that goes on is no zombie more. -/
theorem countP_set_le {children : List Process} {index : ℕ}
    {child moved : Process} (hindex : children[index]? = some child)
    (hmoved : moved.isZombie = false) :
    (children.set index moved).countP Process.isZombie ≤
      children.countP Process.isZombie := by
  obtain ⟨before, after, hsplit, hset⟩ := exists_split hindex moved
  rw [hset, hsplit, List.countP_append, List.countP_append,
    List.countP_cons_of_neg (by simp [hmoved]), List.countP_cons]
  omega

/-- While the handler runs, each `waitpid` buries a zombie. -/
theorem daemonStep_reap (host : Host) {index : ℕ} {child : Process}
    (hreaping : daemon.reaping = true)
    (hindex : daemon.children[index]? = some child)
    (hzombie : child.isZombie = true) :
    daemonStep host daemon (.reap index) =
      some { daemon with
        children := daemon.children.set index (bury child) } := by
  rw [daemonStep, hindex, Option.bind_some, hreaping, hzombie,
    bury_of_isZombie hzombie]
  rfl

theorem map_bury_of_zombies (hzero : zombies daemon = 0) :
    daemon.children.map bury = daemon.children := by
  have hkept : ∀ child ∈ daemon.children, bury child = id child := by
    intro child hchild
    exact bury_of_not_isZombie
      (Bool.eq_false_iff.mpr (List.countP_eq_zero.mp hzero child hchild))
  rw [List.map_congr_left hkept, List.map_id]

/-- The loop of the handler. -/
theorem exists_reaped (host : Host) (hreaping : daemon.reaping = true) :
    ∃ schedule, (∀ action ∈ schedule, ofHandler action) ∧
      schedule.length ≤ daemon.children.countP Process.isZombie ∧
      (daemonMachine host).run daemon schedule =
        some { daemon with children := daemon.children.map bury } := by
  have hloop : ∀ state, BuriedSome daemon state → zombies state ≠ 0 →
      ∃ action next, ofHandler action ∧
        (daemonMachine host).step state action = some next ∧
        BuriedSome daemon next ∧ zombies next < zombies state := by
    rintro state ⟨children, rfl, hburied⟩ hcount
    obtain ⟨child, hchild, hzombie⟩ :=
      List.countP_pos_iff.mp (Nat.pos_of_ne_zero hcount)
    obtain ⟨index, hindex⟩ := List.mem_iff_getElem?.mp hchild
    obtain ⟨hsame, hfewer⟩ := map_bury_set hindex hzombie
    exact ⟨.reap index, _, trivial,
      daemonStep_reap host hreaping hindex hzombie,
      ⟨_, rfl, hsame.trans hburied⟩, hfewer⟩
  obtain ⟨schedule, final, hall, hlength, hrun, ⟨children, rfl, hburied⟩,
    hzero⟩ := exists_exhausted (BuriedSome daemon) zombies ofHandler hloop
      ⟨daemon.children, rfl, rfl⟩
  have hquiet := map_bury_of_zombies hzero
  dsimp only at hquiet
  rw [hquiet] at hburied
  exact ⟨schedule, hall, hlength, by rw [hrun, hburied]⟩

/-- The handler, from its first `waitpid` to its return. -/
theorem exists_returned (host : Host) (hreaping : daemon.reaping = true) :
    ∃ schedule, (∀ action ∈ schedule, ofHandler action) ∧
      schedule.length ≤ zombies daemon + 1 ∧
      (daemonMachine host).run daemon schedule =
        some { daemon with
          children := daemon.children.map bury
          reaping := false } := by
  obtain ⟨schedule, hall, hlength, hrun⟩ := exists_reaped host hreaping
  have hnone : (daemon.children.map bury).any Process.isZombie = false := by
    simp
  refine ⟨schedule ++ [.reaped], ?_, ?_, ?_⟩
  · intro action hmem
    obtain hmem | hmem := List.mem_append.mp hmem
    · exact hall action hmem
    · rw [List.mem_singleton.mp hmem]
      trivial
  · rw [List.length_append, List.length_singleton]
    exact Nat.add_le_add_right hlength 1
  · rw [run_append, hrun, Option.bind_some]
    simp [run, daemonMachine, daemonStep, hreaping, hnone]

/-- From the delivery of the signal to the return of the handler. -/
theorem exists_interrupted (host : Host) (hreaping : daemon.reaping = false)
    (hpending : daemon.pendingSignal = true) :
    ∃ schedule, (∀ action ∈ schedule, ofHandler action) ∧
      schedule.length ≤ zombies daemon + 2 ∧
      (daemonMachine host).run daemon schedule = some (settled daemon) := by
  have hrunning : Daemon.reaping
      { daemon with pendingSignal := false, reaping := true } = true := rfl
  obtain ⟨schedule, hall, hlength, hrun⟩ := exists_returned host hrunning
  refine ⟨.interrupt :: schedule, ?_, Nat.succ_le_succ hlength, ?_⟩
  · exact List.forall_mem_cons.mpr ⟨trivial, hall⟩
  · have hstep : (daemonMachine host).step daemon .interrupt =
        some { daemon with pendingSignal := false, reaping := true } := by
      change daemonStep host daemon .interrupt = _
      rw [daemonStep, hpending, hreaping]
      rfl
    rw [run, hstep]
    exact hrun

/-- A zombie makes itself heard. -/
def Heard (daemon : Daemon) : Prop :=
  zombies daemon ≠ 0 → daemon.pendingSignal = true ∨ daemon.reaping = true

/-- What a step leaves behind: a process that is in no call that does not
return, and who has been forked is running. -/
theorem processStep_activity {succeeds : Bool} {network network' : Network}
    {process process' : Process} {forked : List Process}
    (hstep : processStep host succeeds network process =
      some (process', network', forked)) :
    (∀ trace, process'.activity ≠ .hung trace) ∧
      ∀ child ∈ forked, ∃ program, child.activity = .running program := by
  unfold processStep at hstep
  split at hstep
  · cases hstep
    simp
  · cases hstep
    simp
  · obtain ⟨⟨answer, table, network''⟩, -, hresult⟩ :=
      Option.map_eq_some_iff.mp hstep
    cases hresult
    simp
  · split_ifs at hstep <;> cases hstep <;> simp
  · split at hstep
    · split at hstep <;> cases hstep <;> simp
    · cases hstep
  · obtain ⟨⟨answer, table⟩, -, hresult⟩ := Option.map_eq_some_iff.mp hstep
    cases hresult
    simp
  · split at hstep <;> cases hstep <;> simp
  · cases hstep
  · cases hstep
  · cases hstep

/-- Only exiting makes a zombie, and no process forks one. -/
theorem forked_not_isZombie {succeeds : Bool} {network network' : Network}
    {process process' : Process} {forked : List Process}
    (hstep : processStep host succeeds network process =
      some (process', network', forked)) :
    ∀ child ∈ forked, child.isZombie = false := by
  intro child hchild
  obtain ⟨program, hrunning⟩ := (processStep_activity hstep).2 child hchild
  rw [Process.isZombie, hrunning]

theorem hang_not_isZombie {count part : ℕ} {process hung : Process}
    (hhang : process.hang count part = some hung) : hung.isZombie = false := by
  unfold Process.hang at hhang
  split at hhang
  · split_ifs at hhang
    cases hhang
    rfl
  · cases hhang

theorem countP_forked {forked : List Process}
    (hforked : ∀ child ∈ forked, child.isZombie = false) :
    forked.countP Process.isZombie = 0 :=
  List.countP_eq_zero.mpr fun child hchild => by
    rw [hforked child hchild]
    exact Bool.false_ne_true

theorem Heard.step {action : Action} (h : Heard daemon)
    (hstep : daemonStep host daemon action = some next) : Heard next := by
  cases action with
  | connect client =>
      rw [daemonStep] at hstep
      split_ifs at hstep
      cases hstep
      exact h
  | server succeeds =>
      rw [daemonStep] at hstep
      split_ifs at hstep
      obtain ⟨⟨server, network, forked⟩, hserver, rfl⟩ :=
        Option.map_eq_some_iff.mp hstep
      intro hzombies
      apply h
      simpa [zombies, countP_forked (forked_not_isZombie hserver)] using hzombies
  | child index succeeds =>
      obtain ⟨child, hindex, hrest⟩ := Option.bind_eq_some_iff.mp hstep
      obtain ⟨⟨moved, network, forked⟩, hmoved, rfl⟩ :=
        Option.map_eq_some_iff.mp hrest
      intro hzombies
      cases hexited : moved.isZombie with
      | true =>
          left
          change (daemon.pendingSignal || moved.isZombie) = true
          rw [hexited, Bool.or_true]
      | false =>
          have hforked := countP_forked (forked_not_isZombie hmoved)
          have hset := countP_set_le hindex hexited
          have hold : zombies daemon ≠ 0 := by
            intro hzero
            apply hzombies
            rw [zombies] at hzero ⊢
            rw [List.countP_append, hforked]
            omega
          refine (h hold).imp_left fun hpending => ?_
          change (daemon.pendingSignal || moved.isZombie) = true
          rw [hpending, Bool.true_or]
  | hang index count part =>
      obtain ⟨child, hindex, hrest⟩ := Option.bind_eq_some_iff.mp hstep
      obtain ⟨hung, hhang, rfl⟩ := Option.map_eq_some_iff.mp hrest
      intro hzombies
      have hset := countP_set_le hindex (hang_not_isZombie hhang)
      refine h fun hzero => hzombies ?_
      rw [zombies] at hzero ⊢
      exact Nat.eq_zero_of_le_zero (hset.trans_eq hzero)
  | interrupt =>
      rw [daemonStep] at hstep
      split_ifs at hstep
      cases hstep
      exact fun _ => .inr rfl
  | reap index =>
      obtain ⟨child, hindex, hrest⟩ := Option.bind_eq_some_iff.mp hstep
      split_ifs at hrest with hreaping
      cases hrest
      exact fun _ => .inr (Bool.and_eq_true_iff.mp hreaping).1
  | reaped =>
      rw [daemonStep] at hstep
      split_ifs at hstep with hdone
      cases hstep
      rw [Bool.and_eq_true_iff, Bool.not_eq_true', List.any_eq_false] at hdone
      intro hzombies
      exact absurd (List.countP_eq_zero.mpr hdone.2) hzombies

end Handler

section Settling

variable {daemon : Daemon}

/-- From outside of the handler. -/
theorem exists_settled (host : Host) (h : Heard daemon)
    (hreaping : daemon.reaping = false) :
    ∃ schedule, (∀ action ∈ schedule, ofHandler action) ∧
      schedule.length ≤ zombies daemon + 2 ∧
      (daemonMachine host).run daemon schedule = some (settled daemon) := by
  cases hpending : daemon.pendingSignal with
  | true => exact exists_interrupted host hreaping hpending
  | false =>
      have hnone : zombies daemon = 0 := by
        by_contra hzombies
        simpa [hpending, hreaping] using h hzombies
      have hsettled : settled daemon = daemon := by
        rw [settled, map_bury_of_zombies hnone]
        cases daemon
        cases hpending
        cases hreaping
        rfl
      exact ⟨[], by simp, Nat.zero_le _, by rw [run, hsettled]⟩

theorem heard_of_reachable {host : Host} {argv : List CString}
    (hreachable : (daemonMachine host).Reachable (boot host argv) daemon) :
    Heard daemon :=
  hreachable.invariant Heard (fun _ _ _ h hstep => h.step hstep)
    fun hzero => absurd rfl hzero

/-- No zombie is forgotten: where there is one the signal is pending or its
handler runs, and from any state that the server can reach the handler alone
waits for them all and returns, while nothing else changes. -/
theorem no_zombie_forgotten {host : Host} {argv : List CString}
    (hreachable : (daemonMachine host).Reachable (boot host argv) daemon) :
    Heard daemon ∧ ∃ schedule, (∀ action ∈ schedule, ofHandler action) ∧
      schedule.length ≤ zombies daemon + 3 ∧
      (daemonMachine host).run daemon schedule = some (settled daemon) := by
  have hheard := heard_of_reachable hreachable
  refine ⟨hheard, ?_⟩
  cases hreaping : daemon.reaping with
  | false =>
      obtain ⟨schedule, hall, hlength, hrun⟩ :=
        exists_settled host hheard hreaping
      exact ⟨schedule, hall, Nat.le_succ_of_le hlength, hrun⟩
  | true =>
      -- what the first run of the handler misses is a signal that came in
      obtain ⟨schedule, hall, hlength, hrun⟩ := exists_returned host hreaping
      have hnone : zombies { daemon with
          children := daemon.children.map bury
          reaping := false } = 0 := List.countP_eq_zero.mpr (by simp)
      obtain ⟨more, hmore, hshort, hlater⟩ :=
        exists_settled host (fun hzombies => absurd hnone hzombies) rfl
      refine ⟨schedule ++ more, ?_, ?_, ?_⟩
      · intro action hmem
        exact (List.mem_append.mp hmem).elim (hall action) (hmore action)
      · rw [List.length_append]
        omega
      · rw [run_append, hrun, Option.bind_some, hlater]
        simp [settled]

/-- A child has exited, and its signal is pending. -/
theorem no_zombie_forgotten_caller :
    ∃ daemon, (daemonMachine smallHost).run (boot smallHost [])
        (welcoming [caller] ++ List.replicate 5 (.child 0 true)) =
          some daemon ∧
      zombies daemon = 1 ∧ Heard daemon ∧
      ∃ schedule, (∀ action ∈ schedule, ofHandler action) ∧
        schedule.length ≤ 4 ∧
        (daemonMachine smallHost).run daemon schedule =
          some (settled daemon) := by
  have hrun : ((daemonMachine smallHost).run (boot smallHost [])
      (welcoming [caller] ++ List.replicate 5 (.child 0 true))).map
        zombies = some 1 := by decide +kernel
  obtain ⟨daemon, hdaemon, hzombies⟩ := Option.map_eq_some_iff.mp hrun
  have hforgotten := no_zombie_forgotten ⟨_, hdaemon⟩
  rw [hzombies] at hforgotten
  exact ⟨daemon, hdaemon, hzombies, hforgotten⟩

end Settling

end HttpCerver.Reaping
