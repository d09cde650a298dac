import HttpCerver.Process.Reaping
import HttpCerver.Process.Service

/-!
# Progress

A child takes a number of steps that only its client bounds, whatever the
others do.  As long as its calls return it can always take the next one, until
it has finished; in a call that does not return it stays for ever.
-/

namespace HttpCerver.Progress

open HttpCerver.Bytes
open HttpCerver.Calls
open HttpCerver.Config
open HttpCerver.Forking
open HttpCerver.ForkServer
open HttpCerver.Interleaving
open HttpCerver.Machines
open HttpCerver.Machines.Machine
open HttpCerver.Main
open HttpCerver.Programs
open HttpCerver.Protocol
open HttpCerver.Reaping
open HttpCerver.Service
open HttpCerver.System
open HttpCerver.Visits

/-- A process that takes no more steps because it has finished. -/
def isOver (process : Process) : Bool :=
  match process.activity with
  | .exited _ | .reaped => true
  | _ => false

/-- A process in a call that does not return. -/
def isHung (process : Process) : Bool :=
  match process.activity with
  | .hung _ => true
  | _ => false

/-- The child whose call does not return. -/
def hanging : Action → Option ℕ
  | .hang index _ _ => some index
  | _ => none

section Child

variable {host : Host} {config : ServerConfig} {daemon next : Daemon}
variable {index id : ℕ} {child : Process} {client : Client} {action : Action}

/-- What a step does to one of the children. -/
inductive ChildFate (host : Host) (network : Network) (index : ℕ)
    (child : Process) : Action → Process → Prop
  | kept {action : Action}
      (hother : ∀ succeeds, action ≠ .child index succeeds) :
      ChildFate host network index child action child
  | moved {succeeds : Bool} {child' : Process} {network' : Network}
      {forked : List Process}
      (hstep : processStep host succeeds network child =
        some (child', network', forked)) :
      ChildFate host network index child (.child index succeeds) child'
  | stalled {count part : ℕ} {child' : Process}
      (hhang : child.hang count part = some child') :
      ChildFate host network index child (.hang index count part) child'
  | buried (hzombie : child.isZombie = true) :
      ChildFate host network index child (.reap index)
        { child with activity := .reaped }

theorem isHung_eq_false (h : ∀ trace, child.activity ≠ .hung trace) :
    isHung child = false := by
  cases hactivity : child.activity with
  | hung trace => exact absurd hactivity (h trace)
  | _ => simp [isHung, hactivity]

/-- Who takes a step is not in a call that does not return, and neither is
anyone after it. -/
theorem processStep_not_hung {succeeds : Bool} {network network' : Network}
    {process process' : Process} {forked : List Process}
    (hstep : processStep host succeeds network process =
      some (process', network', forked)) :
    isHung process = false ∧
      ∀ other ∈ process' :: forked, isHung other = false := by
  obtain ⟨hmoved, hforked⟩ := processStep_activity hstep
  refine ⟨isHung_eq_false fun trace hhung => ?_,
    List.forall_mem_cons.mpr ⟨isHung_eq_false hmoved, ?_⟩⟩
  · simp [processStep, hhung] at hstep
  · intro other hother
    obtain ⟨program, hrunning⟩ := hforked other hother
    rw [isHung, hrunning]

theorem getElem?_of_others {children forked : List Process} {moved : Process}
    {other : ℕ} (hindex : children[index]? = some child) (hne : other ≠ index) :
    (children.set other moved ++ forked)[index]? = some child := by
  obtain ⟨hlt, -⟩ := List.getElem?_eq_some_iff.mp hindex
  rw [List.getElem?_append_left (by simpa using hlt),
    List.getElem?_set_ne hne, hindex]

/-- A step, seen from one of the children. -/
theorem daemonStep_child (hindex : daemon.children[index]? = some child)
    (hstep : daemonStep host daemon action = some next) :
    ∃ child', next.children[index]? = some child' ∧
      ChildFate host daemon.network index child action child' := by
  obtain ⟨hlt, -⟩ := List.getElem?_eq_some_iff.mp hindex
  cases action with
  | connect client =>
      rw [daemonStep] at hstep
      split_ifs at hstep
      cases hstep
      exact ⟨child, hindex, .kept (by simp)⟩
  | server succeeds =>
      rw [daemonStep] at hstep
      split_ifs at hstep
      obtain ⟨⟨server, network, forked⟩, hserver, rfl⟩ :=
        Option.map_eq_some_iff.mp hstep
      refine ⟨child, ?_, .kept (by simp)⟩
      exact (List.getElem?_append_left hlt).trans hindex
  | child other succeeds =>
      obtain ⟨found, hother, hrest⟩ := Option.bind_eq_some_iff.mp hstep
      obtain ⟨⟨moved, network, forked⟩, hmoved, rfl⟩ :=
        Option.map_eq_some_iff.mp hrest
      by_cases hsame : other = index
      · subst hsame
        cases hother.symm.trans hindex
        refine ⟨moved, ?_, .moved hmoved⟩
        exact (List.getElem?_append_left (by simpa using hlt)).trans
          (List.getElem?_set_self hlt)
      · exact ⟨child, getElem?_of_others hindex hsame, .kept (by simp [hsame])⟩
  | hang other count part =>
      obtain ⟨found, hother, hrest⟩ := Option.bind_eq_some_iff.mp hstep
      obtain ⟨hung, hhang, rfl⟩ := Option.map_eq_some_iff.mp hrest
      by_cases hsame : other = index
      · subst hsame
        cases hother.symm.trans hindex
        exact ⟨hung, List.getElem?_set_self hlt, .stalled hhang⟩
      · refine ⟨child, ?_, .kept (by simp)⟩
        rw [List.getElem?_set_ne hsame, hindex]
  | interrupt | reaped =>
      rw [daemonStep] at hstep
      split_ifs at hstep
      cases hstep
      exact ⟨child, hindex, .kept (by simp)⟩
  | reap other =>
      obtain ⟨found, hother, hrest⟩ := Option.bind_eq_some_iff.mp hstep
      split_ifs at hrest with hzombie
      cases hrest
      by_cases hsame : other = index
      · subst hsame
        cases hother.symm.trans hindex
        refine ⟨_, List.getElem?_set_self hlt, .buried ?_⟩
        exact (Bool.and_eq_true_iff.mp hzombie).2
      · refine ⟨child, ?_, .kept (by simp)⟩
        rw [List.getElem?_set_ne hsame, hindex]

/-- The child at an index is on its way with a client. -/
def Tended (host : Host) (config : ServerConfig) (index id : ℕ)
    (client : Client) (daemon : Daemon) : Prop :=
  daemon.network.accepted[id]? = some client ∧
    ∃ child stage, daemon.children[index]? = some child ∧
      ChildStands host config id client.inode stage child

/-- How many steps the child at an index can still take at most. -/
def remainingOf (index : ℕ) (client : Client) (daemon : Daemon) : ℕ :=
  (daemon.children[index]?).elim 0 (remaining client)

theorem remainingOf_eq (hindex : daemon.children[index]? = some child) :
    remainingOf index client daemon = remaining client child := by
  rw [remainingOf, hindex]
  rfl

/-- The steps of the child at an index. -/
def ofChild (index : ℕ) : Action → Bool
  | .child other _ => other = index
  | _ => false

theorem remaining_le {stage : Stage}
    (hstands : ChildStands host config id client.inode stage child)
    (hcourse : Visit.OnCourse host config ⟨client, stage⟩) :
    remaining client child ≤ patience client + 5 := by
  cases hstands with
  | entrusted => rw [remaining_entrusted]
  | alone => rw [remaining_alone]; omega
  | @serving connection w =>
      obtain ⟨fresh, w', hinit, hreaches⟩ := hcourse
      have hread : unread w ≤ patience client :=
        Nat.le_trans hreaches.rank_le (Nat.le_of_eq (unread_of_init hinit))
      change unread w + 3 ≤ _
      omega
  | handled => rw [remaining_handled]; omega
  | finished => rw [remaining_finished]; omega
  | hung | exited | reaped => exact Nat.zero_le _

/-- No step takes a child off its way, and its own wear it out. -/
theorem Tended.step (h : Tended host config index id client daemon)
    (hstep : daemonStep host daemon action = some next) :
    Tended host config index id client next ∧
      remainingOf index client next + (if ofChild index action then 1 else 0) ≤
        remainingOf index client daemon := by
  obtain ⟨hclient, child, stage, hindex, hstands⟩ := h
  obtain ⟨child', hindex', hfate⟩ := daemonStep_child hindex hstep
  have hclient' : next.network.accepted[id]? = some client := by
    obtain ⟨more, hmore⟩ := (daemonStep_network hstep).1
    obtain ⟨hid, -⟩ := List.getElem?_eq_some_iff.mp hclient
    rw [← hmore, List.getElem?_append_left hid, hclient]
  rw [remainingOf_eq hindex, remainingOf_eq hindex']
  cases hfate with
  | kept hother =>
      have hcount : ofChild index action = false := by
        cases action with
        | child other succeeds =>
            refine decide_eq_false fun hsame => hother succeeds ?_
            rw [hsame]
        | _ => rfl
      rw [hcount]
      exact ⟨⟨hclient', child, stage, hindex', hstands⟩, Nat.le_refl _⟩
  | moved hmoved =>
      obtain ⟨-, -, hfewer, later, hlater, -⟩ :=
        childStep_spec hstands hclient hmoved
      refine ⟨⟨hclient', child', later, hindex', hlater⟩, ?_⟩
      rw [ofChild, decide_eq_true rfl, if_pos rfl]
      exact hfewer
  | stalled hhang =>
      obtain ⟨hnone, -, later, hlater, -⟩ := childHang_spec hstands hhang
      refine ⟨⟨hclient', child', later, hindex', hlater⟩, ?_⟩
      rw [hnone]
      exact Nat.zero_le _
  | buried hzombie =>
      cases hstands with
      | exited => exact ⟨⟨hclient', _, _, hindex', .reaped⟩, Nat.le_refl _⟩
      | _ => cases hzombie

theorem isOver_of_remaining {stage : Stage}
    (hstands : ChildStands host config id client.inode stage child)
    (hreturns : isHung child = false) (hleft : remaining client child = 0) :
    isOver child = true := by
  cases hstands with
  | entrusted => rw [remaining_entrusted] at hleft; cases hleft
  | alone => rw [remaining_alone] at hleft; cases hleft
  | serving => cases hleft
  | handled => rw [remaining_handled] at hleft; cases hleft
  | finished => rw [remaining_finished] at hleft; cases hleft
  | hung => cases hreturns
  | exited | reaped => rfl

/-- A child whose calls have returned and that is not over can go on, and
succeed or fail in what it does. -/
theorem Tended.goes_on (h : Tended host config index id client daemon)
    (hindex : daemon.children[index]? = some child) :
    child.serves = some id ∧
      (isHung child = false → isOver child = true ∨ ∀ succeeds,
        (daemonStep host daemon (.child index succeeds)).isSome = true) := by
  obtain ⟨hclient, found, stage, hfound, hstands⟩ := h
  cases hfound.symm.trans hindex
  refine ⟨hstands.serves_eq, fun hreturns => ?_⟩
  by_cases hleft : remaining client child = 0
  · exact .inl (isOver_of_remaining hstands hreturns hleft)
  · right
    intro succeeds
    have hstep := childStep_exists succeeds hstands hclient hleft
    rw [daemonStep, hindex, Option.bind_some, Option.isSome_map]
    exact hstep

/-- With calls that return nobody is held up. -/
theorem not_hung_of_step
    (h : ∀ child ∈ daemon.children, isHung child = false)
    (hreturns : hanging action = none)
    (hstep : daemonStep host daemon action = some next) :
    ∀ child ∈ next.children, isHung child = false := by
  cases action with
  | connect | interrupt | reaped =>
      rw [daemonStep] at hstep
      split_ifs at hstep
      cases hstep
      exact h
  | server succeeds =>
      rw [daemonStep] at hstep
      split_ifs at hstep
      obtain ⟨⟨server, network, forked⟩, hserver, rfl⟩ :=
        Option.map_eq_some_iff.mp hstep
      obtain ⟨-, hafter⟩ := processStep_not_hung hserver
      intro other hother
      exact (List.mem_append.mp hother).elim (h other) fun hnew =>
        hafter other (List.mem_cons_of_mem _ hnew)
  | child index succeeds =>
      obtain ⟨found, -, hrest⟩ := Option.bind_eq_some_iff.mp hstep
      obtain ⟨⟨moved, network, forked⟩, hmoved, rfl⟩ :=
        Option.map_eq_some_iff.mp hrest
      obtain ⟨-, hafter⟩ := processStep_not_hung hmoved
      intro other hother
      obtain hset | hnew := List.mem_append.mp hother
      · obtain hold | rfl := List.mem_or_eq_of_mem_set hset
        · exact h other hold
        · exact hafter other List.mem_cons_self
      · exact hafter other (List.mem_cons_of_mem _ hnew)
  | hang => cases hreturns
  | reap index =>
      obtain ⟨found, -, hrest⟩ := Option.bind_eq_some_iff.mp hstep
      split_ifs at hrest
      cases hrest
      intro other hother
      obtain hold | rfl := List.mem_or_eq_of_mem_set hother
      · exact h other hold
      · rfl

theorem not_hung_of_run {argv : List CString} {schedule : List Action}
    (hrun : (daemonMachine host).run (boot host argv) schedule = some daemon)
    (hreturns : ∀ action ∈ schedule, hanging action = none) :
    ∀ child ∈ daemon.children, isHung child = false :=
  run_invariant (fun state => ∀ child ∈ state.children, isHung child = false)
    (fun action => hanging action = none)
    (fun _ _ _ h hallowed hstep => not_hung_of_step h hallowed hstep)
    (fun _ hnobody => by cases hnobody) hreturns hrun

/-- A child in a call that does not return stays there, and no other one gets
there but by such a call. -/
theorem ChildFate.isHung {network : Network} {child' : Process}
    (hfate : ChildFate host network index child action child') :
    (isHung child = true → child' = child) ∧
      (isHung child' = true →
        isHung child = true ∨ hanging action = some index) := by
  cases hfate with
  | kept hother => exact ⟨fun _ => rfl, .inl⟩
  | moved hstep =>
      obtain ⟨hbefore, hafter⟩ := processStep_not_hung hstep
      rw [hbefore, hafter child' List.mem_cons_self]
      exact ⟨by simp, by simp⟩
  | stalled hhang =>
      refine ⟨fun hhung => ?_, fun _ => .inr rfl⟩
      cases hactivity : child.activity <;>
        simp [Progress.isHung, Process.hang, hactivity] at hhung hhang
  | buried hzombie =>
      refine ⟨fun hhung => ?_, fun hhung => ?_⟩
      · cases hactivity : child.activity <;>
          simp [Progress.isHung, Process.isZombie, hactivity] at hhung hzombie
      · cases hhung

/-- The child at an index after a run. -/
theorem exists_child_of_run {schedule : List Action}
    (hindex : daemon.children[index]? = some child)
    (hrun : (daemonMachine host).run daemon schedule = some next) :
    ∃ child', next.children[index]? = some child' ∧
      (isHung child = true → child' = child) ∧
      (isHung child = false →
        (∀ action ∈ schedule, hanging action ≠ some index) →
          isHung child' = false) := by
  refine run_invariant (fun state => ∃ child',
      state.children[index]? = some child' ∧
        (isHung child = true → child' = child) ∧
        (isHung child = false →
          (∀ action ∈ schedule, hanging action ≠ some index) →
            isHung child' = false)) (· ∈ schedule) ?_ ?_ (fun _ => id) hrun
  · rintro state action state' ⟨found, hfound, hstays, hreturns⟩ haction hstep
    obtain ⟨child', hchild', hfate⟩ := daemonStep_child hfound hstep
    obtain ⟨hsame, hstalled⟩ := hfate.isHung
    refine ⟨child', hchild', fun hhung => ?_, fun hfree hnone => ?_⟩
    · have hbefore := hstays hhung
      subst hbefore
      exact hsame hhung
    · rw [Bool.eq_false_iff]
      intro hhung
      obtain hbefore | haction' := hstalled hhung
      · rw [hreturns hfree hnone] at hbefore
        cases hbefore
      · exact hnone action haction haction'
  · exact ⟨child, hindex, fun _ => rfl, fun hfree _ => hfree⟩

/-- A child whose client reads nothing. -/
example : ((daemonMachine smallHost).run (boot smallHost [])
    (welcoming [visitor] ++
      [.child 0 true, .child 0 true, .hang 0 1 0])).map
        (fun daemon => daemon.children.map isHung) = some [true] := by
  decide +kernel

end Child

/-- A child whose calls return finishes: whatever the others do, it takes at
most as many steps as its client has bytes and receives, and five more, and
until it has exited it can always take the next one.  A child in a call that
does not return stays as it is. -/
theorem child_finishes {host : Host} {argv : List CString} {daemon : Daemon}
    {index : ℕ} {child : Process}
    (hreachable : (daemonMachine host).Reachable (boot host argv) daemon)
    (hindex : daemon.children[index]? = some child) :
    ∃ id client, daemon.network.accepted[id]? = some client ∧
      child.serves = some id ∧ ∀ schedule later,
        (daemonMachine host).run daemon schedule = some later →
          schedule.countP (ofChild index) ≤ patience client + 5 ∧
            ∃ child', later.children[index]? = some child' ∧
              child'.serves = some id ∧
              (isHung child = true → child' = child) ∧
              (isHung child = false →
                (∀ action ∈ schedule, hanging action ≠ some index) →
                isOver child' = true ∨ ∀ succeeds, (daemonStep host later
                  (.child index succeeds)).isSome = true) := by
  obtain ⟨id, client, stage, hclient, hstands, hcourse⟩ :=
    exists_course hreachable (List.mem_of_getElem? hindex)
  refine ⟨id, client, hclient, hstands.serves_eq, ?_⟩
  intro schedule later hrun
  have htended : Tended host (configured argv) index id client daemon :=
    ⟨hclient, child, stage, hindex, hstands⟩
  obtain ⟨hlater, hcount⟩ := run_countP_le
    (Tended host (configured argv) index id client)
    (remainingOf index client) (fun _ => True) (ofChild index)
    (fun _ _ _ h _ hstep => h.step hstep) htended (fun _ _ => trivial) hrun
  rw [remainingOf_eq hindex] at hcount
  have hbound := remaining_le hstands hcourse
  obtain ⟨child', hindex', hstays, hreturns⟩ :=
    exists_child_of_run hindex hrun
  obtain ⟨hserves, hgoes⟩ := hlater.goes_on hindex'
  exact ⟨by omega, child', hindex', hserves, hstays,
    fun hfree hnone => hgoes (hreturns hfree hnone)⟩

theorem child_finishes_visitor :
    ∃ daemon child, (daemonMachine smallHost).run (boot smallHost [])
        (welcoming [visitor]) = some daemon ∧
      daemon.children[0]? = some child ∧ child.serves = some 0 ∧
      ∀ schedule later,
        (daemonMachine smallHost).run daemon schedule = some later →
          schedule.countP (ofChild 0) ≤ patience visitor + 5 ∧
          ∃ child', later.children[0]? = some child' ∧
            ((∀ action ∈ schedule, hanging action ≠ some 0) →
              isOver child' = true ∨ ∀ succeeds,
                (daemonStep smallHost later
                  (.child 0 succeeds)).isSome = true) := by
  have hrun : ∃ daemon child, (daemonMachine smallHost).run
      (boot smallHost []) (welcoming [visitor]) = some daemon ∧
        daemon.children[0]? = some child ∧ child.serves = some 0 ∧
        isHung child = false ∧ daemon.network.accepted = [visitor] :=
    ⟨_, _, rfl, rfl, rfl, rfl, rfl⟩
  obtain ⟨daemon, child, hdaemon, hindex, hserves, hfree, haccepted⟩ := hrun
  obtain ⟨id, client, hclient, hid, hfinishes⟩ :=
    child_finishes ⟨_, hdaemon⟩ hindex
  cases hserves.symm.trans hid
  rw [haccepted] at hclient
  cases hclient
  refine ⟨daemon, child, hdaemon, hindex, hserves, ?_⟩
  intro schedule later hlater
  obtain ⟨hcount, child', hindex', -, -, hgoes⟩ :=
    hfinishes schedule later hlater
  exact ⟨hcount, child', hindex', hgoes hfree⟩

end HttpCerver.Progress
