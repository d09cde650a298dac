import HttpCerver.Process.Opening

/-!
# First come, first served

The children serve the clients in the order in which these have connected.  A
client loses its place only to a call that fails: as long as the calls of the
server succeed, the k-th child serves the k-th client.
-/

namespace HttpCerver.Order

open HttpCerver.Bytes
open HttpCerver.Calls
open HttpCerver.Config
open HttpCerver.Forking
open HttpCerver.Interleaving
open HttpCerver.Machines
open HttpCerver.Machines.Machine
open HttpCerver.Main
open HttpCerver.Opening
open HttpCerver.Programs
open HttpCerver.Protocol
open HttpCerver.Service
open HttpCerver.System
open HttpCerver.Visits

/-- The call that the server makes next succeeds. -/
def steadfast : Action → Prop
  | .server succeeds => succeeds = true
  | _ => True

/-- The connection that is waiting for its child. -/
def handed (phase : Phase) : List ℕ :=
  ((hand phase).map (·.1)).toList

/-- The children stand in line, and the connection at hand stands behind
them. -/
structure InLine (phase : Phase) (daemon : Daemon) (served : List ℕ) : Prop where
  children : daemon.children.map (·.serves) = served.map some
  line : (served ++ handed phase).Sublist
    (List.range daemon.network.accepted.length)

/-- Nobody is missing from the line. -/
structure Complete (phase : Phase) (daemon : Daemon) (served : List ℕ) :
    Prop where
  line : served ++ handed phase = List.range daemon.network.accepted.length
  succeeded : ¬ Failed phase

section Steps

variable {host : Host} {config : ServerConfig} {phase later : Phase}
variable {daemon next : Daemon} {view : ℕ → Option Visit}
variable {served : List ℕ} {action : Action} {succeeds : Bool}

theorem handed_of_hand {id : ℕ} {inode : Inode}
    (hhand : hand phase = some (id, inode)) : handed phase = [id] := by
  rw [handed, hhand]
  rfl

theorem InLine.handover (h : InLine phase daemon served)
    (hmove : Handover host config succeeds daemon phase later next) :
    ∃ served', InLine later next served' ∧
      (succeeds = true → Complete phase daemon served →
        Complete later next served') := by
  obtain ⟨hchildren, hline⟩ := h
  cases hmove with
  | keeps hstands hhand hfailed =>
      have hsame : handed later = handed phase := by rw [handed, handed, hhand]
      refine ⟨served, ⟨hchildren, by rwa [hsame]⟩, ?_⟩
      intro hsucceeds hcomplete
      refine ⟨by rw [hsame]; exact hcomplete.line, fun hlater => ?_⟩
      rw [hsucceeds] at hfailed
      cases hfailed hlater
  | drops hfailed hhand hstands =>
      have hshort : (served ++ handed .idle).Sublist
          (served ++ handed phase) :=
        List.Sublist.append_left (List.nil_sublist _) served
      exact ⟨served, ⟨hchildren, hshort.trans hline⟩,
        fun _ hcomplete => absurd hfailed hcomplete.succeeded⟩
  | @accepts client waiting server hwaiting hstands =>
      have hnothing : served ++ handed .idle = served := List.append_nil served
      have hone : handed (.accepted daemon.network.accepted.length
          client.inode) = [daemon.network.accepted.length] := handed_of_hand rfl
      rw [hnothing] at hline
      refine ⟨served, ⟨hchildren, ?_⟩, ?_⟩
      · rw [hone, List.length_append, List.length_singleton, List.range_succ]
        exact hline.append_right _
      · intro _ hcomplete
        refine ⟨?_, False.elim⟩
        rw [hone, List.length_append, List.length_singleton, List.range_succ,
          ← hcomplete.line, hnothing]
  | @forks id inode server child hstands hchild =>
      have hone : handed (.limited id inode) = [id] := handed_of_hand rfl
      have hnothing : (served ++ [id]) ++ handed (.given id inode) =
          served ++ handed (.limited id inode) := by
        rw [hone]
        exact List.append_nil _
      refine ⟨served ++ [id], ⟨?_, by rwa [hnothing]⟩, ?_⟩
      · rw [List.map_append, hchildren, List.map_append, List.map_singleton,
          List.map_singleton, hchild.serves_eq]
      · intro _ hcomplete
        exact ⟨hnothing.trans hcomplete.line, False.elim⟩

/-- The others leave the line as it is. -/
theorem daemonStep_line (h : Represents host config phase daemon view)
    (hother : ∀ succeeds, action ≠ .server succeeds)
    (hstep : daemonStep host daemon action = some next) :
    next.children.map (·.serves) = daemon.children.map (·.serves) ∧
      next.network.accepted = daemon.network.accepted := by
  have hset : ∀ {index : ℕ} {child child' : Process},
      daemon.children[index]? = some child → child'.serves = child.serves →
        (daemon.children.set index child').map (·.serves) =
          daemon.children.map (·.serves) := by
    intro index child child' hindex hserves
    have hmapped : (daemon.children.map (·.serves))[index]? =
        some child.serves := by rw [List.getElem?_map, hindex, Option.map_some]
    obtain ⟨hlt, hchild⟩ := List.getElem?_eq_some_iff.mp hmapped
    rw [List.map_set, hserves, ← hchild, List.set_getElem_self]
  cases action with
  | server succeeds => exact absurd rfl (hother succeeds)
  | connect client =>
      rw [daemonStep] at hstep
      split_ifs at hstep
      cases hstep
      exact ⟨rfl, rfl⟩
  | child index succeeds =>
      obtain ⟨child, hindex, hrest⟩ := Option.bind_eq_some_iff.mp hstep
      obtain ⟨⟨moved, network, forked⟩, hresult, rfl⟩ :=
        Option.map_eq_some_iff.mp hrest
      obtain ⟨id, client, stage, hclient, -, hstands⟩ :=
        h.children child (List.mem_of_getElem? hindex)
      obtain ⟨rfl, rfl, -, stage', hmoved, -⟩ :=
        childStep_spec hstands hclient hresult
      refine ⟨?_, rfl⟩
      dsimp only
      rw [List.append_nil]
      exact hset hindex (hmoved.serves_eq.trans hstands.serves_eq.symm)
  | hang index count part =>
      obtain ⟨child, hindex, hrest⟩ := Option.bind_eq_some_iff.mp hstep
      obtain ⟨hung, hhang, rfl⟩ := Option.map_eq_some_iff.mp hrest
      obtain ⟨id, client, stage, -, -, hstands⟩ :=
        h.children child (List.mem_of_getElem? hindex)
      obtain ⟨-, -, stage', hmoved, -⟩ := childHang_spec hstands hhang
      exact ⟨hset hindex (hmoved.serves_eq.trans hstands.serves_eq.symm), rfl⟩
  | reap index =>
      obtain ⟨child, hindex, hrest⟩ := Option.bind_eq_some_iff.mp hstep
      split_ifs at hrest
      cases hrest
      have hsame : ({ child with activity := .reaped } : Process).serves =
          child.serves := rfl
      exact ⟨hset hindex hsame, rfl⟩
  | interrupt | reaped =>
      rw [daemonStep] at hstep
      split_ifs at hstep
      cases hstep
      exact ⟨rfl, rfl⟩

theorem InLine.step (h : Represents host config phase daemon view)
    (hline : InLine phase daemon served)
    (hstep : daemonStep host daemon action = some next) :
    ∃ later view' served', Represents host config later next view' ∧
      InLine later next served' ∧
      (steadfast action → Complete phase daemon served →
        Complete later next served') := by
  by_cases hother : ∀ succeeds, action ≠ .server succeeds
  · obtain ⟨view', -, hrepresents, -⟩ := daemonStep_others h hother hstep
    obtain ⟨hchildren, haccepted⟩ := daemonStep_line h hother hstep
    refine ⟨phase, view', served, hrepresents, ⟨?_, ?_⟩, ?_⟩
    · rw [hchildren, hline.children]
    · rw [haccepted]
      exact hline.line
    · intro _ hcomplete
      refine ⟨?_, hcomplete.succeeded⟩
      rw [haccepted]
      exact hcomplete.line
  · obtain ⟨succeeds, hserver⟩ := not_forall.mp hother
    rw [not_not] at hserver
    subst hserver
    obtain ⟨later, hmove⟩ := daemonStep_server h.server hstep
    obtain ⟨view', -, hrepresents⟩ := hmove.refines h
    obtain ⟨served', hserved, hcomplete⟩ := hline.handover hmove
    exact ⟨later, view', served', hrepresents, hserved, hcomplete⟩

/-- The line of a run. -/
theorem exists_inLine {argv : List CString} {schedule : List Action}
    (hrun : (daemonMachine host).run (boot host argv) schedule =
      some daemon) :
    ∃ phase view served,
      Represents host (configured argv) phase daemon view ∧
      InLine phase daemon served ∧
      ((∀ action ∈ schedule, steadfast action) →
        Complete phase daemon served) := by
  refine run_invariant (fun state => ∃ phase view served,
      Represents host (configured argv) phase state view ∧
      InLine phase state served ∧
      ((∀ action ∈ schedule, steadfast action) →
        Complete phase state served)) (· ∈ schedule) ?_ ?_ (fun _ => id) hrun
  · rintro state action next ⟨phase, view, served, h, hline, hcomplete⟩
      haction hstep
    obtain ⟨later, view', served', hrepresents, hnext, hkept⟩ :=
      hline.step h hstep
    exact ⟨later, view', served', hrepresents, hnext, fun hsteadfast =>
      hkept (hsteadfast action haction) (hcomplete hsteadfast)⟩
  · exact ⟨.started, _, [], represents_boot argv rfl,
      ⟨rfl, List.Sublist.refl []⟩, fun _ => ⟨rfl, False.elim⟩⟩

/-- At most one connection is at hand. -/
theorem length_handed_le (phase : Phase) : (handed phase).length ≤ 1 := by
  rw [handed]
  cases hand phase with
  | none => exact Nat.zero_le _
  | some held => exact Nat.le_refl _

/-- A beginning of the natural numbers. -/
theorem eq_range_of_append {before after : List ℕ} {count : ℕ}
    (hall : before ++ after = List.range count) :
    before = List.range before.length := by
  have htake := congrArg (List.take before.length) hall
  rw [List.take_left, List.take_range] at htake
  have hlength := congrArg List.length hall
  rw [List.length_append, List.length_range] at hlength
  rwa [Nat.min_eq_left (by omega)] at htake

end Steps

section Order

variable {host : Host} {argv : List CString} {schedule : List Action}
variable {daemon : Daemon}

/-- First come, first served: connections are given to children in the order in
which they were made, each to one child at most.  As long as the calls of the
server succeed nobody is left out: the k-th child serves the k-th client, and
when the server accepts again every accepted client has its child. -/
theorem first_come_first_served
    (hrun : (daemonMachine host).run (boot host argv) schedule =
      some daemon) :
    Network.clients daemon.network = schedule.flatMap newcomers ∧
      ∃ served : List ℕ, daemon.children.map (·.serves) = served.map some ∧
        served.Sublist (List.range daemon.network.accepted.length) ∧
        ((∀ action ∈ schedule, steadfast action) →
          served = List.range served.length ∧
          daemon.network.accepted.length ≤ served.length + 1 ∧
          ∀ fd, accepting daemon.server fd →
            served.length = daemon.network.accepted.length) := by
  refine ⟨clients_eq hrun, ?_⟩
  obtain ⟨phase, view, served, hrepresents, hline, hcomplete⟩ :=
    exists_inLine hrun
  refine ⟨served, hline.children,
    (List.sublist_append_left _ _).trans hline.line, ?_⟩
  intro hsteadfast
  obtain ⟨hall, -⟩ := hcomplete hsteadfast
  have hlength := congrArg List.length hall
  rw [List.length_append, List.length_range] at hlength
  have hhanded := length_handed_le phase
  refine ⟨eq_range_of_append hall, by omega, ?_⟩
  intro fd haccepting
  obtain ⟨rfl, -, -⟩ := idle_of_accepting hrepresents.server haccepting
  exact hlength

theorem first_come_first_served_pair :
    ∃ daemon, (daemonMachine smallHost).run (boot smallHost [])
        (welcoming [visitor, caller] ++ List.replicate 5 (.server true)) =
          some daemon ∧
      daemon.children.map (·.serves) = [some 0, some 1] := by
  have hrun : ∃ daemon, (daemonMachine smallHost).run (boot smallHost [])
      (welcoming [visitor, caller] ++ List.replicate 5 (.server true)) =
        some daemon ∧ daemon.children.length = 2 := ⟨_, rfl, rfl⟩
  obtain ⟨daemon, hdaemon, htwo⟩ := hrun
  obtain ⟨-, served, hserved, -, hsteadfast⟩ := first_come_first_served hdaemon
  have hlength := congrArg List.length hserved
  rw [List.length_map, List.length_map, htwo] at hlength
  obtain ⟨hrange, -⟩ := hsteadfast (by
    simp [welcoming, gathering, steadfast, List.replicate])
  rw [← hlength] at hrange
  refine ⟨daemon, hdaemon, ?_⟩
  rw [hserved, hrange]
  rfl

end Order

end HttpCerver.Order
