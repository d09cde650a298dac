import HttpCerver.Process.Interleaving
import HttpCerver.Server.Growth
import HttpCerver.Stream.Reference

/-!
# What the clients get

In whatever order the server, its children and the clients take their steps, a
client gets what its handler would write if it were the only one, and in an
unchanging tree that is the reference of its own stream.
-/

namespace HttpCerver.Service

open HttpCerver.Bytes
open HttpCerver.Calls
open HttpCerver.Config
open HttpCerver.Connection
open HttpCerver.Delivery
open HttpCerver.Exchange
open HttpCerver.Forking
open HttpCerver.ForkServer
open HttpCerver.Http
open HttpCerver.Interleaving
open HttpCerver.Iteration
open HttpCerver.Machines
open HttpCerver.Main
open HttpCerver.Programs
open HttpCerver.Protocol
open HttpCerver.Reference
open HttpCerver.Response
open HttpCerver.System
open HttpCerver.Visits

theorem written_extends {trace more : List Event} (htrace : trace <+: more) :
    written trace <+: written more := by
  obtain ⟨events, rfl⟩ := htrace
  rw [written_append]
  exact List.prefix_append _ _

/-- A call that does not return puts the beginning on the wire of what it
would. -/
theorem written_brokenOff (count part : ℕ) (events : List Event) :
    written (brokenOff count part events) <+: written events := by
  have hsplit : written events =
      written (events.take count) ++ written (events.drop count) := by
    rw [← written_append, List.take_append_drop]
  rw [brokenOff, written_append, hsplit, List.prefix_append_right_inj]
  cases hevent : events[count]? with
  | none => exact List.nil_prefix
  | some event =>
      obtain ⟨hlt, rfl⟩ := List.getElem?_eq_some_iff.mp hevent
      rw [List.drop_eq_getElem_cons hlt, written, written, List.flatMap_cons]
      cases events[count] with
      | write bytes =>
          rw [List.flatMap_singleton]
          exact (List.take_prefix part bytes).trans (List.prefix_append _ _)
      | _ => exact List.nil_prefix

section Queue

variable {host : Host} {daemon next : Daemon} {argv : List CString}

/-- The client that an action brings. -/
def newcomers : Action → List Client
  | .connect client => [client]
  | _ => []

/-- Everyone who has connected, in that order. -/
def Network.clients (network : Network) : List Client :=
  network.accepted ++ network.waiting

/-- Nobody is lost from the queue or moved up in it. -/
structure Network.Follows (network network' : Network) : Prop where
  accepted : network.accepted <+: network'.accepted
  clients : Network.clients network' = Network.clients network

theorem Network.Follows.refl (network : Network) :
    Network.Follows network network :=
  ⟨List.prefix_refl _, rfl⟩

theorem acceptClient_follows {fd : Option Fd} {succeeds : Bool}
    {network network' : Network} {table table' : Table} {answer : Option Fd}
    (haccept : acceptClient fd succeeds network table =
      some (answer, table', network')) :
    Network.Follows network network' := by
  unfold acceptClient at haccept
  split at haccept
  · split at haccept
    · cases haccept
    · next client waiting hwaiting =>
        cases haccept
        exact ⟨List.prefix_append _ _, by simp [Network.clients, hwaiting]⟩
  · cases haccept
    exact .refl network

theorem processStep_follows {succeeds : Bool} {network network' : Network}
    {process process' : Process} {forked : List Process}
    (hstep : processStep host succeeds network process =
      some (process', network', forked)) :
    Network.Follows network network' := by
  unfold processStep at hstep
  split at hstep
  · cases hstep
    exact .refl network
  · cases hstep
    exact .refl network
  · obtain ⟨⟨answer, table, network''⟩, haccept, hresult⟩ :=
      Option.map_eq_some_iff.mp hstep
    cases hresult
    exact acceptClient_follows haccept
  · split_ifs at hstep <;> cases hstep <;> exact .refl network
  · split at hstep
    · split at hstep <;> cases hstep <;> exact .refl network
    · cases hstep
  · obtain ⟨⟨answer, table⟩, -, hresult⟩ := Option.map_eq_some_iff.mp hstep
    cases hresult
    exact .refl network
  · split at hstep <;> cases hstep <;> exact .refl network
  · cases hstep
  · cases hstep
  · cases hstep

theorem daemonStep_network {action : Action}
    (hstep : daemonStep host daemon action = some next) :
    daemon.network.accepted <+: next.network.accepted ∧
      Network.clients next.network =
        Network.clients daemon.network ++ newcomers action := by
  cases action with
  | connect client =>
      rw [daemonStep] at hstep
      split_ifs at hstep
      cases hstep
      exact ⟨List.prefix_refl _, (List.append_assoc _ _ _).symm⟩
  | server succeeds =>
      rw [daemonStep] at hstep
      split_ifs at hstep
      obtain ⟨⟨server, network, forked⟩, hserver, rfl⟩ :=
        Option.map_eq_some_iff.mp hstep
      have hfollows := processStep_follows hserver
      exact ⟨hfollows.accepted,
        hfollows.clients.trans (List.append_nil _).symm⟩
  | child index succeeds =>
      obtain ⟨child, -, hrest⟩ := Option.bind_eq_some_iff.mp hstep
      obtain ⟨⟨moved, network, forked⟩, hchild, rfl⟩ :=
        Option.map_eq_some_iff.mp hrest
      have hfollows := processStep_follows hchild
      exact ⟨hfollows.accepted,
        hfollows.clients.trans (List.append_nil _).symm⟩
  | hang index count part =>
      obtain ⟨child, -, hrest⟩ := Option.bind_eq_some_iff.mp hstep
      obtain ⟨hung, -, rfl⟩ := Option.map_eq_some_iff.mp hrest
      exact ⟨List.prefix_refl _, (List.append_nil _).symm⟩
  | interrupt | reaped =>
      rw [daemonStep] at hstep
      split_ifs at hstep
      cases hstep
      exact ⟨List.prefix_refl _, (List.append_nil _).symm⟩
  | reap index =>
      obtain ⟨child, -, hrest⟩ := Option.bind_eq_some_iff.mp hstep
      split_ifs at hrest
      cases hrest
      exact ⟨List.prefix_refl _, (List.append_nil _).symm⟩

/-- The queue is first come, first served. -/
theorem clients_eq {schedule : List Action}
    (hrun : (daemonMachine host).run (boot host argv) schedule =
      some daemon) :
    Network.clients daemon.network = schedule.flatMap newcomers :=
  Machine.run_history (fun _ _ _ hstep => (daemonStep_network hstep).2) hrun

end Queue

/-- The bytes that a child has put on its connection. -/
def sent (process : Process) : List Byte :=
  match process.activity, process.handled with
  | .handling _ _ (_, w) _, _ => written w.trace
  | .hung trace, _ => written trace
  | _, some (_, w) => written w.trace
  | _, none => []

/-- The bytes on a connection, from all children that serve it. -/
def sentTo (daemon : Daemon) (id : ℕ) : List Byte :=
  (daemon.children.filter fun child => child.serves = some id).flatMap sent

/-- What a client at this stage has been sent. -/
def Stage.sent : Stage → List Byte
  | .serving _ w | .served _ w | .gone _ w => written w.trace
  | .hung trace => written trace
  | .waiting | .accepted | .dropped | .entrusted => []

/-- How the handler of a client has returned. -/
def Stage.result : Stage → Option (ReturnCode × World)
  | .served code w | .gone code w => some (code, w)
  | _ => none

section Stages

variable {host : Host} {config : ServerConfig} {phase : Phase}
variable {daemon : Daemon} {view : ℕ → Option Visit} {client : Client}

theorem sent_of_stands {id : ℕ} {inode : Inode} {stage : Stage}
    {child : Process}
    (hstands : ChildStands host config id inode stage child) :
    sent child = Stage.sent stage ∧ child.handled = Stage.result stage := by
  cases hstands <;> exact ⟨rfl, rfl⟩

/-- Everyone who has connected is on a visit. -/
theorem exists_visit (h : Represents host config phase daemon view)
    {id : ℕ} (hclient : (Network.clients daemon.network)[id]? = some client) :
    ∃ stage, view id = some ⟨client, stage⟩ := by
  rw [Network.clients, List.getElem?_append] at hclient
  split_ifs at hclient with hid
  · by_cases hfree : Unserved daemon.children id
    · by_cases hhand : ∃ inode, hand phase = some (id, inode)
      · obtain ⟨inode, hinode⟩ := hhand
        obtain ⟨found, hfound, -, hview, -⟩ := h.atHand id inode hinode
        cases hclient.symm.trans hfound
        exact ⟨_, hview⟩
      · exact ⟨_, h.dropped id client hclient hfree (not_exists.mp hhand)⟩
    · obtain ⟨child, hchild, hserves⟩ : ∃ child ∈ daemon.children,
          child.serves = some id := by
        simpa [Unserved] using hfree
      obtain ⟨other, found, stage, hfound, hview, hstands⟩ :=
        h.children child hchild
      rw [hstands.serves_eq] at hserves
      cases hserves
      cases hclient.symm.trans hfound
      exact ⟨stage, hview⟩
  · have hview := h.waiting (id - daemon.network.accepted.length)
    rw [hclient, Nat.add_sub_of_le (by omega)] at hview
    exact ⟨_, hview⟩

/-- Where no child serves a connection, nothing is on it. -/
theorem stage_sent_of_unserved
    (h : Represents host config phase daemon view) {id : ℕ} {visit : Visit}
    (hview : view id = some visit) (hfree : Unserved daemon.children id) :
    Stage.sent visit.stage = [] := by
  by_cases hid : id < daemon.network.accepted.length
  · by_cases hhand : ∃ inode, hand phase = some (id, inode)
    · obtain ⟨inode, hinode⟩ := hhand
      obtain ⟨found, -, -, hfound, -⟩ := h.atHand id inode hinode
      cases hview.symm.trans hfound
      rfl
    · have hdropped := h.dropped id _ (List.getElem?_eq_getElem hid) hfree
        (not_exists.mp hhand)
      cases hview.symm.trans hdropped
      rfl
  · have hwaiting := h.waiting (id - daemon.network.accepted.length)
    rw [Nat.add_sub_of_le (by omega), hview] at hwaiting
    obtain ⟨found, -, rfl⟩ := Option.map_eq_some_iff.mp hwaiting.symm
    rfl

theorem sentTo_eq (h : Represents host config phase daemon view)
    {id : ℕ} {visit : Visit} (hview : view id = some visit) :
    sentTo daemon id = Stage.sent visit.stage := by
  by_cases hfree : Unserved daemon.children id
  · have hnone : (daemon.children.filter fun child =>
        child.serves = some id) = [] :=
      List.filter_eq_nil_iff.mpr fun child hchild => by
        simpa using hfree child hchild
    rw [sentTo, hnone, stage_sent_of_unserved h hview hfree]
    rfl
  · obtain ⟨child, hchild, hserves⟩ : ∃ child ∈ daemon.children,
        child.serves = some id := by
      simpa [Unserved] using hfree
    obtain ⟨other, found, stage, hfound, hother, hstands⟩ :=
      h.children child hchild
    rw [hstands.serves_eq] at hserves
    cases hserves
    cases hview.symm.trans hother
    obtain ⟨before, after, hsplit⟩ := List.append_of_mem hchild
    have hdistinct := h.distinct
    rw [hsplit, List.map_append, List.map_cons, List.nodup_middle,
      List.nodup_cons, ← List.map_append, hstands.serves_eq] at hdistinct
    have hothers : ∀ twin ∈ before ++ after, twin.serves ≠ some id := by
      intro twin htwin hsame
      exact hdistinct.1 (List.mem_map.mpr ⟨twin, htwin, hsame⟩)
    have hnone : ∀ part, part ⊆ before ++ after →
        (part.filter fun twin => twin.serves = some id) = [] := by
      intro part hpart
      exact List.filter_eq_nil_iff.mpr fun twin htwin => by
        simpa using hothers twin (hpart htwin)
    rw [sentTo, hsplit, List.filter_append,
      hnone before (List.subset_append_left _ _), List.nil_append,
      List.filter_cons_of_pos (by simp [hstands.serves_eq]),
      hnone after (List.subset_append_right _ _), List.flatMap_singleton,
      (sent_of_stands hstands).1]

/-- A visit on course has written the beginning of what its client gets when
it is handled alone, and all of it once the handler has returned. -/
theorem onCourse_sent {visit : Visit} (hcourse : visit.OnCourse host config) :
    Stage.sent visit.stage <+:
        written (handledAlone host config visit.client).2.trace ∧
      ∀ result, Stage.result visit.stage = some result →
        result = handledAlone host config visit.client := by
  obtain ⟨client, stage⟩ := visit
  cases stage with
  | waiting | accepted | dropped | entrusted =>
      exact ⟨List.nil_prefix, fun _ hresult => by cases hresult⟩
  | serving connection w =>
      refine ⟨?_, fun _ hresult => by cases hresult⟩
      obtain ⟨fresh, w', hinit, hreaches⟩ := hcourse
      rw [handledAlone_of_reaches hinit hreaches]
      exact written_extends (Growth.forkServerLoop_trace_extends _ _
        (connection, w))
  | hung trace =>
      refine ⟨?_, fun _ hresult => by cases hresult⟩
      obtain ⟨begun, count, part, hbegun, rfl⟩ := hcourse
      exact (written_brokenOff count part begun).trans (written_extends hbegun)
  | served code w | gone code w =>
      change handledAlone host config client = (code, w) at hcourse
      rw [hcourse]
      exact ⟨List.prefix_refl _, fun _ hresult => by cases hresult; rfl⟩

end Stages

section Service

variable {host : Host} {argv : List CString} {schedule : List Action}
variable {daemon : Daemon} {id : ℕ} {client : Client}

/-- The configuration that a command line gives. -/
def configured (argv : List CString) : ServerConfig :=
  (configParseArgs configInit argv).2

/-- Whoever has connected is on a visit of its own. -/
theorem represents_of_run
    (hrun : (daemonMachine host).run (boot host argv) schedule = some daemon) :
    ∃ phase view, Represents host (configured argv) phase daemon view ∧
      ∀ id client, (schedule.flatMap newcomers)[id]? = some client →
        ∃ stage, view id = some ⟨client, stage⟩ ∧
          Visit.OnCourse host (configured argv) ⟨client, stage⟩ := by
  have hconfig : (configParseArgs configInit argv).2 = configured argv := rfl
  obtain ⟨phase, view, hmoves, hrepresents⟩ :=
    reachable_represents hconfig ⟨schedule, hrun⟩
  refine ⟨phase, view, hrepresents, ?_⟩
  intro id client hclient
  rw [← clients_eq hrun] at hclient
  obtain ⟨stage, hview⟩ := exists_visit hrepresents hclient
  obtain ⟨first, harrives, hadvances⟩ := component_of_interleaving hmoves hview
  exact ⟨stage, hview, onCourse_of_arrives harrives hadvances⟩

/-- Every child is on the way of its client handled alone. -/
theorem exists_course
    (hreachable : (daemonMachine host).Reachable (boot host argv) daemon)
    {child : Process} (hchild : child ∈ daemon.children) :
    ∃ id client stage, daemon.network.accepted[id]? = some client ∧
      ChildStands host (configured argv) id client.inode stage child ∧
      Visit.OnCourse host (configured argv) ⟨client, stage⟩ := by
  obtain ⟨schedule, hrun⟩ := hreachable
  obtain ⟨phase, view, hrepresents, hvisits⟩ := represents_of_run hrun
  obtain ⟨id, client, stage, hclient, hview, hstands⟩ :=
    hrepresents.children child hchild
  have hconnected : (schedule.flatMap newcomers)[id]? = some client := by
    obtain ⟨hid, -⟩ := List.getElem?_eq_some_iff.mp hclient
    rw [← clients_eq hrun, Network.clients, List.getElem?_append_left hid,
      hclient]
  obtain ⟨stage', hview', hcourse⟩ := hvisits id client hconnected
  cases hview.symm.trans hview'
  exact ⟨id, client, stage, hclient, hstands, hcourse⟩

/-- What a client has been sent is the beginning of what it is sent when it is
handled alone. -/
theorem sentTo_of_run
    (hrun : (daemonMachine host).run (boot host argv) schedule = some daemon)
    (hclient : (schedule.flatMap newcomers)[id]? = some client) :
    sentTo daemon id <+:
        written (handledAlone host (configured argv) client).2.trace ∧
      ∀ child ∈ daemon.children, child.serves = some id →
        ∀ result, child.handled = some result →
          result = handledAlone host (configured argv) client ∧
            sentTo daemon id = written result.2.trace := by
  obtain ⟨phase, view, hrepresents, hvisits⟩ := represents_of_run hrun
  obtain ⟨stage, hview, hcourse⟩ := hvisits id client hclient
  obtain ⟨hbegins, hall⟩ := onCourse_sent hcourse
  rw [sentTo_eq hrepresents hview]
  refine ⟨hbegins, ?_⟩
  intro child hchild hserves result hresult
  obtain ⟨other, found, stage', -, hother, hstands⟩ :=
    hrepresents.children child hchild
  rw [hstands.serves_eq] at hserves
  cases hserves
  cases hview.symm.trans hother
  have hstage := (sent_of_stands hstands).2.symm.trans hresult
  refine ⟨hall result hstage, ?_⟩
  cases hstands <;> cases hresult <;> rfl

end Service

/-- A client that sends two requests. -/
def visitor : Client where
  environment := pipelined
  inode := 14

end HttpCerver.Service
