import HttpCerver.Process.Protocol
import HttpCerver.Server.Growth

/-!
# Visits

The purpose of the forking server, one client at a time: a client waits, is
accepted, and is either dropped or entrusted to a child that handles it and
exits, unless one of its calls does not return.  Nothing here mentions
processes or other clients.  Every run of the server with its children is an
interleaving of such visits.
-/

namespace HttpCerver.Visits

open HttpCerver.Bytes
open HttpCerver.Calls
open HttpCerver.Config
open HttpCerver.Connection
open HttpCerver.Forking
open HttpCerver.ForkServer
open HttpCerver.Iteration
open HttpCerver.Listening
open HttpCerver.Machines
open HttpCerver.Main
open HttpCerver.Programs
open HttpCerver.Programs.Program
open HttpCerver.Protocol
open HttpCerver.System

/-- How far a client has come. -/
inductive Stage
  | waiting
  | accepted
  | dropped
  | entrusted
  | serving (connection : HttpConnection) (w : World)
  | hung (trace : List Event)
  | served (code : ReturnCode) (w : World)
  | gone (code : ReturnCode) (w : World)

structure Visit where
  client : Client
  stage : Stage

section Abstract

variable (host : Host) (config : ServerConfig)

/-- What a child has open when it takes up its client. -/
def childDescriptors (client : Client) : List (Fd × Inode) :=
  (clientFd host config, client.inode) ::
    (rootFd host, host.directoryInode config.documentRoot) :: host.inherited

/-- The world in which a client is taken up. -/
def opening (client : Client) : World :=
  start client.environment (childDescriptors host config client)

/-- The client handled by itself. -/
def handledAlone (client : Client) : ReturnCode × World :=
  forkServerHandleConnection (rootFd host) config (opening host config client)

/-- The steps of one visit. -/
inductive Advances : Visit → Visit → Prop
  | accepts {client : Client} :
      Advances ⟨client, .waiting⟩ ⟨client, .accepted⟩
  | drops {client : Client} : Advances ⟨client, .accepted⟩ ⟨client, .dropped⟩
  | entrusts {client : Client} :
      Advances ⟨client, .accepted⟩ ⟨client, .entrusted⟩
  | begins {client : Client} {connection : HttpConnection} {w : World}
      (hinit : httpConnectionInit config.httpBufferSize
        (opening host config client) = (some connection, w)) :
      Advances ⟨client, .entrusted⟩ ⟨client, .serving connection w⟩
  | starves {client : Client} {w : World}
      (hinit : httpConnectionInit config.httpBufferSize
        (opening host config client) = (none, w)) :
      Advances ⟨client, .entrusted⟩ ⟨client, .served .failure w⟩
  | serves {client : Client} {connection next : HttpConnection}
      {w w' : World}
      (hbody : (forkServerLoop (rootFd host) config).body (connection, w) =
        .inl (next, w')) :
      Advances ⟨client, .serving connection w⟩ ⟨client, .serving next w'⟩
  | returns {client : Client} {connection : HttpConnection}
      {code : ReturnCode} {w w' : World}
      (hbody : (forkServerLoop (rootFd host) config).body (connection, w) =
        .inr (code, w')) :
      Advances ⟨client, .serving connection w⟩ ⟨client, .served code w'⟩
  | hangs {client : Client} {connection : HttpConnection} {w : World}
      {count part : ℕ} (hbegun : w.trace.length ≤ count) :
      Advances ⟨client, .serving connection w⟩
        ⟨client, .hung (brokenOff count part
          (roundTrace (rootFd host) config (connection, w)))⟩
  | exits {client : Client} {code : ReturnCode} {w : World} :
      Advances ⟨client, .served code w⟩ ⟨client, .gone code w⟩

def Arrives (visit : Visit) : Prop :=
  visit.stage = .waiting

/-- A visit is on the way of the client handled by itself. -/
def Visit.OnCourse (visit : Visit) : Prop :=
  match visit.stage with
  | .serving connection w => ∃ fresh w',
      httpConnectionInit config.httpBufferSize
        (opening host config visit.client) = (some fresh, w') ∧
      (forkServerLoop (rootFd host) config).Reaches (fresh, w') (connection, w)
  | .hung trace => ∃ begun count part,
      begun <+: (handledAlone host config visit.client).2.trace ∧
      trace = brokenOff count part begun
  | .served code w | .gone code w =>
      handledAlone host config visit.client = (code, w)
  | .waiting | .accepted | .dropped | .entrusted => True

variable {host config}

/-- The rest of the handler, from where a visit is. -/
theorem handledAlone_of_reaches {client : Client}
    {fresh connection : HttpConnection} {w w' : World}
    (hinit : httpConnectionInit config.httpBufferSize
      (opening host config client) = (some fresh, w'))
    (hreaches : (forkServerLoop (rootFd host) config).Reaches (fresh, w')
      (connection, w)) :
    handledAlone host config client =
      (forkServerLoop (rootFd host) config).run (connection, w) := by
  rw [handledAlone, forkServerHandleConnection, hinit]
  exact hreaches.run_eq

/-- What a round does is the beginning of what the handler does. -/
theorem roundTrace_begins (state : HttpConnection × World) :
    roundTrace (rootFd host) config state <+:
      ((forkServerLoop (rootFd host) config).run state).2.trace := by
  rw [roundTrace]
  cases hbody : (forkServerLoop (rootFd host) config).body state with
  | inl next =>
      rw [(forkServerLoop (rootFd host) config).run_of_continue hbody]
      exact Growth.forkServerLoop_trace_extends _ _ next
  | inr result =>
      rw [(forkServerLoop (rootFd host) config).run_of_exit hbody]

theorem Advances.onCourse {visit next : Visit}
    (hadvances : Advances host config visit next)
    (h : visit.OnCourse host config) : next.OnCourse host config := by
  cases hadvances with
  | accepts | drops | entrusts => trivial
  | begins hinit => exact ⟨_, _, hinit, .refl⟩
  | starves hinit =>
      change forkServerHandleConnection _ _ _ = _
      rw [forkServerHandleConnection, hinit]
  | serves hbody =>
      obtain ⟨fresh, w', hinit, hreaches⟩ := h
      exact ⟨fresh, w', hinit, hreaches.tail hbody⟩
  | returns hbody =>
      obtain ⟨fresh, w', hinit, hreaches⟩ := h
      exact (handledAlone_of_reaches hinit hreaches).trans
        ((forkServerLoop (rootFd host) config).run_of_exit hbody)
  | hangs hbegun =>
      obtain ⟨fresh, w', hinit, hreaches⟩ := h
      refine ⟨_, _, _, ?_, rfl⟩
      rw [handledAlone_of_reaches hinit hreaches]
      exact roundTrace_begins _
  | exits => exact h

/-- A visit that began by waiting is always on course. -/
theorem onCourse_of_arrives {first visit : Visit} (harrives : Arrives first)
    (hrun : Relation.ReflTransGen (Advances host config) first visit) :
    visit.OnCourse host config := by
  induction hrun with
  | refl => rw [Visit.OnCourse, harrives]; trivial
  | tail _ hadvances ih => exact hadvances.onCourse ih

end Abstract

end HttpCerver.Visits
