import HttpCerver.Process.Opening

/-!
# Custody of descriptors

Who has what open.  The server has one connection at a time and none when it
accepts.  A child has its own and lets go of it only when its handler has
returned; until then it has no other socket.  The files that it serves are open
within a round of the handler and have been closed before the next one.
-/

namespace HttpCerver.Custody

open HttpCerver.Bytes
open HttpCerver.Calls
open HttpCerver.Config
open HttpCerver.Connection
open HttpCerver.Forking
open HttpCerver.ForkServer
open HttpCerver.Interleaving
open HttpCerver.Machines
open HttpCerver.Main
open HttpCerver.Opening
open HttpCerver.Programs
open HttpCerver.Protocol
open HttpCerver.Reference
open HttpCerver.Service
open HttpCerver.System
open HttpCerver.Visits

section Tables

variable {host : Host} {config : ServerConfig} {phase : Phase}

/-- A process is inside its connection handler. -/
def isHandling (process : Process) : Bool :=
  match process.activity with
  | .handling _ _ _ _ | .hung _ => true
  | _ => false

theorem length_connections_server {server : Process}
    (hstands : ServerStands host config phase server) :
    (connections server.table).length ≤ 1 := by
  cases hstands with
  | exited => exact Nat.zero_le _
  | running hserver hkeeps =>
      cases phase <;> first
        | exact hserver.elim
        | simp [serverAt, tableOf, connections, connectionOf, clientEntry,
            idleTable, siteTable, rootEntry, listenerTable, inheritedTable]

theorem connections_child {id : ℕ} {inode : Inode} {stage : Stage}
    {child : Process}
    (hstands : ChildStands host config id inode stage child) :
    connections child.table = [id] ∨
      connections child.table = [] ∧ child.handled.isSome = true := by
  cases hstands with
  | entrusted | alone | serving | hung | handled =>
      left
      simp [childAt, tableOf, connections, connectionOf, childTable,
        clientEntry, idleTable, siteTable, rootEntry, listenerTable,
        inheritedTable]
  | finished =>
      right
      simp [tableOf, connections, connectionOf, rootEntry, inheritedTable]
  | exited | reaped => exact .inr ⟨rfl, rfl⟩

theorem table_of_isHandling {id : ℕ} {inode : Inode} {stage : Stage}
    {child : Process}
    (hstands : ChildStands host config id inode stage child)
    (hhandling : isHandling child = true) :
    child.table = childTable host config id inode := by
  cases hstands with
  | serving | hung => rfl
  | _ => cases hhandling

/-- The descriptors of a world in which no file has been opened. -/
def untouched (table : Table) : List (Fd × OpenFile) :=
  (inodes table).map fun entry =>
    (entry.1, { inode := entry.2, serial := none })

/-- Between two rounds of a handler only that is open which was before. -/
theorem descriptors_of_onCourse {client : Client}
    {connection : HttpConnection} {w : World} (id : ℕ)
    (hcourse : Visit.OnCourse host config ⟨client, .serving connection w⟩) :
    w.descriptors = untouched (childTable host config id client.inode) := by
  obtain ⟨fresh, w', hinit, hreaches⟩ := hcourse
  obtain ⟨mallocs, rfl⟩ := exists_mallocs_of_init hinit
  refine hreaches.invariant (fun state => state.2.descriptors = _) ?_ ?_
  · intro state next hsame hbody
    exact (forkServerReceive_continues hbody).2.trans hsame
  · rw [untouched, inodes_childTable]
    rfl

end Tables

/-- How many processes have a connection open. -/
def holders (daemon : Daemon) (id : ℕ) : ℕ :=
  (daemon.server :: daemon.children).countP
    fun process => id ∈ connections process.table

section Holders

variable {host : Host} {config : ServerConfig} {phase : Phase}
variable {daemon : Daemon} {view : ℕ → Option Visit}

/-- One child at most has a connection open. -/
theorem countP_children_le (h : Represents host config phase daemon view)
    (id : ℕ) :
    (daemon.children.countP fun process => id ∈ connections process.table) ≤
      1 := by
  have hserves : ∀ child ∈ daemon.children,
      id ∈ connections child.table → child.serves = some id := by
    intro child hchild hopen
    obtain ⟨other, client, stage, -, -, hstands⟩ := h.children child hchild
    obtain hown | ⟨hnone, -⟩ := connections_child hstands
    · rw [hown, List.mem_singleton] at hopen
      rw [hstands.serves_eq, hopen]
    · rw [hnone] at hopen
      cases hopen
  calc (daemon.children.countP fun process => id ∈ connections process.table)
      ≤ daemon.children.countP fun child => child.serves = some id := by
        refine List.countP_mono_left fun child hchild hopen => ?_
        exact decide_eq_true (hserves child hchild (of_decide_eq_true hopen))
    _ = (daemon.children.map (·.serves)).count (some id) := by
        rw [List.count, List.countP_map]
        congr 1
        funext child
        rw [Bool.eq_iff_iff]
        simp
    _ ≤ 1 := List.nodup_iff_count_le_one.mp h.distinct _

theorem holders_le (h : Represents host config phase daemon view) (id : ℕ) :
    holders daemon id ≤ 2 ∧
      (connections daemon.server.table = [] → holders daemon id ≤ 1) := by
  have hchildren := countP_children_le h id
  rw [holders, List.countP_cons]
  constructor
  · split_ifs <;> omega
  · intro hnone
    rw [hnone]
    simpa using hchildren

end Holders

/-- Custody: the server has at most one connection open and none when it
accepts, so a connection that it has dropped is closed.  A child has its own
open until its handler has returned, no other child has it, and inside of the
handler the program has nothing else open but the root and what the server
inherited.  The handler opens files on top of that, and whenever it comes to its
next round it has closed them again. -/
theorem custody {host : Host} {argv : List CString} {daemon : Daemon}
    (hreachable : (daemonMachine host).Reachable (boot host argv) daemon) :
    (connections daemon.server.table).length ≤ 1 ∧
      (∀ fd, accepting daemon.server fd →
        connections daemon.server.table = [] ∧
          ∀ id, holders daemon id ≤ 1) ∧
      (∀ id, holders daemon id ≤ 2) ∧
      ∀ child ∈ daemon.children, ∃ id, child.serves = some id ∧
        (connections child.table = [id] ∨
          connections child.table = [] ∧ child.handled.isSome = true) ∧
        (isHandling child = true → ∃ connection root inode,
          child.table =
            (connection,
              { object := .connection id (some (configured argv).clientTimeout)
                inode := inode }) ::
            (root,
              { object := .documentRoot (configured argv).documentRoot
                inode := host.directoryInode
                  (configured argv).documentRoot }) ::
            inheritedTable host) ∧
        ∀ rootFd config connection w rest,
          child.activity = .handling rootFd config (connection, w) rest →
            w.descriptors = untouched child.table := by
  have hconfig : (configParseArgs configInit argv).2 = configured argv := rfl
  obtain ⟨phase, view, -, hrepresents⟩ :=
    reachable_represents hconfig hreachable
  refine ⟨length_connections_server hrepresents.server, ?_,
    fun id => (holders_le hrepresents id).1, ?_⟩
  · intro fd haccepting
    obtain ⟨-, -, htable⟩ := idle_of_accepting hrepresents.server haccepting
    have hnone : connections daemon.server.table = [] := by
      rw [htable]
      simp [connections, connectionOf, idleTable, siteTable, rootEntry,
        listenerTable, inheritedTable]
    exact ⟨hnone, fun id => (holders_le hrepresents id).2 hnone⟩
  · intro child hchild
    obtain ⟨id, client, stage, -, hstands, hcourse⟩ :=
      exists_course hreachable hchild
    refine ⟨id, hstands.serves_eq, connections_child hstands,
      fun hhandling =>
        ⟨_, _, client.inode, table_of_isHandling hstands hhandling⟩, ?_⟩
    intro rootFd config connection w rest hactivity
    cases hstands with
    | serving =>
        cases hactivity
        exact descriptors_of_onCourse id hcourse
    | _ => cases hactivity

/-- A child that has answered, and has closed the file again. -/
theorem custody_visitor :
    ∃ daemon child rootFd config connection w rest,
      (daemonMachine smallHost).run (boot smallHost [])
        (welcoming [visitor, caller] ++ List.replicate 6 (.child 0 true)) =
          some daemon ∧
      daemon.children = [child] ∧
      child.activity = .handling rootFd config (connection, w) rest ∧
      written w.trace ≠ [] ∧ w.descriptors = untouched child.table ∧
      (connections daemon.server.table).length ≤ 1 := by
  have hrun : ((daemonMachine smallHost).run (boot smallHost [])
      (welcoming [visitor, caller] ++ List.replicate 6 (.child 0 true))).map
        (fun daemon => daemon.children.map fun child => (isHandling child,
          decide (remaining visitor child = 0), (sent child).isEmpty)) =
          some [(true, false, false)] := by decide +kernel
  obtain ⟨daemon, hdaemon, hanswered⟩ := Option.map_eq_some_iff.mp hrun
  obtain ⟨child, hchild⟩ : ∃ child, daemon.children = [child] :=
    List.length_eq_one_iff.mp (by simpa using congrArg List.length hanswered)
  simp only [hchild, List.map_singleton, List.singleton_inj, Prod.mk.injEq]
    at hanswered
  obtain ⟨hhandling, hleft, hsent⟩ := hanswered
  obtain ⟨hserver, -, -, hchildren⟩ := custody ⟨_, hdaemon⟩
  obtain ⟨id, -, -, -, hclosed⟩ := hchildren child (by simp [hchild])
  cases hactivity : child.activity with
  | handling rootFd config state rest =>
      obtain ⟨connection, w⟩ := state
      exact ⟨daemon, child, rootFd, config, connection, w, rest, hdaemon,
        hchild, hactivity, by simpa [sent, hactivity] using hsent,
        hclosed _ _ _ _ _ hactivity, hserver⟩
  | hung trace => simp [remaining, hactivity] at hleft
  | _ => simp [isHandling, hactivity] at hhandling

end HttpCerver.Custody
