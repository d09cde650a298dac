import HttpCerver.Core.Machines
import HttpCerver.Process.Main
import HttpCerver.Server.ForkServer

/-!
# The server process and its children

The whole of the running server: the process that accepts, the children that
handle one connection each, the clients in front of the listening socket and
the signal that a child has exited.  A schedule says who takes the next step,
whether a call succeeds and whether it returns at all.  A child takes a round
of its connection handler as one step, since nothing in it is seen by another
process.

Only receiving has a time limit.  A client that reads nothing can keep its
child in `send` or `sendfile` for ever, and a FIFO in the document root in
`openat2`.

`serves` and `handled` are for the statements only: the connection a child was
forked for, and how its handler has returned.
-/

namespace HttpCerver.Forking

open HttpCerver.Bytes
open HttpCerver.Calls
open HttpCerver.Config
open HttpCerver.Connection
open HttpCerver.ForkServer
open HttpCerver.Machines
open HttpCerver.Main
open HttpCerver.Programs
open HttpCerver.System

/-- A client that has connected: what the connection will bring, and the inode
of the socket on it. -/
structure Client where
  environment : Environment
  inode : Inode

/-- The clients in the queue of the listening socket, first come first, and
those that have been accepted; a connection is known by its place among
them. -/
structure Network where
  waiting : List Client
  accepted : List Client

/-- What a process is doing. -/
inductive Activity
  | running (program : Code Next)
  | handling (rootFd : Fd) (config : ServerConfig)
      (state : HttpConnection × World) (rest : ReturnCode → Code Next)
  | hung (trace : List Event)
  | exited (code : ReturnCode)
  | reaped

/-- The table has what the program around the handler has opened; the files
that the handler opens are among the descriptors of its world. -/
structure Process where
  table : Table
  activity : Activity
  serves : Option ℕ
  handled : Option (ReturnCode × World)

/-- The next call of a process is `accept`. -/
def accepting (process : Process) (fd : Option Fd) : Prop :=
  ∃ rest, process.activity = .running (.await (.accept fd) rest)

/-- The connection an object is. -/
def connectionOf : Object → Option ℕ
  | .connection id _ => some id
  | _ => none

/-- The connections a process has open. -/
def connections (table : Table) : List ℕ :=
  table.filterMap fun entry => connectionOf entry.2.object

/-- A client can connect while there is a socket that listens. -/
def isListening (table : Table) : Bool :=
  table.any fun entry =>
    match entry.2.object with
    | .listener (some _) (some _) => true
    | _ => false

/-- `accept`: the client that has waited longest.  Where nobody waits it does
not return. -/
def acceptClient (fd : Option Fd) (succeeds : Bool) (network : Network)
    (table : Table) : Option (Option Fd × Table × Network) :=
  match succeeds, lookup fd table with
  | true, some { object := .listener _ (some _), .. } =>
    match network.waiting with
    | [] => none
    | client :: waiting =>
      some (some (nextFd table),
        install ⟨.connection network.accepted.length none, client.inode⟩ table,
        { waiting := waiting, accepted := network.accepted ++ [client] })
  | _, _ => some (none, table, network)

/-- The client behind a descriptor. -/
def clientAt (fd : Option Fd) (network : Network) (table : Table) :
    Option Client := do
  let description ← lookup fd table
  let id ← connectionOf description.object
  network.accepted[id]?

/-- The next step of a process, with the child that it forks. -/
def processStep (host : Host) (succeeds : Bool) (network : Network)
    (process : Process) : Option (Process × Network × List Process) :=
  match process.activity with
  | .running (.done (.again server config)) =>
    some ({ process with activity := .running (mainRound server config) },
      network, [])
  | .running (.done (.exit code)) =>
    some ({ process with table := [], activity := .exited code }, network, [])
  | .running (.await (.accept fd) rest) =>
    (acceptClient fd succeeds network process.table).map
      fun (answer, table, network) =>
        ({ process with table := table, activity := .running (rest answer) },
          network, [])
  | .running (.await .fork rest) =>
    if succeeds then
      some ({ process with activity := .running (rest .parent) }, network,
        [{ process with
          activity := .running (rest .child)
          serves := (connections process.table).head? }])
    else
      some ({ process with activity := .running (rest .failed) }, network, [])
  | .running (.await (.handleConnection clientFd rootFd config) rest) =>
    match rootFd, clientAt clientFd network process.table with
    | some rootFd, some client =>
      match httpConnectionInit config.httpBufferSize
          (start client.environment (inodes process.table)) with
      | (none, w) =>
        some ({ process with
          activity := .running (rest .failure)
          handled := some (.failure, w) }, network, [])
      | (some connection, w) =>
        some ({ process with
          activity := .handling rootFd config (connection, w) rest },
          network, [])
    | _, _ => none
  | .running (.await call rest) =>
    (perform host succeeds process.table call).map fun (answer, table) =>
      ({ process with table := table, activity := .running (rest answer) },
        network, [])
  | .handling rootFd config state rest =>
    match (forkServerLoop rootFd config).body state with
    | .inl next =>
      some ({ process with activity := .handling rootFd config next rest },
        network, [])
    | .inr (code, w) =>
      some ({ process with
        activity := .running (rest code)
        handled := some (code, w) }, network, [])
  | .hung _ => none
  | .exited _ => none
  | .reaped => none

/-- The trace at the end of a round of the handler. -/
def roundTrace (rootFd : Fd) (config : ServerConfig)
    (state : HttpConnection × World) : List Event :=
  match (forkServerLoop rootFd config).body state with
  | .inl (_, w) => w.trace
  | .inr (_, w) => w.trace

/-- A trace that breaks off behind its first events, in a call that does not
return.  Of what that call sends, `part` bytes have gone out. -/
def brokenOff (count part : ℕ) (events : List Event) : List Event :=
  events.take count ++
    match events[count]? with
    | some (.write bytes) => [.write (bytes.take part)]
    | _ => []

/-- A call in the next round of a handler does not return. -/
def Process.hang (count part : ℕ) (process : Process) : Option Process :=
  match process.activity with
  | .handling rootFd config state _ =>
    if state.2.trace.length ≤ count then
      some { process with
        activity := .hung
          (brokenOff count part (roundTrace rootFd config state)) }
    else none
  | _ => none

/-- The server and its children.  `pendingSignal` is a `SIGCHLD` that has not
been delivered; `reaping` is set while its handler runs. -/
structure Daemon where
  server : Process
  children : List Process
  network : Network
  pendingSignal : Bool
  reaping : Bool

/-- The descriptors that are open when the server is started. -/
def inheritedTable (host : Host) : Table :=
  host.inherited.map fun entry =>
    (entry.1, { object := .inherited, inode := entry.2 })

/-- The start of `main`. -/
def boot (host : Host) (argv : List CString) : Daemon where
  server :=
    { table := inheritedTable host
      activity := .running (main argv)
      serves := none
      handled := none }
  children := []
  network := { waiting := [], accepted := [] }
  pendingSignal := false
  reaping := false

/-- A zombie: a process that has exited and has not been waited for. -/
def Process.isZombie (process : Process) : Bool :=
  match process.activity with
  | .exited _ => true
  | _ => false

inductive Action
  | connect (client : Client)
  | server (succeeds : Bool)
  | child (index : ℕ) (succeeds : Bool)
  | hang (index count part : ℕ)
  | interrupt
  | reap (index : ℕ)
  | reaped

/-- One step.  While `reap_children` runs, the server does nothing else: each
`waitpid` takes one zombie, and the handler returns when there is none.  The
signal stays blocked for that long and is remembered once. -/
def daemonStep (host : Host) (daemon : Daemon) : Action → Option Daemon
  | .connect client =>
    if isListening daemon.server.table then
      some { daemon with
        network := { daemon.network with
          waiting := daemon.network.waiting ++ [client] } }
    else none
  | .server succeeds =>
    if daemon.reaping then none
    else
      (processStep host succeeds daemon.network daemon.server).map
        fun (server, network, forked) =>
          { daemon with
            server := server
            network := network
            children := daemon.children ++ forked }
  | .child index succeeds =>
    daemon.children[index]?.bind fun child =>
      (processStep host succeeds daemon.network child).map
        fun (next, network, forked) =>
          { daemon with
            children := daemon.children.set index next ++ forked
            network := network
            pendingSignal := daemon.pendingSignal || next.isZombie }
  | .hang index count part =>
    daemon.children[index]?.bind fun child =>
      (child.hang count part).map fun next =>
        { daemon with children := daemon.children.set index next }
  | .interrupt =>
    if daemon.pendingSignal && !daemon.reaping then
      some { daemon with pendingSignal := false, reaping := true }
    else none
  | .reap index =>
    daemon.children[index]?.bind fun child =>
      if daemon.reaping && child.isZombie then
        some { daemon with
          children := daemon.children.set index
            { child with activity := .reaped } }
      else none
  | .reaped =>
    if daemon.reaping && !daemon.children.any Process.isZombie then
      some { daemon with reaping := false }
    else none

def daemonMachine (host : Host) : Machine Daemon Action where
  step := daemonStep host

/-- A host whose processes start with three descriptors. -/
def smallHost : Host where
  inherited := [(0, 10), (1, 11), (2, 12)]
  socketInode := 13
  directoryInode _ := 0

/-- A server without options starts up, and visitors queue. -/
def gathering (visitors : List Client) : List Action :=
  List.replicate 6 (.server true) ++ visitors.map .connect

/-- The first of them is given to a child. -/
def welcoming (visitors : List Client) : List Action :=
  gathering visitors ++ List.replicate 3 (.server true)

/-- A client that hangs up at once. -/
def caller : Client where
  environment :=
    { incoming := []
      recvs := []
      sends := []
      mallocs := []
      fileSystem := fun _ =>
        { openat2 := fun _ _ _ => .error .enoent
          fstat := fun _ => .error .enoent
          content := fun _ => [] } }
  inode := 14

end HttpCerver.Forking
