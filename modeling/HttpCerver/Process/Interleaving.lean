import HttpCerver.Process.Visits

/-!
# The forking server as an interleaving of visits

Each process stands at a place of its program that determines its descriptors
and, for a child, how far its client has come.  A step of the server or of a
child moves at most one client on, by a step of that client's own visit.
-/

namespace HttpCerver.Interleaving

open HttpCerver.Bytes
open HttpCerver.Calls
open HttpCerver.Config
open HttpCerver.Connection
open HttpCerver.Forking
open HttpCerver.ForkServer
open HttpCerver.Iteration
open HttpCerver.Listening
open HttpCerver.Machines
open HttpCerver.Main
open HttpCerver.Programs
open HttpCerver.Programs.Program
open HttpCerver.Protocol
open HttpCerver.System
open HttpCerver.Visits

/-- The phases of the process that accepts. -/
def OfServer : Phase → Prop
  | .entrusted _ _ | .alone _ _ | .handled _ _ _ | .finished _ _ => False
  | _ => True

/-- The phases of a server that listens. -/
def Started : Phase → Prop
  | .idle | .accepted _ _ | .refused _ _ | .limited _ _ | .unforked _ _
  | .given _ _ => True
  | _ => False

/-- A call on the connection at hand has failed. -/
def Failed : Phase → Prop
  | .refused _ _ | .unforked _ _ => True
  | _ => False

/-- The connection that is open in the server and in no child. -/
def hand : Phase → Option (ℕ × Inode)
  | .accepted id inode | .refused id inode | .limited id inode
  | .unforked id inode => some (id, inode)
  | _ => none

/-- The calls that `perform` answers. -/
def isLocal : Call → Bool
  | .accept _ | .fork | .handleConnection _ _ _ => false
  | _ => true

section Standing

variable (host : Host) (config : ServerConfig)

/-- The server in a phase. -/
def serverAt (phase : Phase) (program : Code Next) : Process where
  table := tableOf host config phase
  activity := .running program
  serves := none
  handled := none

/-- Where the server stands. -/
inductive ServerStands : Phase → Process → Prop
  | running {phase : Phase} {program : Code Next}
      (hserver : OfServer phase)
      (hkeeps : program.Keeps (serverContract host config) (Ends host config)
        phase) :
      ServerStands phase (serverAt host config phase program)
  | exited : ServerStands .started
      { table := []
        activity := .exited .failure
        serves := none
        handled := none }

/-- A child that has just been forked. -/
def childAt (id : ℕ) (inode : Inode) (program : Code Next) : Process where
  table := tableOf host config (.entrusted id inode)
  activity := .running program
  serves := some id
  handled := none

/-- Where a child stands, and how far its client has come. -/
inductive ChildStands (id : ℕ) (inode : Inode) : Stage → Process → Prop
  | entrusted {program : Code Next}
      (hkeeps : program.Keeps (serverContract host config) (Ends host config)
        (.entrusted id inode)) :
      ChildStands id inode .entrusted (childAt host config id inode program)
  | alone {program : Code Next}
      (hkeeps : program.Keeps (serverContract host config) (Ends host config)
        (.alone id inode)) :
      ChildStands id inode .entrusted
        { table := tableOf host config (.alone id inode)
          activity := .running program
          serves := some id
          handled := none }
  | serving {connection : HttpConnection} {w : World}
      {rest : ReturnCode → Code Next}
      (hrest : ∀ code, (rest code).Keeps (serverContract host config)
        (Ends host config) (.handled id inode code)) :
      ChildStands id inode (.serving connection w)
        { table := tableOf host config (.alone id inode)
          activity := .handling (rootFd host) config (connection, w) rest
          serves := some id
          handled := none }
  | hung {trace : List Event} :
      ChildStands id inode (.hung trace)
        { table := tableOf host config (.alone id inode)
          activity := .hung trace
          serves := some id
          handled := none }
  | handled {code : ReturnCode} {w : World} {program : Code Next}
      (hkeeps : program.Keeps (serverContract host config) (Ends host config)
        (.handled id inode code)) :
      ChildStands id inode (.served code w)
        { table := tableOf host config (.handled id inode code)
          activity := .running program
          serves := some id
          handled := some (code, w) }
  | finished {code : ReturnCode} {w : World} {program : Code Next}
      (hkeeps : program.Keeps (serverContract host config) (Ends host config)
        (.finished id code)) :
      ChildStands id inode (.served code w)
        { table := tableOf host config (.finished id code)
          activity := .running program
          serves := some id
          handled := some (code, w) }
  | exited {code : ReturnCode} {w : World} :
      ChildStands id inode (.gone code w)
        { table := []
          activity := .exited code
          serves := some id
          handled := some (code, w) }
  | reaped {code : ReturnCode} {w : World} :
      ChildStands id inode (.gone code w)
        { table := []
          activity := .reaped
          serves := some id
          handled := some (code, w) }

/-- What a step of the server does. -/
inductive ServerMove (succeeds : Bool) (network : Network) :
    Phase → Process → Process × Network × List Process → Prop
  | again : ServerMove succeeds network .idle
      (serverAt host config .idle
        (.done (.again (openedServer host config) config)))
      (serverAt host config .idle
        (mainRound (openedServer host config) config), network, [])
  | exits : ServerMove succeeds network .started
      (serverAt host config .started (.done (.exit .failure)))
      ({ table := []
         activity := .exited .failure
         serves := none
         handled := none }, network, [])
  | answers {phase later : Phase} {call : Call} {answer : call.Answer}
      {rest : call.Answer → Code Next} (hlocal : isLocal call = true)
      (hserver : OfServer phase)
      (hanswers : Answers host config phase call answer later)
      (hperform : perform host succeeds (tableOf host config phase) call =
        some (answer, tableOf host config later))
      (hkeeps : (rest answer).Keeps (serverContract host config)
        (Ends host config) later) :
      ServerMove succeeds network phase
        (serverAt host config phase (.await call rest))
        (serverAt host config later (rest answer), network, [])
  | acceptFails {rest : Option Fd → Code Next} (hfails : succeeds = false)
      (hkeeps : (rest none).Keeps (serverContract host config)
        (Ends host config) .idle) :
      ServerMove succeeds network .idle
        (serverAt host config .idle
          (.await (.accept (some (listenerFd host))) rest))
        (serverAt host config .idle (rest none), network, [])
  | accepts {rest : Option Fd → Code Next} {client : Client}
      {waiting : List Client} (hwaiting : network.waiting = client :: waiting)
      (hkeeps : (rest (some (clientFd host config))).Keeps
        (serverContract host config) (Ends host config)
        (.accepted network.accepted.length client.inode)) :
      ServerMove succeeds network .idle
        (serverAt host config .idle
          (.await (.accept (some (listenerFd host))) rest))
        (serverAt host config (.accepted network.accepted.length client.inode)
            (rest (some (clientFd host config))),
          ⟨waiting, network.accepted ++ [client]⟩, [])
  | forkFails {id : ℕ} {inode : Inode} {rest : Forked → Code Next}
      (hfails : succeeds = false)
      (hkeeps : (rest .failed).Keeps (serverContract host config)
        (Ends host config) (.unforked id inode)) :
      ServerMove succeeds network (.limited id inode)
        (serverAt host config (.limited id inode) (.await .fork rest))
        (serverAt host config (.unforked id inode) (rest .failed), network, [])
  | forks {id : ℕ} {inode : Inode} {rest : Forked → Code Next}
      (hkeeps : (rest .parent).Keeps (serverContract host config)
        (Ends host config) (.given id inode))
      (hchild : (rest .child).Keeps (serverContract host config)
        (Ends host config) (.entrusted id inode)) :
      ServerMove succeeds network (.limited id inode)
        (serverAt host config (.limited id inode) (.await .fork rest))
        (serverAt host config (.given id inode) (rest .parent), network,
          [childAt host config id inode (rest .child)])

end Standing

section Steps

variable {host : Host} {config : ServerConfig}

/-- The listening socket, found in the table of an idle server. -/
theorem lookup_listener :
    lookup (some (listenerFd host)) (idleTable host config) =
      some ⟨.listener (some (listeningAddress config)) (some config.backlog),
        host.socketInode⟩ := by
  rw [idleTable, siteTable, lookup_cons_of_ne (rootFd_notMem host).1,
    listenerTable, lookup_cons_self]

/-- Accepting, from the table of an idle server. -/
theorem acceptClient_spec {succeeds : Bool} {network network' : Network}
    {answer : Option Fd} {table : Table}
    (haccept : acceptClient (some (listenerFd host)) succeeds network
      (idleTable host config) = some (answer, table, network')) :
    (succeeds = false ∧ answer = none ∧ table = idleTable host config ∧
        network' = network) ∨
      ∃ client waiting, network.waiting = client :: waiting ∧
        answer = some (clientFd host config) ∧
        table = tableOf host config
          (.accepted network.accepted.length client.inode) ∧
        network' = ⟨waiting, network.accepted ++ [client]⟩ := by
  cases succeeds with
  | false =>
      cases haccept
      exact .inl ⟨rfl, rfl, rfl, rfl⟩
  | true =>
      simp only [acceptClient, lookup_listener] at haccept
      cases hwaiting : network.waiting with
      | nil => simp [hwaiting] at haccept
      | cons client waiting =>
          simp only [hwaiting] at haccept
          cases haccept
          exact .inr ⟨client, waiting, rfl, rfl, rfl, rfl⟩

theorem processStep_of_isLocal {call : Call} {rest : call.Answer → Code Next}
    {process : Process} {succeeds : Bool} {network : Network}
    (hlocal : isLocal call = true)
    (hactivity : process.activity = .running (.await call rest)) :
    processStep host succeeds network process =
      (perform host succeeds process.table call).map fun (answer, table) =>
        ({ process with table := table, activity := .running (rest answer) },
          network, []) := by
  rw [processStep, hactivity]
  cases call <;> first | rfl | cases hlocal

/-- A call of the server on its descriptors keeps what it has at hand or lets
go of it because an earlier one failed. -/
theorem answers_of_isLocal {phase later : Phase} {call : Call}
    {answer : call.Answer} {succeeds : Bool} (hlocal : isLocal call = true)
    (hserver : OfServer phase)
    (hanswers : Answers host config phase call answer later)
    (hperform : perform host succeeds (tableOf host config phase) call =
      some (answer, tableOf host config later)) :
    OfServer later ∧
      ((hand later = hand phase ∧ (Failed later → succeeds = false)) ∨
        (later = .idle ∧ Failed phase ∧
          ∃ id inode, hand phase = some (id, inode))) := by
  cases hanswers with
  | rejects id inode => exact ⟨trivial, .inr ⟨rfl, trivial, id, inode, rfl⟩⟩
  | drops id inode => exact ⟨trivial, .inr ⟨rfl, trivial, id, inode, rfl⟩⟩
  | limitFails id inode =>
      refine ⟨trivial, .inl ⟨rfl, fun _ => ?_⟩⟩
      have hlookup : lookup (some (clientFd host config))
          (tableOf host config (.accepted id inode)) =
            some ⟨.connection id none, inode⟩ := lookup_cons_self
      rw [perform_setReceiveTimeout succeeds _ hlookup] at hperform
      cases succeeds <;> cases hperform
      rfl
  | unlistens | finishes => exact hserver.elim
  | accepts | forkFails | forks | forked | handles => cases hlocal
  | _ => exact ⟨trivial, .inl ⟨rfl, False.elim⟩⟩

theorem serverStep_spec {phase : Phase} {server : Process} {succeeds : Bool}
    {network : Network} {result : Process × Network × List Process}
    (hstands : ServerStands host config phase server)
    (hstep : processStep host succeeds network server = some result) :
    ServerMove host config succeeds network phase server result := by
  cases hstands with
  | exited => cases hstep
  | @running phase program hserver hkeeps =>
      cases program with
      | done next =>
          cases next with
          | again server config' =>
              obtain ⟨rfl, rfl, rfl⟩ := hkeeps
              cases hstep
              exact .again
          | exit code =>
              obtain ⟨rfl, rfl⟩ | ⟨id, rfl⟩ := hkeeps
              · cases hstep
                exact .exits
              · exact hserver.elim
      | await call rest =>
          obtain ⟨hpermits, hrest⟩ := hkeeps
          by_cases hlocal : isLocal call = true
          · rw [processStep_of_isLocal hlocal rfl] at hstep
            obtain ⟨⟨answer, table⟩, hperform, rfl⟩ :=
              Option.map_eq_some_iff.mp hstep
            obtain ⟨later, hanswers, rfl⟩ := perform_answers hpermits hperform
            exact .answers hlocal hserver hanswers hperform
              (hrest answer later hanswers)
          · obtain ⟨_, _, hanswers⟩ := hpermits
            cases hanswers with
            | acceptFails | accepts =>
                obtain ⟨⟨answer, table, network'⟩, haccept, rfl⟩ :=
                  Option.map_eq_some_iff.mp hstep
                obtain ⟨hfails, rfl, rfl, rfl⟩ | ⟨client, waiting, hwaiting,
                  rfl, rfl, rfl⟩ := acceptClient_spec haccept
                · exact .acceptFails hfails (hrest _ _ .acceptFails)
                · exact .accepts hwaiting (hrest _ _ (.accepts
                    network.accepted.length client.inode))
            | forkFails id inode | forks id inode | forked id inode =>
                cases succeeds with
                | false =>
                    cases hstep
                    exact .forkFails rfl (hrest _ _ (.forkFails id inode))
                | true =>
                    cases hstep
                    exact .forks (hrest _ _ (.forks id inode))
                      (hrest _ _ (.forked id inode))
            | handles => exact hserver.elim
            | _ => exact absurd rfl hlocal

/-- The server waits for nothing but a client. -/
theorem serverStep_exists {phase : Phase} {server : Process}
    {network : Network} (succeeds : Bool)
    (hstands : ServerStands host config phase server)
    (hleft : server.activity ≠ .exited .failure) :
    (processStep host succeeds network server).isSome = true ∨
      (phase = .idle ∧ accepting server (some (listenerFd host)) ∧
        succeeds = true ∧ network.waiting = []) := by
  cases hstands with
  | exited => exact absurd rfl hleft
  | @running phase program hserver hkeeps =>
      cases program with
      | done next => cases next <;> exact .inl rfl
      | await call rest =>
          obtain ⟨⟨_, _, hanswers⟩, -⟩ := hkeeps
          by_cases hlocal : isLocal call = true
          · rw [processStep_of_isLocal hlocal rfl, Option.isSome_map]
            cases call <;> first | exact .inl rfl | cases hlocal
          · cases hanswers with
            | acceptFails | accepts =>
                cases succeeds with
                | false => exact .inl rfl
                | true =>
                    cases hwaiting : network.waiting with
                    | nil => exact .inr ⟨rfl, ⟨rest, rfl⟩, rfl, rfl⟩
                    | cons client waiting =>
                        refine .inl ?_
                        simp [processStep, serverAt, tableOf, acceptClient,
                          lookup_listener, hwaiting]
            | forkFails | forks | forked =>
                cases succeeds <;> exact .inl rfl
            | handles => exact hserver.elim
            | _ => exact absurd rfl hlocal

theorem started_of_isListening {phase : Phase} {server : Process}
    (hstands : ServerStands host config phase server)
    (hlistens : isListening server.table = true) : Started phase := by
  cases hstands with
  | exited => cases hlistens
  | running hserver hkeeps =>
      cases phase <;> first
        | trivial
        | exact hserver.elim
        | simp [isListening, serverAt, tableOf, siteTable, rootEntry,
            listenerTable, inheritedTable] at hlistens

theorem isListening_serverAt {phase : Phase} (hstarted : Started phase)
    (program : Code Next) :
    isListening (serverAt host config phase program).table = true := by
  cases phase <;> first
    | exact hstarted.elim
    | simp [isListening, serverAt, tableOf, clientEntry, idleTable, siteTable,
        rootEntry, listenerTable]

theorem isListening_idleTable :
    isListening (idleTable host config) = true := by
  simp [isListening, idleTable, siteTable, rootEntry, listenerTable]

section Listening

variable {phase : Phase} {server server' : Process} {succeeds : Bool}
variable {network network' : Network} {forked : List Process}

/-- A server that listens goes on listening. -/
theorem isListening_of_step (hstands : ServerStands host config phase server)
    (hlistens : isListening server.table = true)
    (hstep : processStep host succeeds network server =
      some (server', network', forked)) :
    isListening server'.table = true := by
  have hstarted := started_of_isListening hstands hlistens
  cases serverStep_spec hstands hstep with
  | again => exact hlistens
  | exits => exact hstarted.elim
  | answers hlocal hserver hanswers =>
      apply isListening_serverAt
      cases hanswers <;> trivial
  | acceptFails => exact hlistens
  | accepts | forkFails | forks =>
      apply isListening_serverAt
      trivial

/-- A server that does not listen deals with nobody. -/
theorem deaf_step (hstands : ServerStands host config phase server)
    (hdeaf : isListening server.table = false)
    (hstep : processStep host succeeds network server =
      some (server', network', forked)) :
    network' = network ∧ forked = [] := by
  have hstarted : ¬ Started phase := by
    intro hstarted
    cases hstands with
    | exited => exact hstarted
    | running =>
        rw [isListening_serverAt hstarted] at hdeaf
        cases hdeaf
  cases serverStep_spec hstands hstep with
  | again | exits | answers | acceptFails | forkFails => exact ⟨rfl, rfl⟩
  | accepts | forks => exact absurd trivial hstarted

end Listening

theorem ChildStands.serves_eq {id : ℕ} {inode : Inode} {stage : Stage}
    {child : Process} (hstands : ChildStands host config id inode stage child) :
    child.serves = some id := by
  cases hstands <;> rfl

theorem ChildStands.stage_ne {id : ℕ} {inode : Inode} {stage : Stage}
    {child : Process} (hstands : ChildStands host config id inode stage child) :
    stage ≠ .dropped := by
  cases hstands <;> exact Stage.noConfusion

/-- A child that has closed the listening socket finds its client. -/
theorem clientAt_child {network : Network} {id : ℕ} {client : Client}
    (hclient : network.accepted[id]? = some client) :
    clientAt (some (clientFd host config)) network
      (childTable host config id client.inode) = some client := by
  have hlookup : lookup (some (clientFd host config))
      (childTable host config id client.inode) =
        some ⟨.connection id (some config.clientTimeout), client.inode⟩ :=
    lookup_cons_self
  rw [clientAt, hlookup]
  exact hclient

theorem inodes_childTable (id : ℕ) (client : Client) :
    inodes (childTable host config id client.inode) =
      childDescriptors host config client := by
  simp [inodes, childTable, clientEntry, rootEntry, childDescriptors,
    inheritedTable, Function.comp_def]

/-- How often a client can be heard from. -/
def patience (client : Client) : ℕ :=
  client.environment.recvs.length + client.environment.incoming.length

/-- A handler starts where its client has been taken up. -/
theorem exists_mallocs_of_init {client : Client} {connection : HttpConnection}
    {w : World}
    (hinit : httpConnectionInit config.httpBufferSize
      (opening host config client) = (some connection, w)) :
    ∃ mallocs, w = { opening host config client with mallocs := mallocs } := by
  have hsize : config.httpBufferSize ≠ 0 := by
    intro hzero
    rw [httpConnectionInit, if_pos hzero] at hinit
    cases hinit
  obtain ⟨mallocs, -, ⟨fresh, hfresh, -⟩ | ⟨-, hfresh⟩⟩ :=
    httpConnectionInit_spec hsize (opening host config client)
  · cases hinit.symm.trans hfresh
    exact ⟨mallocs, rfl⟩
  · cases hinit.symm.trans hfresh

theorem unread_of_init {client : Client} {connection : HttpConnection}
    {w : World}
    (hinit : httpConnectionInit config.httpBufferSize
      (opening host config client) = (some connection, w)) :
    unread w = patience client := by
  obtain ⟨mallocs, rfl⟩ := exists_mallocs_of_init hinit
  rfl

/-- How many steps a child can still take at most. -/
def remaining (client : Client) (process : Process) : ℕ :=
  match process.activity, process.handled with
  | .running _, none =>
    patience client + if isListening process.table then 5 else 4
  | .handling _ _ (_, w) _, _ => unread w + 3
  | .running _, some _ => if connections process.table = [] then 1 else 2
  | .hung _, _ => 0
  | .exited _, _ => 0
  | .reaped, _ => 0

section Remaining

variable (host config) (id : ℕ) (client : Client) (program : Code Next)
variable (serves : Option ℕ)

theorem remaining_entrusted :
    remaining client (childAt host config id client.inode program) =
      patience client + 5 := by
  simp [remaining, childAt, isListening, tableOf, clientEntry, idleTable,
    siteTable, rootEntry, listenerTable]

theorem remaining_alone :
    remaining client
      { table := tableOf host config (.alone id client.inode)
        activity := .running program
        serves := serves
        handled := none } = patience client + 4 := by
  simp [remaining, isListening, tableOf, childTable, clientEntry, rootEntry,
    inheritedTable]

theorem remaining_handled (code : ReturnCode) (result : ReturnCode × World) :
    remaining client
      { table := tableOf host config (.handled id client.inode code)
        activity := .running program
        serves := serves
        handled := some result } = 2 := by
  simp [remaining, connections, connectionOf, tableOf, childTable, clientEntry]

theorem remaining_finished (code : ReturnCode) (result : ReturnCode × World) :
    remaining client
      { table := tableOf host config (.finished id code)
        activity := .running program
        serves := serves
        handled := some result } = 1 := by
  simp [remaining, connections, connectionOf, tableOf, rootEntry,
    inheritedTable]

end Remaining

/-- A step of a child moves its client on, if anyone, and wears the child
out. -/
theorem childStep_spec {id : ℕ} {client : Client} {stage : Stage}
    {child next : Process} {succeeds : Bool} {network network' : Network}
    {forked : List Process}
    (hstands : ChildStands host config id client.inode stage child)
    (hclient : network.accepted[id]? = some client)
    (hstep : processStep host succeeds network child =
      some (next, network', forked)) :
    network' = network ∧ forked = [] ∧
      remaining client next < remaining client child ∧ ∃ later,
        ChildStands host config id client.inode later next ∧
          (later = stage ∨
            Advances host config ⟨client, stage⟩ ⟨client, later⟩) := by
  cases hstands with
  | @entrusted program hkeeps =>
      cases program with
      | done result => cases result <;> simp [Keeps, Ends] at hkeeps
      | await call rest =>
          obtain ⟨⟨_, _, hanswers⟩, hrest⟩ := hkeeps
          cases hanswers with
          | unlistens =>
              rw [processStep_of_isLocal rfl rfl] at hstep
              obtain ⟨⟨answer, table⟩, hperform, hresult⟩ :=
                Option.map_eq_some_iff.mp hstep
              obtain ⟨later, hanswers, rfl⟩ :=
                perform_answers ⟨_, _, .unlistens id client.inode⟩ hperform
              cases hresult
              cases hanswers
              refine ⟨rfl, rfl, ?_, _,
                .alone (hrest _ _ (.unlistens id client.inode)), .inl rfl⟩
              have hleft := remaining_alone host config id client (rest ())
                (some id)
              rw [remaining_entrusted]
              exact hleft.trans_lt (Nat.lt_succ_self _)
  | @alone program hkeeps =>
      cases program with
      | done result => cases result <;> simp [Keeps, Ends] at hkeeps
      | await call rest =>
          obtain ⟨⟨_, _, hanswers⟩, hrest⟩ := hkeeps
          cases hanswers with
          | handles =>
              have hcode := fun code =>
                hrest code _ (.handles id client.inode code)
              simp only [processStep, tableOf, clientAt_child hclient,
                inodes_childTable] at hstep
              obtain ⟨⟨fresh, w⟩, hinit⟩ : ∃ result,
                  httpConnectionInit config.httpBufferSize
                    (opening host config client) = result := ⟨_, rfl⟩
              rw [opening] at hinit
              rw [hinit] at hstep
              cases fresh with
              | none =>
                  cases hstep
                  refine ⟨rfl, rfl, ?_, _, .handled (hcode _),
                    .inr (.starves hinit)⟩
                  have hleft := remaining_handled host config id client
                    (rest .failure) (some id) .failure (.failure, w)
                  rw [remaining_alone]
                  exact hleft.trans_lt (by omega)
              | some connection =>
                  cases hstep
                  refine ⟨rfl, rfl, ?_, _, .serving hcode, .inr (.begins hinit)⟩
                  rw [remaining_alone, ← unread_of_init hinit]
                  exact Nat.lt_succ_self _
  | @serving connection w rest hrest =>
      simp only [processStep] at hstep
      cases hbody : (forkServerLoop (rootFd host) config).body
          (connection, w) with
      | inl state =>
          rw [hbody] at hstep
          cases hstep
          have hheard := (forkServerLoop (rootFd host) config).rank_lt hbody
          exact ⟨rfl, rfl, Nat.add_lt_add_right hheard 3, _, .serving hrest,
            .inr (.serves hbody)⟩
      | inr result =>
          rw [hbody] at hstep
          cases hstep
          have hleft := remaining_handled host config id client
            (rest result.1) (some id) result.1 result
          exact ⟨rfl, rfl, hleft.trans_lt (Nat.le_add_left 3 _), _,
            .handled (hrest _), .inr (.returns hbody)⟩
  | @handled code w program hkeeps =>
      cases program with
      | done result => cases result <;> simp [Keeps, Ends] at hkeeps
      | await call rest =>
          obtain ⟨⟨_, _, hanswers⟩, hrest⟩ := hkeeps
          cases hanswers with
          | finishes =>
              rw [processStep_of_isLocal rfl rfl] at hstep
              obtain ⟨⟨answer, table⟩, hperform, hresult⟩ :=
                Option.map_eq_some_iff.mp hstep
              obtain ⟨later, hanswers, rfl⟩ :=
                perform_answers ⟨_, _, .finishes id client.inode code⟩ hperform
              cases hresult
              cases hanswers
              refine ⟨rfl, rfl, ?_, _,
                .finished (hrest _ _ (.finishes id client.inode code)),
                .inl rfl⟩
              rw [remaining_finished, remaining_handled]
              exact Nat.lt_succ_self _
  | @finished code w program hkeeps =>
      cases program with
      | done result =>
          cases result with
          | again server config' => simp [Keeps, Ends] at hkeeps
          | exit code' =>
              obtain ⟨-, hphase⟩ | ⟨_, hphase⟩ := hkeeps
              · cases hphase
              · cases hphase
                cases hstep
                refine ⟨rfl, rfl, ?_, _, .exited, .inr .exits⟩
                rw [remaining_finished]
                exact Nat.one_pos
      | await call rest =>
          obtain ⟨⟨_, _, hanswers⟩, -⟩ := hkeeps
          cases hanswers
  | hung => cases hstep
  | exited => cases hstep
  | reaped => cases hstep

/-- A child only hangs inside of its handler, and its client with it. -/
theorem childHang_spec {id : ℕ} {client : Client} {stage : Stage}
    {child next : Process} {count part : ℕ}
    (hstands : ChildStands host config id client.inode stage child)
    (hhang : child.hang count part = some next) :
    remaining client next = 0 ∧ remaining client child ≠ 0 ∧ ∃ later,
      ChildStands host config id client.inode later next ∧
        Advances host config ⟨client, stage⟩ ⟨client, later⟩ := by
  cases hstands with
  | serving hrest =>
      simp only [Process.hang] at hhang
      split_ifs at hhang with hbegun
      cases hhang
      exact ⟨rfl, Nat.succ_ne_zero _, _, .hung, .hangs hbegun⟩
  | _ => cases hhang

/-- A child that has not finished can go on, and succeed or fail in what it
does: as long as its calls return it waits for nobody. -/
theorem childStep_exists {id : ℕ} {client : Client} {stage : Stage}
    {child : Process} {network : Network} (succeeds : Bool)
    (hstands : ChildStands host config id client.inode stage child)
    (hclient : network.accepted[id]? = some client)
    (hleft : remaining client child ≠ 0) :
    (processStep host succeeds network child).isSome = true := by
  cases hstands with
  | @entrusted program hkeeps | @handled _ _ program hkeeps =>
      cases program with
      | done result => cases result <;> simp [Keeps, Ends] at hkeeps
      | await call rest =>
          obtain ⟨⟨_, _, hanswers⟩, -⟩ := hkeeps
          cases hanswers
          rfl
  | @alone program hkeeps =>
      cases program with
      | done result => cases result <;> simp [Keeps, Ends] at hkeeps
      | await call rest =>
          obtain ⟨⟨_, _, hanswers⟩, -⟩ := hkeeps
          cases hanswers
          simp only [processStep, tableOf, clientAt_child hclient]
          split <;> rfl
  | @serving connection w rest hrest =>
      simp only [processStep]
      split <;> rfl
  | @finished code w program hkeeps =>
      cases program with
      | done result => cases result <;> rfl
      | await call rest =>
          obtain ⟨⟨_, _, hanswers⟩, -⟩ := hkeeps
          cases hanswers
  | hung | exited | reaped => exact absurd rfl hleft

end Steps

/-- No child has been forked for a connection. -/
def Unserved (children : List Process) (id : ℕ) : Prop :=
  ∀ child ∈ children, child.serves ≠ some id

/-- The state of all visits that a state of the server stands for. -/
structure Represents (host : Host) (config : ServerConfig) (phase : Phase)
    (daemon : Daemon) (view : ℕ → Option Visit) : Prop where
  server : ServerStands host config phase daemon.server
  atHand : ∀ id inode, hand phase = some (id, inode) →
    ∃ client, daemon.network.accepted[id]? = some client ∧
      client.inode = inode ∧ view id = some ⟨client, .accepted⟩ ∧
      Unserved daemon.children id
  children : ∀ child ∈ daemon.children, ∃ id client stage,
    daemon.network.accepted[id]? = some client ∧
      view id = some ⟨client, stage⟩ ∧
      ChildStands host config id client.inode stage child
  distinct : (daemon.children.map (·.serves)).Nodup
  dropped : ∀ (id : ℕ) (client : Client),
    daemon.network.accepted[id]? = some client →
      Unserved daemon.children id → (∀ inode, hand phase ≠ some (id, inode)) →
        view id = some ⟨client, .dropped⟩
  waiting : ∀ index : ℕ, view (daemon.network.accepted.length + index) =
    daemon.network.waiting[index]?.map fun client => ⟨client, .waiting⟩

section Refinement

variable {host : Host} {config : ServerConfig} {phase later : Phase}
variable {daemon : Daemon} {view : ℕ → Option Visit} {server : Process}

theorem represents_boot (argv : List CString)
    (hconfig : (configParseArgs configInit argv).2 = config) :
    Represents host config .started (boot host argv) (fun _ => none) where
  server := .running trivial (main_keeps argv hconfig)
  atHand id inode hhand := by cases hhand
  children child hchild := by cases hchild
  distinct := List.nodup_nil
  dropped id client hclient := by cases hclient
  waiting index := rfl

/-- A client joins the queue. -/
theorem Represents.connects (h : Represents host config phase daemon view)
    (client : Client) :
    Represents host config phase
      { daemon with
        network := { daemon.network with
          waiting := daemon.network.waiting ++ [client] } }
      (Function.update view
        (daemon.network.accepted.length + daemon.network.waiting.length)
        (some ⟨client, .waiting⟩)) := by
  have hkept : ∀ (id : ℕ) (found : Client),
      daemon.network.accepted[id]? = some found →
      Function.update view
        (daemon.network.accepted.length + daemon.network.waiting.length)
        (some ⟨client, .waiting⟩) id = view id := by
    intro id found hfound
    obtain ⟨hid, -⟩ := List.getElem?_eq_some_iff.mp hfound
    exact Function.update_of_ne (by omega) _ _
  constructor
  · exact h.server
  · intro id inode hhand
    obtain ⟨found, hfound, hinode, hview, hunserved⟩ := h.atHand id inode hhand
    exact ⟨found, hfound, hinode, (hkept id found hfound).trans hview,
      hunserved⟩
  · intro child hchild
    obtain ⟨id, found, stage, hfound, hview, hstands⟩ := h.children child hchild
    exact ⟨id, found, stage, hfound, (hkept id found hfound).trans hview,
      hstands⟩
  · exact h.distinct
  · intro id found hfound hunserved hhand
    exact (hkept id found hfound).trans
      (h.dropped id found hfound hunserved hhand)
  · intro index
    dsimp only
    by_cases hlast : index = daemon.network.waiting.length
    · subst hlast
      rw [Function.update_self, List.getElem?_concat_length]
      rfl
    · rw [Function.update_of_ne (by omega), h.waiting,
        List.getElem?_append]
      split_ifs with hbefore
      · rfl
      · rw [List.getElem?_eq_none (by omega), List.getElem?_eq_none (by
          simp only [List.length_singleton]; omega)]

/-- The server keeps what it has at hand. -/
theorem Represents.silent (h : Represents host config phase daemon view)
    (hstands : ServerStands host config later server)
    (hhand : hand later = hand phase) :
    Represents host config later { daemon with server := server } view where
  server := hstands
  atHand id inode hlater := h.atHand id inode (hhand ▸ hlater)
  children := h.children
  distinct := h.distinct
  dropped id client hclient hunserved hlater :=
    h.dropped id client hclient hunserved (hhand ▸ hlater)
  waiting := h.waiting

/-- A connection that has been accepted is no longer in the queue. -/
theorem Represents.accepts {client : Client} {waiting : List Client}
    (h : Represents host config phase daemon view)
    (hwaiting : daemon.network.waiting = client :: waiting)
    (hhand : hand phase = none)
    (hstands : ServerStands host config
      (.accepted daemon.network.accepted.length client.inode) server) :
    view daemon.network.accepted.length = some ⟨client, .waiting⟩ ∧
      Represents host config
        (.accepted daemon.network.accepted.length client.inode)
        { daemon with
          server := server
          network := ⟨waiting, daemon.network.accepted ++ [client]⟩ }
        (Function.update view daemon.network.accepted.length
          (some ⟨client, .accepted⟩)) := by
  have hfirst := h.waiting 0
  rw [hwaiting] at hfirst
  have hkept : ∀ (id : ℕ) (found : Client),
      daemon.network.accepted[id]? = some found →
      (daemon.network.accepted ++ [client])[id]? = some found ∧
        Function.update view daemon.network.accepted.length
          (some ⟨client, .accepted⟩) id = view id := by
    intro id found hfound
    obtain ⟨hid, -⟩ := List.getElem?_eq_some_iff.mp hfound
    exact ⟨by rw [List.getElem?_append_left hid, hfound],
      Function.update_of_ne (by omega) _ _⟩
  refine ⟨hfirst, hstands, ?_, ?_, h.distinct, ?_, ?_⟩
  · intro id inode hlater
    cases hlater
    refine ⟨client, List.getElem?_concat_length, rfl, Function.update_self _ _ _,
      ?_⟩
    intro child hchild hserves
    obtain ⟨id, found, stage, hfound, -, hchildStands⟩ :=
      h.children child hchild
    rw [hchildStands.serves_eq] at hserves
    cases hserves
    exact absurd hfound (by simp)
  · intro child hchild
    obtain ⟨id, found, stage, hfound, hview, hchildStands⟩ :=
      h.children child hchild
    obtain ⟨hstill, hsame⟩ := hkept id found hfound
    exact ⟨id, found, stage, hstill, hsame.trans hview, hchildStands⟩
  · intro id found hfound hunserved hlater
    have hne : id ≠ daemon.network.accepted.length := by
      rintro rfl
      exact hlater client.inode rfl
    have hbefore : daemon.network.accepted[id]? = some found := by
      rw [List.getElem?_append] at hfound
      split_ifs at hfound with hid
      · exact hfound
      · rw [List.getElem?_eq_none (by
          simp only [List.length_singleton]; omega)] at hfound
        cases hfound
    rw [Function.update_of_ne hne]
    exact h.dropped id found hbefore hunserved (by simp [hhand])
  · intro index
    have hnext := h.waiting (index + 1)
    rw [hwaiting, List.getElem?_cons_succ] at hnext
    dsimp only
    rw [List.length_append, List.length_singleton,
      Function.update_of_ne (by omega), ← hnext]
    congr 1
    omega

/-- The server closes the connection it has at hand. -/
theorem Represents.drops {id : ℕ} {inode : Inode}
    (h : Represents host config phase daemon view)
    (hhand : hand phase = some (id, inode))
    (hstands : ServerStands host config .idle server) :
    ∃ client, view id = some ⟨client, .accepted⟩ ∧
      Represents host config .idle { daemon with server := server }
        (Function.update view id (some ⟨client, .dropped⟩)) := by
  obtain ⟨client, hclient, hinode, hview, hunserved⟩ := h.atHand id inode hhand
  obtain ⟨hid, -⟩ := List.getElem?_eq_some_iff.mp hclient
  refine ⟨client, hview, hstands, by simp [hand], ?_, h.distinct, ?_, ?_⟩
  · intro child hchild
    obtain ⟨other, found, stage, hfound, hother, hchildStands⟩ :=
      h.children child hchild
    have hne : other ≠ id := by
      rintro rfl
      exact hunserved child hchild hchildStands.serves_eq
    exact ⟨other, found, stage, hfound,
      (Function.update_of_ne hne _ _).trans hother, hchildStands⟩
  · intro other found hfound hfree _
    by_cases hsame : other = id
    · subst hsame
      rw [Function.update_self, Option.some_inj.mp (hfound.symm.trans hclient)]
    · rw [Function.update_of_ne hsame]
      refine h.dropped other found hfound hfree ?_
      rw [hhand]
      rintro _ hsome
      cases hsome
      exact hsame rfl
  · intro index
    rw [Function.update_of_ne (by dsimp only; omega)]
    exact h.waiting index

/-- The server entrusts the connection it has at hand to a child. -/
theorem Represents.forks {id : ℕ} {inode : Inode} {child : Process}
    (h : Represents host config phase daemon view)
    (hhand : hand phase = some (id, inode))
    (hstands : ServerStands host config (.given id inode) server)
    (hchild : ChildStands host config id inode .entrusted child) :
    ∃ client, view id = some ⟨client, .accepted⟩ ∧
      Represents host config (.given id inode)
        { daemon with
          server := server
          children := daemon.children ++ [child] }
        (Function.update view id (some ⟨client, .entrusted⟩)) := by
  obtain ⟨client, hclient, hinode, hview, hunserved⟩ := h.atHand id inode hhand
  obtain ⟨hid, -⟩ := List.getElem?_eq_some_iff.mp hclient
  subst hinode
  refine ⟨client, hview, hstands, by simp [hand], ?_, ?_, ?_, ?_⟩
  · intro other hother
    obtain hold | hnew := List.mem_append.mp hother
    · obtain ⟨found, holder, stage, hfound, hstage, hchildStands⟩ :=
        h.children other hold
      have hne : found ≠ id := by
        rintro rfl
        exact hunserved other hold hchildStands.serves_eq
      exact ⟨found, holder, stage, hfound,
        (Function.update_of_ne hne _ _).trans hstage, hchildStands⟩
    · rw [List.mem_singleton] at hnew
      subst hnew
      exact ⟨id, client, _, hclient, Function.update_self _ _ _, hchild⟩
  · rw [List.map_append, List.map_singleton, List.nodup_append]
    refine ⟨h.distinct, List.nodup_singleton _, ?_⟩
    intro serves hserves other hother
    obtain ⟨twin, htwin, rfl⟩ := List.mem_map.mp hserves
    rw [List.mem_singleton.mp hother, hchild.serves_eq]
    exact hunserved twin htwin
  · intro other found hfound hfree _
    have hne : other ≠ id := by
      rintro rfl
      exact hfree child (by simp) hchild.serves_eq
    rw [Function.update_of_ne hne]
    refine h.dropped other found hfound
      (fun twin htwin => hfree twin (List.mem_append_left _ htwin)) ?_
    rw [hhand]
    rintro _ hsome
    cases hsome
    exact hne rfl
  · intro index
    rw [Function.update_of_ne (by dsimp only; omega)]
    exact h.waiting index

/-- A child takes a step, and its client with it. -/
theorem Represents.child {index id : ℕ} {child next : Process}
    {client : Client} {stage : Stage}
    (h : Represents host config phase daemon view)
    (hindex : daemon.children[index]? = some child)
    (hclient : daemon.network.accepted[id]? = some client)
    (hserves : child.serves = some id)
    (hstands : ChildStands host config id client.inode stage next)
    (pendingSignal : Bool) :
    Represents host config phase
      { daemon with
        children := daemon.children.set index next
        pendingSignal := pendingSignal }
      (Function.update view id (some ⟨client, stage⟩)) := by
  obtain ⟨hid, -⟩ := List.getElem?_eq_some_iff.mp hclient
  obtain ⟨hlt, hchild⟩ := List.getElem?_eq_some_iff.mp hindex
  obtain ⟨before, after, hsplit, -, hset⟩ :
      ∃ before after, daemon.children =
          before ++ daemon.children[index] :: after ∧
        before.length = index ∧
        daemon.children.set index next = before ++ next :: after :=
    List.exists_of_set hlt
  rw [hchild] at hsplit
  have hdistinct := h.distinct
  rw [hsplit, List.map_append, List.map_cons, hserves, ← hstands.serves_eq,
    ← List.map_cons, ← List.map_append, ← hset] at hdistinct
  have hunserved : ∀ other,
      Unserved (daemon.children.set index next) other →
        Unserved daemon.children other := by
    intro other hfree twin htwin
    rw [hsplit, List.mem_append, List.mem_cons] at htwin
    obtain hbefore | rfl | hafter := htwin
    · exact hfree twin (by rw [hset]; exact List.mem_append_left _ hbefore)
    · rw [hserves, ← hstands.serves_eq]
      exact hfree next (by rw [hset]; simp)
    · exact hfree twin (by rw [hset]; simp [hafter])
  have hothers : ∀ twin ∈ before ++ after, twin.serves ≠ some id := by
    intro twin htwin hsame
    have hnodup := hdistinct
    rw [hset, List.map_append, List.map_cons] at hnodup
    have hfree := (List.nodup_middle.mp hnodup |> List.nodup_cons.mp).1
    rw [hstands.serves_eq, ← List.map_append] at hfree
    exact hfree (List.mem_map.mpr ⟨twin, htwin, hsame⟩)
  refine ⟨h.server, ?_, ?_, hdistinct, ?_, ?_⟩
  · intro other inode hhand
    obtain ⟨found, hfound, hinode, hview, hfree⟩ := h.atHand other inode hhand
    have hne : other ≠ id := by
      rintro rfl
      exact hfree child (List.mem_of_getElem? hindex) hserves
    refine ⟨found, hfound, hinode, (Function.update_of_ne hne _ _).trans hview,
      ?_⟩
    intro twin htwin
    dsimp only at htwin
    rw [hset, List.mem_append, List.mem_cons] at htwin
    obtain hbefore | rfl | hafter := htwin
    · exact hfree twin (by rw [hsplit]; exact List.mem_append_left _ hbefore)
    · rw [hstands.serves_eq]
      exact fun hsame => hne (Option.some_inj.mp hsame).symm
    · exact hfree twin (by rw [hsplit]; simp [hafter])
  · intro twin htwin
    dsimp only at htwin
    rw [hset, List.mem_append, List.mem_cons] at htwin
    have hkept : ∀ twin ∈ before ++ after, ∃ other found stage',
        daemon.network.accepted[other]? = some found ∧
          Function.update view id (some ⟨client, stage⟩) other =
            some ⟨found, stage'⟩ ∧
          ChildStands host config other found.inode stage' twin := by
      intro twin htwin
      obtain ⟨other, found, stage', hfound, hview, htwinStands⟩ :=
        h.children twin (by
          rw [hsplit, List.mem_append, List.mem_cons]
          rw [List.mem_append] at htwin
          exact htwin.imp_right .inr)
      have hne : other ≠ id := by
        rintro rfl
        exact hothers twin htwin htwinStands.serves_eq
      exact ⟨other, found, stage', hfound,
        (Function.update_of_ne hne _ _).trans hview, htwinStands⟩
    obtain hbefore | rfl | hafter := htwin
    · exact hkept twin (List.mem_append_left _ hbefore)
    · exact ⟨id, client, stage, hclient, Function.update_self _ _ _, hstands⟩
    · exact hkept twin (List.mem_append_right _ hafter)
  · intro other found hfound hfree hhand
    have hne : other ≠ id := by
      rintro rfl
      exact hfree next (by dsimp only; rw [hset]; simp) hstands.serves_eq
    rw [Function.update_of_ne hne]
    exact h.dropped other found hfound (hunserved other hfree) hhand
  · intro other
    rw [Function.update_of_ne (by dsimp only; omega)]
    exact h.waiting other

/-- Nobody is dropped by being put at another stage. -/
theorem dropped_of_update {id other : ℕ} {client found : Client}
    {stage : Stage} (hstage : stage ≠ .dropped)
    (hdropped : Function.update view id (some ⟨client, stage⟩) other =
      some ⟨found, .dropped⟩) : view other = some ⟨found, .dropped⟩ := by
  by_cases hsame : other = id
  · subst hsame
    rw [Function.update_self] at hdropped
    cases hdropped
    exact absurd rfl hstage
  · rwa [Function.update_of_ne hsame] at hdropped

/-- Whoever else takes a step leaves the server where it is and drops
nobody. -/
theorem daemonStep_others {action : Action} {next : Daemon}
    (h : Represents host config phase daemon view)
    (hother : ∀ succeeds, action ≠ .server succeeds)
    (hstep : daemonStep host daemon action = some next) :
    ∃ view', Interleaved Arrives (Advances host config) view view' ∧
      Represents host config phase next view' ∧
      ∀ id client, view' id = some ⟨client, .dropped⟩ →
        view id = some ⟨client, .dropped⟩ := by
  cases action with
  | server succeeds => exact absurd rfl (hother succeeds)
  | connect client =>
      rw [daemonStep] at hstep
      split_ifs at hstep
      cases hstep
      have hnew : view (daemon.network.accepted.length +
          daemon.network.waiting.length) = none := by
        rw [h.waiting, List.getElem?_eq_none (Nat.le_refl _)]
        rfl
      have harrives : Arrives ⟨client, .waiting⟩ := rfl
      exact ⟨_, .arrives hnew harrives, h.connects client,
        fun _ _ => dropped_of_update Stage.noConfusion⟩
  | child index succeeds =>
      obtain ⟨child, hindex, hrest⟩ := Option.bind_eq_some_iff.mp hstep
      obtain ⟨⟨moved, network, forked⟩, hresult, rfl⟩ :=
        Option.map_eq_some_iff.mp hrest
      obtain ⟨id, client, stage, hclient, hview, hstands⟩ :=
        h.children child (List.mem_of_getElem? hindex)
      obtain ⟨rfl, rfl, -, stage', hmoved, hstage⟩ :=
        childStep_spec hstands hclient hresult
      have hrepresents := h.child hindex hclient hstands.serves_eq hmoved
        (daemon.pendingSignal || moved.isZombie)
      refine ⟨_, ?_, by simpa using hrepresents,
        fun _ _ => dropped_of_update hmoved.stage_ne⟩
      obtain rfl | hadvances := hstage
      · rw [← hview, Function.update_eq_self]
        exact .idle
      · exact .advances hview hadvances
  | hang index count part =>
      obtain ⟨child, hindex, hrest⟩ := Option.bind_eq_some_iff.mp hstep
      obtain ⟨hung, hhang, rfl⟩ := Option.map_eq_some_iff.mp hrest
      obtain ⟨id, client, stage, hclient, hview, hstands⟩ :=
        h.children child (List.mem_of_getElem? hindex)
      obtain ⟨-, -, stage', hmoved, hadvances⟩ := childHang_spec hstands hhang
      exact ⟨_, .advances hview hadvances,
        h.child hindex hclient hstands.serves_eq hmoved daemon.pendingSignal,
        fun _ _ => dropped_of_update hmoved.stage_ne⟩
  | interrupt =>
      rw [daemonStep] at hstep
      split_ifs at hstep
      cases hstep
      exact ⟨view, .idle, ⟨h.server, h.atHand, h.children, h.distinct,
        h.dropped, h.waiting⟩, fun _ _ => id⟩
  | reap index =>
      obtain ⟨child, hindex, hrest⟩ := Option.bind_eq_some_iff.mp hstep
      split_ifs at hrest with hzombie
      cases hrest
      obtain ⟨id, client, stage, hclient, hview, hstands⟩ :=
        h.children child (List.mem_of_getElem? hindex)
      rw [Bool.and_eq_true] at hzombie
      cases hstands with
      | @exited code w =>
          have hreaped : ChildStands host config id client.inode (.gone code w)
              _ := .reaped
          have hrepresents := h.child hindex hclient rfl hreaped
            daemon.pendingSignal
          rw [← hview, Function.update_eq_self] at hrepresents
          exact ⟨view, .idle, hrepresents, fun _ _ => fun hdropped => hdropped⟩
      | _ => cases hzombie.2
  | reaped =>
      rw [daemonStep] at hstep
      split_ifs at hstep
      cases hstep
      exact ⟨view, .idle, ⟨h.server, h.atHand, h.children, h.distinct,
        h.dropped, h.waiting⟩, fun _ _ => id⟩

/-- What a step of the server means for its clients. -/
inductive Handover (host : Host) (config : ServerConfig) (succeeds : Bool)
    (daemon : Daemon) : Phase → Phase → Daemon → Prop
  | keeps {phase later : Phase} {server : Process}
      (hstands : ServerStands host config later server)
      (hhand : hand later = hand phase)
      (hfailed : Failed later → succeeds = false) :
      Handover host config succeeds daemon phase later
        { daemon with server := server }
  | drops {phase : Phase} {id : ℕ} {inode : Inode} {server : Process}
      (hfailed : Failed phase) (hhand : hand phase = some (id, inode))
      (hstands : ServerStands host config .idle server) :
      Handover host config succeeds daemon phase .idle
        { daemon with server := server }
  | accepts {client : Client} {waiting : List Client} {server : Process}
      (hwaiting : daemon.network.waiting = client :: waiting)
      (hstands : ServerStands host config
        (.accepted daemon.network.accepted.length client.inode) server) :
      Handover host config succeeds daemon .idle
        (.accepted daemon.network.accepted.length client.inode)
        { daemon with
          server := server
          network := ⟨waiting, daemon.network.accepted ++ [client]⟩ }
  | forks {id : ℕ} {inode : Inode} {server child : Process}
      (hstands : ServerStands host config (.given id inode) server)
      (hchild : ChildStands host config id inode .entrusted child) :
      Handover host config succeeds daemon (.limited id inode)
        (.given id inode)
        { daemon with
          server := server
          children := daemon.children ++ [child] }

theorem daemonStep_server {succeeds : Bool} {next : Daemon}
    (hstands : ServerStands host config phase daemon.server)
    (hstep : daemonStep host daemon (.server succeeds) = some next) :
    ∃ later, Handover host config succeeds daemon phase later next := by
  rw [daemonStep] at hstep
  split_ifs at hstep
  obtain ⟨result, hresult, rfl⟩ := Option.map_eq_some_iff.mp hstep
  have hmove := serverStep_spec hstands hresult
  generalize daemon.server = server at hmove
  cases hmove with
  | again =>
      have hidle : ServerStands host config .idle _ :=
        .running trivial mainRound_keeps
      exact ⟨_, by simpa using Handover.keeps hidle rfl False.elim⟩
  | exits => exact ⟨_, by simpa using Handover.keeps .exited rfl False.elim⟩
  | answers hlocal hserver hanswers hperform hkeeps =>
      obtain ⟨hserver', ⟨hsame, hfailed⟩ | ⟨rfl, hfailed, id, inode, hhand⟩⟩ :=
        answers_of_isLocal hlocal hserver hanswers hperform
      · exact ⟨_, by
          simpa using Handover.keeps (.running hserver' hkeeps) hsame hfailed⟩
      · exact ⟨_, by
          simpa using Handover.drops hfailed hhand (.running hserver' hkeeps)⟩
  | acceptFails hfails hkeeps =>
      have hidle : ServerStands host config .idle _ := .running trivial hkeeps
      exact ⟨_, by simpa using Handover.keeps hidle rfl False.elim⟩
  | accepts hwaiting hkeeps =>
      exact ⟨_, by
        simpa using Handover.accepts hwaiting (.running trivial hkeeps)⟩
  | @forkFails id inode rest hfails hkeeps =>
      have hunforked : ServerStands host config (.unforked id inode) _ :=
        .running trivial hkeeps
      have hmove : Handover host config succeeds daemon (.limited id inode) _ _ :=
        .keeps hunforked rfl fun _ => hfails
      exact ⟨_, by simpa using hmove⟩
  | @forks id inode rest hkeeps hchild =>
      have hgiven : ServerStands host config (.given id inode) _ :=
        .running trivial hkeeps
      exact ⟨_, .forks hgiven (.entrusted hchild)⟩

theorem Handover.stands {succeeds : Bool} {later : Phase} {next : Daemon}
    (hmove : Handover host config succeeds daemon phase later next) :
    ServerStands host config later next.server := by
  cases hmove <;> assumption

theorem Handover.refines {succeeds : Bool} {later : Phase} {next : Daemon}
    (hmove : Handover host config succeeds daemon phase later next)
    (h : Represents host config phase daemon view) :
    ∃ view', Interleaved Arrives (Advances host config) view view' ∧
      Represents host config later next view' := by
  cases hmove with
  | keeps hstands hhand => exact ⟨view, .idle, h.silent hstands hhand⟩
  | drops hfailed hhand hstands =>
      obtain ⟨client, hview, hrepresents⟩ := h.drops hhand hstands
      exact ⟨_, .advances hview .drops, hrepresents⟩
  | accepts hwaiting hstands =>
      obtain ⟨hview, hrepresents⟩ := h.accepts hwaiting rfl hstands
      exact ⟨_, .advances hview .accepts, hrepresents⟩
  | forks hstands hchild =>
      obtain ⟨client, hview, hrepresents⟩ := h.forks rfl hstands hchild
      exact ⟨_, .advances hview .entrusts, hrepresents⟩

/-- A step of the server moves at most one visit, by a step of its own. -/
theorem daemonStep_refines {action : Action} {next : Daemon}
    (h : Represents host config phase daemon view)
    (hstep : daemonStep host daemon action = some next) :
    ∃ later view', Interleaved Arrives (Advances host config) view view' ∧
      Represents host config later next view' := by
  by_cases hother : ∀ succeeds, action ≠ .server succeeds
  · obtain ⟨view', hmoves, hrepresents, -⟩ :=
      daemonStep_others h hother hstep
    exact ⟨phase, view', hmoves, hrepresents⟩
  · obtain ⟨succeeds, hserver⟩ := not_forall.mp hother
    rw [not_not] at hserver
    subst hserver
    obtain ⟨later, hmove⟩ := daemonStep_server h.server hstep
    exact ⟨later, hmove.refines h⟩

/-- Every run of the server is an interleaving of visits. -/
theorem reachable_represents {argv : List CString}
    (hconfig : (configParseArgs configInit argv).2 = config)
    (hreachable : (daemonMachine host).Reachable (boot host argv) daemon) :
    ∃ phase view,
      Relation.ReflTransGen (Interleaved Arrives (Advances host config))
        (fun _ => none) view ∧ Represents host config phase daemon view := by
  obtain ⟨view, hrun, phase, hrepresents⟩ := hreachable.simulation
    (Interleaved Arrives (Advances host config))
    (fun daemon view => ∃ phase, Represents host config phase daemon view)
    (fun daemon action next view ⟨phase, hrelated⟩ hstep => by
      obtain ⟨later, view', hmoves, hnext⟩ := daemonStep_refines hrelated hstep
      exact ⟨view', hmoves, later, hnext⟩)
    ⟨.started, represents_boot argv hconfig⟩
  exact ⟨phase, view, hrun, hrepresents⟩

end Refinement

end HttpCerver.Interleaving
