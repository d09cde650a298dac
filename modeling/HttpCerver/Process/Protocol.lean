import HttpCerver.Process.Forking

/-!
# The protocol of the server with its host

Which calls the server makes in which order, and which descriptors it has open
in between.  A phase determines the descriptor table; the contract lists what
each call can answer and the phase it leads to.  The programs of `server.c` and
`main.c` keep the contract, and the calls do what it says.
-/

namespace HttpCerver.Protocol

open HttpCerver.Bytes
open HttpCerver.Calls
open HttpCerver.Config
open HttpCerver.Forking
open HttpCerver.Listening
open HttpCerver.Main
open HttpCerver.Programs
open HttpCerver.Programs.Program
open HttpCerver.System

section Tables

variable (host : Host) (config : ServerConfig)

def listenerFd : Fd :=
  nextFd (inheritedTable host)

def listenerTable (address : Option SocketAddress) (backlog : Option ℕ) :
    Table :=
  (listenerFd host, ⟨.listener address backlog, host.socketInode⟩) ::
    inheritedTable host

def rootFd : Fd :=
  nextFd (listenerTable host none none)

def rootEntry : Fd × Description :=
  (rootFd host, ⟨.documentRoot config.documentRoot,
    host.directoryInode config.documentRoot⟩)

def siteTable (address : Option SocketAddress) (backlog : Option ℕ) : Table :=
  rootEntry host config :: listenerTable host address backlog

/-- The loopback address and the configured port. -/
def listeningAddress : SocketAddress where
  address := [127, 0, 0, 1]
  port := htons config.port

/-- The table of a server that waits for a client. -/
def idleTable : Table :=
  siteTable host config (some (listeningAddress config)) (some config.backlog)

def clientFd : Fd :=
  nextFd (idleTable host config)

def clientEntry (id : ℕ) (inode : Inode) (timeout : Option ℕ) :
    Fd × Description :=
  (clientFd host config, ⟨.connection id timeout, inode⟩)

/-- The table of a child that has closed the listening socket. -/
def childTable (id : ℕ) (inode : Inode) : Table :=
  clientEntry host config id inode (some config.clientTimeout) ::
    rootEntry host config :: inheritedTable host

/-- `server` once both descriptors are open. -/
def openedServer : Server where
  fd := some (listenerFd host)
  rootFd := some (rootFd host)
  port := config.port
  backlog := config.backlog

end Tables

/-- Where `main` stands, in the server and in a child. -/
inductive Phase
  | started
  | opened
  | rooted
  | bound
  | idle
  | unlistened
  | accepted (id : ℕ) (inode : Inode)
  | refused (id : ℕ) (inode : Inode)
  | limited (id : ℕ) (inode : Inode)
  | unforked (id : ℕ) (inode : Inode)
  | given (id : ℕ) (inode : Inode)
  | entrusted (id : ℕ) (inode : Inode)
  | alone (id : ℕ) (inode : Inode)
  | handled (id : ℕ) (inode : Inode) (code : ReturnCode)
  | finished (id : ℕ) (code : ReturnCode)
  deriving DecidableEq

/-- The descriptors that are open in a phase. -/
def tableOf (host : Host) (config : ServerConfig) : Phase → Table
  | .started => inheritedTable host
  | .opened => listenerTable host none none
  | .rooted => siteTable host config none none
  | .bound => siteTable host config (some (listeningAddress config)) none
  | .idle => idleTable host config
  | .unlistened => rootEntry host config :: inheritedTable host
  | .accepted id inode | .refused id inode =>
    clientEntry host config id inode none :: idleTable host config
  | .limited id inode | .unforked id inode | .given id inode
  | .entrusted id inode =>
    clientEntry host config id inode (some config.clientTimeout) ::
      idleTable host config
  | .alone id inode | .handled id inode _ => childTable host config id inode
  | .finished _ _ => rootEntry host config :: inheritedTable host

/-- What a call can answer, and where that leads. -/
inductive Answers (host : Host) (config : ServerConfig) :
    Phase → (call : Call) → call.Answer → Phase → Prop
  | sigaction (code : ReturnCode) :
      Answers host config .started .sigaction code .started
  | socketFails : Answers host config .started .socket none .started
  | socket :
      Answers host config .started .socket (some (listenerFd host)) .opened
  | openFails : Answers host config .opened
      (.openDirectory config.documentRoot) none .opened
  | opens : Answers host config .opened (.openDirectory config.documentRoot)
      (some (rootFd host)) .rooted
  | unopened : Answers host config .opened (.close (some (listenerFd host)))
      () .started
  | bindFails : Answers host config .rooted
      (.bind (some (listenerFd host)) (listeningAddress config)) .failure
      .rooted
  | binds : Answers host config .rooted
      (.bind (some (listenerFd host)) (listeningAddress config)) .success
      .bound
  | listenFails : Answers host config .bound
      (.listen (some (listenerFd host)) config.backlog) .failure .bound
  | listens : Answers host config .bound
      (.listen (some (listenerFd host)) config.backlog) .success .idle
  | destroysUnbound : Answers host config .rooted
      (.close (some (listenerFd host))) () .unlistened
  | destroysBound : Answers host config .bound
      (.close (some (listenerFd host))) () .unlistened
  | destroysRoot : Answers host config .unlistened
      (.close (some (rootFd host))) () .started
  | acceptFails : Answers host config .idle
      (.accept (some (listenerFd host))) none .idle
  | accepts (id : ℕ) (inode : Inode) : Answers host config .idle
      (.accept (some (listenerFd host))) (some (clientFd host config))
      (.accepted id inode)
  | limitFails (id : ℕ) (inode : Inode) : Answers host config
      (.accepted id inode)
      (.setReceiveTimeout (some (clientFd host config)) config.clientTimeout)
      .failure (.refused id inode)
  | limits (id : ℕ) (inode : Inode) : Answers host config (.accepted id inode)
      (.setReceiveTimeout (some (clientFd host config)) config.clientTimeout)
      .success (.limited id inode)
  | rejects (id : ℕ) (inode : Inode) : Answers host config (.refused id inode)
      (.close (some (clientFd host config))) () .idle
  | forkFails (id : ℕ) (inode : Inode) : Answers host config
      (.limited id inode) .fork .failed (.unforked id inode)
  | forks (id : ℕ) (inode : Inode) : Answers host config (.limited id inode)
      .fork .parent (.given id inode)
  | forked (id : ℕ) (inode : Inode) : Answers host config (.limited id inode)
      .fork .child (.entrusted id inode)
  | drops (id : ℕ) (inode : Inode) : Answers host config (.unforked id inode)
      (.close (some (clientFd host config))) () .idle
  | leaves (id : ℕ) (inode : Inode) : Answers host config (.given id inode)
      (.close (some (clientFd host config))) () .idle
  | unlistens (id : ℕ) (inode : Inode) : Answers host config
      (.entrusted id inode) (.close (some (listenerFd host))) ()
      (.alone id inode)
  | handles (id : ℕ) (inode : Inode) (code : ReturnCode) : Answers host config
      (.alone id inode)
      (.handleConnection (some (clientFd host config)) (some (rootFd host))
        config) code (.handled id inode code)
  | finishes (id : ℕ) (inode : Inode) (code : ReturnCode) : Answers host config
      (.handled id inode code) (.close (some (clientFd host config))) ()
      (.finished id code)

def serverContract (host : Host) (config : ServerConfig) :
    Contract Call Call.Answer Phase where
  Answers := Answers host config

section Programs

variable {host : Host} {config : ServerConfig}

/-- The rule for a call of the server. -/
theorem keeps_ask_bind {Result : Type} {phase : Phase} {call : Call}
    {next : call.Answer → Code Result} {post : Result → Phase → Prop}
    (hpermits : (serverContract host config).Permits phase call)
    (hrest : ∀ answer later, Answers host config phase call answer later →
      (next answer).Keeps (serverContract host config) post later) :
    (ask call >>= next).Keeps (serverContract host config) post phase :=
  keeps_request_bind_iff.mpr ⟨hpermits, hrest⟩

theorem serverInit_keeps :
    (serverInit config).Keeps (serverContract host config)
      (fun result phase => (result.1 = .failure ∧ phase = .started) ∨
        (result = (.success, openedServer host config) ∧ phase = .rooted))
      .started := by
  unfold serverInit
  refine keeps_ask_bind ⟨_, _, .socketFails⟩ ?_
  intro fd phase hfd
  cases hfd with
  | socketFails => exact .inl ⟨rfl, rfl⟩
  | socket =>
      refine keeps_ask_bind ⟨_, _, .openFails⟩ ?_
      intro rootFd phase hroot
      cases hroot with
      | openFails =>
          refine keeps_ask_bind ⟨_, _, .unopened⟩ ?_
          intro answer phase hclose
          cases hclose
          exact .inl ⟨rfl, rfl⟩
      | opens => exact .inr ⟨rfl, rfl⟩

theorem serverStart_keeps :
    (serverStart (openedServer host config)).Keeps (serverContract host config)
      (fun code phase =>
        (code = .failure ∧ (phase = .rooted ∨ phase = .bound)) ∨
          (code = .success ∧ phase = .idle)) .rooted := by
  have haddress : inetPton (ascii "127.0.0.1") = some [127, 0, 0, 1] := by
    decide
  simp only [serverStart, haddress]
  refine keeps_ask_bind ⟨_, _, .bindFails⟩ ?_
  intro code phase hbind
  cases hbind with
  | bindFails => exact .inl ⟨rfl, .inl rfl⟩
  | binds =>
      refine keeps_ask_bind ⟨_, _, .listenFails⟩ ?_
      intro code phase hlisten
      cases hlisten with
      | listenFails => exact .inl ⟨rfl, .inr rfl⟩
      | listens => exact .inr ⟨rfl, rfl⟩

/-- From a socket that could not be bound or does not listen. -/
theorem serverDestroy_keeps {phase : Phase}
    (hphase : phase = .rooted ∨ phase = .bound) :
    (serverDestroy (openedServer host config)).Keeps
      (serverContract host config) (fun _ later => later = .started) phase := by
  have hroot : (do
      ask (.close (some (rootFd host)))
      pure { openedServer host config with fd := none, rootFd := none } :
        Code Server).Keeps (serverContract host config)
        (fun _ later => later = .started) .unlistened := by
    refine keeps_ask_bind ⟨_, _, .destroysRoot⟩ ?_
    intro answer later hclose
    cases hclose
    rfl
  apply keeps_bind_iff.mpr
  obtain rfl | rfl := hphase
  · refine keeps_ask_bind ⟨_, _, .destroysUnbound⟩ ?_
    intro answer later hclose
    cases hclose
    exact hroot
  · refine keeps_ask_bind ⟨_, _, .destroysBound⟩ ?_
    intro answer later hclose
    cases hclose
    exact hroot

theorem serverAccept_keeps :
    (serverAccept (openedServer host config) config.clientTimeout).Keeps
      (serverContract host config)
      (fun answer phase => (answer = none ∧ phase = .idle) ∨
        (answer = some (clientFd host config) ∧
          ∃ id inode, phase = .limited id inode)) .idle := by
  refine keeps_ask_bind ⟨_, _, .acceptFails⟩ ?_
  intro answer phase haccept
  cases haccept with
  | acceptFails => exact .inl ⟨rfl, rfl⟩
  | accepts id inode =>
      refine keeps_ask_bind ⟨_, _, .limitFails id inode⟩ ?_
      intro code phase hlimit
      cases hlimit with
      | limitFails =>
          refine keeps_ask_bind ⟨_, _, .rejects id inode⟩ ?_
          intro answer phase hclose
          cases hclose
          exact .inl ⟨rfl, rfl⟩
      | limits => exact .inr ⟨rfl, id, inode, rfl⟩

/-- How a round of `main` ends in a phase. -/
def Ends (host : Host) (config : ServerConfig) : Next → Phase → Prop
  | .again server config', phase =>
    server = openedServer host config ∧ config' = config ∧ phase = .idle
  | .exit code, phase => (code = .failure ∧ phase = .started) ∨
      ∃ id, phase = .finished id code

theorem main_keeps (argv : List CString)
    (hconfig : (configParseArgs configInit argv).2 = config) :
    (main argv).Keeps (serverContract host config) (Ends host config)
      .started := by
  refine keeps_ask_bind ⟨_, _, .sigaction .failure⟩ ?_
  intro installed phase hsigaction
  cases hsigaction
  cases installed with
  | failure => exact .inl ⟨rfl, rfl⟩
  | success =>
      generalize configParseArgs configInit argv = result at hconfig
      obtain ⟨parsed, _⟩ := result
      subst hconfig
      cases parsed with
      | failure => exact .inl ⟨rfl, rfl⟩
      | success =>
          refine serverInit_keeps.bind ?_
          rintro ⟨code, server⟩ phase (⟨hcode, rfl⟩ | ⟨hserver, rfl⟩)
          · subst hcode
            exact .inl ⟨rfl, rfl⟩
          · cases hserver
            refine serverStart_keeps.bind ?_
            rintro started phase (⟨rfl, hphase⟩ | ⟨rfl, rfl⟩)
            · refine (serverDestroy_keeps hphase).bind ?_
              rintro destroyed phase rfl
              exact .inl ⟨rfl, rfl⟩
            · exact ⟨rfl, rfl, rfl⟩

theorem mainRound_keeps :
    (mainRound (openedServer host config) config).Keeps
      (serverContract host config) (Ends host config) .idle := by
  refine serverAccept_keeps.bind ?_
  rintro answer phase (⟨rfl, rfl⟩ | ⟨rfl, id, inode, rfl⟩)
  · exact ⟨rfl, rfl, rfl⟩
  · refine keeps_ask_bind ⟨_, _, .forkFails id inode⟩ ?_
    intro forked phase hfork
    cases hfork with
    | forkFails =>
        refine keeps_ask_bind ⟨_, _, .drops id inode⟩ ?_
        intro answer phase hclose
        cases hclose
        exact ⟨rfl, rfl, rfl⟩
    | forks =>
        refine keeps_ask_bind ⟨_, _, .leaves id inode⟩ ?_
        intro answer phase hclose
        cases hclose
        exact ⟨rfl, rfl, rfl⟩
    | forked =>
        refine keeps_ask_bind ⟨_, _, .unlistens id inode⟩ ?_
        intro answer phase hclose
        cases hclose
        refine keeps_ask_bind ⟨_, _, .handles id inode .success⟩ ?_
        intro code phase hhandle
        cases hhandle
        cases code with
        | failure =>
            refine keeps_ask_bind ⟨_, _, .finishes id inode .failure⟩ ?_
            intro answer phase hclose
            cases hclose
            exact .inr ⟨id, rfl⟩
        | success =>
            refine keeps_ask_bind ⟨_, _, .finishes id inode .success⟩ ?_
            intro answer phase hclose
            cases hclose
            exact .inr ⟨id, rfl⟩

end Programs

section Kernel

variable (host : Host) (config : ServerConfig)

theorem listenerFd_notMem :
    listenerFd host ∉ (inheritedTable host).map (·.1) :=
  nextFd_notMem _

theorem rootFd_notMem :
    rootFd host ≠ listenerFd host ∧
      rootFd host ∉ (inheritedTable host).map (·.1) := by
  have hfree := nextFd_notMem (listenerTable host none none)
  rw [listenerTable, List.map_cons, List.mem_cons, not_or] at hfree
  exact hfree

theorem clientFd_notMem :
    clientFd host config ∉ (idleTable host config).map (·.1) :=
  nextFd_notMem _

theorem clientFd_ne :
    clientFd host config ≠ rootFd host ∧
      clientFd host config ≠ listenerFd host ∧
      clientFd host config ∉ (inheritedTable host).map (·.1) := by
  have hfree := clientFd_notMem host config
  rw [idleTable, siteTable, listenerTable, List.map_cons, List.map_cons,
    List.mem_cons, List.mem_cons, not_or, not_or] at hfree
  exact hfree

theorem clientFd_notMem_finished :
    clientFd host config ∉
      (rootEntry host config :: inheritedTable host).map (·.1) := by
  obtain ⟨hroot, -, hfree⟩ := clientFd_ne host config
  rw [List.map_cons, List.mem_cons, not_or]
  exact ⟨hroot, hfree⟩

variable {host config}

/-- The calls on descriptors do what the contract says. -/
theorem perform_answers {phase : Phase} {call : Call} {answer : call.Answer}
    {table : Table} {succeeds : Bool}
    (hpermits : (serverContract host config).Permits phase call)
    (hperform : perform host succeeds (tableOf host config phase) call =
      some (answer, table)) :
    ∃ next, Answers host config phase call answer next ∧
      table = tableOf host config next := by
  have hlistener := listenerFd_notMem host
  obtain ⟨hroot, hrootFree⟩ := rootFd_notMem host
  obtain ⟨-, hclientListener, -⟩ := clientFd_ne host config
  obtain ⟨_, _, hanswers⟩ := hpermits
  cases hanswers with
  | sigaction =>
      cases hperform
      exact ⟨_, .sigaction _, rfl⟩
  | socketFails | socket =>
      cases succeeds <;> cases hperform
      · exact ⟨_, .socketFails, rfl⟩
      · exact ⟨_, .socket, rfl⟩
  | openFails | opens =>
      cases succeeds <;> cases hperform
      · exact ⟨_, .openFails, rfl⟩
      · exact ⟨_, .opens, rfl⟩
  | unopened =>
      cases hperform
      exact ⟨_, .unopened, release_cons_self hlistener⟩
  | bindFails | binds =>
      have hlookup : lookup (some (listenerFd host))
          (tableOf host config .rooted) =
            some ⟨.listener none none, host.socketInode⟩ := by
        rw [tableOf, siteTable, lookup_cons_of_ne hroot, listenerTable,
          lookup_cons_self]
      rw [perform_bind succeeds _ hlookup] at hperform
      cases succeeds <;> cases hperform
      · exact ⟨_, .bindFails, rfl⟩
      · refine ⟨_, .binds, ?_⟩
        rw [tableOf, siteTable, replace_cons_of_ne hroot, listenerTable,
          replace_cons_self hlistener]
        rfl
  | listenFails | listens =>
      have hlookup : lookup (some (listenerFd host))
          (tableOf host config .bound) =
            some ⟨.listener (some (listeningAddress config)) none,
              host.socketInode⟩ := by
        rw [tableOf, siteTable, lookup_cons_of_ne hroot, listenerTable,
          lookup_cons_self]
      rw [perform_listen succeeds _ hlookup] at hperform
      cases succeeds <;> cases hperform
      · exact ⟨_, .listenFails, rfl⟩
      · refine ⟨_, .listens, ?_⟩
        rw [tableOf, siteTable, replace_cons_of_ne hroot, listenerTable,
          replace_cons_self hlistener]
        rfl
  | destroysUnbound =>
      cases hperform
      refine ⟨_, .destroysUnbound, ?_⟩
      rw [tableOf, siteTable, release_cons_of_ne hroot, listenerTable,
        release_cons_self hlistener]
      rfl
  | destroysBound =>
      cases hperform
      refine ⟨_, .destroysBound, ?_⟩
      rw [tableOf, siteTable, release_cons_of_ne hroot, listenerTable,
        release_cons_self hlistener]
      rfl
  | destroysRoot =>
      cases hperform
      exact ⟨_, .destroysRoot, release_cons_self hrootFree⟩
  | acceptFails | accepts | forkFails | forks | forked | handles =>
      cases hperform
  | limitFails id inode | limits id inode =>
      have hlookup : lookup (some (clientFd host config))
          (tableOf host config (.accepted id inode)) =
            some ⟨.connection id none, inode⟩ := lookup_cons_self
      rw [perform_setReceiveTimeout succeeds _ hlookup] at hperform
      cases succeeds <;> cases hperform
      · exact ⟨_, .limitFails id inode, rfl⟩
      · refine ⟨_, .limits id inode, ?_⟩
        exact replace_cons_self (clientFd_notMem host config)
  | rejects id inode =>
      cases hperform
      exact ⟨_, .rejects id inode,
        release_cons_self (clientFd_notMem host config)⟩
  | drops id inode =>
      cases hperform
      exact ⟨_, .drops id inode,
        release_cons_self (clientFd_notMem host config)⟩
  | leaves id inode =>
      cases hperform
      exact ⟨_, .leaves id inode,
        release_cons_self (clientFd_notMem host config)⟩
  | unlistens id inode =>
      cases hperform
      refine ⟨_, .unlistens id inode, ?_⟩
      rw [tableOf, clientEntry, release_cons_of_ne hclientListener, idleTable,
        siteTable, release_cons_of_ne hroot, listenerTable,
        release_cons_self hlistener]
      rfl
  | finishes id inode code =>
      cases hperform
      exact ⟨_, .finishes id inode code,
        release_cons_self (clientFd_notMem_finished host config)⟩

end Kernel

end HttpCerver.Protocol
