import HttpCerver.Config.Numbers
import HttpCerver.Process.Service

/-!
# Starting up

A server that accepts was given a command line that is in order and listens on
the port that it names, and a server that gives up has closed what it opened.
Nobody can connect before it listens, so it leaves nobody behind.
-/

namespace HttpCerver.Opening

open HttpCerver.Bytes
open HttpCerver.Calls
open HttpCerver.Config
open HttpCerver.Forking
open HttpCerver.Interleaving
open HttpCerver.Machines
open HttpCerver.Main
open HttpCerver.Numbers
open HttpCerver.Numerals
open HttpCerver.Options
open HttpCerver.Programs
open HttpCerver.Programs.Program
open HttpCerver.Protocol
open HttpCerver.Service
open HttpCerver.System

section Configuration

/-- Every number is in the range of its option. -/
structure Usable (config : ServerConfig) : Prop where
  port : 1 ≤ config.port ∧ config.port ≤ 65535
  backlog : 1 ≤ config.backlog ∧ config.backlog ≤ intMax
  clientTimeout : 1 ≤ config.clientTimeout ∧ config.clientTimeout ≤ intMax
  httpBufferSize : 1 ≤ config.httpBufferSize ∧ config.httpBufferSize < intMax
  httpMaxHeaders : 1 ≤ config.httpMaxHeaders ∧ config.httpMaxHeaders < intMax
  httpHeaderNameMax :
    1 ≤ config.httpHeaderNameMax ∧ config.httpHeaderNameMax < intMax
  httpHeaderValueMax :
    1 ≤ config.httpHeaderValueMax ∧ config.httpHeaderValueMax < intMax

theorem usable_configInit : Usable configInit := by
  constructor <;> decide

theorem parsePositiveInt_bounds {value : CString} {number : ℕ}
    (hparse : parsePositiveInt value = some number) :
    1 ≤ number ∧ number ≤ intMax := by
  simp only [parsePositiveInt] at hparse
  split_ifs at hparse with hrefused
  cases hparse
  simp only [not_or] at hrefused
  omega

theorem parsePositiveSize_bounds {value : CString} {number : ℕ}
    (hparse : parsePositiveSize value = some number) :
    1 ≤ number ∧ number < intMax := by
  simp only [parsePositiveSize] at hparse
  split_ifs at hparse with hrefused
  cases hparse
  simp only [not_or] at hrefused
  omega

theorem Usable.applyOption {option value : CString}
    {config next : ServerConfig} (h : Usable config)
    (happlied : applyOption option value config = some next) :
    Usable next := by
  rw [Config.applyOption] at happlied
  split_ifs at happlied
  · obtain ⟨port, hport, hstored⟩ := Option.bind_eq_some_iff.mp happlied
    split_ifs at hstored with hlarge
    cases hstored
    exact { h with
      port := ⟨(parsePositiveInt_bounds hport).1, Nat.not_lt.mp hlarge⟩ }
  · obtain ⟨number, hnumber, rfl⟩ := Option.map_eq_some_iff.mp happlied
    exact { h with backlog := parsePositiveInt_bounds hnumber }
  · obtain ⟨number, hnumber, rfl⟩ := Option.map_eq_some_iff.mp happlied
    exact { h with clientTimeout := parsePositiveInt_bounds hnumber }
  · cases happlied
    exact { h with }
  · obtain ⟨number, hnumber, rfl⟩ := Option.map_eq_some_iff.mp happlied
    exact { h with httpBufferSize := parsePositiveSize_bounds hnumber }
  · obtain ⟨number, hnumber, rfl⟩ := Option.map_eq_some_iff.mp happlied
    exact { h with httpMaxHeaders := parsePositiveSize_bounds hnumber }
  · obtain ⟨number, hnumber, rfl⟩ := Option.map_eq_some_iff.mp happlied
    exact { h with httpHeaderNameMax := parsePositiveSize_bounds hnumber }
  · obtain ⟨number, hnumber, rfl⟩ := Option.map_eq_some_iff.mp happlied
    exact { h with httpHeaderValueMax := parsePositiveSize_bounds hnumber }

theorem Usable.foldlM {pairs : List ArgPair} {config final : ServerConfig}
    (h : Usable config)
    (htaken : pairs.foldlM
      (fun config pair => Config.applyOption pair.1 pair.2 config) config =
        some final) : Usable final := by
  induction pairs generalizing config with
  | nil =>
      cases htaken
      exact h
  | cons pair pairs ih =>
      rw [List.foldlM_cons] at htaken
      obtain ⟨next, hnext, hrest⟩ := Option.bind_eq_some_iff.mp htaken
      exact ih (h.applyOption hnext) hrest

theorem usable_of_accepted {argv : List CString} {final : ServerConfig}
    (haccepted : configParseArgs configInit argv = (.success, final)) :
    Usable final := by
  obtain ⟨pairs, -, htaken⟩ := configParseArgs_eq_success_iff.mp haccepted
  exact usable_configInit.foldlM htaken

end Configuration

section Refused

variable {host : Host} {argv : List CString} {daemon next : Daemon}

/-- A server that has asked for nothing but its signal handler. -/
def refusedContract : Contract Call Call.Answer Unit where
  Answers _ call _ _ := call = .sigaction

/-- The only way for a refused command line. -/
def GivesUp (result : Next) (_ : Unit) : Prop :=
  result = .exit .failure

theorem main_givesUp (hrefused : (configParseArgs configInit argv).1 = .failure) :
    (main argv).Keeps refusedContract GivesUp () := by
  refine keeps_request_bind_iff.mpr ⟨⟨.failure, (), rfl⟩, ?_⟩
  intro installed phase hsigaction
  cases installed with
  | failure => rfl
  | success =>
      generalize configParseArgs configInit argv = result at hrefused
      obtain ⟨parsed, config⟩ := result
      cases hrefused
      rfl

/-- A server with a refused command line, and nobody around it. -/
structure Declined (host : Host) (daemon : Daemon) : Prop where
  server : (∃ program : Code Next, program.Keeps refusedContract GivesUp () ∧
      daemon.server =
        { table := inheritedTable host
          activity := .running program
          serves := none
          handled := none }) ∨
    daemon.server =
      { table := []
        activity := .exited .failure
        serves := none
        handled := none }
  children : daemon.children = []
  network : daemon.network = { waiting := [], accepted := [] }

theorem isListening_inheritedTable (host : Host) :
    isListening (inheritedTable host) = false := by
  simp [isListening, inheritedTable]

theorem Declined.not_listening (h : Declined host daemon) :
    isListening daemon.server.table = false := by
  obtain ⟨program, -, hserver⟩ | hserver := h.server
  · rw [hserver]
    exact isListening_inheritedTable host
  · rw [hserver]
    rfl

theorem Declined.step {action : Action} (h : Declined host daemon)
    (hstep : daemonStep host daemon action = some next) :
    Declined host next := by
  cases action with
  | connect client =>
      rw [daemonStep, h.not_listening] at hstep
      cases hstep
  | server succeeds =>
      rw [daemonStep] at hstep
      split_ifs at hstep
      obtain ⟨⟨server, network, forked⟩, hserver, rfl⟩ :=
        Option.map_eq_some_iff.mp hstep
      obtain ⟨program, hkeeps, hdeclined⟩ | hexited := h.server
      · rw [hdeclined] at hserver
        cases program with
        | done result =>
            cases hkeeps
            cases hserver
            exact ⟨.inr rfl, by simp [h.children], h.network⟩
        | await call rest =>
            obtain ⟨⟨_, _, hcall⟩, hrest⟩ := hkeeps
            cases hcall
            cases hserver
            exact ⟨.inl ⟨_, hrest _ () rfl, rfl⟩, by simp [h.children],
              h.network⟩
      · rw [hexited] at hserver
        cases hserver
  | child index succeeds | hang index count part | reap index =>
      obtain ⟨child, hindex, -⟩ := Option.bind_eq_some_iff.mp hstep
      rw [h.children] at hindex
      cases hindex
  | interrupt | reaped =>
      rw [daemonStep] at hstep
      split_ifs at hstep
      cases hstep
      exact ⟨h.server, h.children, h.network⟩

theorem declined_of_reachable
    (hrefused : (configParseArgs configInit argv).1 = .failure)
    (hreachable : (daemonMachine host).Reachable (boot host argv) daemon) :
    Declined host daemon :=
  hreachable.invariant (Declined host) (fun _ _ _ h hstep => h.step hstep)
    ⟨.inl ⟨_, main_givesUp hrefused, rfl⟩, rfl, rfl⟩

end Refused

section Nobody

variable {host : Host} {argv : List CString} {daemon next : Daemon}

/-- As long as the server does not listen there is nobody else. -/
def AloneAtFirst (daemon : Daemon) : Prop :=
  isListening daemon.server.table = false →
    daemon.children = [] ∧ Network.clients daemon.network = []

theorem AloneAtFirst.step {config : ServerConfig} {phase : Phase}
    {view : ℕ → Option Visits.Visit} {action : Action}
    (hrepresents : Represents host config phase daemon view)
    (h : AloneAtFirst daemon)
    (hstep : daemonStep host daemon action = some next) :
    AloneAtFirst next := by
  have hclients := (daemonStep_network hstep).2
  cases action with
  | connect client =>
      rw [daemonStep] at hstep
      split_ifs at hstep with hlistens
      cases hstep
      exact fun hdeaf => absurd (hdeaf.symm.trans hlistens) Bool.false_ne_true
  | server succeeds =>
      rw [daemonStep] at hstep
      split_ifs at hstep
      obtain ⟨⟨server, network, forked⟩, hserver, rfl⟩ :=
        Option.map_eq_some_iff.mp hstep
      intro hdeaf
      have hbefore : isListening daemon.server.table = false := by
        by_contra hlistens
        rw [Bool.not_eq_false] at hlistens
        have hstill := isListening_of_step hrepresents.server hlistens hserver
        exact absurd (hdeaf.symm.trans hstill) Bool.false_ne_true
      obtain ⟨rfl, rfl⟩ := deaf_step hrepresents.server hbefore hserver
      obtain ⟨hchildren, hnobody⟩ := h hbefore
      exact ⟨by simp [hchildren], hnobody⟩
  | child index succeeds | hang index count part =>
      obtain ⟨child, hindex, hrest⟩ := Option.bind_eq_some_iff.mp hstep
      obtain ⟨result, -, rfl⟩ := Option.map_eq_some_iff.mp hrest
      intro hdeaf
      rw [(h hdeaf).1] at hindex
      cases hindex
  | reap index =>
      obtain ⟨child, hindex, hrest⟩ := Option.bind_eq_some_iff.mp hstep
      split_ifs at hrest
      cases hrest
      intro hdeaf
      rw [(h hdeaf).1] at hindex
      cases hindex
  | interrupt | reaped =>
      rw [daemonStep] at hstep
      split_ifs at hstep
      cases hstep
      exact h

theorem aloneAtFirst_of_reachable
    (hreachable : (daemonMachine host).Reachable (boot host argv) daemon) :
    AloneAtFirst daemon := by
  have hboth := hreachable.invariant
    (fun state => (∃ phase view,
      Represents host (configured argv) phase state view) ∧ AloneAtFirst state)
    ?_ ⟨⟨_, _, represents_boot argv rfl⟩, fun _ => ⟨rfl, rfl⟩⟩
  · exact hboth.2
  · rintro state action next ⟨⟨phase, view, hrepresents⟩, halone⟩ hstep
    obtain ⟨later, view', -, hnext⟩ := daemonStep_refines hrepresents hstep
    exact ⟨⟨later, view', hnext⟩, halone.step hrepresents hstep⟩

end Nobody

section Starting

variable {host : Host} {argv : List CString} {daemon : Daemon}

/-- A process is about to exit, or has exited. -/
def leaving (process : Process) (code : ReturnCode) : Prop :=
  process.activity = .running (.done (.exit code)) ∨
    process.activity = .exited code

theorem idle_of_accepting {config : ServerConfig} {phase : Phase}
    {server : Process} {fd : Option Fd}
    (hstands : ServerStands host config phase server)
    (haccepting : accepting server fd) :
    phase = .idle ∧ fd = some (listenerFd host) ∧
      server.table = idleTable host config := by
  obtain ⟨rest, hactivity⟩ := haccepting
  cases hstands with
  | exited => cases hactivity
  | running hserver hkeeps =>
      cases hactivity
      obtain ⟨⟨_, _, hanswers⟩, -⟩ := hkeeps
      cases hanswers <;> exact ⟨rfl, rfl, rfl⟩

theorem started_of_leaving {config : ServerConfig} {phase : Phase}
    {server : Process} {code : ReturnCode}
    (hstands : ServerStands host config phase server)
    (hleaving : leaving server code) :
    code = .failure ∧
      (server.table = inheritedTable host ∨ server.table = []) := by
  cases hstands with
  | exited =>
      obtain hrunning | hexited := hleaving
      · cases hrunning
      · cases hexited
        exact ⟨rfl, .inr rfl⟩
  | running hserver hkeeps =>
      obtain hrunning | hexited := hleaving
      · cases hrunning
        obtain ⟨hcode, rfl⟩ | ⟨id, rfl⟩ := hkeeps
        · exact ⟨hcode, .inl rfl⟩
        · exact hserver.elim
      · cases hexited

/-- The port survives its way through `htons`. -/
theorem listeningAddress_of_usable {config : ServerConfig}
    (h : Usable config) :
    listeningAddress config =
      { address := [127, 0, 0, 1], port := config.port } := by
  rw [listeningAddress, htons, Nat.mod_eq_of_lt]
  exact Nat.lt_succ_of_le h.port.2

/-- A server that accepts has been given a command line that is in order, and
has the root and a socket that listens on the port it names open, and nothing
else of its own.  A server that leaves does so with a failure: it has closed
what it opened, nobody has connected and no child has been forked. -/
theorem starts_or_gives_up
    (hreachable : (daemonMachine host).Reachable (boot host argv) daemon) :
    (∀ fd, accepting daemon.server fd → ∃ config,
      configParseArgs configInit argv = (.success, config) ∧ Usable config ∧
        lookup fd daemon.server.table = some
          { object := .listener
              (some { address := [127, 0, 0, 1], port := config.port })
              (some config.backlog)
            inode := host.socketInode } ∧
        ∃ root socket, daemon.server.table =
          (root, { object := .documentRoot config.documentRoot
                   inode := host.directoryInode config.documentRoot }) ::
            socket :: inheritedTable host) ∧
      ∀ code, leaving daemon.server code →
        code = .failure ∧ daemon.children = [] ∧
          Network.clients daemon.network = [] ∧
          (daemon.server.table = inheritedTable host ∨
            daemon.server.table = []) := by
  have hconfig : (configParseArgs configInit argv).2 = configured argv := rfl
  obtain ⟨phase, view, -, hrepresents⟩ := reachable_represents hconfig hreachable
  constructor
  · intro fd haccepting
    obtain ⟨rfl, rfl, htable⟩ := idle_of_accepting hrepresents.server haccepting
    have haccepted : configParseArgs configInit argv =
        (.success, configured argv) := by
      cases hparsed : (configParseArgs configInit argv).1 with
      | success => rw [← hparsed]; rfl
      | failure =>
          have hdeaf :=
            (declined_of_reachable hparsed hreachable).not_listening
          rw [htable] at hdeaf
          rw [isListening_idleTable] at hdeaf
          cases hdeaf
    have husable := usable_of_accepted haccepted
    refine ⟨configured argv, haccepted, husable, ?_, _, _, htable⟩
    rw [htable, lookup_listener, listeningAddress_of_usable husable]
  · intro code hleaving
    obtain ⟨hcode, htable⟩ := started_of_leaving hrepresents.server hleaving
    have hdeaf : isListening daemon.server.table = false := by
      obtain htable | htable := htable <;> rw [htable]
      · exact isListening_inheritedTable host
      · rfl
    obtain ⟨hchildren, hnobody⟩ := aloneAtFirst_of_reachable hreachable hdeaf
    exact ⟨hcode, hchildren, hnobody, htable⟩

theorem starts_or_gives_up_small :
    (∃ daemon fd config, (daemonMachine smallHost).run (boot smallHost [])
        (gathering []) = some daemon ∧ accepting daemon.server fd ∧
      configParseArgs configInit [] = (.success, config) ∧
      lookup fd daemon.server.table = some
        { object := .listener
            (some { address := [127, 0, 0, 1], port := config.port })
            (some config.backlog)
          inode := 13 }) ∧
      ∃ daemon, (daemonMachine smallHost).run (boot smallHost [])
          (List.replicate 3 (.server true) ++
            List.replicate 3 (.server false)) = some daemon ∧
        leaving daemon.server .failure ∧
        (daemon.server.table = inheritedTable smallHost ∨
          daemon.server.table = []) := by
  constructor
  · have hrun : ∃ daemon fd, (daemonMachine smallHost).run
        (boot smallHost []) (gathering []) = some daemon ∧
          accepting daemon.server fd := ⟨_, _, rfl, _, rfl⟩
    obtain ⟨daemon, fd, hdaemon, haccepting⟩ := hrun
    obtain ⟨config, haccepted, -, hlookup, -⟩ :=
      (starts_or_gives_up ⟨_, hdaemon⟩).1 fd haccepting
    exact ⟨daemon, fd, config, hdaemon, haccepting, haccepted, hlookup⟩
  · have hrun : ∃ daemon, (daemonMachine smallHost).run (boot smallHost [])
        (List.replicate 3 (.server true) ++
          List.replicate 3 (.server false)) = some daemon ∧
          leaving daemon.server .failure := ⟨_, rfl, .inl rfl⟩
    obtain ⟨daemon, hdaemon, hleaving⟩ := hrun
    exact ⟨daemon, hdaemon, hleaving,
      ((starts_or_gives_up ⟨_, hdaemon⟩).2 _ hleaving).2.2.2⟩

end Starting

end HttpCerver.Opening
