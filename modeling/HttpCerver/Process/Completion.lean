import HttpCerver.Process.Progress

/-!
# Completion

From when the server listens: as long as no more clients come and the calls of
the server succeed, the work that is left only ever gets less, in whatever
order the processes take their steps.  When nothing is left the server sits in
`accept`, every child whose calls have returned has been waited for, and those
of the queue that they serve have been sent everything.
-/

namespace HttpCerver.Completion

open HttpCerver.Bytes
open HttpCerver.Calls
open HttpCerver.Config
open HttpCerver.Forking
open HttpCerver.Interleaving
open HttpCerver.Machines
open HttpCerver.Machines.Machine
open HttpCerver.Main
open HttpCerver.Programs
open HttpCerver.Programs.Program
open HttpCerver.Progress
open HttpCerver.Protocol
open HttpCerver.Reaping
open HttpCerver.Reference
open HttpCerver.Service
open HttpCerver.System
open HttpCerver.Visits

/-- The actions that are left when no more clients come and the calls of the
server succeed; a call of a child may still not return. -/
def internal : Action → Prop
  | .server succeeds => succeeds = true
  | .child _ _ | .hang _ _ _ | .interrupt | .reap _ | .reaped => True
  | .connect _ => False

section Work

variable (network : Network)

/-- What a connection costs once the server has accepted it. -/
def promised (id : ℕ) : ℕ :=
  (network.accepted[id]?).elim 0 fun client => patience client + 8

/-- What the server still has to do before it accepts again. -/
def duty (server : Process) : ℕ :=
  let handed := ((connections server.table).map (promised network)).sum
  match server.activity with
  | .running (.done (.again _ _)) => 1
  | .running (.await (.setReceiveTimeout _ _) _) => 4 + handed
  | .running (.await .fork _) => 3 + handed
  | .running (.await (.close _) _) => 2
  | _ => 0

/-- What is left of a child: its own steps, its signal and its burial. -/
def burden (child : Process) : ℕ :=
  match child.activity with
  | .exited _ => 1
  | .hung _ | .reaped => 0
  | _ => (child.serves.bind fun id => network.accepted[id]?).elim 0
      fun client => remaining client child + 3

end Work

/-- All that is left to do when no more clients come. -/
def work (daemon : Daemon) : ℕ :=
  (daemon.network.waiting.map fun client => patience client + 13).sum +
    duty daemon.network daemon.server +
    (daemon.children.map (burden daemon.network)).sum +
    (if daemon.pendingSignal then 2 else 0) + if daemon.reaping then 1 else 0

section Server

variable {host : Host} {config : ServerConfig} {network : Network}
variable {phase : Phase}

/-- What a phase leaves the server to do at most. -/
def dutyOf (network : Network) : Phase → ℕ
  | .idle => 1
  | .given _ _ | .refused _ _ | .unforked _ _ => 2
  | .limited id _ => 3 + promised network id
  | .accepted id _ => 4 + promised network id
  | _ => 0

theorem connections_idleTable :
    connections (idleTable host config) = [] := by
  simp [connections, idleTable, siteTable, rootEntry, listenerTable,
    inheritedTable, connectionOf]

theorem connections_clientEntry (id : ℕ) (inode : Inode)
    (timeout : Option ℕ) :
    connections (clientEntry host config id inode timeout ::
      idleTable host config) = [id] := by
  change id :: connections (idleTable host config) = [id]
  rw [connections_idleTable]

theorem duty_await {call : Call} {rest : call.Answer → Code Next}
    (hstarted : Started phase)
    (hpermits : (serverContract host config).Permits phase call) :
    duty network (serverAt host config phase (.await call rest)) =
      if phase = .idle then 0 else dutyOf network phase := by
  obtain ⟨_, _, hanswers⟩ := hpermits
  cases hanswers <;> first
    | exact hstarted.elim
    | rfl
    | simp [duty, dutyOf, serverAt, tableOf, connections_clientEntry]

theorem duty_le {program : Code Next} (hstarted : Started phase)
    (hkeeps : program.Keeps (serverContract host config) (Ends host config)
      phase) :
    duty network (serverAt host config phase program) ≤
      dutyOf network phase := by
  cases program with
  | done next =>
      cases next with
      | again server config' =>
          obtain ⟨-, -, rfl⟩ := hkeeps
          exact Nat.le_refl 1
      | exit code => exact Nat.zero_le _
  | await call rest =>
      rw [duty_await hstarted hkeeps.1]
      split_ifs
      · exact Nat.zero_le _
      · exact Nat.le_refl _

end Server

section Children

variable {host : Host} {config : ServerConfig} {network : Network}
variable {id : ℕ} {client : Client} {stage : Stage} {child next : Process}

/-- What is left of a child, from its client. -/
def cost (client : Client) (child : Process) : ℕ :=
  if child.isZombie then 1
  else if remaining client child = 0 then 0
  else remaining client child + 3

theorem cost_childAt (host : Host) (config : ServerConfig) (id : ℕ)
    (client : Client) (program : Code Next) :
    cost client (childAt host config id client.inode program) =
      patience client + 8 := by
  have hlives : (childAt host config id client.inode program).isZombie =
      false := rfl
  simp [cost, hlives, remaining_entrusted]

theorem burden_eq
    (hstands : ChildStands host config id client.inode stage child)
    (hclient : network.accepted[id]? = some client) :
    burden network child = cost client child := by
  cases hstands with
  | @entrusted program =>
      have hremaining := remaining_entrusted host config id client program
      rw [cost_childAt, burden]
      simpa [childAt, hclient] using hremaining
  | alone => simp [burden, cost, Process.isZombie, hclient, remaining_alone]
  | serving => simp [burden, cost, Process.isZombie, hclient, remaining]
  | handled => simp [burden, cost, Process.isZombie, hclient, remaining_handled]
  | finished =>
      simp [burden, cost, Process.isZombie, hclient, remaining_finished]
  | hung | exited | reaped => rfl

/-- A step of a child pays for the signal of its exit. -/
theorem cost_lt (hfewer : remaining client next < remaining client child) :
    cost client next + (if next.isZombie then 2 else 0) <
      cost client child := by
  have hchild : child.isZombie = false := by
    cases hactivity : child.activity with
    | exited code => simp [remaining, hactivity] at hfewer
    | _ => simp [Process.isZombie, hactivity]
  rw [cost, cost, hchild]
  simp only [Bool.false_eq_true, if_false]
  split_ifs <;> omega

end Children

/-- The server listens, and of those who connected first or later nobody has
been turned away. -/
structure Draining (host : Host) (config : ServerConfig) (first : ℕ)
    (phase : Phase) (daemon : Daemon) (view : ℕ → Option Visit) : Prop
    extends Represents host config phase daemon view where
  started : Started phase
  heard : Heard daemon
  failing : ∀ id inode, phase = .refused id inode ∨ phase = .unforked id inode →
    id < first
  kept : ∀ id client, view id = some ⟨client, .dropped⟩ → id < first

section Steps

variable {host : Host} {config : ServerConfig} {first : ℕ} {phase : Phase}
variable {daemon next : Daemon} {view : ℕ → Option Visit} {action : Action}

theorem sum_map_set {children : List Process} {index : ℕ} {child : Process}
    (hindex : children[index]? = some child) (process : Process)
    (weight : Process → ℕ) :
    ((children.set index process).map weight).sum + weight child =
      (children.map weight).sum + weight process := by
  obtain ⟨before, after, hsplit, hset⟩ := exists_split hindex process
  rw [hset, hsplit]
  simp only [List.map_append, List.map_cons, List.sum_append, List.sum_cons]
  omega

/-- A step that is not the server's. -/
theorem work_lt_of_others (h : Draining host config first phase daemon view)
    (hinternal : internal action)
    (hother : ∀ succeeds, action ≠ .server succeeds)
    (hstep : daemonStep host daemon action = some next) :
    work next < work daemon := by
  cases action with
  | connect client => exact hinternal.elim
  | server succeeds => exact absurd rfl (hother succeeds)
  | child index succeeds =>
      obtain ⟨child, hindex, hrest⟩ := Option.bind_eq_some_iff.mp hstep
      obtain ⟨⟨moved, network, forked⟩, hresult, rfl⟩ :=
        Option.map_eq_some_iff.mp hrest
      obtain ⟨id, client, stage, hclient, -, hstands⟩ :=
        h.children child (List.mem_of_getElem? hindex)
      obtain ⟨rfl, rfl, hfewer, later, hmoved, -⟩ :=
        childStep_spec hstands hclient hresult
      have hcost := cost_lt hfewer
      have hsum := sum_map_set hindex moved (burden daemon.network)
      rw [burden_eq hstands hclient, burden_eq hmoved hclient] at hsum
      have hsignal : ∀ pending exited : Bool,
          (if pending || exited then 2 else 0) ≤
            (if pending then 2 else 0) + if exited then 2 else 0 := by
        decide
      have hpending := hsignal daemon.pendingSignal moved.isZombie
      simp only [work, List.append_nil]
      omega
  | hang index count part =>
      obtain ⟨child, hindex, hrest⟩ := Option.bind_eq_some_iff.mp hstep
      obtain ⟨hung, hhang, rfl⟩ := Option.map_eq_some_iff.mp hrest
      obtain ⟨id, client, stage, hclient, -, hstands⟩ :=
        h.children child (List.mem_of_getElem? hindex)
      obtain ⟨hnone, hleft, later, hmoved, -⟩ := childHang_spec hstands hhang
      have hcost : cost client hung < cost client child :=
        (Nat.le_add_right _ _).trans_lt (cost_lt (by omega))
      have hsum := sum_map_set hindex hung (burden daemon.network)
      rw [burden_eq hstands hclient, burden_eq hmoved hclient] at hsum
      simp only [work]
      omega
  | interrupt =>
      rw [daemonStep] at hstep
      split_ifs at hstep with hsignal
      cases hstep
      rw [Bool.and_eq_true_iff, Bool.not_eq_true'] at hsignal
      simp only [work, hsignal.1, hsignal.2, if_true, Bool.false_eq_true,
        if_false]
      omega
  | reap index =>
      obtain ⟨child, hindex, hrest⟩ := Option.bind_eq_some_iff.mp hstep
      split_ifs at hrest with hzombie
      cases hrest
      have hburden : burden daemon.network child = 1 := by
        have hexited := (Bool.and_eq_true_iff.mp hzombie).2
        cases hactivity : child.activity <;>
          simp [Process.isZombie, hactivity] at hexited
        simp [burden, hactivity]
      have hsum := sum_map_set hindex { child with activity := .reaped }
        (burden daemon.network)
      have hnone : burden daemon.network { child with activity := .reaped } =
          0 := rfl
      simp only [work]
      omega
  | reaped =>
      rw [daemonStep] at hstep
      split_ifs at hstep with hdone
      cases hstep
      have hreaping := (Bool.and_eq_true_iff.mp hdone).1
      simp only [work, hreaping, if_true, Bool.false_eq_true, if_false]
      omega

theorem Draining.others (h : Draining host config first phase daemon view)
    (hinternal : internal action)
    (hother : ∀ succeeds, action ≠ .server succeeds)
    (hstep : daemonStep host daemon action = some next) :
    (∃ view', Draining host config first phase next view') ∧
      work next < work daemon := by
  refine ⟨?_, work_lt_of_others h hinternal hother hstep⟩
  obtain ⟨view', -, hrepresents, hdropped⟩ :=
    daemonStep_others h.toRepresents hother hstep
  exact ⟨view', hrepresents, h.started, h.heard.step hstep, h.failing,
    fun id client hview => h.kept id client (hdropped id client hview)⟩

/-- The server goes on with what it has at hand. -/
theorem Draining.silent {later : Phase} {server : Process}
    (h : Draining host config first phase daemon view)
    (hstands : ServerStands host config later server)
    (hstarted : Started later) (hhand : hand later = hand phase)
    (hfailing : ∀ id inode,
      later ≠ .refused id inode ∧ later ≠ .unforked id inode)
    (hduty : duty daemon.network server <
      duty daemon.network daemon.server) :
    (∃ view', Draining host config first later
      { daemon with server := server } view') ∧
        work { daemon with server := server } < work daemon := by
  refine ⟨⟨view, h.toRepresents.silent hstands hhand, hstarted, h.heard, ?_,
    h.kept⟩, ?_⟩
  · intro id inode hphase
    obtain ⟨hrefused, hunforked⟩ := hfailing id inode
    exact (hphase.elim hrefused hunforked).elim
  · simp only [work]
    omega

/-- The server is done with a connection that it could not hand on. -/
theorem Draining.drops {id : ℕ} {inode : Inode} {server : Process}
    (h : Draining host config first phase daemon view)
    (hphase : phase = .refused id inode ∨ phase = .unforked id inode)
    (hstands : ServerStands host config .idle server)
    (hduty : duty daemon.network server <
      duty daemon.network daemon.server) :
    (∃ view', Draining host config first .idle
      { daemon with server := server } view') ∧
        work { daemon with server := server } < work daemon := by
  have hhand : hand phase = some (id, inode) := by
    obtain rfl | rfl := hphase <;> rfl
  obtain ⟨client, -, hrepresents⟩ := h.toRepresents.drops hhand hstands
  refine ⟨⟨_, hrepresents, trivial, h.heard, ?_, ?_⟩, ?_⟩
  · rintro _ _ (hnot | hnot) <;> cases hnot
  · intro other found hdropped
    by_cases hsame : other = id
    · rw [hsame]
      exact h.failing id inode hphase
    · rw [Function.update_of_ne hsame] at hdropped
      exact h.kept other found hdropped
  · simp only [work]
    omega

/-- The burdens of the children are the same for a longer queue. -/
theorem burdens_append (h : Represents host config phase daemon view)
    (waiting more : List Client) :
    daemon.children.map
        (burden ⟨waiting, daemon.network.accepted ++ more⟩) =
      daemon.children.map (burden daemon.network) := by
  apply List.map_congr_left
  intro child hchild
  obtain ⟨id, client, stage, hclient, -, hstands⟩ := h.children child hchild
  obtain ⟨hid, -⟩ := List.getElem?_eq_some_iff.mp hclient
  have hstill : (daemon.network.accepted ++ more)[id]? = some client := by
    rw [List.getElem?_append_left hid, hclient]
  rw [burden_eq hstands hclient, burden_eq hstands hstill]

/-- The server takes the next client from the queue. -/
theorem Draining.accepts {rest : Option Fd → Code Next} {client : Client}
    {waiting : List Client}
    (h : Draining host config first .idle daemon view)
    (hserver : daemon.server = serverAt host config .idle
      (.await (.accept (some (listenerFd host))) rest))
    (hwaiting : daemon.network.waiting = client :: waiting)
    (hkeeps : (rest (some (clientFd host config))).Keeps
      (serverContract host config) (Ends host config)
      (.accepted daemon.network.accepted.length client.inode))
    (hnext : next = { daemon with
      server := serverAt host config
        (.accepted daemon.network.accepted.length client.inode)
        (rest (some (clientFd host config)))
      network := ⟨waiting, daemon.network.accepted ++ [client]⟩ }) :
    (∃ view', Draining host config first
      (.accepted daemon.network.accepted.length client.inode) next view') ∧
        work next < work daemon := by
  subst hnext
  obtain ⟨-, hrepresents⟩ :=
    h.toRepresents.accepts hwaiting rfl (.running trivial hkeeps)
  refine ⟨⟨_, hrepresents, trivial, h.heard, ?_, ?_⟩, ?_⟩
  · rintro _ _ (hnot | hnot) <;> cases hnot
  · intro other found hdropped
    exact h.kept other found (dropped_of_update Stage.noConfusion hdropped)
  · have hafter : duty ⟨waiting, daemon.network.accepted ++ [client]⟩
        (serverAt host config
          (.accepted daemon.network.accepted.length client.inode)
          (rest (some (clientFd host config)))) ≤
        4 + promised ⟨waiting, daemon.network.accepted ++ [client]⟩
          daemon.network.accepted.length := duty_le trivial hkeeps
    have hpromised : promised ⟨waiting, daemon.network.accepted ++ [client]⟩
        daemon.network.accepted.length = patience client + 8 := by
      simp [promised]
    have hbefore : duty daemon.network daemon.server = 0 := by
      rw [hserver]
      rfl
    have hburdens := burdens_append h.toRepresents waiting [client]
    simp only [work, hbefore, hburdens, hwaiting, List.map_cons, List.sum_cons]
    omega

/-- The server hands a client over to a child. -/
theorem Draining.forks {id : ℕ} {inode : Inode} {rest : Forked → Code Next}
    (h : Draining host config first (.limited id inode) daemon view)
    (hserver : daemon.server = serverAt host config (.limited id inode)
      (.await .fork rest))
    (hkeeps : (rest .parent).Keeps (serverContract host config)
      (Ends host config) (.given id inode))
    (hchild : (rest .child).Keeps (serverContract host config)
      (Ends host config) (.entrusted id inode))
    (hnext : next = { daemon with
      server := serverAt host config (.given id inode) (rest .parent)
      children := daemon.children ++
        [childAt host config id inode (rest .child)] }) :
    (∃ view', Draining host config first (.given id inode) next view') ∧
      work next < work daemon := by
  obtain ⟨found, hfound, rfl, -⟩ := h.atHand id inode rfl
  have hgiven : ServerStands host config (.given id found.inode) _ :=
    .running trivial hkeeps
  have hforked : [childAt host config id found.inode (rest .child)].countP
      Process.isZombie = 0 := rfl
  obtain ⟨client, -, hrepresents⟩ :=
    h.toRepresents.forks rfl hgiven (.entrusted hchild)
  subst hnext
  refine ⟨⟨_, hrepresents, trivial, ?_, ?_, ?_⟩, ?_⟩
  · intro hzombies
    apply h.heard
    simpa [zombies, hforked] using hzombies
  · rintro _ _ (hnot | hnot) <;> cases hnot
  · intro other found hdropped
    exact h.kept other found (dropped_of_update Stage.noConfusion hdropped)
  · have hafter : duty daemon.network (serverAt host config
        (.given id found.inode) (rest .parent)) ≤ 2 := duty_le trivial hkeeps
    have hbefore : duty daemon.network daemon.server =
        3 + (patience found + 8) := by
      rw [hserver]
      simp [duty, serverAt, tableOf, connections_clientEntry, promised, hfound]
    have hburden : burden daemon.network (childAt host config id found.inode
        (rest .child)) = patience found + 8 := by
      rw [burden_eq (.entrusted hchild) hfound, cost_childAt]
    simp only [work, hbefore, List.map_append, List.map_cons, List.map_nil,
      List.sum_append, List.sum_cons, List.sum_nil, hburden]
    omega

/-- A step of the server that succeeds. -/
theorem Draining.serves (h : Draining host config first phase daemon view)
    (hstep : daemonStep host daemon (.server true) = some next) :
    ∃ later, (∃ view', Draining host config first later next view') ∧
      work next < work daemon := by
  rw [daemonStep] at hstep
  split_ifs at hstep
  obtain ⟨result, hresult, rfl⟩ := Option.map_eq_some_iff.mp hstep
  have hmove := serverStep_spec h.server hresult
  generalize hserver : daemon.server = server at hmove
  cases hmove with
  | again =>
      have hduty : duty daemon.network (serverAt host config .idle
          (mainRound (openedServer host config) config)) <
          duty daemon.network daemon.server := by
        rw [hserver]
        exact Nat.one_pos
      have hidle : ServerStands host config .idle _ :=
        .running trivial mainRound_keeps
      exact ⟨.idle, by simpa using h.silent hidle trivial rfl (by simp) hduty⟩
  | exits => exact h.started.elim
  | @answers _ later call answer rest hlocal hofServer hanswers hperform
      hkeeps =>
      have hfewer : Started later → phase ≠ .idle →
          dutyOf daemon.network later < dutyOf daemon.network phase →
          duty daemon.network (serverAt host config later (rest answer)) <
            duty daemon.network daemon.server := by
        intro hstarted hbusy hless
        rw [hserver, duty_await h.started ⟨answer, later, hanswers⟩,
          if_neg hbusy]
        exact (duty_le hstarted hkeeps).trans_lt hless
      cases hanswers with
      | limits id inode =>
          have hlimited : ServerStands host config (.limited id inode) _ :=
            .running trivial hkeeps
          have hduty := hfewer trivial (by simp) (by simp [dutyOf])
          exact ⟨_, by
            simpa using h.silent hlimited trivial rfl (by simp) hduty⟩
      | limitFails id inode =>
          have hlookup : lookup (some (clientFd host config))
              (tableOf host config (.accepted id inode)) =
                some ⟨.connection id none, inode⟩ := lookup_cons_self
          rw [perform_setReceiveTimeout true _ hlookup] at hperform
          cases hperform
      | rejects id inode =>
          have hidle : ServerStands host config .idle _ :=
            .running trivial hkeeps
          have hduty := hfewer trivial (by simp) (by simp [dutyOf])
          exact ⟨_, by simpa using h.drops (.inl rfl) hidle hduty⟩
      | drops id inode =>
          have hidle : ServerStands host config .idle _ :=
            .running trivial hkeeps
          have hduty := hfewer trivial (by simp) (by simp [dutyOf])
          exact ⟨_, by simpa using h.drops (.inr rfl) hidle hduty⟩
      | leaves id inode =>
          have hidle : ServerStands host config .idle _ :=
            .running trivial hkeeps
          have hduty := hfewer trivial (by simp) (by simp [dutyOf])
          exact ⟨_, by simpa using h.silent hidle trivial rfl (by simp) hduty⟩
      | _ => first | exact h.started.elim | cases hlocal
  | acceptFails hfails => cases hfails
  | accepts hwaiting hkeeps =>
      obtain ⟨hdraining, hless⟩ := h.accepts hserver hwaiting hkeeps rfl
      exact ⟨_, by simpa using hdraining, by simpa using hless⟩
  | forkFails hfails => cases hfails
  | forks hkeeps hchild => exact ⟨_, h.forks hserver hkeeps hchild rfl⟩

theorem Draining.step (h : Draining host config first phase daemon view)
    (hinternal : internal action)
    (hstep : daemonStep host daemon action = some next) :
    ∃ later, (∃ view', Draining host config first later next view') ∧
      work next < work daemon := by
  cases action with
  | server succeeds =>
      rw [show succeeds = true from hinternal] at hstep
      exact h.serves hstep
  | _ => exact ⟨phase, h.others hinternal (by simp) hstep⟩

/-- A server that is drained stays so, with less to do. -/
theorem exists_draining_step
    (h : ∃ phase view, Draining host config first phase daemon view)
    (hinternal : internal action)
    (hstep : daemonStep host daemon action = some next) :
    (∃ phase view, Draining host config first phase next view) ∧
      work next < work daemon := by
  obtain ⟨phase, view, hdraining⟩ := h
  obtain ⟨later, hnext, hless⟩ := hdraining.step hinternal hstep
  exact ⟨⟨later, hnext⟩, hless⟩

/-- No internal action is left. -/
def Stuck (host : Host) (daemon : Daemon) : Prop :=
  ∀ action, internal action → daemonStep host daemon action = none

/-- Nobody waits, and everybody whose calls have returned has been waited
for. -/
structure AtRest (host : Host) (config : ServerConfig) (daemon : Daemon) :
    Prop where
  waiting : daemon.network.waiting = []
  server : daemon.server.table = idleTable host config
  children : ∀ child ∈ daemon.children, isHung child = false →
    child.activity = .reaped ∧ child.table = []
  quiet : daemon.pendingSignal = false ∧ daemon.reaping = false

/-- The handler of `SIGCHLD` is never stuck. -/
theorem quiet_of_stuck (hheard : Heard daemon) (hstuck : Stuck host daemon) :
    daemon.pendingSignal = false ∧ daemon.reaping = false ∧
      zombies daemon = 0 := by
  have hreaping : daemon.reaping = false := by
    by_contra hreaping
    rw [Bool.not_eq_false] at hreaping
    by_cases hnone : zombies daemon = 0
    · have hdone := hstuck .reaped trivial
      have hquiet : daemon.children.any Process.isZombie = false := by
        rw [List.any_eq_false]
        exact List.countP_eq_zero.mp hnone
      simp [daemonStep, hreaping, hquiet] at hdone
    · obtain ⟨child, hchild, hzombie⟩ :=
        List.countP_pos_iff.mp (Nat.pos_of_ne_zero hnone)
      obtain ⟨index, hindex⟩ := List.mem_iff_getElem?.mp hchild
      have hreap := hstuck (.reap index) trivial
      rw [daemonStep_reap host hreaping hindex hzombie] at hreap
      cases hreap
  have hpending : daemon.pendingSignal = false := by
    by_contra hpending
    have hinterrupt := hstuck .interrupt trivial
    simp [daemonStep, hreaping, Bool.not_eq_false _ ▸ hpending] at hinterrupt
  refine ⟨hpending, hreaping, ?_⟩
  by_contra hzombies
  simpa [hpending, hreaping] using hheard hzombies

/-- A child that is stuck though its calls have returned has been waited
for. -/
theorem reaped_of_stuck (h : Represents host config phase daemon view)
    (hstuck : Stuck host daemon) (hnone : zombies daemon = 0)
    {child : Process} (hchild : child ∈ daemon.children)
    (hreturns : isHung child = false) :
    ∃ id client code w, child =
        { table := []
          activity := .reaped
          serves := some id
          handled := some (code, w) } ∧
      daemon.network.accepted[id]? = some client := by
  obtain ⟨id, client, stage, hclient, -, hstands⟩ := h.children child hchild
  obtain ⟨index, hindex⟩ := List.mem_iff_getElem?.mp hchild
  have hover : isOver child = true := by
    by_cases hleft : remaining client child = 0
    · exact isOver_of_remaining hstands hreturns hleft
    · have hstep := hstuck (.child index true) trivial
      rw [daemonStep, hindex, Option.bind_some, Option.map_eq_none_iff] at hstep
      have hexists := childStep_exists true hstands hclient hleft
      rw [hstep] at hexists
      cases hexists
  cases hstands with
  | exited => exact absurd rfl (List.countP_eq_zero.mp hnone _ hchild)
  | @reaped code w => exact ⟨id, client, code, w, rfl, hclient⟩
  | _ => cases hover

theorem idle_of_stuck (h : Draining host config first phase daemon view)
    (hstuck : Stuck host daemon) (hreaping : daemon.reaping = false) :
    phase = .idle ∧ daemon.network.waiting = [] := by
  have hserver := hstuck (.server true) rfl
  rw [daemonStep, hreaping, if_neg Bool.false_ne_true,
    Option.map_eq_none_iff] at hserver
  have hstands := h.server
  have hstarted := h.started
  have hlives : daemon.server.activity ≠ .exited .failure := by
    generalize daemon.server = server at hstands
    cases hstands with
    | running => simp [serverAt]
    | exited => exact hstarted.elim
  obtain hexists | ⟨hidle, -, -, hwaiting⟩ :=
    serverStep_exists true h.server hlives
  · rw [hserver] at hexists
    cases hexists
  · exact ⟨hidle, hwaiting⟩

theorem atRest_of_stuck (h : Draining host config first phase daemon view)
    (hstuck : Stuck host daemon) : AtRest host config daemon := by
  obtain ⟨hpending, hreaping, hnone⟩ := quiet_of_stuck h.heard hstuck
  obtain ⟨rfl, hwaiting⟩ := idle_of_stuck h hstuck hreaping
  refine ⟨hwaiting, ?_, ?_, hpending, hreaping⟩
  · have hstands := h.server
    generalize daemon.server = server at hstands
    cases hstands
    rfl
  · intro child hchild hreturns
    obtain ⟨id, client, code, w, rfl, -⟩ :=
      reaped_of_stuck h.toRepresents hstuck hnone hchild hreturns
    exact ⟨rfl, rfl⟩

/-- The calls that are made for a client have returned. -/
def Unhindered (daemon : Daemon) (id : ℕ) : Prop :=
  ∀ child ∈ daemon.children, child.serves = some id → isHung child = false

/-- A client that was not turned away has been handled by a child. -/
theorem exists_handled (h : Draining host config first phase daemon view)
    (hstuck : Stuck host daemon) {id : ℕ} (hid : first ≤ id)
    {client : Client}
    (hclient : (Network.clients daemon.network)[id]? = some client)
    (hreturns : Unhindered daemon id) :
    ∃ child ∈ daemon.children, child.serves = some id ∧
      child.handled.isSome = true := by
  obtain ⟨-, hreaping, hnone⟩ := quiet_of_stuck h.heard hstuck
  obtain ⟨rfl, hwaiting⟩ := idle_of_stuck h hstuck hreaping
  rw [Network.clients, hwaiting, List.append_nil] at hclient
  have hserved : ¬ Unserved daemon.children id := by
    intro hfree
    have hdropped := h.dropped id client hclient hfree (by simp [hand])
    exact absurd (h.kept id client hdropped) (Nat.not_lt.mpr hid)
  obtain ⟨child, hchild, hserves⟩ : ∃ child ∈ daemon.children,
      child.serves = some id := by
    simpa [Unserved] using hserved
  refine ⟨child, hchild, hserves, ?_⟩
  obtain ⟨other, found, code, w, rfl, -⟩ :=
    reaped_of_stuck h.toRepresents hstuck hnone hchild
      (hreturns child hchild hserves)
  rfl

end Steps

section Start

variable {host : Host} {config : ServerConfig} {phase : Phase}
variable {daemon : Daemon} {view : ℕ → Option Visit}

/-- Those who are in the queue of a server that listens have not been turned
away. -/
theorem draining_of_isListening
    (h : Represents host config phase daemon view) (hheard : Heard daemon)
    (hlistens : isListening daemon.server.table = true) :
    Draining host config daemon.network.accepted.length phase daemon view where
  toRepresents := h
  started := started_of_isListening h.server hlistens
  heard := hheard
  failing id inode hphase := by
    have hhand : hand phase = some (id, inode) := by
      obtain rfl | rfl := hphase <;> rfl
    obtain ⟨client, hclient, -⟩ := h.atHand id inode hhand
    exact (List.getElem?_eq_some_iff.mp hclient).1
  kept id client hdropped := by
    by_contra hid
    have hwaiting := h.waiting (id - daemon.network.accepted.length)
    rw [Nat.add_sub_of_le (by omega), hdropped] at hwaiting
    obtain ⟨found, -, hfound⟩ := Option.map_eq_some_iff.mp hwaiting.symm
    cases hfound

/-- Where the calls that return are used up, no call is left. -/
theorem stuck_of_returning (h : Represents host config phase daemon view)
    (hnone : ∀ action, internal action → hanging action = none →
      daemonStep host daemon action = none) : Stuck host daemon := by
  intro action hallowed
  cases action with
  | hang index count part =>
      rw [Option.eq_none_iff_forall_ne_some]
      intro next hstep
      obtain ⟨child, hindex, hrest⟩ := Option.bind_eq_some_iff.mp hstep
      obtain ⟨hung, hhang, -⟩ := Option.map_eq_some_iff.mp hrest
      obtain ⟨id, client, stage, hclient, -, hstands⟩ :=
        h.children child (List.mem_of_getElem? hindex)
      obtain ⟨-, hleft, -⟩ := childHang_spec hstands hhang
      have hexists := childStep_exists true hstands hclient hleft
      have hstuck := hnone (.child index true) trivial rfl
      rw [daemonStep, hindex, Option.bind_some, Option.map_eq_none_iff]
        at hstuck
      rw [hstuck] at hexists
      cases hexists
  | _ => exact hnone _ hallowed rfl

/-- From when the server listens, it can be left to itself until nothing is
left to do, with calls that all return. -/
theorem exists_stuck (h : Represents host config phase daemon view)
    (hheard : Heard daemon)
    (hlistens : isListening daemon.server.table = true) :
    ∃ schedule later, (∀ action ∈ schedule, internal action) ∧
      (∀ action ∈ schedule, hanging action = none) ∧
      (daemonMachine host).run daemon schedule = some later ∧
      Stuck host later := by
  have hstep : ∀ state action next,
      (∃ phase view, Draining host config daemon.network.accepted.length phase
        state view) → internal action ∧ hanging action = none →
      (daemonMachine host).step state action = some next →
        (∃ phase view, Draining host config daemon.network.accepted.length
          phase next view) ∧ work next < work state :=
    fun _ _ _ hstate hallowed hstep =>
      exists_draining_step hstate hallowed.1 hstep
  obtain ⟨schedule, later, hall, hrun, ⟨_, _, hdraining⟩, hstopped⟩ :=
    exists_stopped _ work (fun action => internal action ∧
      hanging action = none) hstep
      ⟨phase, view, draining_of_isListening h hheard hlistens⟩
  exact ⟨schedule, later, fun action haction => (hall action haction).1,
    fun action haction => (hall action haction).2, hrun,
    stuck_of_returning hdraining.toRepresents fun action hallowed hreturns =>
      hstopped action ⟨hallowed, hreturns⟩⟩

end Start

theorem unhindered_of_run {host : Host} {argv : List CString}
    {schedule : List Action} {daemon : Daemon}
    (hrun : (daemonMachine host).run (boot host argv) schedule = some daemon)
    (hreturns : ∀ action ∈ schedule, hanging action = none) (id : ℕ) :
    Unhindered daemon id :=
  fun child hchild _ => not_hung_of_run hrun hreturns child hchild

section Drained

variable {host : Host} {argv : List CString} {past schedule : List Action}
variable {daemon later : Daemon}

/-- A schedule without newcomers, after one that has led to a server that
listens. -/
structure Drains (host : Host) (argv : List CString)
    (past schedule : List Action) (daemon later : Daemon) : Prop where
  past : (daemonMachine host).run (boot host argv) past = some daemon
  listens : isListening daemon.server.table = true
  internal : ∀ action ∈ schedule, internal action
  run : (daemonMachine host).run daemon schedule = some later

theorem Drains.whole (h : Drains host argv past schedule daemon later) :
    (daemonMachine host).run (boot host argv) (past ++ schedule) =
      some later := by
  rw [run_append, h.past, Option.bind_some, h.run]

theorem Drains.nobody_new (h : Drains host argv past schedule daemon later) :
    (past ++ schedule).flatMap newcomers = past.flatMap newcomers := by
  have hnobody : schedule.flatMap newcomers = [] := by
    rw [List.flatMap_eq_nil_iff]
    intro action haction
    have hallowed := h.internal action haction
    cases action <;> first | rfl | exact hallowed.elim
  rw [List.flatMap_append, hnobody, List.append_nil]

theorem Drains.draining (h : Drains host argv past schedule daemon later) :
    (∃ phase view, Draining host (configured argv)
        daemon.network.accepted.length phase later view) ∧
      schedule.length ≤ work daemon := by
  obtain ⟨phase, view, hrepresents, -⟩ := represents_of_run h.past
  have hdraining := draining_of_isListening hrepresents
    (heard_of_reachable ⟨past, h.past⟩) h.listens
  obtain ⟨hlater, hcount⟩ := run_countP_le
    (fun state => ∃ phase view, Draining host (configured argv)
      daemon.network.accepted.length phase state view)
    work Completion.internal (fun _ => true)
    (fun _ _ _ hstate hallowed hstep =>
      exists_draining_step hstate hallowed hstep)
    ⟨phase, view, hdraining⟩ h.internal h.run
  rw [List.countP_true] at hcount
  exact ⟨hlater, by omega⟩

/-- When nothing is left to do everybody who was waiting has been handled, but
those whose child is in a call that does not return. -/
theorem Drains.handled (h : Drains host argv past schedule daemon later)
    (hstuck : Stuck host later) {id : ℕ} {client : Client}
    (hid : daemon.network.accepted.length ≤ id)
    (hclient : (past.flatMap newcomers)[id]? = some client)
    (hreturns : Unhindered later id) :
    ∃ child ∈ later.children, child.serves = some id ∧
      child.handled.isSome = true := by
  obtain ⟨⟨phase, view, hdraining⟩, -⟩ := h.draining
  rw [← h.nobody_new, ← clients_eq h.whole] at hclient
  exact exists_handled hdraining hstuck hid hclient hreturns

end Drained

/-- Everyone in the queue is served: from when the server listens, as long as
no more clients come and its calls succeed, it takes no more steps with its
children than there is work.  When no step is left, then as long as the calls
of the children have returned, the server is at rest and everybody who was
waiting has been sent all that it would be sent alone; and a call of one child
that does not return holds nobody else up. -/
theorem everyone_served {host : Host} {argv : List CString}
    {past schedule : List Action} {daemon later : Daemon}
    (hdrains : Drains host argv past schedule daemon later) :
    schedule.length ≤ work daemon ∧ (Stuck host later →
      AtRest host (configured argv) later ∧
        ∀ id client, daemon.network.accepted.length ≤ id →
          (past.flatMap newcomers)[id]? = some client →
          Unhindered later id →
            sentTo later id =
              written (handledAlone host (configured argv) client).2.trace) ∧
      ((∀ action ∈ past ++ schedule, hanging action = none) →
        ∀ child ∈ later.children, isHung child = false) := by
  obtain ⟨⟨phase, view, hdraining⟩, hshort⟩ := hdrains.draining
  refine ⟨hshort, fun hstuck => ⟨atRest_of_stuck hdraining hstuck, ?_⟩,
    not_hung_of_run hdrains.whole⟩
  intro id client hid hclient hreturns
  obtain ⟨child, hchild, hserves, hhandled⟩ :=
    hdrains.handled hstuck hid hclient hreturns
  obtain ⟨result, hresult⟩ := Option.isSome_iff_exists.mp hhandled
  rw [← hdrains.nobody_new] at hclient
  obtain ⟨hsame, hsent⟩ := (sentTo_of_run hdrains.whole hclient).2 child hchild
    hserves result hresult
  rw [hsent, hsame]

/-- Visitors queue at a server that listens. -/
theorem exists_gathered (visitors : List Client) :
    ∃ daemon, (daemonMachine smallHost).run (boot smallHost [])
        (gathering visitors) = some daemon ∧
      isListening daemon.server.table = true ∧
      daemon.network.accepted = [] := by
  have hstart : ∃ daemon, (daemonMachine smallHost).run (boot smallHost [])
      (List.replicate 6 (.server true)) = some daemon ∧
        isListening daemon.server.table = true ∧
        daemon.network.accepted = [] := ⟨_, rfl, rfl, rfl⟩
  obtain ⟨daemon, hstart, hlistens, haccepted⟩ := hstart
  rw [gathering, run_append, hstart, Option.bind_some]
  clear hstart
  induction visitors generalizing daemon with
  | nil => exact ⟨daemon, rfl, hlistens, haccepted⟩
  | cons client visitors ih =>
      have hconnects : ∃ next,
          daemonStep smallHost daemon (.connect client) = some next ∧
            isListening next.server.table = true ∧
            next.network.accepted = [] :=
        ⟨_, if_pos hlistens, hlistens, haccepted⟩
      obtain ⟨next, hconnects, hstill, hnobody⟩ := hconnects
      obtain ⟨later, hrun, hlater⟩ := ih next hstill hnobody
      exact ⟨later, Option.bind_eq_some_iff.mpr ⟨next, hconnects, hrun⟩, hlater⟩

theorem hanging_gathering (visitors : List Client) :
    ∀ action ∈ gathering visitors, hanging action = none := by
  intro action haction
  obtain hserver | hconnects := List.mem_append.mp haction
  · rw [List.eq_of_mem_replicate hserver]
    rfl
  · obtain ⟨client, -, rfl⟩ := List.mem_map.mp hconnects
    rfl

/-- A run in which the visitors are served. -/
theorem exists_drains (visitors : List Client) :
    ∃ schedule daemon later, Drains smallHost [] (gathering visitors)
        schedule daemon later ∧
      Stuck smallHost later ∧ daemon.network.accepted.length = 0 ∧
      ∀ action ∈ gathering visitors ++ schedule, hanging action = none := by
  obtain ⟨daemon, hpast, hlistens, haccepted⟩ := exists_gathered visitors
  obtain ⟨phase, view, hrepresents, -⟩ := represents_of_run hpast
  obtain ⟨schedule, later, hinternal, hreturns, hrun, hstuck⟩ :=
    exists_stuck hrepresents (heard_of_reachable ⟨_, hpast⟩) hlistens
  refine ⟨schedule, daemon, later, ⟨hpast, hlistens, hinternal, hrun⟩, hstuck,
    congrArg List.length haccepted, ?_⟩
  intro action haction
  exact (List.mem_append.mp haction).elim (hanging_gathering visitors action)
    (hreturns action)

theorem everyone_served_pair :
    ∃ schedule later, (daemonMachine smallHost).run (boot smallHost [])
        (gathering [visitor, caller] ++ schedule) = some later ∧
      AtRest smallHost (configured []) later ∧
      (∀ child ∈ later.children, isHung child = false) ∧
      sentTo later 0 =
        written (handledAlone smallHost (configured []) visitor).2.trace ∧
      sentTo later 1 =
        written (handledAlone smallHost (configured []) caller).2.trace := by
  obtain ⟨schedule, daemon, later, hdrains, hstuck, haccepted, hreturns⟩ :=
    exists_drains [visitor, caller]
  obtain ⟨-, hall, hfree⟩ := everyone_served hdrains
  obtain ⟨hrest, hserved⟩ := hall hstuck
  have hunhindered := unhindered_of_run hdrains.whole hreturns
  rw [haccepted] at hserved
  exact ⟨schedule, later, hdrains.whole, hrest, hfree hreturns,
    hserved 0 visitor (Nat.zero_le _) rfl (hunhindered 0),
    hserved 1 caller (Nat.zero_le _) rfl (hunhindered 1)⟩

end HttpCerver.Completion
