import HttpCerver.Server.ForkServer

/-!
# Sessions

The two nested loops of the handler as one relation: a session goes on from
the bytes that are pending and the state of the world, one receive or one
answered head at a time.  Every run of the handler is a session, so what holds
of sessions holds of the handler.
-/

namespace HttpCerver.Sessions

open HttpCerver.Answers
open HttpCerver.Bytes
open HttpCerver.Config
open HttpCerver.Connection
open HttpCerver.Exchange
open HttpCerver.ForkServer
open HttpCerver.Http
open HttpCerver.Iteration
open HttpCerver.Request
open HttpCerver.Response
open HttpCerver.System

/-- How much is received at a time while `pending` is in the buffer. -/
def window (config : ServerConfig) (pending : List Byte) : ℕ :=
  min (config.httpBufferSize - pending.length) receiveBufferSize

/-- From pending bytes and a world to the result of the handler. -/
inductive Session (rootFd : Fd) (config : ServerConfig) :
    List Byte → World → ReturnCode × World → Prop
  | interrupted {pending : List Byte} {w w' : World}
      {result : ReturnCode × World}
      (hidle : httpFindHeaderEnd pending = none)
      (hspace : pending.length < config.httpBufferSize)
      (hrecv : recv (window config pending) w = (.error .eintr, w'))
      (hrest : Session rootFd config pending w' result) :
      Session rootFd config pending w result
  | received {pending bytes : List Byte} {w w' : World}
      {result : ReturnCode × World}
      (hidle : httpFindHeaderEnd pending = none)
      (hspace : pending.length < config.httpBufferSize)
      (hrecv : recv (window config pending) w = (.ok bytes, w'))
      (hbytes : bytes ≠ [])
      (hrest : Session rootFd config (pending ++ bytes) w' result) :
      Session rootFd config pending w result
  | ended {pending : List Byte} {w w' : World}
      (hidle : httpFindHeaderEnd pending = none)
      (hspace : pending.length < config.httpBufferSize)
      (hrecv : recv (window config pending) w = (.ok [], w')) :
      Session rootFd config pending w (.success, w')
  | broken {pending : List Byte} {errno : Errno} {w w' : World}
      (hidle : httpFindHeaderEnd pending = none)
      (hspace : pending.length < config.httpBufferSize)
      (hrecv : recv (window config pending) w = (.error errno, w'))
      (herrno : errno ≠ .eintr) :
      Session rootFd config pending w (.failure, w')
  | overflowed {pending : List Byte} {w : World}
      (hidle : httpFindHeaderEnd pending = none)
      (hfull : pending.length = config.httpBufferSize) :
      Session rootFd config pending w
        (.failure, (httpSendError .requestHeaderFieldsTooLarge false w).2)
  | aborted {pending : List Byte} {length : ℕ} {w w' : World}
      (hready : httpFindHeaderEnd pending = some length)
      (haborted : Aborted rootFd config (pending.take length) false w w') :
      Session rootFd config pending w (.failure, w')
  | closed {pending : List Byte} {length : ℕ} {w w' : World}
      {answer : Answer} {opening closed : List Event}
      {writes : List (List Byte)}
      (hready : httpFindHeaderEnd pending = some length)
      (hanswered : Answered rootFd config (pending.take length) false w answer
        opening writes closed w')
      (hcloses : answer.closes = true) :
      Session rootFd config pending w (.success, w')
  | answered {pending : List Byte} {length : ℕ} {w w' : World}
      {result : ReturnCode × World} {answer : Answer}
      {opening closed : List Event} {writes : List (List Byte)}
      (hready : httpFindHeaderEnd pending = some length)
      (hanswered : Answered rootFd config (pending.take length) false w answer
        opening writes closed w')
      (hcloses : answer.closes = false)
      (hrest : Session rootFd config (pending.drop length) w' result) :
      Session rootFd config pending w result

variable {rootFd : Fd} {config : ServerConfig}

/-- The part of a session that the request loop accounts for. -/
inductive Processed (rootFd : Fd) (config : ServerConfig)
    (connection : HttpConnection) (w : World) :
    ReturnCode × HttpConnection × World → Prop
  | failed {connection' : HttpConnection} {w' : World}
      (hsession : Session rootFd config connection.pending w (.failure, w')) :
      Processed rootFd config connection w (.failure, connection', w')
  | closing {connection' : HttpConnection} {w' : World}
      (hclose : connection'.closeConnection = true)
      (hsession : Session rootFd config connection.pending w (.success, w')) :
      Processed rootFd config connection w (.success, connection', w')
  | waiting {connection' : HttpConnection} {w' : World}
      (hclose : connection'.closeConnection = false)
      (hcapacity : connection'.bufferCapacity = connection.bufferCapacity)
      (hidle : httpFindHeaderEnd connection'.pending = none)
      (hsession : ∀ result,
        Session rootFd config connection'.pending w' result →
          Session rootFd config connection.pending w result) :
      Processed rootFd config connection w (.success, connection', w')

/-- An answered head in front of what the loop does next. -/
theorem Processed.answered {connection next : HttpConnection} {w w' : World}
    {length : ℕ} {answer : Answer} {opening closed : List Event}
    {writes : List (List Byte)} {result : ReturnCode × HttpConnection × World}
    (hready : httpFindHeaderEnd connection.pending = some length)
    (hanswered : Answered rootFd config (connection.pending.take length) false
      w answer opening writes closed w')
    (hcloses : answer.closes = false)
    (hpending : next.pending = connection.pending.drop length)
    (hcapacity : next.bufferCapacity = connection.bufferCapacity)
    (hrest : Processed rootFd config next w' result) :
    Processed rootFd config connection w result := by
  have hstep : ∀ result, Session rootFd config next.pending w' result →
      Session rootFd config connection.pending w result := by
    intro result hsession
    rw [hpending] at hsession
    exact .answered hready hanswered hcloses hsession
  cases hrest with
  | failed hsession => exact .failed (hstep _ hsession)
  | closing hclose hsession => exact .closing hclose (hstep _ hsession)
  | waiting hclose hsame hidle hsession =>
      exact .waiting hclose (hsame.trans hcapacity) hidle
        fun result hlater => hstep _ (hsession result hlater)

theorem httpProcessLoop_processed (hconfig : httpConfigValid config = true)
    (rootFd : Fd) (state : HttpConnection × World)
    (hopen : state.1.closeConnection = false) :
    Processed rootFd config state.1 state.2
      ((httpProcessLoop rootFd config).run state) := by
  refine (httpProcessLoop rootFd config).run_induction
    (motive := fun state result => state.1.closeConnection = false →
      Processed rootFd config state.1 state.2 result) ?_ ?_ state hopen
  · rintro ⟨connection, w⟩ result hbody hopen
    have hround := round_of_body hconfig hbody
    dsimp only at hopen
    cases hround with
    | idle hidle => exact .waiting hopen rfl hidle fun _ hsession => hsession
    | aborted hready haborted =>
        rw [hopen] at haborted
        exact .failed (.aborted hready haborted)
    | closing hready hanswered hcloses hclose =>
        rw [hopen] at hanswered
        exact .closing hclose (.closed hready hanswered hcloses)
  · rintro ⟨connection, w⟩ next result hbody hnext hopen
    have hround := round_of_body hconfig hbody
    dsimp only at hopen
    cases hround with
    | continuing hready hanswered hcloses hclose hpending hcapacity =>
        rw [hopen] at hanswered
        exact (hnext hclose).answered hready hanswered hcloses hpending
          hcapacity

/-- The capacity that the handler asks for is the window. -/
theorem receiveCapacity_eq {connection : HttpConnection}
    (hcapacity : connection.bufferCapacity = config.httpBufferSize) :
    receiveCapacity connection = window config connection.pending := by
  rw [receiveCapacity, httpConnectionBufferSpace_eq, hcapacity, window]
  split_ifs <;> omega

theorem forkServerReceive_of_closed {connection : HttpConnection} {w : World}
    (hclose : connection.closeConnection = true) :
    forkServerReceive rootFd config (connection, w) = .inr (.success, w) := by
  simp only [forkServerReceive, hclose, if_true]

/-- What a round of the handler does when the connection stays open. -/
theorem forkServerReceive_spec (hconfig : httpConfigValid config = true)
    (rootFd : Fd) {connection : HttpConnection} (w : World)
    (hopen : connection.closeConnection = false)
    (hcapacity : connection.bufferCapacity = config.httpBufferSize)
    (hidle : httpFindHeaderEnd connection.pending = none) :
    match forkServerReceive rootFd config (connection, w) with
    | .inr result => Session rootFd config connection.pending w result
    | .inl (next, w') => ∀ result,
        (next.closeConnection = true → result = (.success, w')) →
        (next.closeConnection = false →
          next.bufferCapacity = config.httpBufferSize →
          httpFindHeaderEnd next.pending = none →
            Session rootFd config next.pending w' result) →
        Session rootFd config connection.pending w result := by
  have hwindow := receiveCapacity_eq hcapacity
  have hlength := length_pending connection
  have hused := connection.bufferUsed_le
  unfold forkServerReceive
  simp only [hopen, hwindow]
  by_cases hfull : window config connection.pending = 0
  · have hsize : connection.pending.length = config.httpBufferSize := by
      rw [window, receiveBufferSize] at hfull
      omega
    simp only [hfull]
    exact .overflowed hidle hsize
  · have hspace : connection.pending.length < config.httpBufferSize := by
      rw [window, receiveBufferSize] at hfull
      omega
    simp only [hfull, if_false]
    have hreceipt := recv_spec (window config connection.pending) w
    generalize hrecv : recv (window config connection.pending) w = received
      at hreceipt
    cases hreceipt with
    | @failed errno recvs hrecvs =>
        dsimp only
        by_cases herrno : errno = .eintr
        · subst herrno
          rw [if_pos rfl]
          intro result _ hrest
          exact .interrupted hidle hspace hrecv (hrest hopen hcapacity hidle)
        · rw [if_neg herrno]
          exact .broken hidle hspace hrecv herrno
    | @received bytes rest recvs hincoming hbound hempty hrecvs =>
        dsimp only
        by_cases hbytes : bytes = []
        · subst hbytes
          rw [if_pos rfl]
          exact .ended hidle hspace hrecv
        · rw [if_neg hbytes]
          have hfits : bytes.length ≤
              connection.bufferCapacity - connection.pending.length := by
            rw [hcapacity]
            exact hbound.trans (Nat.min_le_left _ _)
          obtain ⟨fed, hfed, hpending, hfedCapacity, hfedClose⟩ :=
            httpConnectionFeed_eq_some hfits
          have hprocessed := httpProcessLoop_processed hconfig rootFd
            (fed, { log .recv w with incoming := rest, recvs := recvs })
            (hfedClose.trans hopen)
          have hreceived : ∀ result, Session rootFd config fed.pending
              { log .recv w with incoming := rest, recvs := recvs } result →
              Session rootFd config connection.pending w result := by
            intro result hsession
            rw [hpending] at hsession
            exact .received hidle hspace hrecv hbytes hsession
          simp only [hfed, httpProcessConnection, hconfig, not_true, if_false]
          generalize (httpProcessLoop rootFd config).run (fed,
            { log .recv w with incoming := rest, recvs := recvs }) = processed
            at hprocessed
          cases hprocessed with
          | failed hsession => exact hreceived _ hsession
          | closing hclose hsession =>
              intro result hdone _
              rw [hdone hclose]
              exact hreceived _ hsession
          | waiting hclose hsame hlater hsession =>
              intro result _ hrest
              exact hreceived _ (hsession result (hrest hclose
                ((hsame.trans hfedCapacity).trans hcapacity) hlater))

/-- The loop of the handler, entered with no complete head pending. -/
theorem forkServerLoop_session (hconfig : httpConfigValid config = true)
    (rootFd : Fd) (state : HttpConnection × World) :
    (state.1.closeConnection = true →
      (forkServerLoop rootFd config).run state = (.success, state.2)) ∧
    (state.1.closeConnection = false →
      state.1.bufferCapacity = config.httpBufferSize →
      httpFindHeaderEnd state.1.pending = none →
      Session rootFd config state.1.pending state.2
        ((forkServerLoop rootFd config).run state)) := by
  refine (forkServerLoop rootFd config).run_induction
    (motive := fun state result =>
      (state.1.closeConnection = true → result = (.success, state.2)) ∧
      (state.1.closeConnection = false →
        state.1.bufferCapacity = config.httpBufferSize →
        httpFindHeaderEnd state.1.pending = none →
        Session rootFd config state.1.pending state.2 result)) ?_ ?_ state
  · rintro ⟨connection, w⟩ result hbody
    change forkServerReceive rootFd config (connection, w) = .inr result
      at hbody
    constructor
    · intro hclose
      rw [forkServerReceive_of_closed hclose] at hbody
      exact (Sum.inr.inj hbody).symm
    · intro hopen hcapacity hidle
      have hspec := forkServerReceive_spec hconfig rootFd w hopen hcapacity hidle
      rw [hbody] at hspec
      exact hspec
  · rintro ⟨connection, w⟩ ⟨next, w'⟩ result hbody ⟨hdone, hrest⟩
    change forkServerReceive rootFd config (connection, w) = .inl (next, w')
      at hbody
    constructor
    · intro hclose
      rw [forkServerReceive_of_closed hclose] at hbody
      cases hbody
    · intro hopen hcapacity hidle
      have hspec := forkServerReceive_spec hconfig rootFd w hopen hcapacity hidle
      rw [hbody] at hspec
      exact hspec result hdone hrest

/-- Every run of the handler is a session on an empty buffer, unless there is
no memory for the buffer. -/
theorem forkServerHandleConnection_session
    (hconfig : httpConfigValid config = true) (rootFd : Fd) (w : World) :
    ∃ mallocs, mallocs <:+ w.mallocs ∧
      (Session rootFd config [] { w with mallocs := mallocs }
          (forkServerHandleConnection rootFd config w) ∨
        false ∈ w.mallocs ∧ forkServerHandleConnection rootFd config w =
          (.failure, { w with mallocs := mallocs })) := by
  have hsize : config.httpBufferSize ≠ 0 := by
    intro hzero
    simp [httpConfigValid, hzero] at hconfig
  obtain ⟨mallocs, hsuffix, ⟨connection, hinit, hpending, hcapacity, hopen⟩ |
    ⟨hfails, hinit⟩⟩ := httpConnectionInit_spec hsize w
  · refine ⟨mallocs, hsuffix, .inl ?_⟩
    have hsession := (forkServerLoop_session hconfig rootFd
      (connection, { w with mallocs := mallocs })).2 hopen hcapacity
      (by rw [hpending]; decide)
    rw [hpending] at hsession
    rw [forkServerHandleConnection, hinit]
    exact hsession
  · exact ⟨mallocs, hsuffix, .inr ⟨hfails,
      by rw [forkServerHandleConnection, hinit]⟩⟩

end HttpCerver.Sessions
