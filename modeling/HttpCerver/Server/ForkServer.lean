import HttpCerver.Server.Exchange

/-!
# The connection handler

The model of `fork_server.c`: the loop that receives, feeds the buffer and has
the complete requests answered, until the client is done, the connection is to
be closed or something goes wrong.
-/

namespace HttpCerver.ForkServer

open HttpCerver.Bytes
open HttpCerver.Config
open HttpCerver.Connection
open HttpCerver.Exchange
open HttpCerver.Http
open HttpCerver.Iteration
open HttpCerver.Request
open HttpCerver.Response
open HttpCerver.System

/-- `sizeof(receive_buffer)`. -/
def receiveBufferSize : ℕ := 4096

/-- How much the next `recv` asks for. -/
def receiveCapacity (connection : HttpConnection) : ℕ :=
  let remainingCapacity := httpConnectionBufferSpace connection
  if remainingCapacity < receiveBufferSize then remainingCapacity
  else receiveBufferSize

/-- One round of the loop of `fork_server_handle_connection`.  A receive
timeout and all other errors but `EINTR` end it the same way. -/
def forkServerReceive (rootFd : Fd) (config : ServerConfig)
    (state : HttpConnection × World) :
    (HttpConnection × World) ⊕ (ReturnCode × World) :=
  let (connection, w) := state
  if connection.closeConnection then .inr (.success, w)
  else if receiveCapacity connection = 0 then
    .inr (.failure, (httpSendError .requestHeaderFieldsTooLarge false w).2)
  else
    match recv (receiveCapacity connection) w with
    | (.error errno, w) =>
      if errno = .eintr then .inl (connection, w) else .inr (.failure, w)
    | (.ok received, w) =>
      if received = [] then .inr (.success, w)
      else
        match httpConnectionFeed connection received with
        | none =>
          .inr (.failure,
            (httpSendError .requestHeaderFieldsTooLarge false w).2)
        | some connection =>
          match httpProcessConnection rootFd config connection w with
          | (.failure, _, w) => .inr (.failure, w)
          | (.success, connection, w) => .inl (connection, w)

/-- Processing takes nothing from the input, and closes what it opens unless it
fails. -/
theorem httpProcessConnection_input {rootFd : Fd} {config : ServerConfig}
    {connection connection' : HttpConnection} {w w' : World}
    (hprocess : httpProcessConnection rootFd config connection w =
      (.success, connection', w')) :
    w'.incoming = w.incoming ∧ w'.recvs = w.recvs ∧
      w'.descriptors = w.descriptors := by
  by_cases hconfig : httpConfigValid config = true
  swap
  · simp [httpProcessConnection, hconfig] at hprocess
  rw [httpProcessConnection, if_neg (by simp [hconfig])] at hprocess
  have hrun := (httpProcessLoop rootFd config).run_invariant
    (fun state => state.2.incoming = w.incoming ∧ state.2.recvs = w.recvs ∧
      state.2.descriptors = w.descriptors)
    (fun result => result.1 = .success →
      result.2.2.incoming = w.incoming ∧ result.2.2.recvs = w.recvs ∧
        result.2.2.descriptors = w.descriptors)
    ?_ ?_ (connection, w) ⟨rfl, rfl, rfl⟩
  · rw [hprocess] at hrun
    exact hrun rfl
  · rintro ⟨connection, w⟩ next ⟨hincoming, hrecvs, htable⟩ hbody
    have hround := round_of_body hconfig hbody
    cases hround with
    | continuing hready hanswered =>
        exact ⟨hanswered.effect.incoming.trans hincoming,
          hanswered.effect.recvs.trans hrecvs,
          hanswered.descriptors.trans htable⟩
  · rintro ⟨connection, w⟩ result ⟨hincoming, hrecvs, htable⟩ hbody hsuccess
    have hround := round_of_body hconfig hbody
    cases hround with
    | idle hidle => exact ⟨hincoming, hrecvs, htable⟩
    | aborted hready haborted => cases hsuccess
    | closing hready hanswered =>
        exact ⟨hanswered.effect.incoming.trans hincoming,
          hanswered.effect.recvs.trans hrecvs,
          hanswered.descriptors.trans htable⟩

/-- What `recv` takes from the outside world. -/
def unread (w : World) : ℕ :=
  w.recvs.length + w.incoming.length

/-- A round that goes on has received something or has been interrupted, and
has closed what it opened. -/
theorem forkServerReceive_continues {rootFd : Fd} {config : ServerConfig}
    {state next : HttpConnection × World}
    (hbody : forkServerReceive rootFd config state = .inl next) :
    unread next.2 < unread state.2 ∧
      next.2.descriptors = state.2.descriptors := by
  obtain ⟨connection, w⟩ := state
  unfold forkServerReceive at hbody
  dsimp only at hbody
  split_ifs at hbody
  have hreceipt := recv_spec (receiveCapacity connection) w
  generalize recv (receiveCapacity connection) w = received at hbody hreceipt
  cases hreceipt with
  | failed hrecvs =>
      dsimp only at hbody
      split_ifs at hbody
      cases hbody
      simp [unread, hrecvs, log]
  | @received bytes rest recvs hincoming hcapacity hempty hrecvs =>
      dsimp only at hbody
      split_ifs at hbody with hbytes
      cases hfeed : httpConnectionFeed connection bytes with
      | none => simp [hfeed] at hbody
      | some fed =>
          simp only [hfeed] at hbody
          split at hbody
          · cases hbody
          · next connection' w' hprocess =>
              cases hbody
              obtain ⟨hinput, hscript, htable⟩ :=
                httpProcessConnection_input hprocess
              have hpos := List.length_pos_iff.mpr hbytes
              have hle := hrecvs.length_le
              refine ⟨?_, htable⟩
              simp only [unread, hinput, hscript, hincoming, List.length_append]
              omega

theorem forkServerReceive_unread_lt {rootFd : Fd} {config : ServerConfig}
    {state next : HttpConnection × World}
    (hbody : forkServerReceive rootFd config state = .inl next) :
    unread next.2 < unread state.2 :=
  (forkServerReceive_continues hbody).1

/-- The loop of `fork_server_handle_connection`. -/
def forkServerLoop (rootFd : Fd) (config : ServerConfig) :
    Loop (HttpConnection × World) (ReturnCode × World) where
  body := forkServerReceive rootFd config
  rank state := unread state.2
  rank_lt := forkServerReceive_unread_lt

/-- The handler of one connection.  Destroying the connection at the end frees
its buffer and nothing else. -/
def forkServerHandleConnection (rootFd : Fd) (config : ServerConfig)
    (w : World) : ReturnCode × World :=
  match httpConnectionInit config.httpBufferSize w with
  | (none, w) => (.failure, w)
  | (some connection, w) => (forkServerLoop rootFd config).run (connection, w)

end HttpCerver.ForkServer
