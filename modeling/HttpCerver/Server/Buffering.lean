import HttpCerver.Core.Queues
import HttpCerver.Server.Sessions

/-!
# The connection buffer is a queue

Whatever is fed to a connection and consumed from it, in any order, the used
part of the buffer is what has been fed less what has been consumed from its
front.  The handler receives only while there is room and no complete head in
the buffer, so what it receives can always be fed.
-/

namespace HttpCerver.Buffering

open HttpCerver.Bytes
open HttpCerver.Config
open HttpCerver.Connection
open HttpCerver.ForkServer
open HttpCerver.Http
open HttpCerver.Iteration
open HttpCerver.Queues
open HttpCerver.Request
open HttpCerver.System

/-- A call of `http_connection_feed` or `http_connection_consume`. -/
inductive BufferCall
  | feed (data : List Byte)
  | consume (length : ℕ)

/-- A connection, the data of its successful feeds and the total of its
effective consumes. -/
structure History where
  connection : HttpConnection
  fed : List Byte
  consumed : ℕ

def History.step (history : History) : BufferCall → History
  | .feed data =>
    match httpConnectionFeed history.connection data with
    | none => history
    | some connection =>
      { connection := connection
        fed := history.fed ++ data
        consumed := history.consumed }
  | .consume length =>
    { connection := httpConnectionConsume history.connection length
      fed := history.fed
      consumed :=
        if length ≤ history.connection.bufferUsed then
          history.consumed + length
        else history.consumed }

/-- A sequence of calls on a connection. -/
def History.run (connection : HttpConnection) (calls : List BufferCall) :
    History :=
  calls.foldl History.step
    { connection := connection, fed := [], consumed := 0 }

/-- The call on the queue that the buffer stands for. -/
def BufferCall.onQueue {capacity : ℕ} (queue : Queue Byte capacity) :
    BufferCall → Queue Byte capacity
  | .feed data => queue.enter data
  | .consume length => queue.leave length

/-- The connection holds what is in the queue, and has the same history. -/
structure Represents {capacity : ℕ} (history : History)
    (queue : Queue Byte capacity) : Prop where
  pending : history.connection.pending = queue.items
  bufferCapacity : history.connection.bufferCapacity = capacity
  fed : history.fed = queue.entered
  consumed : history.consumed = queue.left

theorem httpConnectionFeed_eq_none_iff {connection : HttpConnection}
    {data : List Byte} :
    httpConnectionFeed connection data = none ↔
      connection.bufferCapacity < connection.bufferUsed + data.length := by
  have hused := connection.bufferUsed_le
  have hspace := sizeSub_of_le hused
  rw [httpConnectionFeed]
  split_ifs with hfits
  · simp only [true_iff]
    omega
  · simp only [false_iff]
    omega

theorem httpConnectionConsume_of_more {connection : HttpConnection}
    {length : ℕ} (hmore : connection.bufferUsed < length) :
    httpConnectionConsume connection length = connection :=
  dif_pos hmore

section Calls

variable {capacity : ℕ} {history : History} {queue : Queue Byte capacity}

theorem Represents.length_items (h : Represents history queue) :
    queue.items.length = history.connection.bufferUsed := by
  rw [← h.pending, length_pending]

/-- A call does to the connection what it does to the queue. -/
theorem Represents.step (h : Represents history queue) (call : BufferCall) :
    Represents (history.step call) (call.onQueue queue) := by
  have hlength := h.length_items
  have hcapacity := h.bufferCapacity
  cases call with
  | feed data =>
      rw [History.step, BufferCall.onQueue]
      by_cases hfits : queue.items.length + data.length ≤ capacity
      · have hspace : data.length ≤ history.connection.bufferCapacity -
            history.connection.pending.length := by
          rw [length_pending]
          omega
        obtain ⟨connection, hfeed, hpending, hsame, -⟩ :=
          httpConnectionFeed_eq_some hspace
        rw [hfeed]
        constructor
        · rw [hpending, h.pending, Queue.items_enter hfits]
        · exact hsame.trans hcapacity
        · rw [h.fed, Queue.entered_enter hfits]
        · rw [h.consumed, Queue.left_enter hfits]
      · have hfull : httpConnectionFeed history.connection data = none :=
          httpConnectionFeed_eq_none_iff.mpr (by omega)
        rw [hfull, Queue.enter_of_full (Nat.not_le.mp hfits)]
        exact h
  | consume length =>
      rw [History.step, BufferCall.onQueue]
      by_cases hcount : length ≤ queue.items.length
      · rw [if_pos (by omega)]
        have hinside : length ≤ history.connection.pending.length := by
          rw [h.pending]
          exact hcount
        constructor
        · rw [httpConnectionConsume_pending hinside, h.pending,
            Queue.items_leave hcount]
        · rw [httpConnectionConsume_bufferCapacity, hcapacity]
        · rw [h.fed, Queue.entered_leave hcount]
        · rw [h.consumed, Queue.left_leave hcount]
      · rw [if_neg (by omega), httpConnectionConsume_of_more (by omega),
          Queue.leave_of_more (Nat.not_le.mp hcount)]
        exact h

/-- A sequence of calls does to the connection what it does to the queue. -/
theorem Represents.foldl (h : Represents history queue)
    (calls : List BufferCall) :
    Represents (calls.foldl History.step history)
      (calls.foldl BufferCall.onQueue queue) := by
  induction calls generalizing history queue with
  | nil => exact h
  | cons call calls ih => exact ih (h.step call)

/-- What the buffer and its operations are after a sequence of calls. -/
structure Queued (capacity : ℕ) (history : History) : Prop where
  contents : history.connection.buffer.take history.connection.bufferUsed =
    history.fed.drop history.consumed
  consumed_le : history.consumed ≤ history.fed.length
  bufferCapacity : history.connection.bufferCapacity = capacity
  bufferUsed_le : history.connection.bufferUsed ≤ capacity
  bufferSpace : httpConnectionBufferSpace history.connection =
    capacity - history.connection.bufferUsed
  feed_fails : ∀ data, httpConnectionFeed history.connection data = none ↔
    capacity < history.connection.bufferUsed + data.length
  feed_unchanged : ∀ data,
    httpConnectionFeed history.connection data = none →
      history.step (.feed data) = history
  consume_ignored : ∀ length, history.connection.bufferUsed < length →
    history.step (.consume length) = history

theorem Represents.queued (h : Represents history queue) :
    Queued capacity history := by
  have hcapacity := h.bufferCapacity
  have hused := history.connection.bufferUsed_le
  constructor
  · rw [h.fed, h.consumed]
    exact h.pending
  · rw [h.fed, h.consumed]
    exact queue.left_le
  · exact hcapacity
  · rw [← h.length_items]
    exact queue.length_items_le
  · rw [httpConnectionBufferSpace, sizeSub_of_le hused, hcapacity]
  · intro data
    rw [httpConnectionFeed_eq_none_iff, hcapacity]
  · intro data hfull
    rw [History.step, hfull]
  · intro length hmore
    rw [History.step, httpConnectionConsume_of_more hmore,
      if_neg (Nat.not_le.mpr hmore)]

end Calls

section Handler

variable {rootFd : Fd} {config : ServerConfig}

/-- Where a buffer has been processed and the connection stays open, no head
is complete. -/
theorem httpProcessConnection_idle {connection connection' : HttpConnection}
    {w w' : World} (hprocess : httpProcessConnection rootFd config connection w =
      (.success, connection', w'))
    (hopen : connection'.closeConnection = false) :
    httpFindHeaderEnd connection'.pending = none := by
  rw [httpProcessConnection] at hprocess
  split_ifs at hprocess with hconfig
  swap
  · cases hprocess
  have hrun := (httpProcessLoop rootFd config).run_induction
    (motive := fun _ result => result.1 = .success →
      result.2.1.closeConnection = false →
        httpFindHeaderEnd result.2.1.pending = none) ?_ ?_ (connection, w)
  · rw [hprocess] at hrun
    exact hrun rfl hopen
  · rintro ⟨connection, w⟩ result hbody hsuccess hopen
    have hspec := httpProcessRequest_spec rootFd config connection w
    rw [show httpProcessRequest rootFd config (connection, w) = .inr result
      from hbody] at hspec
    cases hspec with
    | idle hidle => exact hidle
    | unprepared => cases hsuccess
    | unsent => cases hsuccess
    | closing _ _ _ hclose => simp [consumedAt, hclose] at hopen
  · intro state next result hbody hnext
    exact hnext

/-- An open connection has no complete head in its buffer. -/
def Idle (state : HttpConnection × World) : Prop :=
  state.1.closeConnection = false → httpFindHeaderEnd state.1.pending = none

theorem forkServerReceive_idle {state next : HttpConnection × World}
    (hidle : Idle state)
    (hbody : forkServerReceive rootFd config state = .inl next) :
    Idle next := by
  obtain ⟨connection, w⟩ := state
  rw [forkServerReceive] at hbody
  split_ifs at hbody with hclose hfull
  obtain ⟨received, w', hrecv⟩ : ∃ received w',
      recv (receiveCapacity connection) w = (received, w') := ⟨_, _, rfl⟩
  rw [hrecv] at hbody
  cases received with
  | error errno =>
      dsimp only at hbody
      split_ifs at hbody
      cases hbody
      exact hidle
  | ok received =>
      dsimp only at hbody
      split_ifs at hbody
      cases hfeed : httpConnectionFeed connection received with
      | none =>
          rw [hfeed] at hbody
          cases hbody
      | some fed =>
          simp only [hfeed] at hbody
          obtain ⟨code, connection', w'', hprocess⟩ :
              ∃ code connection' w'',
                httpProcessConnection rootFd config fed w' =
                  (code, connection', w'') := ⟨_, _, _, rfl⟩
          rw [hprocess] at hbody
          cases code with
          | failure => cases hbody
          | success =>
              cases hbody
              exact httpProcessConnection_idle hprocess

/-- Where `recv` is called there is room in the buffer, no head is complete,
and what is received can be fed. -/
structure Receptive (connection : HttpConnection) (w : World) : Prop where
  notFull : connection.bufferUsed < connection.bufferCapacity
  noHead : ¬ crlfCrlf <:+: connection.pending
  feeds : ∀ received w',
    recv (receiveCapacity connection) w = (.ok received, w') →
      (httpConnectionFeed connection received).isSome

theorem receptive {connection : HttpConnection} {w : World}
    (hidle : Idle (connection, w))
    (hopen : connection.closeConnection = false)
    (hcapacity : receiveCapacity connection ≠ 0) : Receptive connection w := by
  have hused := connection.bufferUsed_le
  have hspace : receiveCapacity connection ≤
      connection.bufferCapacity - connection.bufferUsed := by
    rw [receiveCapacity, httpConnectionBufferSpace, sizeSub_of_le hused]
    split_ifs <;> omega
  constructor
  · omega
  · exact httpFindHeaderEnd_eq_none_iff.mp (hidle hopen)
  · intro received w' hrecv
    obtain ⟨-, hlength, -⟩ := recv_ok hrecv
    rw [Option.isSome_iff_ne_none, ne_eq, httpConnectionFeed_eq_none_iff]
    omega

end Handler

/-- The connection buffer is a bounded queue of bytes, and the handler never
receives what does not fit in it. -/
theorem buffer_queues {capacity : ℕ} {connection : HttpConnection}
    {w w' : World}
    (hinit : httpConnectionInit capacity w = (some connection, w')) :
    (∀ calls, Queued capacity (History.run connection calls)) ∧
    ∀ rootFd config, config.httpBufferSize = capacity →
      ∀ state, (forkServerLoop rootFd config).Reaches (connection, w') state →
        state.1.closeConnection = false → receiveCapacity state.1 ≠ 0 →
          Receptive state.1 state.2 := by
  have hcapacity : capacity ≠ 0 := by
    rintro rfl
    cases hinit
  obtain ⟨mallocs, -, ⟨fresh, hfresh, hpending, hsame, -⟩ | ⟨-, hfresh⟩⟩ :=
    httpConnectionInit_spec hcapacity w
  · rw [hinit] at hfresh
    cases hfresh
    constructor
    · intro calls
      have hempty : Represents
          { connection := connection, fed := [], consumed := 0 }
          (Queue.empty Byte capacity) := ⟨hpending, hsame, rfl, rfl⟩
      exact (hempty.foldl calls).queued
    · intro rootFd config _ state hreaches hopen hroom
      have hstart : Idle (connection, { w with mallocs := mallocs }) := by
        intro _
        rw [hpending]
        decide
      exact receptive (hreaches.invariant Idle
        (fun state next hidle hbody => forkServerReceive_idle hidle hbody)
        hstart) hopen hroom
  · rw [hinit] at hfresh
    cases hfresh

/-- A connection on which nothing arrives, and no files. -/
def silent : Environment where
  incoming := []
  recvs := []
  sends := []
  mallocs := []
  fileSystem _ :=
    { openat2 := fun _ _ _ => .error .enoent
      fstat := fun _ => .error .ebadf
      content := fun _ => [] }

/-- Two feeds, one of them too long, and two consumes, one of them too long. -/
theorem buffer_queues_silent :
    ∃ connection w', httpConnectionInit 4 (start silent []) =
        (some connection, w') ∧
      Queued 4 (History.run connection [.feed (ascii "abc"), .consume 2,
        .feed (ascii "defg"), .consume 2]) := by
  obtain ⟨connection, hinit⟩ : ∃ connection,
      httpConnectionInit 4 (start silent []) =
        (some connection, start silent []) := ⟨_, rfl⟩
  exact ⟨connection, _, hinit, (buffer_queues hinit).1 _⟩

end HttpCerver.Buffering
