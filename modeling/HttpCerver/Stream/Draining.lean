import HttpCerver.Stream.Ownership
import HttpCerver.Stream.Reference

/-!
# Draining the buffer

While memory lasts and nothing fails to be sent, the request loop takes the
complete heads off the front of the buffer one after the other, answers each of
them once, and comes to an end with the first answer that closes or with a
buffer in which no head is complete.  None of its failure exits is taken.
-/

namespace HttpCerver.Draining

open HttpCerver.Answers
open HttpCerver.Bytes
open HttpCerver.Config
open HttpCerver.Connection
open HttpCerver.Exchange
open HttpCerver.File
open HttpCerver.Http
open HttpCerver.Iteration
open HttpCerver.Ownership
open HttpCerver.Reference
open HttpCerver.Request
open HttpCerver.Resolution
open HttpCerver.Response
open HttpCerver.System

/-- No call of `send` or `sendfile` fails from one world to the other. -/
def SendsSucceed (w w' : World) : Prop :=
  ∀ events, w'.trace = w.trace ++ events → .sendFailed ∉ events

theorem SendsSucceed.of_effect {w w' w'' : World} {events : List Event}
    (h : SendsSucceed w w'') (heffect : Effect w events w') :
    SendsSucceed w' w'' := by
  intro more hmore hfailed
  rw [heffect.trace, List.append_assoc] at hmore
  exact h _ hmore (List.mem_append_right _ hfailed)

/-- A complete head, its answer, and the bytes behind the header block. -/
structure Reply where
  head : List Byte
  answer : Answer
  payload : List Byte

def Reply.message (reply : Reply) : List Byte :=
  reply.answer.headers ++ reply.payload

/-- The reply is the one that the program owes to its head. -/
structure Reply.Owed (rootFd : Fd) (config : ServerConfig) (closing : Bool)
    (w : World) (reply : Reply) : Prop where
  complete : httpFindHeaderEnd reply.head = some reply.head.length
  answer : ∃ moment, reply.answer = Answers.answer config
    (resolveAt w.fileSystem moment (inodeOf w rootFd)) closing reply.head
  payload : Follows w.fileSystem reply.payload reply.answer.content

/-- What has become of the buffer and the wire when the complete heads have
been answered. -/
structure Drained (rootFd : Fd) (config : ServerConfig)
    (connection : HttpConnection) (w : World) (replies : List Reply)
    (connection' : HttpConnection) (w' : World) : Prop where
  pending : connection.pending =
    replies.flatMap Reply.head ++ connection'.pending
  bufferCapacity : connection'.bufferCapacity = connection.bufferCapacity
  owed : ∀ reply ∈ replies,
    reply.Owed rootFd config connection.closeConnection w
  written : written w'.trace =
    written w.trace ++ replies.flatMap Reply.message
  closes_last : ∀ reply ∈ replies.dropLast, reply.answer.closes = false
  closeConnection : connection'.closeConnection =
    (replies.getLast?.map (·.answer.closes)).getD connection.closeConnection
  exhausted : (∀ reply ∈ replies, reply.answer.closes = false) →
    ¬ crlfCrlf <:+: connection'.pending

/-- How the loop gets on when a head is complete: the length of the head and
the response to it are there, and the buffer shrinks. -/
structure Progress (rootFd : Fd) (config : ServerConfig)
    (state : HttpConnection × World) : Prop where
  length_ne_zero : httpConnectionRequestLength state.1 ≠ 0
  prepared : (preparedAt rootFd config state.1 state.2
    (httpConnectionRequestLength state.1)).code = .success
  continuing : ∀ next, (httpProcessLoop rootFd config).body state = .inl next →
    next.1.bufferUsed < state.1.bufferUsed
  leaving : ∀ result,
    (httpProcessLoop rootFd config).body state = .inr result →
      result.1 = .success ∧ result.2.1.bufferUsed < state.1.bufferUsed

section Replies

variable {rootFd : Fd} {config : ServerConfig} {connection : HttpConnection}
variable {w : World}

/-- An answer given while the connection is to be closed closes it. -/
theorem answer_closing (config : ServerConfig)
    (resolve : List Byte → Except Errno OpenedFile) (head : List Byte) :
    (answer config resolve true head).closes = true := by
  rw [answer]
  cases judge config head with
  | error refusal => rfl
  | ok request =>
      dsimp only
      cases resolve request.path with
      | error errno => rfl
      | ok file => exact Bool.true_or (requestCloses request)

/-- Nothing to answer. -/
theorem drained_idle (hidle : httpFindHeaderEnd connection.pending = none) :
    Drained rootFd config connection w [] connection w where
  pending := rfl
  bufferCapacity := rfl
  owed _ hmem := absurd hmem List.not_mem_nil
  written := (List.append_nil _).symm
  closes_last _ hmem := absurd hmem List.not_mem_nil
  closeConnection := rfl
  exhausted _ := httpFindHeaderEnd_eq_none_iff.mp hidle

variable {length : ℕ} {answered : Answer} {opening closed : List Event}
variable {writes : List (List Byte)} {next : HttpConnection} {w' : World}

/-- A head that has been answered makes a reply. -/
theorem exists_reply
    (hready : httpFindHeaderEnd connection.pending = some length)
    (hanswered : Answered rootFd config (connection.pending.take length)
      connection.closeConnection w answered opening writes closed w') :
    ∃ reply : Reply, reply.head = connection.pending.take length ∧
      reply.answer = answered ∧
      reply.Owed rootFd config connection.closeConnection w ∧
      written w'.trace = written w.trace ++ reply.message := by
  obtain ⟨payload, hpayload, hwritten⟩ := written_answered hanswered
  have hlength : (connection.pending.take length).length = length :=
    List.length_take_of_le (httpFindHeaderEnd_bounds hready).2
  have hcomplete : httpFindHeaderEnd (connection.pending.take length) =
      some length := by
    rw [← List.take_append_drop length connection.pending] at hready
    exact headFramer.restrict hready hlength.ge
  refine ⟨⟨connection.pending.take length, answered, payload⟩, rfl, rfl,
    ⟨?_, ⟨w.clock, hanswered.answer_eq⟩, hpayload⟩, hwritten⟩
  rw [hcomplete, hlength]

/-- The last reply. -/
theorem drained_closing
    (hready : httpFindHeaderEnd connection.pending = some length)
    (hanswered : Answered rootFd config (connection.pending.take length)
      connection.closeConnection w answered opening writes closed w')
    (hcloses : answered.closes = true)
    (hpending : next.pending = connection.pending.drop length)
    (hcapacity : next.bufferCapacity = connection.bufferCapacity)
    (hclose : next.closeConnection = true) :
    ∃ replies, Drained rootFd config connection w replies next w' := by
  obtain ⟨reply, hhead, hanswer, howed, hwritten⟩ :=
    exists_reply hready hanswered
  rw [← hanswer] at hcloses
  refine ⟨[reply], ?_, hcapacity, ?_, ?_, ?_, ?_, ?_⟩
  · rw [List.flatMap_singleton, hhead, hpending, List.take_append_drop]
  · intro other hmem
    rw [List.mem_singleton.mp hmem]
    exact howed
  · rw [List.flatMap_singleton, hwritten]
  · intro other hmem
    exact absurd hmem List.not_mem_nil
  · rw [hclose, ← hcloses]
    rfl
  · intro hopen
    rw [hopen reply List.mem_cons_self] at hcloses
    cases hcloses

/-- The worlds of a session see the same files below the same root. -/
theorem Reply.Owed.of_answered {closing : Bool} {reply : Reply}
    (h : reply.Owed rootFd config closing w')
    (hanswered : Answered rootFd config (connection.pending.take length)
      connection.closeConnection w answered opening writes closed w') :
    reply.Owed rootFd config closing w where
  complete := h.complete
  answer := by
    obtain ⟨moment, hanswer⟩ := h.answer
    refine ⟨moment, ?_⟩
    rw [hanswer, hanswered.effect.fileSystem]
    simp only [inodeOf, fileOf, hanswered.descriptors]
  payload := hanswered.effect.fileSystem ▸ h.payload

/-- A reply in front of the others. -/
theorem drained_continuing
    (hready : httpFindHeaderEnd connection.pending = some length)
    (hanswered : Answered rootFd config (connection.pending.take length)
      connection.closeConnection w answered opening writes closed w')
    (hcloses : answered.closes = false)
    (hpending : next.pending = connection.pending.drop length)
    (hcapacity : next.bufferCapacity = connection.bufferCapacity)
    (hclose : next.closeConnection = false) {replies : List Reply}
    {connection' : HttpConnection} {w'' : World}
    (hrest : Drained rootFd config next w' replies connection' w'') :
    ∃ replies, Drained rootFd config connection w replies connection' w'' := by
  obtain ⟨reply, hhead, hanswer, howed, hwritten⟩ :=
    exists_reply hready hanswered
  rw [← hanswer] at hcloses
  have hopen : connection.closeConnection = false := by
    obtain ⟨moment, howes⟩ := howed.answer
    rw [howes] at hcloses
    cases hclosing : connection.closeConnection with
    | false => rfl
    | true =>
        rw [hclosing, answer_closing] at hcloses
        exact hcloses
  refine ⟨reply :: replies, ?_, hrest.bufferCapacity.trans hcapacity, ?_, ?_,
    ?_, ?_, ?_⟩
  · rw [List.flatMap_cons, List.append_assoc, ← hrest.pending, hhead, hpending,
      List.take_append_drop]
  · intro other hmem
    rcases List.mem_cons.mp hmem with rfl | hmem
    · exact howed
    · have hother := hrest.owed other hmem
      rw [hclose] at hother
      rw [hopen]
      exact hother.of_answered hanswered
  · rw [hrest.written, hwritten, List.flatMap_cons, List.append_assoc]
  · intro other hmem
    cases replies with
    | nil => exact absurd hmem List.not_mem_nil
    | cons second replies =>
        rcases List.mem_cons.mp hmem with rfl | hmem
        · exact hcloses
        · exact hrest.closes_last other hmem
  · rw [hrest.closeConnection]
    cases replies with
    | nil =>
        rw [List.getLast?_singleton]
        exact hclose.trans hcloses.symm
    | cons second replies => rw [List.getLast?_cons_cons]; rfl
  · intro hall
    exact hrest.exhausted fun other hmem =>
      hall other (List.mem_cons_of_mem _ hmem)

/-- What is left complete in the buffer stands behind an answer that closes. -/
theorem Drained.idle {replies : List Reply} {connection' : HttpConnection}
    (h : Drained rootFd config connection w replies connection' w')
    (hopen : connection'.closeConnection = false) :
    ¬ crlfCrlf <:+: connection'.pending := by
  apply h.exhausted
  intro reply hmem
  have hlast := h.closeConnection
  cases replies using List.reverseRecOn with
  | nil => exact absurd hmem List.not_mem_nil
  | append_singleton replies last =>
      rw [hopen, List.getLast?_concat] at hlast
      rcases List.mem_append.mp hmem with hmem | hmem
      · apply h.closes_last
        rw [List.dropLast_concat]
        exact hmem
      · rw [List.mem_singleton.mp hmem]
        exact hlast.symm

end Replies

/-- What a round does to the buffer while memory lasts. -/
inductive DrainRound (rootFd : Fd) (config : ServerConfig)
    (connection : HttpConnection) (w : World) :
    (HttpConnection × World) ⊕ (ReturnCode × HttpConnection × World) → Prop
  | idle (hidle : httpFindHeaderEnd connection.pending = none) :
      DrainRound rootFd config connection w (.inr (.success, connection, w))
  | unsent {connection' : HttpConnection} {w' : World}
      (hfails : ¬ SendsSucceed w w') :
      DrainRound rootFd config connection w (.inr (.failure, connection', w'))
  | closing {length : ℕ} {answered : Answer} {opening closed : List Event}
      {writes : List (List Byte)} {next : HttpConnection} {w' : World}
      (hready : httpFindHeaderEnd connection.pending = some length)
      (hanswered : Answered rootFd config (connection.pending.take length)
        connection.closeConnection w answered opening writes closed w')
      (hcloses : answered.closes = true)
      (hpending : next.pending = connection.pending.drop length)
      (hcapacity : next.bufferCapacity = connection.bufferCapacity)
      (hclose : next.closeConnection = true) :
      DrainRound rootFd config connection w (.inr (.success, next, w'))
  | continuing {length : ℕ} {answered : Answer} {opening closed : List Event}
      {writes : List (List Byte)} {next : HttpConnection} {w' : World}
      (hready : httpFindHeaderEnd connection.pending = some length)
      (hanswered : Answered rootFd config (connection.pending.take length)
        connection.closeConnection w answered opening writes closed w')
      (hcloses : answered.closes = false)
      (hpending : next.pending = connection.pending.drop length)
      (hcapacity : next.bufferCapacity = connection.bufferCapacity)
      (hclose : next.closeConnection = false) :
      DrainRound rootFd config connection w (.inl (next, w'))

section Round

variable {config : ServerConfig} (hconfig : httpConfigValid config = true)
variable (rootFd : Fd) (connection : HttpConnection) {w : World} {length : ℕ}

include hconfig

/-- While memory lasts a response is prepared. -/
theorem preparedAt_success (hmallocs : false ∉ w.mallocs)
    (length : ℕ) :
    (preparedAt rootFd config connection w length).code = .success := by
  have hprepared := preparedAt_spec hconfig rootFd connection w length
  cases hprepared with
  | starved _ _ _ _ _ hstarved => exact absurd hstarved hmallocs
  | ready hcode => exact hcode

/-- A response that is not sent has a failed call on record. -/
theorem sentAt_failure (hmallocs : false ∉ w.mallocs)
    (hsent : (sentAt rootFd config connection w length).1 = .failure) :
    ¬ SendsSucceed w (sentAt rootFd config connection w length).2.2 := by
  intro hsucceed
  have hcode := preparedAt_success hconfig rootFd connection hmallocs length
  cases (sentAt_spec hconfig rootFd connection w length hcode).1 hsent with
  | starved _ _ _ _ hstarved => exact hmallocs hstarved
  | unsent _ heffect _ _ _ _ =>
      apply hsucceed _ heffect.trace
      exact List.mem_append_right _ (List.mem_singleton_self _)

theorem httpProcessRequest_drainRound (hmallocs : false ∉ w.mallocs) :
    DrainRound rootFd config connection w
      (httpProcessRequest rootFd config (connection, w)) := by
  have hspec := httpProcessRequest_spec rootFd config connection w
  generalize httpProcessRequest rootFd config (connection, w) = result at hspec
  cases hspec with
  | idle hidle => exact .idle hidle
  | @unprepared length _ _ hcode =>
      rw [preparedAt_success hconfig rootFd connection hmallocs length] at hcode
      cases hcode
  | unsent _ _ hsent =>
      exact .unsent (sentAt_failure hconfig rootFd connection hmallocs hsent)
  | closing hready hcode hsent hclose =>
      obtain ⟨answered, opening, writes, closed, hanswered, hcloses⟩ :=
        (sentAt_spec hconfig _ _ _ _ hcode).2 hsent
      exact .closing hready hanswered (hcloses.symm.trans hclose)
        (consumedAt_pending hready) (by simp [consumedAt])
        (by simpa [consumedAt] using hclose)
  | continuing hready hcode hsent hclose =>
      obtain ⟨answered, opening, writes, closed, hanswered, hcloses⟩ :=
        (sentAt_spec hconfig _ _ _ _ hcode).2 hsent
      exact .continuing hready hanswered (hcloses.symm.trans hclose)
        (consumedAt_pending hready) (by simp [consumedAt])
        (by simpa [consumedAt] using hclose)

/-- The same, from the outcome of a round. -/
theorem drainRound_of_body {rootFd : Fd} {connection : HttpConnection}
    {result :
      (HttpConnection × World) ⊕ (ReturnCode × HttpConnection × World)}
    (hmallocs : false ∉ w.mallocs)
    (hbody : (httpProcessLoop rootFd config).body (connection, w) = result) :
    DrainRound rootFd config connection w result := by
  rw [← hbody]
  exact httpProcessRequest_drainRound hconfig rootFd connection hmallocs

/-- A round with a complete head in front of it makes progress. -/
theorem progress {state : HttpConnection × World}
    (hmallocs : false ∉ state.2.mallocs)
    (hsends : SendsSucceed state.2
      ((httpProcessLoop rootFd config).run state).2.2)
    (hready : httpConnectionRequestReady state.1 = true) :
    Progress rootFd config state := by
  obtain ⟨connection, w⟩ := state
  obtain ⟨length, hlength⟩ := Option.isSome_iff_exists.mp hready
  have hbounds := httpFindHeaderEnd_bounds hlength
  have hshrinks : ∀ {next : HttpConnection} {length : ℕ},
      httpFindHeaderEnd connection.pending = some length →
      next.pending = connection.pending.drop length →
        next.bufferUsed < connection.bufferUsed := by
    intro next length hlength hpending
    have hbounds := httpFindHeaderEnd_bounds hlength
    rw [← length_pending, ← length_pending, hpending, List.length_drop]
    omega
  constructor
  · rw [httpConnectionRequestLength, hlength, Option.getD_some]
    omega
  · exact preparedAt_success hconfig rootFd connection hmallocs _
  · intro next hbody
    have hround := drainRound_of_body hconfig hmallocs hbody
    cases hround with
    | continuing hready _ _ hpending => exact hshrinks hready hpending
  · intro result hbody
    rw [(httpProcessLoop rootFd config).run_of_exit hbody] at hsends
    have hround := drainRound_of_body hconfig hmallocs hbody
    cases hround with
    | idle hidle =>
        rw [hidle] at hlength
        cases hlength
    | unsent hfails => exact absurd hsends hfails
    | closing hready _ _ hpending => exact ⟨rfl, hshrinks hready hpending⟩

/-- Memory lasts and sending succeeds from every state on the way. -/
theorem fine_of_reaches {state later : HttpConnection × World}
    (hreaches : (httpProcessLoop rootFd config).Reaches state later)
    (hmallocs : false ∉ state.2.mallocs)
    (hsends : SendsSucceed state.2
      ((httpProcessLoop rootFd config).run state).2.2) :
    false ∉ later.2.mallocs ∧
      SendsSucceed later.2 ((httpProcessLoop rootFd config).run later).2.2 := by
  apply hreaches.invariant (fun state => false ∉ state.2.mallocs ∧
    SendsSucceed state.2 ((httpProcessLoop rootFd config).run state).2.2) _
    ⟨hmallocs, hsends⟩
  rintro ⟨connection, w⟩ next ⟨hmallocs, hsends⟩ hbody
  have hround := drainRound_of_body hconfig hmallocs hbody
  rw [(httpProcessLoop rootFd config).run_of_continue hbody] at hsends
  cases hround with
  | continuing _ hanswered =>
      have heffect := hanswered.effect
      exact ⟨fun hmem => hmallocs (heffect.mallocs.subset hmem),
        hsends.of_effect heffect⟩

/-- The whole run. -/
theorem httpProcessLoop_drains (state : HttpConnection × World)
    (hmallocs : false ∉ state.2.mallocs)
    (hsends : SendsSucceed state.2
      ((httpProcessLoop rootFd config).run state).2.2) :
    ∃ replies connection' w',
      (httpProcessLoop rootFd config).run state =
        (.success, connection', w') ∧
      Drained rootFd config state.1 state.2 replies connection' w' := by
  refine (httpProcessLoop rootFd config).run_induction
    (motive := fun state result => false ∉ state.2.mallocs →
      SendsSucceed state.2 result.2.2 → ∃ replies connection' w',
        result = (.success, connection', w') ∧
        Drained rootFd config state.1 state.2 replies connection' w')
    ?_ ?_ state hmallocs hsends
  · rintro ⟨connection, w⟩ result hbody hmallocs hsends
    have hround := drainRound_of_body hconfig hmallocs hbody
    cases hround with
    | idle hidle => exact ⟨[], connection, w, rfl, drained_idle hidle⟩
    | unsent hfails => exact absurd hsends hfails
    | closing hready hanswered hcloses hpending hcapacity hclose =>
        obtain ⟨replies, hdrained⟩ := drained_closing hready hanswered hcloses
          hpending hcapacity hclose
        exact ⟨replies, _, _, rfl, hdrained⟩
  · rintro ⟨connection, w⟩ next result hbody hnext hmallocs hsends
    have hround := drainRound_of_body hconfig hmallocs hbody
    cases hround with
    | continuing hready hanswered hcloses hpending hcapacity hclose =>
        have heffect := hanswered.effect
        obtain ⟨replies, connection', w', hresult, hrest⟩ := hnext
          (fun hmem => hmallocs (heffect.mallocs.subset hmem))
          (hsends.of_effect heffect)
        obtain ⟨all, hdrained⟩ := drained_continuing hready hanswered hcloses
          hpending hcapacity hclose hrest
        exact ⟨all, connection', w', hresult, hdrained⟩

theorem httpProcessConnection_eq_run (w : World) :
    httpProcessConnection rootFd config connection w =
      (httpProcessLoop rootFd config).run (connection, w) := by
  rw [httpProcessConnection, if_neg (by simp [hconfig])]

/-- Where the calls that send succeed and files keep their sizes, no sending
fails. -/
theorem sendsSucceed_of_steady {fileSystem : ℕ → FileSystem}
    {root : Option Inode} (hkept : SizesKept fileSystem)
    (hsteady : Steady fileSystem root rootFd w) :
    SendsSucceed w
      (httpProcessConnection rootFd config connection w).2.2 := by
  rw [httpProcessConnection_eq_run hconfig]
  have hrun : ∃ events,
      ((httpProcessLoop rootFd config).run (connection, w)).2.2.trace =
        w.trace ++ events ∧ .sendFailed ∉ events := by
    refine (httpProcessLoop rootFd config).run_induction
      (motive := fun state result => Steady fileSystem root rootFd state.2 →
        ∃ events, result.2.2.trace = state.2.trace ++ events ∧
          .sendFailed ∉ events) ?_ ?_ (connection, w) hsteady
    · rintro ⟨connection, w⟩ result hbody hsteady
      have hround := round_of_body hconfig hbody
      cases hround with
      | idle => exact ⟨[], (List.append_nil _).symm, List.not_mem_nil⟩
      | aborted _ haborted =>
          cases haborted with
          | @starved opening w' heffect hopening =>
              refine ⟨_, heffect.trace, ?_⟩
              have hnot := sendFailed_notMem_of_descriptorEvents hopening
              simp [hnot]
          | unsent hanswer _ _ _ _ hfails =>
              rw [hanswer, hsteady.answerAt, hsteady.fileSystem] at hfails
              exact absurd ⟨hsteady.sends, hkept.servable config _ _ _ _⟩ hfails
      | closing _ hanswered =>
          exact ⟨_, hanswered.effect.trace, sendFailed_notMem_answered hanswered⟩
    · rintro ⟨connection, w⟩ next result hbody hnext hsteady
      have hround := round_of_body hconfig hbody
      cases hround with
      | continuing _ hanswered =>
          obtain ⟨events, htrace, hnot⟩ := hnext
            (hsteady.of_effect hanswered.effect hanswered.descriptors)
          rw [hanswered.effect.trace, List.append_assoc] at htrace
          refine ⟨_, htrace, ?_⟩
          rw [List.mem_append, not_or]
          exact ⟨sendFailed_notMem_answered hanswered, hnot⟩
  obtain ⟨events, htrace, hnot⟩ := hrun
  intro others hothers
  rw [htrace] at hothers
  rw [← List.append_cancel_left hothers]
  exact hnot

end Round

/-- The request loop drains exactly the complete heads: every round shrinks
the buffer and none takes a failure exit, each complete head up to the first
answer that closes has its reply on the wire, and what is left is the rest of
the buffer. -/
theorem httpProcessConnection_drains {config : ServerConfig}
    (hconfig : httpConfigValid config = true) (rootFd : Fd)
    (connection : HttpConnection) (w : World)
    (hmallocs : false ∉ w.mallocs)
    (hsends : SendsSucceed w
      (httpProcessConnection rootFd config connection w).2.2) :
    (∀ state, (httpProcessLoop rootFd config).Reaches (connection, w) state →
      httpConnectionRequestReady state.1 = true →
        Progress rootFd config state) ∧
    ∃ replies connection' w',
      httpProcessConnection rootFd config connection w =
        (.success, connection', w') ∧
      Drained rootFd config connection w replies connection' w' ∧
      (connection'.closeConnection = false →
        ¬ crlfCrlf <:+: connection'.pending) := by
  rw [httpProcessConnection_eq_run hconfig] at hsends ⊢
  constructor
  · intro state hreaches hready
    obtain ⟨hmallocs, hsends⟩ :=
      fine_of_reaches hconfig rootFd hreaches hmallocs hsends
    exact progress hconfig rootFd hmallocs hsends hready
  · obtain ⟨replies, connection', w', hresult, hdrained⟩ :=
      httpProcessLoop_drains hconfig rootFd (connection, w) hmallocs hsends
    exact ⟨replies, connection', w', hresult, hdrained, hdrained.idle⟩

/-- Two complete heads and the beginning of a third. -/
def crowded : HttpConnection where
  buffer := ascii
    "GET / HTTP/1.1\r\nHost: a\r\n\r\nHEAD / HTTP/1.0\r\n\r\nGET"
  bufferUsed := 49
  bufferCapacity := 49
  closeConnection := false
  response := httpResponseInit
  length_buffer := rfl
  bufferUsed_le := Nat.le_refl 49

theorem httpProcessConnection_drains_crowded :
    ∃ replies connection' w',
      httpProcessConnection 3 configInit crowded (start pipelined [(3, 0)]) =
        (.success, connection', w') ∧
      Drained 3 configInit crowded (start pipelined [(3, 0)]) replies
        connection' w' := by
  have hconfig : httpConfigValid configInit = true := by decide
  have hsteady : Steady (fun _ => smallTree.fileSystem) (some 0) 3
      (start pipelined [(3, 0)]) :=
    ⟨rfl, rfl, undisturbed_pipelined.sends⟩
  obtain ⟨-, replies, connection', w', hresult, hdrained, -⟩ :=
    httpProcessConnection_drains hconfig 3 crowded (start pipelined [(3, 0)])
      List.not_mem_nil (sendsSucceed_of_steady hconfig 3 crowded
        (sizesKept_tree smallTree) hsteady)
  exact ⟨replies, connection', w', hresult, hdrained⟩

end HttpCerver.Draining
