import HttpCerver.Stream.Reference

/-!
# The two ways of sending an error

`http_send_error` sends a page through `io_send_all`, which stops at a send of
nothing and leaves it to its caller to compare counts; a prepared error is sent
by the loops of `http_response_send_blocking`, which count in the response.
Made side by side the calls are the same, up to the mark that the first one
sets when it is done.
-/

namespace HttpCerver.ErrorPaths

open HttpCerver.Answers
open HttpCerver.Bytes
open HttpCerver.Config
open HttpCerver.Delivery
open HttpCerver.Http
open HttpCerver.Iteration
open HttpCerver.Reference
open HttpCerver.Request
open HttpCerver.Response
open HttpCerver.Sending
open HttpCerver.System

/-- Two functions, called in the same world, that the client and the kernel
cannot tell apart: the result, the outcomes that are left, the number of calls
and the bytes written. -/
structure SameSending (w : World) (left right : ReturnCode × World) : Prop where
  code : left.1 = right.1
  sends : left.2.sends = right.2.sends
  clock : left.2.clock = right.2.clock
  bytes : written (left.2.trace.drop w.trace.length) =
    written (right.2.trace.drop w.trace.length)

/-- From `left` and `right` on, the same calls have been made. -/
structure Alongside (left right left' right' : World) : Prop where
  sends : left'.sends = right'.sends
  clock : left'.clock = right'.clock
  events : ∃ events, left'.trace = left.trace ++ events ∧
    right'.trace = right.trace ++ events

section Alongside

variable {left right left' right' : World}

theorem Alongside.log (h : Alongside left right left' right')
    (event : Event) :
    Alongside left right (log event left') (log event right') := by
  obtain ⟨events, hleft, hright⟩ := h.events
  refine ⟨h.sends, h.clock, events ++ [event], ?_, ?_⟩
  · rw [System.log, hleft, List.append_assoc]
  · rw [System.log, hright, List.append_assoc]

theorem Alongside.tick (h : Alongside left right left' right')
    (sends : List SendOutcome) :
    Alongside left right { tick left' with sends := sends }
      { tick right' with sends := sends } where
  sends := rfl
  clock := congrArg (· + 1) h.clock
  events := h.events

theorem Alongside.accept (h : Alongside left right left' right')
    (bytes : List Byte) (count : ℕ) :
    (accept bytes count left').1 = (accept bytes count right').1 ∧
      Alongside left right (accept bytes count left').2
        (accept bytes count right').2 := by
  rw [System.accept, System.accept]
  by_cases hcount : count = 0
  · rw [if_pos hcount, if_pos hcount]
    exact ⟨rfl, h.log .sendFailed⟩
  · rw [if_neg hcount, if_neg hcount]
    exact ⟨rfl, h.log (.write (bytes.take count))⟩

theorem Alongside.transmit (h : Alongside left right left' right')
    (bytes : List Byte) :
    (transmit (some bytes) left').1 = (transmit (some bytes) right').1 ∧
      Alongside left right (transmit (some bytes) left').2
        (transmit (some bytes) right').2 := by
  simp only [System.transmit, System.tick, ← h.sends]
  cases hsends : left'.sends with
  | nil =>
      have hticked : Alongside left right (System.tick left')
          (System.tick right') :=
        ⟨h.sends, congrArg (· + 1) h.clock, h.events⟩
      exact hticked.accept bytes bytes.length
  | cons outcome sends =>
      have hticked := h.tick sends
      cases outcome with
      | accept extra => exact hticked.accept bytes (min bytes.length (extra + 1))
      | zero => exact hticked.accept bytes 0
      | fail errno =>
          refine ⟨rfl, ?_⟩
          by_cases herrno : errno = .eintr
          · simp only [herrno, if_true]
            exact hticked
          · simp only [herrno, if_false]
            exact hticked.log .sendFailed

/-- Rounds of two sending loops that have done the same. -/
inductive SameRound (left right : World) :
    (ℕ × World) ⊕ (SendStop × ℕ × World) →
    (ℕ × World) ⊕ (SendStop × ℕ × World) → Prop
  | goesOn {sent : ℕ} {u u' : World} (h : Alongside left right u u') :
      SameRound left right (.inl (sent, u)) (.inl (sent, u'))
  | leaves {stop : SendStop} {sent : ℕ} {u u' : World}
      (h : Alongside left right u u') :
      SameRound left right (.inr (stop, sent, u)) (.inr (stop, sent, u'))

theorem Alongside.sendStep (h : Alongside left right left' right')
    (data : List Byte) (sent : ℕ) :
    SameRound left right (sendStep (sendOffer data) data.length (sent, left'))
      (sendStep (sendOffer data) data.length (sent, right')) := by
  simp only [Sending.sendStep, sendOffer]
  by_cases hdone : data.length ≤ sent
  · rw [if_pos hdone, if_pos hdone]
    exact .leaves h
  rw [if_neg hdone, if_neg hdone]
  obtain ⟨hresult, hlater⟩ := h.transmit (data.drop sent)
  generalize System.transmit (some (data.drop sent)) left' = outcome
    at hresult hlater
  generalize System.transmit (some (data.drop sent)) right' = outcome'
    at hresult hlater
  obtain ⟨result, u⟩ := outcome
  obtain ⟨_, u'⟩ := outcome'
  dsimp only at hresult hlater
  subst hresult
  cases result with
  | error errno =>
      dsimp only
      by_cases herrno : errno = .eintr
      · rw [if_pos herrno, if_pos herrno]
        exact .goesOn hlater
      · rw [if_neg herrno, if_neg herrno]
        exact .leaves hlater
  | ok count =>
      dsimp only
      by_cases hcount : count = 0
      · rw [if_pos hcount, if_pos hcount]
        exact .leaves hlater
      · rw [if_neg hcount, if_neg hcount]
        exact .goesOn hlater

/-- A loop over a buffer in memory does the same in both worlds. -/
theorem Alongside.sendLoop (h : Alongside left right left' right')
    (data : List Byte) (sent : ℕ) :
    ∃ stop sent' u u',
      (sendLoop (sendOffer data) data.length).run (sent, left') =
        (stop, sent', u) ∧
      (sendLoop (sendOffer data) data.length).run (sent, right') =
        (stop, sent', u') ∧ Alongside left right u u' := by
  have hround : ∀ (state state' : ℕ × World), state.1 = state'.1 →
      Alongside left right state.2 state'.2 →
      SameRound left right ((Sending.sendLoop (sendOffer data)
        data.length).body state) ((Sending.sendLoop (sendOffer data)
        data.length).body state') := by
    rintro ⟨sent, u⟩ ⟨_, u'⟩ rfl halong
    exact halong.sendStep data sent
  refine (Sending.sendLoop (sendOffer data) data.length).run_simulation
    (Sending.sendLoop (sendOffer data) data.length)
    (fun state state' => state.1 = state'.1 ∧
      Alongside left right state.2 state'.2)
    (fun result result' => ∃ stop sent' u u', result = (stop, sent', u) ∧
      result' = (stop, sent', u') ∧ Alongside left right u u')
    ?_ ?_ (sent, left') (sent, right') ⟨rfl, h⟩
  · rintro state state' next ⟨hsent, halong⟩ hbody
    have hsame := hround state state' hsent halong
    rw [hbody] at hsame
    generalize hbody' : (Sending.sendLoop (sendOffer data) data.length).body
      state' = outcome' at hsame
    cases hsame with
    | goesOn hlater => exact ⟨_, rfl, rfl, hlater⟩
  · rintro state state' result ⟨hsent, halong⟩ hbody
    have hsame := hround state state' hsent halong
    rw [hbody] at hsame
    generalize hbody' : (Sending.sendLoop (sendOffer data) data.length).body
      state' = outcome' at hsame
    cases hsame with
    | leaves hlater =>
        exact ⟨_, _, _, _, rfl, Loop.run_of_exit _ hbody', hlater⟩

end Alongside

/-- The result of a sending function whose loop has stopped. -/
def stopCode (stop : SendStop) : ReturnCode :=
  if stop = .complete then .success else .failure

/-- The comparison of counts behind `io_send_all` finds out how its loop
stopped. -/
theorem ioSendAll_of_run {data : List Byte} {w w' : World} {stop : SendStop}
    {sent : ℕ}
    (hrun : (sendLoop (sendOffer data) data.length).run (0, w) =
      (stop, sent, w')) :
    ∃ result, ioSendAll data w = (result, w') ∧
      (result = some data.length ↔ stop = .complete) := by
  obtain ⟨writes, hspec⟩ := sendLoop_spec (sendOffer data) data.length (0, w)
  rw [hrun] at hspec
  rw [ioSendAll, hrun]
  cases stop with
  | complete =>
      have hend : sent = data.length := Nat.le_antisymm
        (hspec.within (bounded_sendOffer data) (Nat.zero_le _))
        (hspec.complete rfl)
      exact ⟨some sent, rfl, iff_of_true (by rw [hend]) rfl⟩
  | zero =>
      have hshort : sent < data.length := hspec.short (by simp)
      refine ⟨some sent, rfl, iff_of_false ?_ (by decide)⟩
      rw [Option.some.injEq]
      exact Nat.ne_of_lt hshort
  | failed => exact ⟨none, rfl, iff_of_false (by simp) (by decide)⟩

/-- The header block goes out with the result of its loop. -/
theorem httpSendResponse_of_run {status : HttpStatus}
    {contentType block : List Byte} {contentLength : Int} {keepAlive : Bool}
    (hblock : httpBuildResponseHeaders httpResponseHeaderMax status contentType
      contentLength keepAlive = some block)
    {w w' : World} {stop : SendStop} {sent : ℕ}
    (hrun : (sendLoop (sendOffer block) block.length).run (0, w) =
      (stop, sent, w')) :
    httpSendResponse status contentType contentLength keepAlive w =
      (stopCode stop, w') := by
  obtain ⟨result, hall, hresult⟩ := ioSendAll_of_run hrun
  simp only [httpSendResponse, hblock, hall]
  by_cases hstop : stop = .complete
  · rw [hresult.mpr hstop, stopCode, if_pos hstop]
    simp
  · have hshort : result ≠ some block.length := fun h => hstop (hresult.mp h)
    rw [stopCode, if_neg hstop]
    cases result with
    | none => rfl
    | some total =>
        dsimp only
        rw [if_pos (by simpa using hshort)]

/-- A prepared error, sent in one call. -/
def sendPrepared (response : HttpResponse) (w : World) : ReturnCode × World :=
  let (code, _, w) := httpResponseSendBlocking response w
  (code, w)

/-- The response prepared for an error without a message. -/
def errorResponse (status : HttpStatus) : HttpResponse :=
  { httpResponseInit with
    headers := errorHeaders status false
    body := errorText status
    sendBody := true }

/-- Preparing an error takes memory for its page and nothing else. -/
theorem httpResponsePrepareError_eq {status : HttpStatus} {w : World}
    (hprepared : (httpResponsePrepareError httpResponseInit status none
      w).1 = .success) :
    status ≠ .ok ∧ ∃ mallocs,
      httpResponsePrepareError httpResponseInit status none w =
        (.success, errorResponse status, { w with mallocs := mallocs }) := by
  have hstatus : status ≠ .ok := by
    rintro rfl
    cases hprepared
  obtain ⟨-, hheaders⟩ := error_parts hstatus false
  obtain ⟨mallocs, hworld, -⟩ := malloc_spec w
  refine ⟨hstatus, mallocs, ?_⟩
  simp only [httpResponsePrepareError, httpResponsePrepareErrorBody_eq hstatus,
    httpResponseSetBody] at hprepared ⊢
  generalize malloc w = result at hworld hprepared
  obtain ⟨succeeds, w'⟩ := result
  dsimp only at hworld
  subst hworld
  cases succeeds with
  | false => cases hprepared
  | true =>
      simp only [Option.getD_none, hheaders]
      rfl

/-- A page in memory is sent by two loops. -/
theorem sendPrepared_of_runs {status : HttpStatus} {w w' : World}
    {stop : SendStop} {sent : ℕ}
    (hrun : (sendLoop (sendOffer (errorHeaders status false))
      (errorHeaders status false).length).run (0, w) = (stop, sent, w')) :
    (stop ≠ .complete →
      sendPrepared (errorResponse status) w = (.failure, w')) ∧
    ∀ stop' sent' w'', stop = .complete →
      (sendLoop (sendOffer (errorText status))
        (errorText status).length).run (0, w') = (stop', sent', w'') →
      sendPrepared (errorResponse status) w = (stopCode stop', w'') := by
  have hheaders : (sendLoop (sendOffer (errorResponse status).headers)
      (errorResponse status).headers.length).run
        ((errorResponse status).headersSent, w) = (stop, sent, w') := hrun
  rw [sendPrepared, httpResponseSendBlocking,
    if_neg (show ¬ (errorResponse status).complete = true from
      Bool.false_ne_true), hheaders]
  constructor
  · intro hstop
    cases stop with
    | complete => exact absurd rfl hstop
    | zero => rfl
    | failed => rfl
  · rintro stop' sent' w'' rfl hrun'
    have hbody : (sendLoop (sendOffer (errorResponse status).body)
        (errorResponse status).body.length).run
          ((errorResponse status).bodySent, w') = (stop', sent', w'') := hrun'
    simp only [errorResponse, Bool.not_true, Bool.false_eq_true, if_false]
    rw [httpResponseSendBody]
    dsimp only
    rw [show (sendLoop (sendOffer (errorText status))
      (errorText status).length).run (httpResponseInit.bodySent, w') = _ from
        hbody]
    cases stop' with
    | complete => rfl
    | zero => rfl
    | failed => rfl

/-- Sending an error at once runs the same two loops. -/
theorem httpSendError_of_runs {status : HttpStatus} (hstatus : status ≠ .ok)
    {w w' : World} {stop : SendStop} {sent : ℕ}
    (hrun : (sendLoop (sendOffer (errorHeaders status false))
      (errorHeaders status false).length).run (0, w) = (stop, sent, w')) :
    (stop ≠ .complete → httpSendError status false w = (.failure, w')) ∧
    ∀ stop' sent' w'', stop = .complete →
      (sendLoop (sendOffer (errorText status))
        (errorText status).length).run (0, w') = (stop', sent', w'') →
      httpSendError status false w =
        (stopCode stop', if stop' = .complete then
          log (.respond (errorHeaders status false) true) w'' else w'') := by
  obtain ⟨hbody, hheaders⟩ := error_parts hstatus false
  have hsent := httpSendResponse_of_run hheaders hrun
  simp only [httpSendError, hbody, hsent]
  constructor
  · intro hstop
    rw [stopCode, if_neg hstop]
  · rintro stop' sent' w'' rfl hrun'
    obtain ⟨result, hall, hresult⟩ := ioSendAll_of_run hrun'
    rw [show stopCode .complete = .success from rfl]
    simp only [hall]
    by_cases hstop : stop' = .complete
    · rw [hresult.mpr hstop, stopCode, if_pos hstop, if_pos hstop]
      simp [errorHeaders]
    · have hshort : result ≠ some (errorText status).length :=
        fun h => hstop (hresult.mp h)
      rw [stopCode, if_neg hstop, if_neg hstop]
      cases result with
      | none => rfl
      | some total =>
          dsimp only
          rw [if_pos (by simpa using hshort)]

theorem Alongside.sameSending {w left right : World} {code : ReturnCode}
    (h : Alongside w w left right) : SameSending w (code, left) (code, right) := by
  obtain ⟨events, hleft, hright⟩ := h.events
  exact ⟨rfl, h.sends, h.clock, by rw [hleft, hright]⟩

/-- The mark behind an error that is out is not a write. -/
theorem Alongside.sameSending_respond {w left right : World}
    {code : ReturnCode} (h : Alongside w w left right)
    (headers : List Byte) (closes : Bool) :
    SameSending w (code, System.log (.respond headers closes) left)
      (code, right) := by
  obtain ⟨events, hleft, hright⟩ := h.events
  refine ⟨rfl, h.sends, h.clock, ?_⟩
  rw [System.log, hleft, hright, List.append_assoc, List.drop_left,
    List.drop_left, written_append]
  exact List.append_nil _

/-- In worlds that agree about sending, an error sent at once and the prepared
one go out alike. -/
theorem sameSending_errors {status : HttpStatus} (hstatus : status ≠ .ok)
    {w w' : World} (hsame : Alongside w w w w') :
    SameSending w (httpSendError status false w)
      (sendPrepared (errorResponse status) w') := by
  obtain ⟨stop, sent, u, u', hrun, hrun', halong⟩ :=
    hsame.sendLoop (errorHeaders status false) 0
  have hatOnce := httpSendError_of_runs hstatus hrun
  have hprepared := sendPrepared_of_runs hrun'
  by_cases hstop : stop = .complete
  · obtain ⟨stop', sent', v, v', hbody, hbody', hlater⟩ :=
      halong.sendLoop (errorText status) 0
    rw [hatOnce.2 stop' sent' v hstop hbody,
      hprepared.2 stop' sent' v' hstop hbody']
    by_cases hdone : stop' = .complete
    · rw [if_pos hdone]
      exact hlater.sameSending_respond _ _
    · rw [if_neg hdone]
      exact hlater.sameSending
  · rw [hatOnce.1 hstop, hprepared.1 hstop]
    exact halong.sameSending

theorem alongside_mallocs (w : World) (mallocs : List Bool) :
    Alongside w w w { w with mallocs := mallocs } :=
  ⟨rfl, rfl, [], (List.append_nil _).symm, (List.append_nil _).symm⟩

/-- What is prepared for an oversized header. -/
theorem httpPrepareResponse_of_large {buffer : List Byte} {length : ℕ}
    {response : HttpResponse} {closing : Bool} {rootFd : Fd}
    {config : ServerConfig} {w : World}
    (hlarge : httpParseRequest (cstring (buffer.take length)) config =
      .headersTooLarge)
    (hcode : (httpPrepareResponse buffer length response closing rootFd config
      w).code = .success) :
    ∃ mallocs, httpPrepareResponse buffer length response closing rootFd config
      w = { code := .success
            response := errorResponse .requestHeaderFieldsTooLarge
            closeConnection := true
            world := { w with mallocs := mallocs } } := by
  obtain ⟨mallocs, hworld, -⟩ := malloc_spec w
  rw [httpPrepareResponse] at hcode ⊢
  by_cases hconfig : httpConfigValid config = true
  swap
  · rw [if_pos hconfig] at hcode
    cases hcode
  rw [if_neg (not_not.mpr hconfig)] at hcode ⊢
  generalize malloc w = result at hworld hcode
  obtain ⟨succeeds, w'⟩ := result
  dsimp only at hworld
  subst hworld
  cases succeeds with
  | false => cases hcode
  | true =>
      simp only [hlarge, refuse] at hcode ⊢
      obtain ⟨-, mallocs', hresult⟩ := httpResponsePrepareError_eq hcode
      rw [hresult]
      exact ⟨mallocs', rfl⟩

/-- The two ways of sending an error agree, and a head that fills the buffer is
refused as one with an oversized header. -/
theorem errors_sent_alike (w : World) :
    (∀ status, (httpResponsePrepareError httpResponseInit status none w).1 =
        .success →
      SameSending w (httpSendError status false w)
        (sendPrepared
          (httpResponsePrepareError httpResponseInit status none w).2.1
          (httpResponsePrepareError httpResponseInit status none w).2.2)) ∧
    ∀ config buffer length response closing rootFd,
      httpParseRequest (cstring (buffer.take length)) config =
          .headersTooLarge →
        (httpPrepareResponse buffer length response closing rootFd config
          w).code = .success →
        SameSending w (httpSendError .requestHeaderFieldsTooLarge false w)
          (sendPrepared
            (httpPrepareResponse buffer length response closing rootFd config
              w).response
            (httpPrepareResponse buffer length response closing rootFd config
              w).world) := by
  constructor
  · intro status hprepared
    obtain ⟨hstatus, mallocs, hresult⟩ := httpResponsePrepareError_eq hprepared
    rw [hresult]
    exact sameSending_errors hstatus (alongside_mallocs w mallocs)
  · intro config buffer length response closing rootFd hlarge hcode
    obtain ⟨mallocs, hprepared⟩ := httpPrepareResponse_of_large hlarge hcode
    rw [hprepared]
    exact sameSending_errors (by decide) (alongside_mallocs w mallocs)

/-- A world that takes the headers in pieces and nothing behind the first bytes
of the page. -/
def haltingWorld : World :=
  start { incoming := [], recvs := [], mallocs := [],
          sends := [.accept 8, .fail .eintr, .accept 4000, .accept 3, .zero],
          fileSystem := fun _ => smallFileSystem } []

theorem errors_sent_alike_halting :
    (httpSendError .notFound false haltingWorld).1 = .failure ∧
      SameSending haltingWorld (httpSendError .notFound false haltingWorld)
        (sendPrepared
          (httpResponsePrepareError httpResponseInit .notFound none
            haltingWorld).2.1
          (httpResponsePrepareError httpResponseInit .notFound none
            haltingWorld).2.2) :=
  ⟨by decide +kernel,
    (errors_sent_alike haltingWorld).1 .notFound (by decide +kernel)⟩

end HttpCerver.ErrorPaths
