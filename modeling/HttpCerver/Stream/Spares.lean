import HttpCerver.Stream.ErrorPaths

/-!
# Two senders that nothing calls

`file_send` and `http_send_bad_request_message` are compiled and never called.
The first one is the file loop of a response without the retry after `EINTR`;
the second one is a prepared error with its page put together by hand.
-/

namespace HttpCerver.Spares

open HttpCerver.Bytes
open HttpCerver.Delivery
open HttpCerver.ErrorPaths
open HttpCerver.File
open HttpCerver.Iteration
open HttpCerver.Reference
open HttpCerver.Response
open HttpCerver.Sending
open HttpCerver.System

section FileSend

variable (file : FileT)

/-- One round of the loop of `file_send`, which has no case for `EINTR`.
`sendfile` moves `offset` by what it returns, so that it is `total_sent`. -/
def fileSendStep (state : ℕ × World) :
    (ℕ × World) ⊕ (Option ℕ × World) :=
  let (totalSent, w) := state
  if file.size ≤ totalSent then .inr (some totalSent, w)
  else
    match transmit (sendfileOffer file.fd file.size totalSent w) w with
    | (.error _, w) => .inr (none, w)
    | (.ok sent, w) =>
      if sent = 0 then .inr (none, w) else .inl (totalSent + sent, w)

/-- What the file loop of a response makes of a round of `file_send`. -/
inductive SparedRound (totalSent : ℕ) (w : World) :
    (ℕ × World) ⊕ (Option ℕ × World) →
    (ℕ × World) ⊕ (SendStop × ℕ × World) → Prop
  | goesOn {next : ℕ × World} : SparedRound totalSent w (.inl next) (.inl next)
  | complete : SparedRound totalSent w (.inr (some totalSent, w))
      (.inr (.complete, totalSent, w))
  | stopped {stop : SendStop} {w' : World} (hstop : stop ≠ .complete) :
      SparedRound totalSent w (.inr (none, w')) (.inr (stop, totalSent, w'))
  | interrupted {sends : List SendOutcome} (hmore : totalSent < file.size)
      (hsends : w.sends = .fail .eintr :: sends) :
      SparedRound totalSent w (.inr (none, { tick w with sends := sends }))
        (.inl (totalSent, { tick w with sends := sends }))

theorem fileSendStep_spec (totalSent : ℕ) (w : World) :
    SparedRound file totalSent w (fileSendStep file (totalSent, w))
      (sendStep (sendfileOffer file.fd file.size) file.size
        (totalSent, w)) := by
  rw [fileSendStep, sendStep]
  dsimp only
  split_ifs with hdone
  · exact .complete
  · have hspec := transmit_spec (sendfileOffer file.fd file.size totalSent w) w
    generalize transmit (sendfileOffer file.fd file.size totalSent w) w =
      outcome at hspec
    cases hspec with
    | accepted hoffered hpos hcount hsends =>
        simp only [Nat.ne_of_gt hpos, if_false]
        exact .goesOn
    | interrupted hsends =>
        exact .interrupted (Nat.lt_of_not_le hdone) hsends
    | failed hresult hsends hcause =>
        obtain rfl | ⟨errno, herrno, rfl⟩ := hresult
        · exact .stopped (by decide)
        · simp only [herrno, if_false]
          exact .stopped (by decide)

theorem fileSendStep_rank_lt {state next : ℕ × World}
    (hbody : fileSendStep file state = .inl next) :
    next.2.sends.length + (file.size - next.1) <
      state.2.sends.length + (file.size - state.1) := by
  obtain ⟨totalSent, w⟩ := state
  have hround := fileSendStep_spec file totalSent w
  rw [hbody] at hround
  generalize hsend : sendStep (sendfileOffer file.fd file.size) file.size
    (totalSent, w) = result at hround
  cases hround with
  | goesOn => exact sendStep_rank_lt hsend

def fileSendLoop : Loop (ℕ × World) (Option ℕ × World) where
  body := fileSendStep file
  rank state := state.2.sends.length + (file.size - state.1)
  rank_lt := fileSendStep_rank_lt file

/-- `file_send`: the number of bytes sent, `none` for `-1`. -/
def fileSend (w : World) : Option ℕ × World :=
  (fileSendLoop file).run (0, w)

/-- The loop that retries, over the same file. -/
def retryingLoop : Loop (ℕ × World) (SendStop × ℕ × World) :=
  sendLoop (sendfileOffer file.fd file.size) file.size

/-- The two loops do the same, or the one that does not retry stops at an
interruption, where the other one goes on. -/
inductive Spared (state : ℕ × World) :
    Option ℕ × World → SendStop × ℕ × World → Prop
  | complete {totalSent : ℕ} {w : World} :
      Spared state (some totalSent, w) (.complete, totalSent, w)
  | stopped {totalSent : ℕ} {stop : SendStop} {w : World}
      (hstop : stop ≠ .complete) :
      Spared state (none, w) (stop, totalSent, w)
  | interrupted {totalSent : ℕ} {w : World}
      {result : SendStop × ℕ × World} (hmore : totalSent < file.size)
      (hsends : .fail .eintr :: w.sends <:+ state.2.sends)
      (hresult : (retryingLoop file).run (totalSent, w) = result) :
      Spared state (none, w) result

theorem fileSendLoop_spared (state : ℕ × World) :
    Spared file state ((fileSendLoop file).run state)
      ((retryingLoop file).run state) := by
  refine (fileSendLoop file).run_induction
    (motive := fun state result =>
      Spared file state result ((retryingLoop file).run state)) ?_ ?_ state
  · rintro ⟨totalSent, w⟩ result hbody
    have hround := fileSendStep_spec file totalSent w
    rw [show fileSendStep file (totalSent, w) = .inr result from hbody]
      at hround
    generalize hsend : sendStep (sendfileOffer file.fd file.size) file.size
      (totalSent, w) = outcome at hround
    cases hround with
    | complete =>
        rw [(retryingLoop file).run_of_exit hsend]
        exact .complete
    | stopped hstop =>
        rw [(retryingLoop file).run_of_exit hsend]
        exact .stopped hstop
    | interrupted hmore hsends =>
        rw [(retryingLoop file).run_of_continue hsend]
        exact .interrupted hmore (by rw [hsends]) rfl
  · rintro ⟨totalSent, w⟩ next result hbody hlater
    have hround := fileSendStep_spec file totalSent w
    rw [show fileSendStep file (totalSent, w) = .inl next from hbody]
      at hround
    generalize hsend : sendStep (sendfileOffer file.fd file.size) file.size
      (totalSent, w) = outcome at hround
    cases hround with
    | goesOn =>
        have hmoved : next.2.sends <:+ w.sends := by
          have hspec := sendStep_spec (sendfileOffer file.fd file.size)
            file.size totalSent w
          rw [hsend] at hspec
          cases hspec with
          | accepted hmore hoffer hpos hcount hsends => exact hsends
          | interrupted hmore hsends =>
              rw [hsends]
              exact List.suffix_cons _ _
        rw [(retryingLoop file).run_of_continue hsend]
        generalize (retryingLoop file).run next = final at hlater
        cases hlater with
        | complete => exact .complete
        | stopped hstop => exact .stopped hstop
        | interrupted hmore hsends hresult =>
            exact .interrupted hmore (hsends.trans hmoved) hresult

/-- `file_send` against the file loop of a response: they send the same and
agree about success, or `file_send` gives up at an interruption from which the
response would have gone on. -/
theorem fileSend_against_response {response : HttpResponse}
    (hfileFd : response.fileFd = some file.fd)
    (hsize : response.fileSize = file.size) (hoffset : response.fileOffset = 0)
    (w : World) :
    ((fileSend file w).2 = (httpResponseSendFile response w).2.2 ∧
      ((fileSend file w).1.isSome = true ↔
        (httpResponseSendFile response w).1 = .success)) ∨
    ∃ totalSent w', fileSend file w = (none, w') ∧ totalSent < file.size ∧
      .fail .eintr :: w'.sends <:+ w.sends ∧
      httpResponseSendFile { response with fileOffset := totalSent } w' =
        httpResponseSendFile response w := by
  have hspared := fileSendLoop_spared file (0, w)
  simp only [httpResponseSendFile, hfileFd, hsize, hoffset]
  rw [fileSend]
  change Spared file (0, w) _
    ((sendLoop (sendfileOffer file.fd file.size) file.size).run (0, w))
    at hspared
  generalize (fileSendLoop file).run (0, w) = result at hspared
  generalize (sendLoop (sendfileOffer file.fd file.size) file.size).run (0, w) =
    retried at hspared
  cases hspared with
  | complete => exact .inl ⟨rfl, iff_of_true rfl rfl⟩
  | @stopped totalSent stop w' hstop =>
      left
      cases stop with
      | complete => exact absurd rfl hstop
      | zero => exact ⟨rfl, iff_of_false (by simp) (by simp)⟩
      | failed => exact ⟨rfl, iff_of_false (by simp) (by simp)⟩
  | @interrupted totalSent w' _ hmore hsends hresult =>
      right
      refine ⟨totalSent, w', rfl, hmore, hsends, ?_⟩
      rw [← hresult, retryingLoop]

end FileSend

theorem shortFile_size_lt : 5 < 2 ^ 63 := by decide

/-- Five bytes of a file behind descriptor `4`, in a world where the second
call is interrupted. -/
def shortFile : FileT where
  fd := 4
  size := 5
  size_lt := shortFile_size_lt

def shortResponse : HttpResponse :=
  { httpResponseInit with fileFd := some 4, fileSize := 5, sendBody := true }

def interruptedWorld : World :=
  start { incoming := [], recvs := [], mallocs := [],
          sends := [.accept 1, .fail .eintr],
          fileSystem := fun _ => smallFileSystem } [(4, 1)]

theorem fileSend_against_response_interrupted :
    (httpResponseSendFile shortResponse interruptedWorld).1 = .success ∧
      ∃ totalSent w', fileSend shortFile interruptedWorld = (none, w') ∧
        httpResponseSendFile { shortResponse with fileOffset := totalSent }
            w' = httpResponseSendFile shortResponse interruptedWorld := by
  have hcode : (httpResponseSendFile shortResponse interruptedWorld).1 =
      .success := by decide +kernel
  have hnone : (fileSend shortFile interruptedWorld).1.isSome = false := by
    decide +kernel
  have hagainst := fileSend_against_response shortFile
    (show shortResponse.fileFd = some shortFile.fd from rfl) rfl rfl
    interruptedWorld
  refine ⟨hcode, ?_⟩
  obtain ⟨-, hiff⟩ | ⟨totalSent, w', hfile, -, -, hresponse⟩ := hagainst
  · rw [hnone, hcode] at hiff
    exact absurd (hiff.mpr rfl) (by decide)
  · exact ⟨totalSent, w', hfile, hresponse⟩

section Message

/-- The page around a message. -/
def messagePage (message : CString) : List Byte :=
  ascii "<html><body><h1>400 Bad Request</h1><p>" ++ message.bytes ++
    ascii "</p></body></html>"

/-- `sizeof(body)`. -/
def messagePageSize : ℕ := 512

/-- `http_send_bad_request_message`. -/
def httpSendBadRequestMessage (message : CString) (w : World) :
    ReturnCode × World :=
  let body := messagePage message
  if messagePageSize ≤ body.length then (.failure, w)
  else
    match httpSendResponse .badRequest (ascii "text/html") body.length false
        w with
    | (.failure, w) => (.failure, w)
    | (.success, w) =>
      match ioSendAll body w with
      | (none, w) => (.failure, w)
      | (some sent, w) =>
        if sent ≠ body.length then (.failure, w) else (.success, w)

/-- The headers in front of a page. -/
def pageHeaders (page : List Byte) : List Byte :=
  headerBlock .badRequest (ascii "text/html") page.length false

/-- The response prepared with the page for its message. -/
def pageResponse (page : List Byte) : HttpResponse :=
  { httpResponseInit with
    headers := pageHeaders page
    body := page
    sendBody := true }

variable {page : List Byte} {w w' : World} {stop : SendStop} {sent : ℕ}

theorem httpResponsePrepareError_page (hlength : page.length < 2 ^ 63)
    (hprepared : (httpResponsePrepareError httpResponseInit .badRequest
      (some page) w).1 = .success) :
    ∃ mallocs, httpResponsePrepareError httpResponseInit .badRequest
      (some page) w =
        (.success, pageResponse page, { w with mallocs := mallocs }) := by
  have hheaders := httpBuildResponseHeaders_eq_some .badRequest false
    (show (ascii "text/html").length ≤ 24 by decide) hlength
  obtain ⟨mallocs, hworld, -⟩ := malloc_spec w
  refine ⟨mallocs, ?_⟩
  simp only [httpResponsePrepareError, httpResponsePrepareErrorBody,
    httpResponseSetBody, Option.getD_some] at hprepared ⊢
  generalize malloc w = result at hworld hprepared
  obtain ⟨succeeds, w'⟩ := result
  dsimp only at hworld
  subst hworld
  cases succeeds with
  | false => cases hprepared
  | true =>
      simp only [hheaders]
      rfl

/-- The two loops in which a prepared page goes out. -/
theorem sendPrepared_pageResponse
    (hrun : (sendLoop (sendOffer (pageHeaders page))
      (pageHeaders page).length).run (0, w) = (stop, sent, w')) :
    sendPrepared (pageResponse page) w =
      if stop = .complete then
        (stopCode ((sendLoop (sendOffer page) page.length).run (0, w')).1,
          ((sendLoop (sendOffer page) page.length).run (0, w')).2.2)
      else (.failure, w') := by
  have hheaders : (sendLoop (sendOffer (pageResponse page).headers)
      (pageResponse page).headers.length).run
        ((pageResponse page).headersSent, w) = (stop, sent, w') := hrun
  rw [sendPrepared, httpResponseSendBlocking,
    if_neg (show ¬ (pageResponse page).complete = true from
      Bool.false_ne_true), hheaders]
  cases stop with
  | zero => rfl
  | failed => rfl
  | complete =>
      simp only [pageResponse, Bool.not_true, Bool.false_eq_true, if_false,
        if_true, httpResponseSendBody]
      rw [show httpResponseInit.bodySent = 0 from rfl]
      generalize (sendLoop (sendOffer page) page.length).run (0, w') = result
      obtain ⟨stop, sent, w''⟩ := result
      cases stop <;> rfl

/-- The same loops by way of `io_send_all`. -/
theorem httpSendBadRequestMessage_eq {message : CString}
    (hfits : (messagePage message).length < messagePageSize)
    (hrun : (sendLoop (sendOffer (pageHeaders (messagePage message)))
      (pageHeaders (messagePage message)).length).run (0, w) =
        (stop, sent, w')) :
    httpSendBadRequestMessage message w =
      if stop = .complete then
        (stopCode ((sendLoop (sendOffer (messagePage message))
            (messagePage message).length).run (0, w')).1,
          ((sendLoop (sendOffer (messagePage message))
            (messagePage message).length).run (0, w')).2.2)
      else (.failure, w') := by
  have hsize : (messagePage message).length < 2 ^ 63 :=
    hfits.trans (by decide)
  have hheaders := httpBuildResponseHeaders_eq_some .badRequest false
    (show (ascii "text/html").length ≤ 24 by decide) hsize
  have hresponse := httpSendResponse_of_run hheaders hrun
  rw [httpSendBadRequestMessage, if_neg (Nat.not_le.mpr hfits), hresponse]
  by_cases hstop : stop = .complete
  · rw [if_pos hstop, stopCode, if_pos hstop]
    dsimp only
    generalize hbody : (sendLoop (sendOffer (messagePage message))
      (messagePage message).length).run (0, w') = result
    obtain ⟨stop', sent', w''⟩ := result
    obtain ⟨total, hall, htotal⟩ := ioSendAll_of_run hbody
    rw [hall]
    by_cases hdone : stop' = .complete
    · rw [htotal.mpr hdone]
      simp [stopCode, hdone]
    · have hshort : total ≠ some (messagePage message).length :=
        fun h => hdone (htotal.mp h)
      cases total with
      | none => simp [stopCode, hdone]
      | some total =>
          rw [ne_eq, Option.some.injEq] at hshort
          simp [stopCode, hdone, hshort]
  · rw [if_neg hstop, stopCode, if_neg hstop]

/-- A message whose page does not fit sends nothing; any other one goes out
like an error prepared with that page. -/
theorem message_sent_alike (message : CString) (w : World) :
    (messagePageSize ≤ (messagePage message).length →
      httpSendBadRequestMessage message w = (.failure, w)) ∧
    ((messagePage message).length < messagePageSize →
      (httpResponsePrepareError httpResponseInit .badRequest
        (some (messagePage message)) w).1 = .success →
      SameSending w (httpSendBadRequestMessage message w)
        (sendPrepared
          (httpResponsePrepareError httpResponseInit .badRequest
            (some (messagePage message)) w).2.1
          (httpResponsePrepareError httpResponseInit .badRequest
            (some (messagePage message)) w).2.2)) := by
  constructor
  · intro hlarge
    rw [httpSendBadRequestMessage, if_pos hlarge]
  · intro hfits hprepared
    obtain ⟨mallocs, hresult⟩ := httpResponsePrepareError_page
      (hfits.trans (by decide)) hprepared
    rw [hresult]
    dsimp only
    obtain ⟨stop, sent, u, u', hrun, hrun', halong⟩ :=
      (alongside_mallocs w mallocs).sendLoop (pageHeaders (messagePage message))
        0
    rw [httpSendBadRequestMessage_eq hfits hrun,
      sendPrepared_pageResponse hrun']
    by_cases hstop : stop = .complete
    · rw [if_pos hstop, if_pos hstop]
      obtain ⟨stop', sent', v, v', hbody, hbody', hlater⟩ :=
        halong.sendLoop (messagePage message) 0
      rw [hbody, hbody']
      exact hlater.sameSending
    · rw [if_neg hstop, if_neg hstop]
      exact halong.sameSending

end Message

theorem message_sent_alike_halting :
    SameSending haltingWorld
      (httpSendBadRequestMessage (cstring (ascii "no")) haltingWorld)
      (sendPrepared
        (httpResponsePrepareError httpResponseInit .badRequest
          (some (messagePage (cstring (ascii "no")))) haltingWorld).2.1
        (httpResponsePrepareError httpResponseInit .badRequest
          (some (messagePage (cstring (ascii "no")))) haltingWorld).2.2) :=
  (message_sent_alike (cstring (ascii "no")) haltingWorld).2
    (by decide +kernel) (by decide +kernel)

end HttpCerver.Spares
