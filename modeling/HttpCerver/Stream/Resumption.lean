import HttpCerver.Core.Resuming
import HttpCerver.Stream.Reference

/-!
# Resumed responses

A response that could not be sent in one go can be sent in several.  Its three
counters move in the order of the parts they count, so that together they say
how much of the message is out, and every call goes on at the next byte.
-/

namespace HttpCerver.Resumption

open HttpCerver.Answers
open HttpCerver.Bytes
open HttpCerver.Config
open HttpCerver.Delivery
open HttpCerver.Http
open HttpCerver.Reference
open HttpCerver.Response
open HttpCerver.Resuming
open HttpCerver.Sending
open HttpCerver.System

/-- What a response sends of a file that holds `content`. -/
def filePart (response : HttpResponse) (content : List Byte) : List Byte :=
  if response.fileFd.isSome then content.take response.fileSize else []

/-- What follows the headers: if the body is wanted, the body in memory and
the file. -/
def restOf (response : HttpResponse) (content : List Byte) : List Byte :=
  if response.sendBody then response.body ++ filePart response content
  else []

def messageOf (response : HttpResponse) (content : List Byte) : List Byte :=
  response.headers ++ restOf response content

/-- The sum of the three counters. -/
def sentCount (response : HttpResponse) : ℕ :=
  response.headersSent + (response.bodySent + response.fileOffset)

/-- One call of `http_response_send_blocking`. -/
def sendCall (response : HttpResponse) (w : World) : HttpResponse :=
  (httpResponseSendBlocking response w).2.1

/-- What that call writes. -/
def callBytes (response : HttpResponse) (w : World) : List Byte :=
  written ((httpResponseSendBlocking response w).2.2.trace.drop
    w.trace.length)

/-- The file of a response, if it has one, is open and holds `content`, now
and later, and that is not less than what is to be sent. -/
def Unchanged (response : HttpResponse) (content : List Byte) (w : World) :
    Prop :=
  ∀ fd, response.fileFd = some fd →
    response.fileSize ≤ content.length ∧
      ∃ file, fileOf w fd = some file ∧
        ∀ clock, (w.fileSystem clock).content file.inode = content

theorem Unchanged.of_effect {response : HttpResponse} {content : List Byte}
    {w w' : World} {events : List Event}
    (h : Unchanged response content w) (heffect : Effect w events w')
    (hdescriptors : w'.descriptors = w.descriptors) :
    Unchanged response content w' := by
  intro fd hfd
  obtain ⟨hsize, file, hfile, hcontent⟩ := h fd hfd
  refine ⟨hsize, file, ?_, ?_⟩
  · rw [fileOf, hdescriptors]
    exact hfile
  · rwa [heffect.fileSystem]

theorem Unchanged.length_take {response : HttpResponse}
    {content : List Byte} {w : World} {fd : Fd}
    (h : Unchanged response content w) (hfd : response.fileFd = some fd) :
    (content.take response.fileSize).length = response.fileSize := by
  rw [List.length_take, Nat.min_eq_left (h fd hfd).1]

theorem offers_sendfileOffer {response : HttpResponse} {content : List Byte}
    {w : World} {fd : Fd} (h : Unchanged response content w)
    (hfd : response.fileFd = some fd) :
    Offers (sendfileOffer fd response.fileSize)
      (content.take response.fileSize) w := by
  obtain ⟨hsize, file, hfile, hcontent⟩ := h fd hfd
  intro sent w' hdescriptors hsystem bytes hbytes
  have hfile' : fileOf w' fd = some file := by
    rw [fileOf, hdescriptors]
    exact hfile
  rw [sendfileOffer, hfile', Option.map_some, Option.some.injEq, hsystem,
    hcontent] at hbytes
  rw [← hbytes, List.drop_take]

/-- A function that sends has advanced a part of the message and reports a
success just when all of the part is out. -/
structure Moved (part : List Byte) (sent : ℕ) (w : World)
    (writes : List (List Byte)) (code : ReturnCode) (sent' : ℕ) (w' : World) :
    Prop where
  effect : Effect w (codeEvents writes code) w'
  descriptors : w'.descriptors = w.descriptors
  advance : Advance part sent writes.flatten sent'
  code_iff : code = .success ↔ sent' = part.length

section Moved

variable {front back : List Byte} {sent sent' later later' : ℕ}
variable {w w' w'' : World} {writes writes' : List (List Byte)}
variable {code : ReturnCode}

theorem moved_of_run {offer : Offer} {part : List Byte} {length : ℕ}
    {stop : SendStop}
    (hrun : SendRun offer length sent w writes stop sent' w')
    (hoffers : Offers offer part w) (hbounded : Bounded offer length)
    (hlength : part.length = length) (hsent : sent ≤ part.length) :
    Moved part sent w writes
      (if stop = .complete then .success else .failure) sent' w' := by
  subst hlength
  have hwithin := hrun.within hbounded hsent
  refine ⟨?_, hrun.descriptors, ?_, ?_⟩
  · have heffect := hrun.effect
    rw [sendEvents] at heffect
    rw [codeEvents]
    cases stop <;> exact heffect
  · exact advance_of_drop_eq (hrun.message part hoffers) hrun.sent_eq hwithin
  · by_cases hstop : stop = .complete
    · simp only [if_pos hstop, true_iff]
      exact Nat.le_antisymm hwithin (hrun.complete hstop)
    · have hshort := hrun.short hstop
      simp only [if_neg hstop, reduceCtorEq, false_iff]
      exact Nat.ne_of_lt hshort

/-- Nothing is left of an empty part. -/
theorem moved_nil (w : World) : Moved [] 0 w [] .success 0 w where
  effect := Effect.refl w
  descriptors := rfl
  advance := Advance.refl (Nat.le_refl _)
  code_iff := by simp

/-- The first part is not out yet. -/
theorem Moved.inFirst (h : Moved front sent w writes .failure sent' w')
    (back : List Byte) (horder : sent < front.length → later = 0) :
    Moved (front ++ back) (sent + later) w writes .failure (sent' + later)
        w' ∧ sent' < front.length ∧ later = 0 := by
  have hne : sent' ≠ front.length := fun hend => by
    cases h.code_iff.mpr hend
  have hshort : sent' < front.length := Nat.lt_of_le_of_ne h.advance.within hne
  have hlater := horder (Nat.lt_of_le_of_lt h.advance.le hshort)
  refine ⟨⟨h.effect, h.descriptors, h.advance.inFirst back horder hshort, ?_⟩,
    hshort, hlater⟩
  rw [List.length_append]
  simp only [reduceCtorEq, false_iff]
  omega

/-- The first part is out, and the second one has followed. -/
theorem Moved.inBoth (hfirst : Moved front sent w writes .success sent' w')
    (hsecond : Moved back later w' writes' code later' w'')
    (horder : sent < front.length → later = 0) :
    Moved (front ++ back) (sent + later) w (writes ++ writes') code
      (sent' + later') w'' := by
  have hend : sent' = front.length := hfirst.code_iff.mp rfl
  subst hend
  refine ⟨?_, hsecond.descriptors.trans hfirst.descriptors, ?_, ?_⟩
  · simpa [codeEvents] using hfirst.effect.trans hsecond.effect
  · rw [List.flatten_append]
    exact hfirst.advance.inBoth hsecond.advance horder
  · rw [hsecond.code_iff, List.length_append, Nat.add_left_cancel_iff]

end Moved

/-- The counters behind the headers have moved in order. -/
structure InOrder (content : List Byte) (response : HttpResponse) :
    Prop where
  bodySent_le : response.bodySent ≤ response.body.length
  fileOffset_le : response.fileOffset ≤ (filePart response content).length
  bodyFirst : response.bodySent < response.body.length →
    response.fileOffset = 0
  headersOnly : response.sendBody = false →
    response.bodySent + response.fileOffset = 0

/-- The counters of a response have moved in order, and it is marked complete
just when all of its message is out. -/
structure Resumable (content : List Byte) (response : HttpResponse) : Prop
    extends InOrder content response where
  headersSent_le : response.headersSent ≤ response.headers.length
  headersFirst : response.headersSent < response.headers.length →
    response.bodySent + response.fileOffset = 0
  complete_iff : response.complete = true ↔
    sentCount response = (messageOf response content).length

section Phases

variable (response : HttpResponse) {content : List Byte} {w : World}

/-- The file, from wherever its counter stands. -/
theorem httpResponseSendFile_moved
    (hcomplete : response.complete = false)
    (hoffset : response.fileOffset ≤ (filePart response content).length)
    (hunchanged : Unchanged response content w) :
    ∃ writes offset code w', httpResponseSendFile response w =
        (code, { response with
          fileOffset := offset
          complete := decide (code = .success) }, w') ∧
      Moved (filePart response content) response.fileOffset w writes code
        offset w' := by
  rw [httpResponseSendFile]
  split
  · next hfd =>
      have hnil : filePart response content = [] := by
        rw [filePart, hfd]
        rfl
      rw [hnil] at hoffset ⊢
      have hzero : response.fileOffset = 0 := Nat.le_zero.mp hoffset
      rw [hzero]
      refine ⟨[], 0, .success, w, ?_, moved_nil w⟩
      rw [← hzero]
      rfl
  · next fd hfd =>
      have hpart : filePart response content =
          content.take response.fileSize := by
        rw [filePart, hfd]
        rfl
      rw [hpart] at hoffset ⊢
      obtain ⟨writes, hrun⟩ := sendLoop_spec
        (sendfileOffer fd response.fileSize) response.fileSize
        (response.fileOffset, w)
      generalize (sendLoop (sendfileOffer fd response.fileSize)
        response.fileSize).run (response.fileOffset, w) = result at hrun
      obtain ⟨stop, offset, w'⟩ := result
      have hmoved := moved_of_run hrun (offers_sendfileOffer hunchanged hfd)
        (bounded_sendfileOffer fd _) (hunchanged.length_take hfd) hoffset
      refine ⟨writes, offset, _, w', ?_, hmoved⟩
      cases stop with
      | complete => rfl
      | zero => simp [hcomplete]
      | failed => simp [hcomplete]

/-- The body in memory and the file. -/
theorem httpResponseSendBody_moved
    (hcomplete : response.complete = false)
    (hinOrder : InOrder content response)
    (hsendBody : response.sendBody = true)
    (hunchanged : Unchanged response content w) :
    ∃ writes sent offset code w', httpResponseSendBody response w =
        (code, { response with
          bodySent := sent
          fileOffset := offset
          complete := decide (code = .success) }, w') ∧
      Moved (response.body ++ filePart response content)
        (response.bodySent + response.fileOffset) w writes code
        (sent + offset) w' ∧
      InOrder content { response with
        bodySent := sent
        fileOffset := offset
        complete := decide (code = .success) } := by
  rw [httpResponseSendBody]
  obtain ⟨writes, hrun⟩ := sendLoop_spec (sendOffer response.body)
    response.body.length (response.bodySent, w)
  generalize (sendLoop (sendOffer response.body) response.body.length).run
    (response.bodySent, w) = result at hrun
  obtain ⟨stop, sent, w'⟩ := result
  have hmoved := moved_of_run hrun (offers_sendOffer _ w)
    (bounded_sendOffer _) rfl hinOrder.bodySent_le
  have hwanted : response.sendBody ≠ false := by simp [hsendBody]
  by_cases hstop : stop = .complete
  · rw [if_pos hstop] at hmoved
    subst hstop
    have hend : sent = response.body.length := hmoved.code_iff.mp rfl
    obtain ⟨writes', offset, code, w'', hcall, hrest⟩ :=
      httpResponseSendFile_moved { response with bodySent := sent }
        hcomplete hinOrder.fileOffset_le
        (hunchanged.of_effect hmoved.effect hmoved.descriptors)
    refine ⟨writes ++ writes', sent, offset, code, w'', hcall,
      hmoved.inBoth hrest hinOrder.bodyFirst, hmoved.advance.within,
      hrest.advance.within, ?_, fun hnone => absurd hnone hwanted⟩
    intro hshort
    exact absurd hend (Nat.ne_of_lt hshort)
  · rw [if_neg hstop] at hmoved
    obtain ⟨hfirst, hshort, hzero⟩ :=
      hmoved.inFirst (filePart response content) hinOrder.bodyFirst
    refine ⟨writes, sent, response.fileOffset, .failure, w', ?_, hfirst,
      hmoved.advance.within, hinOrder.fileOffset_le, fun _ => hzero,
      fun hnone => absurd hnone hwanted⟩
    cases stop with
    | complete => exact absurd rfl hstop
    | zero => simp [hcomplete]
    | failed => simp [hcomplete]

/-- What follows the headers. -/
theorem sendRest_moved (hcomplete : response.complete = false)
    (hinOrder : InOrder content response)
    (hunchanged : Unchanged response content w) :
    ∃ writes sent offset code w',
      (if !response.sendBody then
          (.success, { response with complete := true }, w)
        else httpResponseSendBody response w) =
        (code, { response with
          bodySent := sent
          fileOffset := offset
          complete := decide (code = .success) }, w') ∧
      Moved (restOf response content)
        (response.bodySent + response.fileOffset) w writes code
        (sent + offset) w' ∧
      InOrder content { response with
        bodySent := sent
        fileOffset := offset
        complete := decide (code = .success) } := by
  rw [restOf]
  by_cases hsendBody : response.sendBody = true
  · rw [if_neg (by simp [hsendBody]), if_pos hsendBody]
    exact httpResponseSendBody_moved response hcomplete hinOrder hsendBody
      hunchanged
  · have hnone : response.sendBody = false := by simpa using hsendBody
    rw [if_pos (by simp [hnone]), if_neg hsendBody]
    refine ⟨[], response.bodySent, response.fileOffset, .success, w, rfl,
      ?_, ⟨hinOrder.bodySent_le, hinOrder.fileOffset_le,
        hinOrder.bodyFirst, hinOrder.headersOnly⟩⟩
    rw [hinOrder.headersOnly hnone]
    exact moved_nil w

end Phases

/-- The response is the same but for its counters and its mark. -/
def SameMessage (response response' : HttpResponse) : Prop :=
  ∃ headersSent bodySent fileOffset complete, response' = { response with
    headersSent := headersSent
    bodySent := bodySent
    fileOffset := fileOffset
    complete := complete }

theorem SameMessage.refl (response : HttpResponse) :
    SameMessage response response :=
  ⟨_, _, _, _, rfl⟩

theorem SameMessage.trans {response response' response'' : HttpResponse}
    (first : SameMessage response response')
    (second : SameMessage response' response'') :
    SameMessage response response'' := by
  obtain ⟨_, _, _, _, rfl⟩ := first
  obtain ⟨_, _, _, _, rfl⟩ := second
  exact ⟨_, _, _, _, rfl⟩

/-- A call on a response that is not complete. -/
theorem httpResponseSendBlocking_moved {response : HttpResponse}
    {content : List Byte} {w : World} (hresumable : Resumable content response)
    (hcomplete : response.complete = false)
    (hunchanged : Unchanged response content w) :
    ∃ writes code response' w', httpResponseSendBlocking response w =
        (code, response', w') ∧
      Moved (messageOf response content) (sentCount response) w writes code
        (sentCount response') w' ∧
      SameMessage response response' ∧ Resumable content response' := by
  rw [httpResponseSendBlocking]
  rw [if_neg (by simp [hcomplete])]
  obtain ⟨writes, hrun⟩ := sendLoop_spec (sendOffer response.headers)
    response.headers.length (response.headersSent, w)
  generalize (sendLoop (sendOffer response.headers)
    response.headers.length).run (response.headersSent, w) = result at hrun
  obtain ⟨stop, sent, w'⟩ := result
  have hmoved := moved_of_run hrun (offers_sendOffer _ w)
    (bounded_sendOffer _) rfl hresumable.headersSent_le
  have hinOrder : InOrder content { response with headersSent := sent } :=
    ⟨hresumable.bodySent_le, hresumable.fileOffset_le, hresumable.bodyFirst,
      hresumable.headersOnly⟩
  by_cases hstop : stop = .complete
  · rw [if_pos hstop] at hmoved
    subst hstop
    have hend : sent = response.headers.length := hmoved.code_iff.mp rfl
    obtain ⟨writes', bodySent, offset, code, w'', hcall, hrest, hordered⟩ :=
      sendRest_moved { response with headersSent := sent } hcomplete hinOrder
        (hunchanged.of_effect hmoved.effect hmoved.descriptors)
    have hboth := hmoved.inBoth hrest hresumable.headersFirst
    refine ⟨writes ++ writes', code, _, w'', hcall, hboth,
      ⟨_, _, _, _, rfl⟩, hordered, hmoved.advance.within, ?_, ?_⟩
    · intro hshort
      exact absurd hend (Nat.ne_of_lt hshort)
    · rw [decide_eq_true_eq]
      exact hboth.code_iff
  · rw [if_neg hstop] at hmoved
    obtain ⟨hfirst, hshort, hzero⟩ :=
      hmoved.inFirst (restOf response content) hresumable.headersFirst
    refine ⟨writes, .failure, { response with headersSent := sent }, w', ?_,
      hfirst, ⟨_, _, _, _, rfl⟩, hinOrder, hmoved.advance.within,
      fun _ => hzero, ?_⟩
    · cases stop with
      | complete => exact absurd rfl hstop
      | zero => rfl
      | failed => rfl
    · have hcode := hfirst.code_iff
      simp only [reduceCtorEq, false_iff] at hcode
      simp only [hcomplete, Bool.false_eq_true, false_iff]
      exact hcode

theorem written_codeEvents (writes : List (List Byte)) (code : ReturnCode) :
    written (codeEvents writes code) = writes.flatten := by
  rw [codeEvents, written_append, written_writes]
  split_ifs <;> simp [written, wire]

/-- What a call does to a resumable response. -/
structure CallSpec (content : List Byte) (response : HttpResponse)
    (w : World) : Prop where
  advance : Advance (messageOf response content) (sentCount response)
    (callBytes response w) (sentCount (sendCall response w))
  code_iff : (httpResponseSendBlocking response w).1 = .success ↔
    sentCount response < (messageOf response content).length ∧
      sentCount (sendCall response w) = (messageOf response content).length
  same : SameMessage response (sendCall response w)
  resumable : Resumable content (sendCall response w)

theorem callSpec {response : HttpResponse} {content : List Byte} {w : World}
    (hresumable : Resumable content response)
    (hunchanged : Unchanged response content w) :
    CallSpec content response w := by
  cases hcomplete : response.complete with
  | true =>
      have hcall : httpResponseSendBlocking response w =
          (.failure, response, w) := by
        rw [httpResponseSendBlocking, if_pos hcomplete]
      have hend := hresumable.complete_iff.mp hcomplete
      have hsame : sendCall response w = response := by rw [sendCall, hcall]
      have hnil : callBytes response w = [] := by
        rw [callBytes, hcall, List.drop_length]
        rfl
      refine ⟨?_, ?_, ?_, ?_⟩
      · rw [hsame, hnil]
        exact Advance.refl (Nat.le_of_eq hend)
      · rw [hcall, hend]
        simp
      · rw [hsame]
        exact SameMessage.refl response
      · rwa [hsame]
  | false =>
      obtain ⟨writes, code, response', w', hcall, hmoved, hsame, hagain⟩ :=
        httpResponseSendBlocking_moved hresumable hcomplete hunchanged
      have hresult : sendCall response w = response' := by
        rw [sendCall, hcall]
      have hbytes : callBytes response w = writes.flatten := by
        rw [callBytes, hcall, hmoved.effect.trace, List.drop_left,
          written_codeEvents]
      have hshort : sentCount response < (messageOf response content).length := by
        have hle := Nat.le_trans hmoved.advance.le hmoved.advance.within
        have hne := mt hresumable.complete_iff.mpr (by simp [hcomplete])
        exact Nat.lt_of_le_of_ne hle hne
      refine ⟨?_, ?_, ?_, ?_⟩
      · rw [hresult, hbytes]
        exact hmoved.advance
      · rw [hresult, hcall, and_iff_right hshort]
        exact hmoved.code_iff
      · rwa [hresult]
      · rwa [hresult]

/-- A response nothing of which has been sent can be sent in several calls. -/
theorem resumable_of_unsent {response : HttpResponse}
    (hunsent : Unsent response) (hheaders : response.headers ≠ [])
    (content : List Byte) : Resumable content response where
  bodySent_le := by
    rw [hunsent.bodySent]
    exact Nat.zero_le _
  fileOffset_le := by
    rw [hunsent.fileOffset]
    exact Nat.zero_le _
  bodyFirst _ := hunsent.fileOffset
  headersOnly _ := by rw [hunsent.bodySent, hunsent.fileOffset]
  headersSent_le := by
    rw [hunsent.headersSent]
    exact Nat.zero_le _
  headersFirst _ := by rw [hunsent.bodySent, hunsent.fileOffset]
  complete_iff := by
    have hpos := List.length_pos_iff.mpr hheaders
    rw [hunsent.complete, sentCount, hunsent.headersSent, hunsent.bodySent,
      hunsent.fileOffset, messageOf, List.length_append]
    simp only [Bool.false_eq_true, false_iff]
    omega

theorem headerBlock_ne_nil (status : HttpStatus) (contentType : List Byte)
    (contentLength : ℕ) (keepAlive : Bool) :
    headerBlock status contentType contentLength keepAlive ≠ [] := by
  simp [headerBlock, crlf]

end HttpCerver.Resumption
