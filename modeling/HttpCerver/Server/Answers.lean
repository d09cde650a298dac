import HttpCerver.Server.Delivery
import HttpCerver.Server.Http
import HttpCerver.Server.Resolution

/-!
# Answers

What a request head is answered with, as a function of the head, the
configuration and what paths resolve to.  `http_prepare_response` prepares this
answer or runs out of memory; there is no third outcome.
-/

namespace HttpCerver.Answers

open HttpCerver.Bytes
open HttpCerver.Config
open HttpCerver.Delivery
open HttpCerver.Descriptors
open HttpCerver.File
open HttpCerver.Http
open HttpCerver.Numerals
open HttpCerver.Request
open HttpCerver.Resolution
open HttpCerver.Response
open HttpCerver.System

/-- An error and the message that replaces its page. -/
structure Refusal where
  status : HttpStatus
  message : Option (List Byte)
  deriving DecidableEq

/-- The checks on a request head that come before its file is opened. -/
def judge (config : ServerConfig) (head : List Byte) :
    Except Refusal HttpRequest :=
  match httpParseRequest (cstring head) config with
  | .headersTooLarge =>
    .error { status := .requestHeaderFieldsTooLarge, message := none }
  | .badRequest => .error { status := .badRequest, message := none }
  | .ok request =>
    if ¬ httpMethodAllowed request.method then
      .error { status := .methodNotAllowed, message := none }
    else if request.version = ascii "HTTP/1.1" ∧
        httpValidateHost request = .failure then
      .error { status := .badRequest, message := none }
    else
      match httpValidateRequestFraming request with
      | some reason => .error { status := .badRequest, message := some reason }
      | none => .ok request

/-- What stands behind the header block. -/
inductive Content
  | page (text : List Byte)
  | file (file : OpenedFile) (sendBody : Bool)

structure Answer where
  status : HttpStatus
  contentType : List Byte
  length : ℕ
  closes : Bool
  content : Content

def Answer.headers (answer : Answer) : List Byte :=
  headerBlock answer.status answer.contentType answer.length (!answer.closes)

def Refusal.text (refusal : Refusal) : List Byte :=
  refusal.message.getD (errorText refusal.status)

/-- An error closes the connection. -/
def Refusal.answer (refusal : Refusal) : Answer where
  status := refusal.status
  contentType := ascii "text/html"
  length := refusal.text.length
  closes := true
  content := .page refusal.text

/-- The answer to a request whose path resolves to `file`. -/
def fileAnswer (request : HttpRequest) (file : OpenedFile) (closing : Bool) :
    Answer where
  status := .ok
  contentType := mimeType request.path
  length := file.size
  closes := closing || requestCloses request
  content := .file file (request.method ≠ ascii "HEAD")

/-- The answer to a head, given what its path resolves to. -/
def answer (config : ServerConfig)
    (resolve : List Byte → Except Errno OpenedFile) (closing : Bool)
    (head : List Byte) : Answer :=
  match judge config head with
  | .error refusal => refusal.answer
  | .ok request =>
    match resolve request.path with
    | .error errno =>
      Refusal.answer { status := errnoStatus errno, message := none }
    | .ok file => fileAnswer request file closing

/-- A response that holds the content of an answer.  A file is open for it. -/
def Holds (w : World) (response : HttpResponse) (w' : World) : Content → Prop
  | .page text => response.body = text ∧ response.fileFd = none ∧
      response.sendBody = true ∧ w'.descriptors = w.descriptors
  | .file file sendBody => ∃ fd serial, response.body = [] ∧
      response.fileFd = some fd ∧ response.fileSize = file.size ∧
      response.sendBody = sendBody ∧ fd ∉ w.descriptors.map (·.1) ∧
      w'.descriptors =
        (fd, { inode := file.inode, serial := some serial }) :: w.descriptors

/-- What preparing an answer does. -/
inductive Preparation (w : World) (answer : Answer) : Prepared → Prop
  | starved {prepared : Prepared} {events : List Event}
      (hcode : prepared.code = .failure)
      (heffect : Effect w events prepared.world)
      (hevents : DescriptorEvents events)
      (hdescriptors : prepared.world.descriptors = w.descriptors)
      (hledger : Ledger w → Ledger prepared.world)
      (hmallocs : false ∈ w.mallocs) :
      Preparation w answer prepared
  | ready {prepared : Prepared} {events : List Event}
      (hcode : prepared.code = .success)
      (heffect : Effect w events prepared.world)
      (hevents : DescriptorEvents events)
      (hledger : Ledger w → Ledger prepared.world)
      (hunsent : Unsent prepared.response)
      (hheaders : prepared.response.headers = answer.headers)
      (hclose : prepared.closeConnection = answer.closes)
      (hcontent : Holds w prepared.response prepared.world answer.content) :
      Preparation w answer prepared

/-- What happens before the preparation is part of it, if it leaves the
descriptor table alone. -/
theorem Preparation.after {w w' : World} {answer : Answer}
    {prepared : Prepared} {events : List Event}
    (hrest : Preparation w' answer prepared) (heffect : Effect w events w')
    (hevents : DescriptorEvents events)
    (hdescriptors : w'.descriptors = w.descriptors)
    (hledger : Ledger w → Ledger w') : Preparation w answer prepared := by
  cases hrest with
  | starved hcode hlater hmore htable hkept hmallocs =>
      exact .starved hcode (heffect.trans hlater) (hevents.append hmore)
        (htable.trans hdescriptors) (hkept ∘ hledger)
        (heffect.mallocs.subset hmallocs)
  | ready hcode hlater hmore hkept hunsent hheaders hclose hcontent =>
      refine .ready hcode (heffect.trans hlater) (hevents.append hmore)
        (hkept ∘ hledger) hunsent hheaders hclose ?_
      cases hanswer : answer.content with
      | page text =>
          rw [hanswer, Holds, hdescriptors] at hcontent
          exact hcontent
      | file file sendBody =>
          rw [hanswer, Holds, hdescriptors] at hcontent
          exact hcontent

theorem length_mimeType_le (path : List Byte) :
    (mimeType path).length ≤ 24 := by
  have hlengths : ∀ type ∈ mimeTypes, type.length ≤ 24 := by decide
  exact hlengths _ (mimeType_mem path)

theorem cr_notMem_mimeType (path : List Byte) : cr ∉ mimeType path := by
  have hsymbols : ∀ type ∈ mimeTypes, cr ∉ type := by decide
  exact hsymbols _ (mimeType_mem path)

theorem httpResponsePrepareErrorBody_eq {status : HttpStatus}
    (hstatus : status ≠ .ok) :
    httpResponsePrepareErrorBody status = some (errorText status) := by
  cases status with
  | ok => exact absurd rfl hstatus
  | _ => rfl

theorem refuse_spec {status : HttpStatus} {message : Option (List Byte)}
    (hstatus : status ≠ .ok)
    (hmessage : ∀ text, message = some text → text.length ≤ 50) (w : World) :
    Preparation w (Refusal.answer { status := status, message := message })
      (refuse status message httpResponseInit w) := by
  have htext : (message.getD (errorText status)).length ≤ 74 := by
    cases message with
    | none => exact length_errorText_le status
    | some text => exact (hmessage text rfl).trans (by decide)
  have hlength : (message.getD (errorText status)).length < 2 ^ 63 := by omega
  have htype : (ascii "text/html").length ≤ 24 := by decide
  have hheaders := httpBuildResponseHeaders_eq_some status false htype hlength
  obtain ⟨mallocs, hworld, hsuffix, hfails⟩ := malloc_spec w
  simp only [refuse, httpResponsePrepareError,
    httpResponsePrepareErrorBody_eq hstatus, httpResponseSetBody]
  generalize malloc w = result at hworld hfails
  obtain ⟨succeeds, w'⟩ := result
  dsimp only at hworld hfails
  subst hworld
  cases succeeds with
  | false =>
      exact .starved rfl (effect_mallocs hsuffix) descriptorEvents_nil rfl
        (fun h => h.malloc mallocs) (hfails rfl)
  | true =>
      simp only [hheaders]
      exact .ready rfl (effect_mallocs hsuffix) descriptorEvents_nil
        (fun h => h.malloc mallocs) ⟨rfl, rfl, rfl, rfl⟩ rfl rfl
        ⟨rfl, rfl, rfl, rfl⟩

/-- The reasons for refusing a framing are short. -/
theorem length_httpValidateRequestFraming_le {request : HttpRequest}
    {reason : List Byte}
    (hreason : httpValidateRequestFraming request = some reason) :
    reason.length ≤ 50 := by
  rw [httpValidateRequestFraming] at hreason
  split at hreason
  · cases hreason
    decide
  · split_ifs at hreason
    · cases hreason
      decide
    · split at hreason
      · cases hreason
      · dsimp only at hreason
        split_ifs at hreason
        · cases hreason
          decide
        · cases hreason
          decide
        · split at hreason
          · cases hreason
            decide
          · split_ifs at hreason
            cases hreason
            decide

/-- A head passes when it parses and passes the three checks. -/
theorem judge_eq_ok_iff {config : ServerConfig} {head : List Byte}
    {request : HttpRequest} :
    judge config head = .ok request ↔
      httpParseRequest (cstring head) config = .ok request ∧
        httpMethodAllowed request.method ∧
        ¬ (request.version = ascii "HTTP/1.1" ∧
          httpValidateHost request = .failure) ∧
        httpValidateRequestFraming request = none := by
  rw [judge]
  cases httpParseRequest (cstring head) config with
  | headersTooLarge => simp
  | badRequest => simp
  | ok parsed =>
      simp only [HttpParseResult.ok.injEq]
      constructor
      · intro hjudge
        split_ifs at hjudge with hmethod hhost
        cases hframing : httpValidateRequestFraming parsed with
        | some reason =>
            rw [hframing] at hjudge
            cases hjudge
        | none =>
            rw [hframing] at hjudge
            cases hjudge
            exact ⟨rfl, hmethod, hhost, hframing⟩
      · rintro ⟨rfl, hmethod, hhost, hframing⟩
        rw [if_neg (not_not.mpr hmethod), if_neg hhost, hframing]

/-- A head is not refused with the status of success, and refusals are
short. -/
theorem judge_eq_error {config : ServerConfig} {head : List Byte}
    {refusal : Refusal} (hjudge : judge config head = .error refusal) :
    refusal.status ≠ .ok ∧ refusal.text.length ≤ 74 := by
  have hpage : ∀ status, (Refusal.text
      { status := status, message := none }).length ≤ 74 :=
    fun status => length_errorText_le status
  rw [judge] at hjudge
  split at hjudge
  · cases hjudge
    exact ⟨by simp, hpage _⟩
  · cases hjudge
    exact ⟨by simp, hpage _⟩
  · next request hparse =>
      split_ifs at hjudge
      · cases hjudge
        exact ⟨by simp, hpage _⟩
      · cases hframing : httpValidateRequestFraming request with
        | none =>
            rw [hframing] at hjudge
            cases hjudge
        | some reason =>
            rw [hframing] at hjudge
            cases hjudge
            have hshort := length_httpValidateRequestFraming_le hframing
            exact ⟨by simp, hshort.trans (by decide)⟩
      · cases hjudge
        exact ⟨by simp, hpage _⟩

theorem errnoStatus_ne_ok (errno : Errno) : errnoStatus errno ≠ .ok := by
  rw [errnoStatus]
  split_ifs <;> decide

theorem httpPrepareFile_spec (rootFd : Fd) (request : HttpRequest)
    (closing : Bool) (w : World) :
    Preparation w
      (match resolveAt w.fileSystem w.clock (inodeOf w rootFd) request.path with
      | .error errno =>
        Refusal.answer { status := errnoStatus errno, message := none }
      | .ok file => fileAnswer request file closing)
      (httpPrepareFile rootFd request httpResponseInit
        (closing || requestCloses request) w) := by
  have hopening := fileOpenPath_spec rootFd request.path w
  rw [httpPrepareFile]
  generalize fileOpenPath rootFd request.path w = result at hopening
  cases hopening with
  | failed hresolved heffect hevents hdescriptors hledger =>
      rw [hresolved]
      exact (refuse_spec (errnoStatus_ne_ok _) (by simp) _).after heffect
        hevents hdescriptors hledger
  | @opened file fd serial events w' hresolved heffect hevents hdescriptors
      hfree hledger =>
      rw [hresolved]
      have hheaders := httpBuildResponseHeaders_eq_some .ok
        (!(closing || requestCloses request))
        (length_mimeType_le request.path) file.size_lt
      simp only [hheaders]
      exact .ready rfl heffect hevents hledger ⟨rfl, rfl, rfl, rfl⟩ rfl rfl
        ⟨fd, serial, rfl, rfl, rfl, rfl, hfree, hdescriptors⟩

/-- `http_prepare_response` prepares the answer to the head. -/
theorem httpPrepareResponse_spec {config : ServerConfig}
    (hconfig : httpConfigValid config = true) (buffer : List Byte)
    (length : ℕ) (response : HttpResponse) (closing : Bool) (rootFd : Fd)
    (w : World) :
    Preparation w
      (answer config (resolveAt w.fileSystem w.clock (inodeOf w rootFd))
        closing (buffer.take length))
      (httpPrepareResponse buffer length response closing rootFd config
        w) := by
  obtain ⟨mallocs, hworld, hsuffix, hfails⟩ := malloc_spec w
  rw [httpPrepareResponse]
  rw [if_neg (by simp [hconfig])]
  generalize malloc w = result at hworld hfails
  obtain ⟨succeeds, w'⟩ := result
  dsimp only at hworld hfails
  subst hworld
  cases succeeds with
  | false =>
      exact .starved rfl (effect_mallocs hsuffix) descriptorEvents_nil rfl
        (fun h => h.malloc mallocs) (hfails rfl)
  | true =>
      refine Preparation.after ?_
        (effect_mallocs hsuffix) descriptorEvents_nil rfl
        (fun h => h.malloc mallocs)
      dsimp only
      rw [answer, judge]
      cases hparse : httpParseRequest (cstring (buffer.take length)) config with
      | headersTooLarge => exact refuse_spec (by decide) (by simp) _
      | badRequest => exact refuse_spec (by decide) (by simp) _
      | ok request =>
          dsimp only
          by_cases hmethod : ¬ httpMethodAllowed request.method
          · rw [if_pos hmethod, if_pos hmethod]
            exact refuse_spec (by decide) (by simp) _
          rw [if_neg hmethod, if_neg hmethod]
          by_cases hhost : request.version = ascii "HTTP/1.1" ∧
              httpValidateHost request = .failure
          · rw [if_pos hhost, if_pos hhost]
            exact refuse_spec (by decide) (by simp) _
          rw [if_neg hhost, if_neg hhost]
          cases hframing : httpValidateRequestFraming request with
          | some reason =>
              refine refuse_spec (by decide) ?_ _
              rintro text htext
              cases htext
              exact length_httpValidateRequestFraming_le hframing
          | none => exact httpPrepareFile_spec rootFd request closing _

/-- A prepared response, nothing of which has been sent. -/
structure Ready (w : World) (answer : Answer) (prepared : Prepared) :
    Prop where
  unsent : Unsent prepared.response
  headers : prepared.response.headers = answer.headers
  closes : prepared.closeConnection = answer.closes
  content : Holds w prepared.response prepared.world answer.content

/-- A preparation that succeeds has prepared the answer. -/
theorem ready_of_success {buffer : List Byte} {length : ℕ}
    {response : HttpResponse} {closing : Bool} {rootFd : Fd}
    {config : ServerConfig} {w : World}
    (hcode : (httpPrepareResponse buffer length response closing rootFd config
      w).code = .success) :
    Ready w
      (answer config (resolveAt w.fileSystem w.clock (inodeOf w rootFd))
        closing (buffer.take length))
      (httpPrepareResponse buffer length response closing rootFd config
        w) := by
  have hconfig : httpConfigValid config = true := by
    by_contra hinvalid
    rw [httpPrepareResponse, if_pos hinvalid] at hcode
    cases hcode
  have hprepared := httpPrepareResponse_spec hconfig buffer length response
    closing rootFd w
  cases hprepared with
  | starved hfailed =>
      rw [hfailed] at hcode
      cases hcode
  | ready _ _ _ _ hunsent hheaders hclose hcontent =>
      exact ⟨hunsent, hheaders, hclose, hcontent⟩

/-- The header block starts with the number of the status. -/
def HasStatus (headers : List Byte) (status : HttpStatus) : Prop :=
  ascii "HTTP/1.1 " ++ decimal status.code <+: headers

theorem length_decimal_code (status : HttpStatus) :
    (decimal status.code).length = 3 := by
  cases status <;> decide

theorem hasStatus_headers_iff {answer : Answer} {status : HttpStatus} :
    HasStatus answer.headers status ↔ answer.status = status := by
  have hstarts : HasStatus answer.headers answer.status := by
    rw [HasStatus, Answer.headers, headerBlock]
    simp only [List.append_assoc]
    rw [← List.append_assoc]
    exact List.prefix_append _ _
  constructor
  · intro hstatus
    have hlength : (ascii "HTTP/1.1 " ++ decimal status.code).length =
        (ascii "HTTP/1.1 " ++ decimal answer.status.code).length := by
      rw [List.length_append, List.length_append, length_decimal_code,
        length_decimal_code]
    have hsame := List.append_cancel_left
      (List.IsPrefix.eq_of_length_le
        (List.prefix_of_prefix_length_le hstatus hstarts hlength.le)
        hlength.ge)
    revert hsame
    generalize answer.status = found
    cases found <;> cases status <;> decide
  · rintro rfl
    exact hstarts

/-- A request that passes the checks has its file prepared. -/
theorem httpPrepareResponse_of_judge {config : ServerConfig}
    (hconfig : httpConfigValid config = true) {buffer : List Byte}
    {length : ℕ} {request : HttpRequest}
    (hjudge : judge config (buffer.take length) = .ok request)
    (response : HttpResponse) (closing : Bool) (rootFd : Fd) (w : World) :
    httpPrepareResponse buffer length response closing rootFd config w =
      if (malloc w).1 then
        httpPrepareFile rootFd request httpResponseInit
          (closing || requestCloses request) (malloc w).2
      else
        { code := .failure
          response := httpResponseInit
          closeConnection := true
          world := (malloc w).2 } := by
  obtain ⟨hparse, hmethod, hhost, hframing⟩ := judge_eq_ok_iff.mp hjudge
  rw [httpPrepareResponse, if_neg (by simp [hconfig])]
  generalize malloc w = result
  obtain ⟨succeeds, w'⟩ := result
  cases succeeds with
  | false => rfl
  | true =>
      simp only [hparse, hframing]
      rw [if_neg (by simp [hmethod]), if_neg hhost]
      rfl

section Passed

variable {rootFd : Fd} (request : HttpRequest) {response : HttpResponse}
variable {closing : Bool} {w w' : World}

/-- Without a file the method does not matter. -/
theorem httpPrepareFile_of_error {errno : Errno}
    (hopened : fileOpenPath rootFd request.path w = (.error errno, w')) :
    httpPrepareFile rootFd request response closing w =
      refuse (errnoStatus errno) none response w' := by
  rw [httpPrepareFile, hopened]

/-- With a file it decides about the body only. -/
theorem httpPrepareFile_of_ok {file : FileT}
    (hopened : fileOpenPath rootFd request.path w = (.ok file, w')) :
    httpPrepareFile rootFd request response closing w =
      { code := .success
        response :=
          { headers := headerBlock .ok (mimeType request.path) file.size
              (!closing)
            headersSent := 0
            body := []
            bodySent := 0
            fileFd := some file.fd
            fileSize := file.size
            fileOffset := 0
            sendBody := request.method ≠ ascii "HEAD"
            complete := false }
        closeConnection := closing
        world := w' } := by
  have hheaders := httpBuildResponseHeaders_eq_some .ok (!closing)
    (length_mimeType_le request.path) file.size_lt
  simp only [httpPrepareFile, hopened, hheaders]

end Passed

/-- Whether a file is open for the content. -/
def OwnsFile : Content → Bool
  | .page _ => false
  | .file _ _ => true

/-- The bytes that may follow the header block of an answer. -/
def Follows (fileSystem : ℕ → FileSystem) (bytes : List Byte) :
    Content → Prop
  | .page text => bytes = text
  | .file _ false => bytes = []
  | .file file true => bytes.length = file.size ∧
      ∀ content, (∀ clock, (fileSystem clock).content file.inode = content) →
        bytes = content.take file.size

/-- What an unfinished response leaves in the descriptor table. -/
def LeftOpen (w w' : World) : Content → Prop
  | .page _ => w'.descriptors = w.descriptors
  | .file _ _ => ∃ entry, w'.descriptors = entry :: w.descriptors

section Prepared

variable {w w' : World} {response : HttpResponse} {content : Content}

theorem Holds.isSome_fileFd (h : Holds w response w' content) :
    response.fileFd.isSome = OwnsFile content := by
  cases content with
  | page text => rw [h.2.1]; rfl
  | file file sendBody =>
      obtain ⟨fd, serial, _, hfd, _⟩ := h
      rw [hfd]
      rfl

theorem Holds.leftOpen (h : Holds w response w' content) (w'' : World)
    (hkept : w''.descriptors = w'.descriptors) : LeftOpen w w'' content := by
  cases content with
  | page text => exact hkept.trans h.2.2.2
  | file file sendBody =>
      obtain ⟨fd, serial, _, _, _, _, _, hdescriptors⟩ := h
      exact ⟨_, hkept.trans hdescriptors⟩

/-- The payload of a response that holds a content follows from the content. -/
theorem Holds.follows {bytes : List Byte}
    (h : Holds w response w' content) (w'' : World)
    (hkept : w''.descriptors = w'.descriptors)
    (hsystem : w''.fileSystem = w.fileSystem)
    (hpayload : Payload response w'' bytes) :
    Follows w.fileSystem bytes content := by
  cases content with
  | page text =>
      obtain ⟨hbody, hfd, hsendBody, _⟩ := h
      rw [Payload, if_pos hsendBody, hfd, hbody] at hpayload
      obtain ⟨part, hbytes, hpart⟩ := hpayload
      rw [hbytes, show part = [] from hpart, List.append_nil]
      rfl
  | file file sendBody =>
      obtain ⟨fd, serial, hbody, hfd, hsize, hsendBody, _, hdescriptors⟩ := h
      cases sendBody with
      | false =>
          rw [Payload, if_neg (by simp [hsendBody])] at hpayload
          exact hpayload
      | true =>
          rw [Payload, if_pos hsendBody, hfd, hbody, hsize] at hpayload
          obtain ⟨part, hbytes, hpart⟩ := hpayload
          rw [List.nil_append] at hbytes
          subst hbytes
          refine ⟨hpart.length, fun content hcontent =>
            hpart.content content ?_⟩
          intro sent w3 htable hsystem3 chunk hchunk
          have hfile : fileOf w3 fd = some
              { inode := file.inode, serial := some serial } := by
            rw [fileOf, htable, hkept, hdescriptors]
            simp
          rw [sendfileOffer, hfile, Option.map_some, Option.some.injEq,
            hsystem3, hsystem, hcontent] at hchunk
          rw [← hchunk]
          exact List.take_prefix _ _

/-- Where files can be read, the response can be sent. -/
theorem Holds.readable (h : Holds w response w' content) (w'' : World)
    (hkept : w''.descriptors = w'.descriptors)
    (hsystem : w''.fileSystem = w.fileSystem)
    (hservable : ∀ file sendBody, content = .file file sendBody →
      ∀ clock, file.size ≤ ((w.fileSystem clock).content file.inode).length)
    (fd : ℕ) (hfd : response.fileFd = some fd) :
    Readable fd response.fileSize w'' := by
  cases content with
  | page text =>
      rw [h.2.1] at hfd
      cases hfd
  | file file sendBody =>
      obtain ⟨fd', serial, _, hfd', hsize, _, _, hdescriptors⟩ := h
      rw [hfd'] at hfd
      cases hfd
      refine ⟨{ inode := file.inode, serial := some serial }, ?_, ?_⟩
      · rw [fileOf, hkept, hdescriptors]
        simp
      · rw [hsize, hsystem]
        exact hservable file sendBody rfl

/-- Destroying the response closes its file. -/
theorem Holds.destroy {sent : HttpResponse}
    (h : Holds w response w' content) (w'' : World)
    (hkept : w''.descriptors = w'.descriptors)
    (hfileFd : sent.fileFd = response.fileFd) :
    ∃ closed, Effect w'' closed (httpResponseDestroy sent w'').2 ∧
      DescriptorEvents closed ∧
      (httpResponseDestroy sent w'').2.descriptors = w.descriptors ∧
      (Ledger w'' → Ledger (httpResponseDestroy sent w'').2) := by
  cases content with
  | page text =>
      obtain ⟨_, hfd, _, hdescriptors⟩ := h
      rw [httpResponseDestroy, hfileFd, hfd]
      exact ⟨[], Effect.refl w'', descriptorEvents_nil,
        hkept.trans hdescriptors, id⟩
  | file file sendBody =>
      obtain ⟨fd, serial, _, hfd, _, _, hfree, hdescriptors⟩ := h
      have hentry : w''.descriptors = [] ++
          (fd, { inode := file.inode, serial := some serial }) ::
            w.descriptors := hkept.trans hdescriptors
      rw [httpResponseDestroy, hfileFd, hfd]
      obtain ⟨heffect, htable⟩ :=
        effect_close_entry hentry rfl (by simp) hfree
      refine ⟨[.closed serial], heffect, ?_, htable,
        fun hledger => hledger.close_entry hentry rfl⟩
      simp [DescriptorEvents, Event.isDescriptor]

end Prepared

end HttpCerver.Answers
