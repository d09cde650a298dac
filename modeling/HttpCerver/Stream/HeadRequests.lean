import HttpCerver.Stream.Replies

/-!
# HEAD requests

A `HEAD` request that succeeds puts on the wire the header block of the `GET`
request and nothing else.  An error has its page sent whatever the method is,
so the law holds just for the paths that can be opened, and where no memory
is left for a response to be prepared.
-/

namespace HttpCerver.HeadRequests

open HttpCerver.Answers
open HttpCerver.Bytes
open HttpCerver.Config
open HttpCerver.Delivery
open HttpCerver.File
open HttpCerver.Grammar
open HttpCerver.Http
open HttpCerver.Reference
open HttpCerver.Request
open HttpCerver.Resolution
open HttpCerver.Response
open HttpCerver.Sending
open HttpCerver.System

/-- The request with its method `GET` replaced by `HEAD`. -/
def asHead (buffer : List Byte) : List Byte :=
  ascii "HEAD" ++ buffer.drop 3

/-- Sending the response puts on the wire `headers` and not one more byte,
whatever the sending calls do. -/
def SendsOnly (headers : List Byte) (response : HttpResponse) (w : World) :
    Prop :=
  ∀ sends, ∃ bytes,
    written (httpResponseSendBlocking response
      { w with sends := sends }).2.2.trace = written w.trace ++ bytes ∧
    bytes <+: headers ∧
    ((∀ outcome ∈ sends, outcome.Succeeds) → bytes = headers)

/-- What `HEAD` is answered with is what `GET` is, without the body. -/
structure Bodiless (get head : Prepared) : Prop where
  code : head.code = get.code
  closes : head.closeConnection = get.closeConnection
  headers : head.response.headers = get.response.headers
  wire : head.code = .success →
    SendsOnly get.response.headers head.response head.world

/-- One of the two allocations for an error response fails. -/
def Starved (w : World) : Prop :=
  (malloc w).1 = false ∨ (malloc (malloc w).2).1 = false

/-- A string starts where a text without NUL does. -/
theorem cstring_append {text : List Byte} (htext : 0 ∉ text)
    (buffer : List Byte) :
    (cstring (text ++ buffer)).bytes = text ++ (cstring buffer).bytes := by
  apply List.takeWhile_append_of_pos
  intro byte hbyte
  simp only [ne_eq, decide_eq_true_eq]
  rintro rfl
  exact htext hbyte

/-- The parser accepts the one where it accepts the other. -/
theorem httpParseRequest_asHead {config : ServerConfig} {head : List Byte}
    {request : HttpRequest}
    (hparse : httpParseRequest (cstring head) config = .ok request)
    (hmethod : request.method = ascii "GET") :
    3 ≤ head.length ∧
      httpParseRequest (cstring (asHead head)) config =
        .ok { request with method := ascii "HEAD" } := by
  obtain ⟨target, lines, after, ⟨-, hspace, hcrlf, hlength, htarget, hversion,
    hheaders, hcount⟩, htext, -⟩ := httpParseRequest_sound hparse
  obtain ⟨rest, hrest⟩ := cstring_begins_buffer head
  rw [hmethod] at htext
  have hhead : head = ascii "GET" ++ head.drop 3 := by
    rw [← hrest, htext]
    rfl
  have hget : (cstring head).bytes =
      ascii "GET" ++ (cstring (head.drop 3)).bytes := by
    rw [← cstring_append (by decide), ← hhead]
  refine ⟨?_, httpParseRequest_complete ?_⟩
  · rw [hhead, List.length_append]
    exact Nat.le_add_right 3 _
  · have hmethodHead : Token methodSize (ascii "HEAD") :=
      ⟨by decide, by decide, by decide +kernel⟩
    have htail : (cstring (head.drop 3)).bytes =
        sp :: (target ++ sp :: request.version) ++
          (crlf ++ (headerBlockOf lines ++ (crlf ++ after))) := by
      refine List.append_cancel_left (hget.symm.trans (htext.trans ?_))
      rw [List.append_assoc]
    have haccepts : Accepts config _ { request with method := ascii "HEAD" } :=
      .mk after hmethodHead hspace hcrlf hlength htarget hversion hheaders
        hcount
    rw [asHead, cstring_append (by decide), htail]
    simpa [headerBlockOf] using haccepts

/-- So do the checks, which do not look at the method. -/
theorem judge_asHead {config : ServerConfig} {head : List Byte}
    {request : HttpRequest} (hjudge : judge config head = .ok request)
    (hmethod : request.method = ascii "GET") :
    judge config (asHead head) =
      .ok { request with method := ascii "HEAD" } := by
  obtain ⟨hparse, -, hhost, hframing⟩ := judge_eq_ok_iff.mp hjudge
  obtain ⟨-, hparseHead⟩ := httpParseRequest_asHead hparse hmethod
  have hallowed : httpMethodAllowed (ascii "HEAD") = true := by decide
  exact judge_eq_ok_iff.mpr ⟨hparseHead, hallowed, hhost, hframing⟩

theorem take_asHead {buffer : List Byte} {length : ℕ} (hlength : 3 ≤ length) :
    (asHead buffer).take (length + 1) = asHead (buffer.take length) := by
  have hsize : (ascii "HEAD").length = 4 := by decide
  rw [asHead, asHead, List.take_append, hsize, List.drop_take,
    List.take_of_length_le (by omega),
    show length + 1 - 4 = length - 3 by omega]

/-- A response without a body to send. -/
theorem sendsOnly_headers {response : HttpResponse} {w : World}
    (hunsent : Unsent response) (hsendBody : response.sendBody = false) :
    SendsOnly response.headers response w := by
  intro sends
  obtain ⟨writes, hrun⟩ := sendLoop_spec (sendOffer response.headers)
    response.headers.length (0, { w with sends := sends })
  have hdone : (∀ outcome ∈ sends, outcome.Succeeds) →
      ((sendLoop (sendOffer response.headers) response.headers.length).run
        (0, { w with sends := sends })).1 = .complete := fun hsends =>
    sendLoop_complete (sendOffer response.headers) response.headers.length 0
      (w := { w with sends := sends }) hsends
      fun sent w' hmore _ _ => sendOffer_ne_nil hmore
  rw [httpResponseSendBlocking]
  rw [if_neg (by simp [hunsent.complete]), hunsent.headersSent]
  generalize (sendLoop (sendOffer response.headers)
    response.headers.length).run (0, { w with sends := sends }) = result
    at hrun hdone
  obtain ⟨stop, sent, w'⟩ := result
  dsimp only at hrun hdone
  have hmessage := hrun.message response.headers
    (offers_sendOffer response.headers _)
  rw [List.drop_zero] at hmessage
  have hwritten : written w'.trace = written w.trace ++ writes.flatten := by
    rw [hrun.effect.trace, sendEvents, written_append, written_append,
      written_writes]
    split_ifs <;> simp [written, wire]
  have hbegins : writes.flatten <+: response.headers := ⟨_, hmessage.symm⟩
  cases stop with
  | complete =>
      have hflatten := hrun.flatten_eq
      simp only [hsendBody, Bool.not_false, if_true]
      exact ⟨writes.flatten, hwritten, hbegins, fun _ => hflatten⟩
  | zero =>
      exact ⟨writes.flatten, hwritten, hbegins, fun hsends =>
        absurd (hdone hsends) (by simp)⟩
  | failed =>
      exact ⟨writes.flatten, hwritten, hbegins, fun hsends =>
        absurd (hdone hsends) (by simp)⟩

theorem mallocs_openat2 (dirfd : Fd) (path : List Byte) (how : OpenHow)
    (w : World) : (openat2 dirfd path how w).2.mallocs = w.mallocs := by
  unfold openat2
  split
  · rfl
  · split <;> rfl

theorem mallocs_fstat (fd : Fd) (w : World) :
    (fstat fd w).2.mallocs = w.mallocs := by
  rw [fstat]
  split <;> rfl

theorem mallocs_close (fd : Fd) (w : World) :
    (close fd w).mallocs = w.mallocs := by
  rw [close]
  split
  · rfl
  · dsimp only
    split <;> rfl

/-- Opening a file allocates nothing. -/
theorem mallocs_fileOpenPath (rootFd : Fd) (path : List Byte) (w : World) :
    (fileOpenPath rootFd path w).2.mallocs = w.mallocs := by
  have hopen := mallocs_openat2 rootFd (relativePath path) openHow w
  rw [fileOpenPath]
  split_ifs
  · rfl
  split
  · next errno w1 hopened =>
      rwa [hopened] at hopen
  next fd w1 hopened =>
  rw [hopened] at hopen
  have hstat := mallocs_fstat fd w1
  split
  · next errno w2 hstated =>
      rw [hstated] at hstat
      exact (mallocs_close fd w2).trans (hstat.trans hopen)
  next st w2 hstated =>
  rw [hstated] at hstat
  have hsame : w2.mallocs = w.mallocs := hstat.trans hopen
  split
  · exact hsame
  · have hindex := mallocs_openat2 fd defaultIndexFile openHow w2
    split
    · next errno w3 hopenedIndex =>
        rw [hopenedIndex] at hindex
        exact (mallocs_close fd w3).trans (hindex.trans hsame)
    next indexFd w3 hopenedIndex =>
    rw [hopenedIndex] at hindex
    have hclosed := (mallocs_close fd w3).trans (hindex.trans hsame)
    have hlast := mallocs_fstat indexFd (close fd w3)
    dsimp only
    split
    · next errno w4 hstatedIndex =>
        rw [hstatedIndex] at hlast
        exact (mallocs_close indexFd w4).trans (hlast.trans hclosed)
    next stIndex w4 hstatedIndex =>
    rw [hstatedIndex] at hlast
    split_ifs
    · exact (mallocs_close indexFd w4).trans (hlast.trans hclosed)
    · exact hlast.trans hclosed
  · exact (mallocs_close fd w2).trans hsame

/-- Preparing an error succeeds when there is memory for its page. -/
theorem refuse_code {status : HttpStatus} (hstatus : status ≠ .ok)
    (response : HttpResponse) (w : World) :
    (refuse status none response w).code =
      if (malloc w).1 then .success else .failure := by
  have hlength := length_errorText_le status
  have htype : (ascii "text/html").length ≤ 24 := by decide
  have hsize : (errorText status).length < 2 ^ 63 := by omega
  have hheaders := httpBuildResponseHeaders_eq_some status false htype hsize
  simp only [refuse, httpResponsePrepareError,
    httpResponsePrepareErrorBody_eq hstatus, httpResponseSetBody,
    Option.getD_none]
  generalize malloc w = result
  obtain ⟨succeeds, w'⟩ := result
  cases succeeds with
  | false => rfl
  | true => simp [hheaders]

theorem malloc_congr {w w' : World} (hmallocs : w'.mallocs = w.mallocs) :
    (malloc w').1 = (malloc w).1 := by
  unfold malloc
  rw [hmallocs]
  split <;> rfl

/-- A page that is prepared for an error is sent. -/
theorem not_sendsOnly_refuse {status : HttpStatus} (hstatus : status ≠ .ok)
    {w : World}
    (hcode : (refuse status none httpResponseInit w).code = .success) :
    ¬ SendsOnly (refuse status none httpResponseInit w).response.headers
      (refuse status none httpResponseInit w).response
      (refuse status none httpResponseInit w).world := by
  have hmessage : ∀ text, (none : Option (List Byte)) = some text →
      text.length ≤ 50 := by simp
  have hprepared := refuse_spec hstatus hmessage w
  generalize refuse status none httpResponseInit w = prepared
    at hprepared hcode
  cases hprepared with
  | starved hfailed =>
      rw [hcode] at hfailed
      cases hfailed
  | ready _ heffect hevents hledger hunsent hheaders hclose hcontent =>
      intro honly
      obtain ⟨hbody, hfile, hsendBody, -⟩ := hcontent
      obtain ⟨bytes, hwritten, -, hall⟩ := honly []
      obtain ⟨writes, hsent⟩ := httpResponseSendBlocking_spec hunsent
        { prepared.world with sends := [] }
      have hsuccess : (httpResponseSendBlocking prepared.response
          { prepared.world with sends := [] }).1 = .success :=
        httpResponseSendBlocking_success hunsent (by simp) (by simp [hfile])
      obtain ⟨payload, hflatten, hpayload⟩ := hsent.message hsuccess
      rw [Payload, if_pos hsendBody, hfile, hbody] at hpayload
      obtain ⟨part, rfl, hpart⟩ := hpayload
      rw [hsent.effect.trace, codeEvents, if_pos hsuccess, List.append_nil,
        written_append, written_writes, hall (by simp), hflatten,
        show part = [] from hpart, List.append_nil] at hwritten
      have hnil := List.append_cancel_left hwritten
      rw [List.append_right_eq_self] at hnil
      have hpage : errorText status ≠ [] := by
        cases status <;> first | exact absurd rfl hstatus | decide
      exact hpage hnil

section Law

variable {config : ServerConfig} (hconfig : httpConfigValid config = true)
variable {buffer : List Byte} {length : ℕ} {request : HttpRequest}
variable (hjudge : judge config (buffer.take length) = .ok request)
variable (hmethod : request.method = ascii "GET")
variable (response : HttpResponse) (closing : Bool) (rootFd : Fd) {w : World}

include hconfig hjudge hmethod

/-- Both requests come down to opening the same file. -/
theorem prepared_asHead :
    httpPrepareResponse (asHead buffer) (length + 1) response closing rootFd
        config w =
      if (malloc w).1 then
        httpPrepareFile rootFd { request with method := ascii "HEAD" }
          httpResponseInit (closing || requestCloses request) (malloc w).2
      else
        { code := .failure
          response := httpResponseInit
          closeConnection := true
          world := (malloc w).2 } := by
  have hlength : 3 ≤ length := by
    have hlong := (httpParseRequest_asHead (judge_eq_ok_iff.mp hjudge).1
      hmethod).1
    rw [List.length_take] at hlong
    omega
  have hjudgeHead := judge_asHead hjudge hmethod
  rw [← take_asHead hlength] at hjudgeHead
  exact httpPrepareResponse_of_judge hconfig hjudgeHead response closing
    rootFd w

theorem bodiless_of_opened {file : OpenedFile}
    (hresolved : resolveAt w.fileSystem w.clock (inodeOf w rootFd)
      request.path = .ok file) :
    Bodiless
      (httpPrepareResponse buffer length response closing rootFd config w)
      (httpPrepareResponse (asHead buffer) (length + 1) response closing
        rootFd config w) := by
  rw [httpPrepareResponse_of_judge hconfig hjudge,
    prepared_asHead hconfig hjudge hmethod]
  split_ifs
  · obtain ⟨mallocs, hworld, -⟩ := malloc_spec w
    rw [hworld]
    have hopening := fileOpenPath_spec rootFd request.path
      { w with mallocs := mallocs }
    generalize hopened : fileOpenPath rootFd request.path
      { w with mallocs := mallocs } = result at hopening
    cases hopening with
    | failed hfailed =>
        rw [show resolveAt w.fileSystem w.clock (inodeOf w rootFd)
          request.path = .error _ from hfailed] at hresolved
        cases hresolved
    | opened =>
        rw [httpPrepareFile_of_ok request hopened,
          httpPrepareFile_of_ok { request with method := ascii "HEAD" } hopened]
        exact ⟨rfl, rfl, rfl, fun _ =>
          sendsOnly_headers ⟨rfl, rfl, rfl, rfl⟩ (by simp)⟩
  · exact ⟨rfl, rfl, rfl, fun hcode => by cases hcode⟩

theorem bodiless_refused {errno : Errno}
    (hresolved : resolveAt w.fileSystem w.clock (inodeOf w rootFd)
      request.path = .error errno) :
    Bodiless
      (httpPrepareResponse buffer length response closing rootFd config w)
      (httpPrepareResponse (asHead buffer) (length + 1) response closing
        rootFd config w) ↔ Starved w := by
  rw [httpPrepareResponse_of_judge hconfig hjudge,
    prepared_asHead hconfig hjudge hmethod, Starved]
  cases hfirst : (malloc w).1 with
  | false =>
      simp only [Bool.false_eq_true, if_false, true_or, iff_true]
      exact ⟨rfl, rfl, rfl, fun hcode => by cases hcode⟩
  | true =>
      obtain ⟨mallocs, hworld, -⟩ := malloc_spec w
      have hmallocs := mallocs_fileOpenPath rootFd request.path (malloc w).2
      have hopening := fileOpenPath_spec rootFd request.path (malloc w).2
      simp only [hworld] at hopening hmallocs ⊢
      generalize hopened : fileOpenPath rootFd request.path
        { w with mallocs := mallocs } = result at hopening hmallocs
      cases hopening with
      | opened hother =>
          rw [show resolveAt w.fileSystem w.clock (inodeOf w rootFd)
            request.path = .ok _ from hother] at hresolved
          cases hresolved
      | @failed errno events w' =>
          have hstatus := errnoStatus_ne_ok errno
          have hsecond := malloc_congr (w := { w with mallocs := mallocs })
            hmallocs
          rw [httpPrepareFile_of_error request hopened,
            httpPrepareFile_of_error { request with method := ascii "HEAD" }
              hopened]
          simp only [if_true, Bool.true_eq_false, false_or]
          rw [← hsecond]
          constructor
          · intro hbodiless
            by_contra hsucceeds
            rw [Bool.not_eq_false] at hsucceeds
            have hcode : (refuse (errnoStatus errno) none httpResponseInit
                w').code = .success := by
              rw [refuse_code hstatus, hsucceeds, if_pos rfl]
            exact not_sendsOnly_refuse hstatus hcode (hbodiless.wire hcode)
          · intro hfails
            refine ⟨rfl, rfl, rfl, fun hcode => ?_⟩
            rw [refuse_code hstatus, hfails] at hcode
            cases hcode

/-- `HEAD` is `GET` without the body just where the file can be opened, or
where there is no memory for the page that says why it cannot. -/
theorem head_bodiless_iff :
    Bodiless
        (httpPrepareResponse buffer length response closing rootFd config w)
        (httpPrepareResponse (asHead buffer) (length + 1) response closing
          rootFd config w) ↔
      (∃ file, resolveAt w.fileSystem w.clock (inodeOf w rootFd)
        request.path = .ok file) ∨ Starved w := by
  cases hresolved : resolveAt w.fileSystem w.clock (inodeOf w rootFd)
      request.path with
  | ok file =>
      exact iff_of_true (bodiless_of_opened hconfig hjudge hmethod response
        closing rootFd hresolved) (.inl ⟨file, rfl⟩)
  | error errno =>
      rw [bodiless_refused hconfig hjudge hmethod response closing rootFd
        hresolved]
      simp

end Law

/-- A request for a file that there is not. -/
def missingBuffer : List Byte :=
  ascii "GET /x HTTP/1.1\r\nHost: a\r\n\r\n"

def missingRequest : HttpRequest where
  method := ascii "GET"
  path := ascii "/x"
  query := []
  version := ascii "HTTP/1.1"
  headers := [{ name := ascii "Host", value := ascii "a" }]

theorem judge_missingBuffer :
    judge configInit (missingBuffer.take 28) = .ok missingRequest :=
  judge_eq_ok_iff.mpr ⟨by decide +kernel, by decide, by decide, by decide⟩

theorem head_bodiless_iff_missing :
    Bodiless
        (httpPrepareResponse missingBuffer 28 httpResponseInit false 3
          configInit (start pipelined [(3, 0)]))
        (httpPrepareResponse (asHead missingBuffer) 29 httpResponseInit false 3
          configInit (start pipelined [(3, 0)])) ↔
      (∃ file, resolveAt (fun _ => smallFileSystem) 0 (some 0) (ascii "/x") =
        .ok file) ∨ Starved (start pipelined [(3, 0)]) :=
  have hconfig : httpConfigValid configInit = true := by decide
  have hmethod : missingRequest.method = ascii "GET" := rfl
  head_bodiless_iff hconfig judge_missingBuffer hmethod httpResponseInit false
    3

theorem head_sends_error_page :
    ¬ ∀ (config : ServerConfig) (buffer : List Byte) (length : ℕ)
      (request : HttpRequest) (closing : Bool) (rootFd : Fd) (w : World),
      httpConfigValid config = true →
      judge config (buffer.take length) = .ok request →
      request.method = ascii "GET" →
        Bodiless
          (httpPrepareResponse buffer length httpResponseInit closing rootFd
            config w)
          (httpPrepareResponse (asHead buffer) (length + 1) httpResponseInit
            closing rootFd config w) := by
  intro hall
  have hconfig : httpConfigValid configInit = true := by decide
  have hbodiless := hall configInit missingBuffer 28 missingRequest false 3
    (start pipelined [(3, 0)]) hconfig judge_missingBuffer rfl
  have hresolved : resolveAt (fun _ => smallFileSystem) 0 (some 0)
      (ascii "/x") = .error .enoent := by rfl
  rw [bodiless_refused hconfig judge_missingBuffer rfl httpResponseInit false
    3 hresolved] at hbodiless
  exact absurd hbodiless (by simp [Starved, malloc, start, pipelined])

end HttpCerver.HeadRequests
