import HttpCerver.Core.Trim
import HttpCerver.Stream.Reference

/-!
# Requests to close

A client asks for its connection to be closed by listing `close` among the
options of a `Connection` field.  Only the first such field is consulted and
its value is compared as a whole, so the wish is honoured just where that
comparison sees it or the connection is closed for another reason.
-/

namespace HttpCerver.Closing

open HttpCerver.Answers
open HttpCerver.Bytes
open HttpCerver.Config
open HttpCerver.File
open HttpCerver.Http
open HttpCerver.Reference
open HttpCerver.Request
open HttpCerver.Resolution
open HttpCerver.Response
open HttpCerver.System
open HttpCerver.Trim

/-- The comma-separated options of a field value. -/
def optionsOf (value : List Byte) : List (List Byte) :=
  (value.splitOn 44).map (trim isOws)

def isConnection (header : HttpHeader) : Bool :=
  strcasecmp header.name (ascii "Connection")

/-- Some `Connection` field lists `close`. -/
def ListsClose (request : HttpRequest) : Prop :=
  ∃ header ∈ request.headers, isConnection header = true ∧
    ∃ option ∈ optionsOf header.value,
      strcasecmp option (ascii "close") = true

instance (request : HttpRequest) : Decidable (ListsClose request) := by
  unfold ListsClose
  infer_instance

/-- The first `Connection` field says `close` and nothing else. -/
def FirstSaysClose (request : HttpRequest) : Prop :=
  ∃ before header after, request.headers = before ++ header :: after ∧
    (∀ earlier ∈ before, isConnection earlier = false) ∧
    isConnection header = true ∧
    strcasecmp header.value (ascii "close") = true

theorem requestCloses_iff {request : HttpRequest} :
    requestCloses request = true ↔
      request.version = ascii "HTTP/1.0" ∨ FirstSaysClose request := by
  rw [requestCloses, Bool.or_eq_true, decide_eq_true_eq]
  apply or_congr_right
  constructor
  · intro hsays
    split at hsays
    · cases hsays
    · next connection hconnection =>
        obtain ⟨header, hfound, rfl⟩ := Option.map_eq_some_iff.mp hconnection
        obtain ⟨hname, before, after, hheaders, hbefore⟩ :=
          List.find?_eq_some_iff_append.mp hfound
        refine ⟨before, header, after, hheaders, ?_, hname, hsays⟩
        intro earlier hmem
        simpa [isConnection] using hbefore earlier hmem
  · rintro ⟨before, header, after, hheaders, hbefore, hname, hvalue⟩
    have hfound : httpGetHeader request (ascii "Connection") =
        some header.value := by
      rw [httpGetHeader, Option.map_eq_some_iff]
      refine ⟨header, ?_, rfl⟩
      rw [List.find?_eq_some_iff_append]
      refine ⟨hname, before, after, hheaders, ?_⟩
      intro earlier hmem
      simpa [isConnection] using hbefore earlier hmem
    rw [hfound]
    exact hvalue

/-- The header block ends by announcing that the connection is closed. -/
def SaysClose (headers : List Byte) : Prop :=
  ascii "Connection: close\r\n\r\n" <:+ headers

theorem saysClose_headers {answer : Answer} (hcloses : answer.closes = true) :
    SaysClose answer.headers := by
  have hend : ascii "Connection: close\r\n\r\n" =
      ascii "Connection: " ++ ascii "close" ++ crlf ++ crlf := by decide
  have hsplit (front : List Byte) :
      front ++ ascii "Connection: " ++ ascii "close" ++ crlf ++ crlf =
        front ++ (ascii "Connection: " ++ ascii "close" ++ crlf ++ crlf) := by
    simp only [List.append_assoc]
  rw [SaysClose, hend, Answer.headers, hcloses, headerBlock,
    if_neg (by simp), hsplit]
  exact List.suffix_append _ _

/-- A head that does not pass the checks closes the connection. -/
theorem closeConnection_of_refused {config : ServerConfig}
    (hconfig : httpConfigValid config = true) {buffer : List Byte}
    {length : ℕ} {refusal : Refusal}
    (hjudge : judge config (buffer.take length) = .error refusal)
    (response : HttpResponse) (closing : Bool) (rootFd : Fd) (w : World) :
    (httpPrepareResponse buffer length response closing rootFd config
      w).closeConnection = true := by
  rw [httpPrepareResponse, if_neg (by simp [hconfig])]
  rw [judge] at hjudge
  generalize malloc w = result
  obtain ⟨succeeds, w'⟩ := result
  cases succeeds with
  | false => rfl
  | true =>
      dsimp only
      cases hparse : httpParseRequest (cstring (buffer.take length)) config with
      | headersTooLarge => rfl
      | badRequest => rfl
      | ok request =>
          rw [hparse] at hjudge
          dsimp only at hjudge ⊢
          by_cases hmethod : ¬ httpMethodAllowed request.method
          · rw [if_pos hmethod]
            rfl
          rw [if_neg hmethod] at hjudge ⊢
          by_cases hhost : request.version = ascii "HTTP/1.1" ∧
              httpValidateHost request = .failure
          · rw [if_pos hhost]
            rfl
          rw [if_neg hhost] at hjudge ⊢
          cases hframing : httpValidateRequestFraming request with
          | some reason => rfl
          | none =>
              rw [hframing] at hjudge
              cases hjudge

/-- Where a request passes the checks, it is its file and what the request says
that decide. -/
theorem closeConnection_of_passed {config : ServerConfig}
    (hconfig : httpConfigValid config = true) {buffer : List Byte}
    {length : ℕ} {request : HttpRequest}
    (hjudge : judge config (buffer.take length) = .ok request)
    (response : HttpResponse) (closing : Bool) (rootFd : Fd) {w : World}
    (hmemory : (malloc w).1 = true) :
    (httpPrepareResponse buffer length response closing rootFd config
        w).closeConnection = true ↔
      (∃ errno, resolveAt w.fileSystem w.clock (inodeOf w rootFd)
        request.path = .error errno) ∨
      closing = true ∨ requestCloses request = true := by
  obtain ⟨mallocs, hworld, -, -⟩ := malloc_spec w
  have hopening := fileOpenPath_spec rootFd request.path (malloc w).2
  have hresolve : resolveAt (malloc w).2.fileSystem (malloc w).2.clock
      (inodeOf (malloc w).2 rootFd) request.path =
      resolveAt w.fileSystem w.clock (inodeOf w rootFd) request.path := by
    rw [hworld]
    rfl
  rw [httpPrepareResponse_of_judge hconfig hjudge, if_pos hmemory, ← hresolve]
  generalize hopened : fileOpenPath rootFd request.path (malloc w).2 = result
    at hopening
  cases hopening with
  | failed hresolved heffect hevents hdescriptors hledger =>
      rw [httpPrepareFile_of_error request hopened, hresolved]
      simp [refuse]
  | opened hresolved heffect hevents hdescriptors hfree hledger =>
      rw [httpPrepareFile_of_ok request hopened, hresolved]
      simp

/-- A parsed request that fails one of the checks behind the parser. -/
def Refused (request : HttpRequest) : Prop :=
  ¬ (httpMethodAllowed request.method = true ∧
    ¬ (request.version = ascii "HTTP/1.1" ∧
      httpValidateHost request = .failure) ∧
    httpValidateRequestFraming request = none)

/-- The request lists `close` or is one of HTTP/1.0 only if the connection is
to be closed and any response prepared says so. -/
def CloseHonoured (request : HttpRequest) (prepared : Prepared) : Prop :=
  ListsClose request ∨ request.version = ascii "HTTP/1.0" →
    prepared.closeConnection = true ∧
      (prepared.code = .success → SaysClose prepared.response.headers)

section Parsed

variable {config : ServerConfig} {buffer : List Byte} {length : ℕ}
variable {request : HttpRequest} (hconfig : httpConfigValid config = true)
variable (hparse : httpParseRequest (cstring (buffer.take length)) config =
  .ok request)
variable (response : HttpResponse) (closing : Bool) (rootFd : Fd) (w : World)

/-- A response that goes with closing the connection announces it. -/
theorem saysClose_of_closeConnection :
    let prepared := httpPrepareResponse buffer length response closing rootFd
      config w
    prepared.closeConnection = true → prepared.code = .success →
      SaysClose prepared.response.headers := by
  intro prepared hclose hcode
  have hready := ready_of_success hcode
  rw [hready.headers]
  exact saysClose_headers (hready.closes.symm.trans hclose)

include hconfig hparse

theorem closeConnection_iff :
    (httpPrepareResponse buffer length response closing rootFd config
        w).closeConnection = true ↔
      (FirstSaysClose request ∨ request.version = ascii "HTTP/1.0") ∨
      closing = true ∨ (malloc w).1 = false ∨ Refused request ∨
      ∃ errno, resolveAt w.fileSystem w.clock (inodeOf w rootFd)
        request.path = .error errno := by
  cases hmemory : (malloc w).1 with
  | false =>
      simp only [true_or, or_true, iff_true]
      rw [httpPrepareResponse, if_neg (by simp [hconfig])]
      generalize malloc w = result at hmemory
      obtain ⟨succeeds, w'⟩ := result
      dsimp only at hmemory
      subst hmemory
      rfl
  | true =>
      cases hjudge : judge config (buffer.take length) with
      | error refusal =>
          have hrefused : Refused request := fun hpassed => by
            rw [judge_eq_ok_iff.mpr ⟨hparse, hpassed⟩] at hjudge
            cases hjudge
          rw [closeConnection_of_refused hconfig hjudge]
          simp only [hrefused, true_or, or_true]
      | ok passed =>
          obtain ⟨hpassed, hchecks⟩ := judge_eq_ok_iff.mp hjudge
          rw [hparse] at hpassed
          cases hpassed
          have haccepted : ¬ Refused request := not_not.mpr hchecks
          rw [closeConnection_of_passed hconfig hjudge response closing rootFd
            hmemory, requestCloses_iff]
          simp only [haccepted, Bool.true_eq_false, false_or, or_comm,
            or_left_comm]
          rw [or_assoc]

/-- A request to close is honoured just where the comparison of the first
field sees it or the connection is closed for another reason. -/
theorem close_honoured_iff :
    CloseHonoured request (httpPrepareResponse buffer length response closing
        rootFd config w) ↔
      (ListsClose request →
        (FirstSaysClose request ∨ request.version = ascii "HTTP/1.0") ∨
        closing = true ∨ (malloc w).1 = false ∨ Refused request ∨
        ∃ errno, resolveAt w.fileSystem w.clock (inodeOf w rootFd)
          request.path = .error errno) := by
  rw [← closeConnection_iff hconfig hparse response closing rootFd w]
  constructor
  · intro hhonoured hlists
    exact (hhonoured (.inl hlists)).1
  · intro hcloses hwish
    have hclose : (httpPrepareResponse buffer length response closing rootFd
        config w).closeConnection = true := by
      rcases hwish with hlists | hversion
      · exact hcloses hlists
      · exact (closeConnection_iff hconfig hparse response closing rootFd
          w).mpr (.inl (.inr hversion))
    exact ⟨hclose, saysClose_of_closeConnection response closing rootFd w
      hclose⟩

end Parsed

/-- A request that lists `close` behind another option. -/
def listedHead : List Byte :=
  ascii "GET / HTTP/1.1\r\nHost: a\r\nConnection: keep-alive, Close\r\n\r\n"

def listedRequest : HttpRequest where
  method := ascii "GET"
  path := ascii "/"
  query := []
  version := ascii "HTTP/1.1"
  headers :=
    [{ name := ascii "Host", value := ascii "a" },
     { name := ascii "Connection", value := ascii "keep-alive, Close" }]

theorem httpParseRequest_listedHead :
    httpParseRequest (cstring (listedHead.take listedHead.length))
      configInit = .ok listedRequest := by
  decide +kernel

/-- The response prepared for it. -/
def listedPrepared : Prepared :=
  httpPrepareResponse listedHead listedHead.length httpResponseInit false 3
    configInit (start pipelined [(3, 0)])

theorem close_honoured_iff_listed :
    CloseHonoured listedRequest listedPrepared ↔
      (ListsClose listedRequest →
        (FirstSaysClose listedRequest ∨
          listedRequest.version = ascii "HTTP/1.0") ∨
        false = true ∨ (malloc (start pipelined [(3, 0)])).1 = false ∨
        Refused listedRequest ∨
        ∃ errno, resolveAt pipelined.fileSystem 0 (some 0)
          listedRequest.path = .error errno) :=
  close_honoured_iff (by decide) httpParseRequest_listedHead httpResponseInit
    false 3 (start pipelined [(3, 0)])

theorem list_of_options_ignored :
    ¬ ∀ (config : ServerConfig) (buffer : List Byte) (length : ℕ)
      (request : HttpRequest) (response : HttpResponse) (closing : Bool)
      (rootFd : Fd) (w : World), httpConfigValid config = true →
        httpParseRequest (cstring (buffer.take length)) config = .ok request →
          CloseHonoured request (httpPrepareResponse buffer length response
            closing rootFd config w) := by
  intro hall
  have hhonoured := hall configInit listedHead listedHead.length listedRequest
    httpResponseInit false 3 (start pipelined [(3, 0)]) (by decide)
    httpParseRequest_listedHead
  have hlists : ListsClose listedRequest := by decide +kernel
  have hclose : listedPrepared.closeConnection = true :=
    (hhonoured (.inl hlists)).1
  have hkept : listedPrepared.closeConnection = false := by decide +kernel
  rw [hkept] at hclose
  cases hclose

end HttpCerver.Closing
