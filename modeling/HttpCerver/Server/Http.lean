import HttpCerver.Server.Connection
import HttpCerver.Server.File

/-!
# Answering requests

The model of `http.c`: the checks on a request, the response prepared for it,
and the loop that answers every complete request head in the buffer.
-/

namespace HttpCerver.Http

open HttpCerver.Bytes
open HttpCerver.Config
open HttpCerver.Connection
open HttpCerver.File
open HttpCerver.Iteration
open HttpCerver.Numerals
open HttpCerver.Request
open HttpCerver.Response
open HttpCerver.Search
open HttpCerver.System

def httpConfigValid (config : ServerConfig) : Bool :=
  if config.httpBufferSize = 0 then false
  else if config.httpMaxHeaders = 0 ∨
      httpMaxHeaders < config.httpMaxHeaders then false
  else if config.httpHeaderNameMax = 0 ∨
      httpHeaderNameMax < config.httpHeaderNameMax then false
  else if config.httpHeaderValueMax = 0 ∨
      httpHeaderValueMax < config.httpHeaderValueMax then false
  else true

theorem httpConfigValid_iff {config : ServerConfig} :
    httpConfigValid config = true ↔
      0 < config.httpBufferSize ∧
      (0 < config.httpMaxHeaders ∧ config.httpMaxHeaders ≤ httpMaxHeaders) ∧
      (0 < config.httpHeaderNameMax ∧
        config.httpHeaderNameMax ≤ httpHeaderNameMax) ∧
      0 < config.httpHeaderValueMax ∧
        config.httpHeaderValueMax ≤ httpHeaderValueMax := by
  simp only [httpConfigValid]
  split_ifs <;> simp <;> omega

def httpMethodAllowed (method : List Byte) : Bool :=
  method = ascii "GET" || method = ascii "HEAD"

/-- `HTTP/1.1` requires exactly one `Host` header. -/
def httpValidateHost (request : HttpRequest) : ReturnCode :=
  let hostCount := request.headers.countP fun header =>
    strcasecmp header.name (ascii "Host")
  if hostCount = 1 then .success else .failure

/-- What the scan of the headers finds out about the framing. -/
structure FramingScan where
  contentLength : Option (List Byte)
  contentLengthCount : ℕ
  transferEncodingPresent : Bool

/-- The scan over the headers; `none` when it meets a second
`Content-Length`. -/
def httpScanFraming : List HttpHeader → FramingScan → Option FramingScan
  | [], scan => some scan
  | header :: headers, scan =>
    let isLength := strcasecmp header.name (ascii "Content-Length")
    if isLength ∧ 1 < scan.contentLengthCount + 1 then none
    else
      httpScanFraming headers
        { contentLength :=
            if isLength then some header.value else scan.contentLength
          contentLengthCount :=
            if isLength then scan.contentLengthCount + 1
            else scan.contentLengthCount
          transferEncodingPresent := scan.transferEncodingPresent ||
            strcasecmp header.name (ascii "Transfer-Encoding") }

/-- The accumulator loop over the digits; `none` for an invalid length.  The
guard keeps `length * 10 + digit` within `unsigned long long`. -/
def httpAccumulateLength : List Byte → ℕ → Option ℕ
  | [], length => some length
  | c :: rest, length =>
    if ¬ isdigit c then none
    else
      let digit := c.toNat - 48
      if (ullongMax - digit) / 10 < length then none
      else httpAccumulateLength rest (length * 10 + digit)

/-- The reason for refusing the framing of a request, `none` for `0`. -/
def httpValidateRequestFraming (request : HttpRequest) : Option (List Byte) :=
  match httpScanFraming request.headers
      { contentLength := none
        contentLengthCount := 0
        transferEncodingPresent := false } with
  | none => some (ascii "Duplicate Content-Length headers are not supported")
  | some scan =>
    if scan.transferEncodingPresent then
      some (ascii "Transfer-Encoding is not supported")
    else
      match scan.contentLength with
      | none => none
      | some contentLength =>
        let digits := contentLength.rdropWhile isOws
        if contentLength = [] then some (ascii "Invalid Content-Length")
        else if digits = [] then some (ascii "Invalid Content-Length")
        else
          match httpAccumulateLength digits 0 with
          | none => some (ascii "Invalid Content-Length")
          | some length =>
            if length = 0 then none
            else some (ascii "Request bodies are not supported")

/-- What `http_prepare_response` returns and leaves behind. -/
structure Prepared where
  code : ReturnCode
  response : HttpResponse
  closeConnection : Bool
  world : World

/-- `*close_connection = 1` and a prepared error. -/
def refuse (status : HttpStatus) (message : Option (List Byte))
    (response : HttpResponse) (w : World) : Prepared :=
  let (code, response, w) := httpResponsePrepareError response status message w
  { code := code, response := response, closeConnection := true, world := w }

/-- The status for an `errno` of `file_open_path`. -/
def errnoStatus (errno : Errno) : HttpStatus :=
  if errno = .enoent then .notFound
  else if errno = .eacces ∨ errno = .eperm then .forbidden
  else .internalServerError

/-- The part of `http_prepare_response` behind the checks: open the file and
prepare its headers. -/
def httpPrepareFile (rootFd : Fd) (request : HttpRequest)
    (response : HttpResponse) (closeConnection : Bool) (w : World) :
    Prepared :=
  match fileOpenPath rootFd request.path w with
  | (.error errno, w) => refuse (errnoStatus errno) none response w
  | (.ok file, w) =>
    let contentType := mimeType request.path
    let sendBody := request.method ≠ ascii "HEAD"
    match httpBuildResponseHeaders httpResponseHeaderMax .ok contentType
        file.size (!closeConnection) with
    | none =>
      { code := .failure
        response := response
        closeConnection := closeConnection
        world := close file.fd w }
    | some headers =>
      { code := .success
        response :=
          { headers := headers
            headersSent := 0
            body := []
            bodySent := 0
            fileFd := some file.fd
            fileSize := file.size
            fileOffset := 0
            sendBody := sendBody
            complete := false }
        closeConnection := closeConnection
        world := w }

/-- Whether the request itself asks for the connection to be closed. -/
def requestCloses (request : HttpRequest) : Bool :=
  request.version = ascii "HTTP/1.0" ||
    match httpGetHeader request (ascii "Connection") with
    | none => false
    | some connection => strcasecmp connection (ascii "close")

/-- Prepares the response to the request head in the first `length` bytes of
the buffer. -/
def httpPrepareResponse (buffer : List Byte) (length : ℕ)
    (response : HttpResponse) (closeConnection : Bool) (rootFd : Fd)
    (config : ServerConfig) (w : World) : Prepared :=
  if ¬ httpConfigValid config then
    { code := .failure
      response := response
      closeConnection := closeConnection
      world := w }
  else
    let response := httpResponseInit
    match malloc w with
    | (false, w) =>
      { code := .failure
        response := response
        closeConnection := true
        world := w }
    | (true, w) =>
      let requestBuffer := cstring (buffer.take length)
      match httpParseRequest requestBuffer config with
      | .headersTooLarge =>
        refuse .requestHeaderFieldsTooLarge none response w
      | .badRequest => refuse .badRequest none response w
      | .ok request =>
        if ¬ httpMethodAllowed request.method then
          refuse .methodNotAllowed none response w
        else if request.version = ascii "HTTP/1.1" ∧
            httpValidateHost request = .failure then
          refuse .badRequest none response w
        else
          match httpValidateRequestFraming request with
          | some framingError =>
            refuse .badRequest (some framingError) response w
          | none =>
            httpPrepareFile rootFd request response
              (closeConnection || requestCloses request) w

/-- One round of the request loop.  The marks of the trace are set around
it. -/
def httpProcessRequest (rootFd : Fd) (config : ServerConfig)
    (state : HttpConnection × World) :
    (HttpConnection × World) ⊕ (ReturnCode × HttpConnection × World) :=
  let (connection, w) := state
  if ¬ httpConnectionRequestReady connection then
    .inr (.success, connection, w)
  else
    let requestLength := httpConnectionRequestLength connection
    if requestLength = 0 then .inr (.failure, connection, w)
    else
      let w := log (.parse (connection.pending.take requestLength)
        connection.closeConnection) w
      let prepared := httpPrepareResponse connection.pending requestLength
        connection.response connection.closeConnection rootFd config w
      let connection := { connection with
        response := prepared.response
        closeConnection := prepared.closeConnection }
      if prepared.code = .failure then
        .inr (.failure, connection, prepared.world)
      else
        match httpResponseSendBlocking connection.response
            (log (.sending connection.response.fileFd.isSome)
              prepared.world) with
        | (.failure, response, w) =>
          .inr (.failure, { connection with response := response }, w)
        | (.success, response, w) =>
          let w := log (.respond response.headers
            connection.closeConnection) w
          let (response, w) := httpResponseDestroy response w
          let connection := httpConnectionConsume
            { connection with response := response } requestLength
          if connection.closeConnection then .inr (.success, connection, w)
          else .inl (connection, w)

section Round

variable (rootFd : Fd) (config : ServerConfig) (connection : HttpConnection)
variable (w : World) (length : ℕ)

/-- The response prepared for the head in the first `length` bytes. -/
def preparedAt : Prepared :=
  httpPrepareResponse connection.pending length connection.response
    connection.closeConnection rootFd config
    (log (.parse (connection.pending.take length)
      connection.closeConnection) w)

/-- What becomes of the prepared response when it is sent. -/
def sentAt : ReturnCode × HttpResponse × World :=
  let prepared := preparedAt rootFd config connection w length
  httpResponseSendBlocking prepared.response
    (log (.sending prepared.response.fileFd.isSome) prepared.world)

/-- The connection after the head has been answered and dropped. -/
def consumedAt : HttpConnection :=
  httpConnectionConsume
    { connection with
      response := httpResponseInit
      closeConnection :=
        (preparedAt rootFd config connection w length).closeConnection }
    length

/-- The world after the response has been sent and released. -/
def releasedAt : World :=
  (httpResponseDestroy (sentAt rootFd config connection w length).2.1
    (log (.respond (sentAt rootFd config connection w length).2.1.headers
      (preparedAt rootFd config connection w length).closeConnection)
      (sentAt rootFd config connection w length).2.2)).2

/-- Everything a round of the request loop can do. -/
inductive ProcessRound :
    (HttpConnection × World) ⊕ (ReturnCode × HttpConnection × World) → Prop
  | idle (hidle : httpFindHeaderEnd connection.pending = none) :
      ProcessRound (.inr (.success, connection, w))
  | unprepared {length : ℕ} {connection' : HttpConnection}
      (hready : httpFindHeaderEnd connection.pending = some length)
      (hcode : (preparedAt rootFd config connection w length).code = .failure) :
      ProcessRound (.inr (.failure, connection',
        (preparedAt rootFd config connection w length).world))
  | unsent {length : ℕ} {connection' : HttpConnection}
      (hready : httpFindHeaderEnd connection.pending = some length)
      (hcode : (preparedAt rootFd config connection w length).code = .success)
      (hsent : (sentAt rootFd config connection w length).1 = .failure) :
      ProcessRound (.inr (.failure, connection',
        (sentAt rootFd config connection w length).2.2))
  | closing {length : ℕ}
      (hready : httpFindHeaderEnd connection.pending = some length)
      (hcode : (preparedAt rootFd config connection w length).code = .success)
      (hsent : (sentAt rootFd config connection w length).1 = .success)
      (hclose : (preparedAt rootFd config connection w
        length).closeConnection = true) :
      ProcessRound (.inr (.success, consumedAt rootFd config connection w length,
        releasedAt rootFd config connection w length))
  | continuing {length : ℕ}
      (hready : httpFindHeaderEnd connection.pending = some length)
      (hcode : (preparedAt rootFd config connection w length).code = .success)
      (hsent : (sentAt rootFd config connection w length).1 = .success)
      (hclose : (preparedAt rootFd config connection w
        length).closeConnection = false) :
      ProcessRound (.inl (consumedAt rootFd config connection w length,
        releasedAt rootFd config connection w length))

theorem httpProcessRequest_spec :
    ProcessRound rootFd config connection w
      (httpProcessRequest rootFd config (connection, w)) := by
  cases hfind : httpFindHeaderEnd connection.pending with
  | none =>
      have hready : httpConnectionRequestReady connection = false := by
        simp [httpConnectionRequestReady, httpRequestComplete, hfind]
      simp only [httpProcessRequest, hready]
      exact .idle hfind
  | some length =>
      have hpos := (httpFindHeaderEnd_bounds hfind).1
      have hready : httpConnectionRequestReady connection = true := by
        simp [httpConnectionRequestReady, httpRequestComplete, hfind]
      have hlength : httpConnectionRequestLength connection = length := by
        simp [httpConnectionRequestLength, hfind]
      have hne : length ≠ 0 := by omega
      simp only [httpProcessRequest, hready, hlength, hne, not_true, if_false]
      change ProcessRound rootFd config connection w
        (if (preparedAt rootFd config connection w length).code = .failure then _
          else match sentAt rootFd config connection w length with
            | (.failure, response, w) => _
            | (.success, response, w) => _)
      cases hcode : (preparedAt rootFd config connection w length).code with
      | failure =>
          rw [if_pos rfl]
          exact .unprepared hfind hcode
      | success =>
          rw [if_neg (by decide)]
          obtain ⟨⟨code, response, w'⟩, hsent⟩ :
              ∃ sent, sentAt rootFd config connection w length = sent :=
            ⟨_, rfl⟩
          rw [hsent]
          have hworld :
              (sentAt rootFd config connection w length).2.2 = w' := by
            rw [hsent]
          cases code with
          | failure =>
              rw [← hworld]
              exact .unsent hfind hcode (by rw [hsent])
          | success =>
              have hsuccess :
                  (sentAt rootFd config connection w length).1 = .success := by
                rw [hsent]
              let released := (httpResponseDestroy response
                (log (.respond response.headers (preparedAt rootFd config
                  connection w length).closeConnection) w')).2
              have hreleased :
                  released = releasedAt rootFd config connection w length := by
                rw [releasedAt, hsent]
              change ProcessRound rootFd config connection w
                (if (consumedAt rootFd config connection w
                    length).closeConnection then
                  .inr (.success, consumedAt rootFd config connection w length,
                    released)
                else
                  .inl (consumedAt rootFd config connection w length, released))
              rw [hreleased]
              split_ifs with hclose
              · exact .closing hfind hcode hsuccess
                  (by simpa [consumedAt] using hclose)
              · exact .continuing hfind hcode hsuccess
                  (by simpa [consumedAt] using hclose)

end Round

theorem consumedAt_pending {rootFd : Fd} {config : ServerConfig}
    {connection : HttpConnection} {w : World} {length : ℕ}
    (hready : httpFindHeaderEnd connection.pending = some length) :
    (consumedAt rootFd config connection w length).pending =
      connection.pending.drop length :=
  httpConnectionConsume_pending (httpFindHeaderEnd_bounds hready).2

/-- The loop of `http_process_connection`; every further round has dropped a
head. -/
def httpProcessLoop (rootFd : Fd) (config : ServerConfig) :
    Loop (HttpConnection × World) (ReturnCode × HttpConnection × World) where
  body := httpProcessRequest rootFd config
  rank state := state.1.pending.length
  rank_lt {state next} hbody := by
    obtain ⟨connection, w⟩ := state
    have hspec := httpProcessRequest_spec rootFd config connection w
    rw [hbody] at hspec
    cases hspec with
    | continuing hready hcode hsent hclose =>
        have hbounds := httpFindHeaderEnd_bounds hready
        rw [consumedAt_pending hready, List.length_drop]
        dsimp only
        omega

def httpProcessConnection (rootFd : Fd) (config : ServerConfig)
    (connection : HttpConnection) (w : World) :
    ReturnCode × HttpConnection × World :=
  if ¬ httpConfigValid config then (.failure, connection, w)
  else (httpProcessLoop rootFd config).run (connection, w)

end HttpCerver.Http
