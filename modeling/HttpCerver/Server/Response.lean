import HttpCerver.Runtime.Numerals
import HttpCerver.Server.Sending

/-!
# Responses

The model of `http_response.c`: the header block, the two ways of sending an
error, and the response object that counts what has been sent so that a later
call can go on where an earlier one stopped.
-/

namespace HttpCerver.Response

open HttpCerver.Bytes
open HttpCerver.Numerals
open HttpCerver.Sending
open HttpCerver.System

/-- `http_status_t`. -/
inductive HttpStatus
  | ok
  | badRequest
  | forbidden
  | notFound
  | methodNotAllowed
  | requestHeaderFieldsTooLarge
  | internalServerError
  deriving DecidableEq

/-- The number of the enumeration constant. -/
def HttpStatus.code : HttpStatus → ℕ
  | .ok => 200
  | .badRequest => 400
  | .forbidden => 403
  | .notFound => 404
  | .methodNotAllowed => 405
  | .requestHeaderFieldsTooLarge => 431
  | .internalServerError => 500

def httpStatusReason : HttpStatus → List Byte
  | .ok => ascii "OK"
  | .badRequest => ascii "Bad Request"
  | .forbidden => ascii "Forbidden"
  | .notFound => ascii "Not Found"
  | .methodNotAllowed => ascii "Method Not Allowed"
  | .requestHeaderFieldsTooLarge => ascii "Request Header Fields Too Large"
  | .internalServerError => ascii "Internal Server Error"

/-- What the format string of `http_build_response_headers` expands to. -/
def headerBlock (status : HttpStatus) (contentType : List Byte)
    (contentLength : ℕ) (keepAlive : Bool) : List Byte :=
  ascii "HTTP/1.1 " ++ decimal status.code ++ ascii " " ++
    httpStatusReason status ++ crlf ++
  ascii "Content-Type: " ++ contentType ++ crlf ++
  ascii "Content-Length: " ++ decimal contentLength ++ crlf ++
  ascii "Connection: " ++
    (if keepAlive then ascii "keep-alive" else ascii "close") ++ crlf ++
  crlf

/-- The header block, or `none` for `-1` when it does not fit the buffer. -/
def httpBuildResponseHeaders (capacity : ℕ) (status : HttpStatus)
    (contentType : List Byte) (contentLength : Int) (keepAlive : Bool) :
    Option (List Byte) :=
  if capacity = 0 ∨ contentLength < 0 then none
  else
    let block := headerBlock status contentType contentLength.toNat keepAlive
    if capacity ≤ block.length then none else some block

def httpResponseHeaderMax : ℕ := 1024

/-- No status, content type of at most 24 bytes and file size fills the
buffer. -/
theorem length_headerBlock_lt (status : HttpStatus) {contentType : List Byte}
    {contentLength : ℕ} (keepAlive : Bool) (htype : contentType.length ≤ 24)
    (hlength : contentLength < 2 ^ 63) :
    (headerBlock status contentType contentLength keepAlive).length <
      httpResponseHeaderMax := by
  have hcode : (decimal status.code).length ≤ 3 :=
    length_decimal_le (by decide) (by cases status <;> decide)
  have hreason : (httpStatusReason status).length ≤ 31 := by
    cases status <;> decide
  have hdigits : (decimal contentLength).length ≤ 19 :=
    length_decimal_le (by decide) (by omega)
  have hconnection : (if keepAlive then ascii "keep-alive"
      else ascii "close").length ≤ 10 := by
    cases keepAlive <;> decide
  have hfixed : (ascii "HTTP/1.1 ").length = 9 ∧ (ascii " ").length = 1 ∧
      (ascii "Content-Type: ").length = 14 ∧
      (ascii "Content-Length: ").length = 16 ∧
      (ascii "Connection: ").length = 12 ∧ crlf.length = 2 := by decide
  obtain ⟨h1, h2, h3, h4, h5, h6⟩ := hfixed
  simp only [headerBlock, List.length_append, h1, h2, h3, h4, h5, h6,
    httpResponseHeaderMax]
  omega

theorem httpBuildResponseHeaders_eq_some (status : HttpStatus)
    {contentType : List Byte} {contentLength : ℕ} (keepAlive : Bool)
    (htype : contentType.length ≤ 24) (hlength : contentLength < 2 ^ 63) :
    httpBuildResponseHeaders httpResponseHeaderMax status contentType
        contentLength keepAlive =
      some (headerBlock status contentType contentLength keepAlive) := by
  have hfits := length_headerBlock_lt status keepAlive htype hlength
  rw [httpBuildResponseHeaders, if_neg (by
    rw [httpResponseHeaderMax]
    omega)]
  simp [hfits]

/-- `http_response_t`.  `headers_length` and `body_length` are the lengths of
the lists, `NULL` is the empty body, and `-1` is no descriptor. -/
structure HttpResponse where
  headers : List Byte
  headersSent : ℕ
  body : List Byte
  bodySent : ℕ
  fileFd : Option Fd
  fileSize : ℕ
  fileOffset : ℕ
  sendBody : Bool
  complete : Bool
  deriving DecidableEq

def httpResponseInit : HttpResponse where
  headers := []
  headersSent := 0
  body := []
  bodySent := 0
  fileFd := none
  fileSize := 0
  fileOffset := 0
  sendBody := false
  complete := false

/-- Releases what the response owns and resets its counters. -/
def httpResponseDestroy (response : HttpResponse) (w : World) :
    HttpResponse × World :=
  let w :=
    match response.fileFd with
    | none => w
    | some fd => close fd w
  (httpResponseInit, w)

def httpResponseSetBody (response : HttpResponse) (body : List Byte)
    (w : World) : ReturnCode × HttpResponse × World :=
  match malloc w with
  | (false, w) => (.failure, response, w)
  | (true, w) => (.success, { response with body := body, bodySent := 0 }, w)

/-- The page sent with an error. -/
def errorPage (title : List Byte) : List Byte :=
  ascii "<html><body><h1>" ++ title ++ ascii "</h1></body></html>"

/-- The bodies `http_send_error` chooses from, `none` for its `default`. -/
def httpSendErrorBody : HttpStatus → Option (List Byte)
  | .badRequest => some (errorPage (ascii "400 Bad Request"))
  | .forbidden => some (errorPage (ascii "403 Forbidden"))
  | .notFound => some (errorPage (ascii "404 Not Found"))
  | .methodNotAllowed => some (errorPage (ascii "405 Method Not Allowed"))
  | .requestHeaderFieldsTooLarge =>
    some (errorPage (ascii "431 Request Header Fields Too Large"))
  | .internalServerError =>
    some (errorPage (ascii "500 Internal Server Error"))
  | .ok => none

/-- The bodies `http_response_prepare_error` chooses from. -/
def httpResponsePrepareErrorBody : HttpStatus → Option (List Byte)
  | .badRequest => some (errorPage (ascii "400 Bad Request"))
  | .forbidden => some (errorPage (ascii "403 Forbidden"))
  | .notFound => some (errorPage (ascii "404 Not Found"))
  | .methodNotAllowed => some (errorPage (ascii "405 Method Not Allowed"))
  | .requestHeaderFieldsTooLarge =>
    some (errorPage (ascii "431 Request Header Fields Too Large"))
  | .internalServerError =>
    some (errorPage (ascii "500 Internal Server Error"))
  | .ok => none

/-- Sends a header block and nothing else. -/
def httpSendResponse (status : HttpStatus) (contentType : List Byte)
    (contentLength : Int) (keepAlive : Bool) (w : World) :
    ReturnCode × World :=
  match httpBuildResponseHeaders httpResponseHeaderMax status contentType
      contentLength keepAlive with
  | none => (.failure, w)
  | some response =>
    match ioSendAll response w with
    | (none, w) => (.failure, w)
    | (some sent, w) =>
      if sent ≠ response.length then (.failure, w) else (.success, w)

/-- Sends an error at once.  The mark `respond` is set when all of it is out. -/
def httpSendError (status : HttpStatus) (keepAlive : Bool) (w : World) :
    ReturnCode × World :=
  match httpSendErrorBody status with
  | none => (.failure, w)
  | some body =>
    match httpSendResponse status (ascii "text/html") body.length keepAlive
        w with
    | (.failure, w) => (.failure, w)
    | (.success, w) =>
      match ioSendAll body w with
      | (none, w) => (.failure, w)
      | (some sent, w) =>
        if sent ≠ body.length then (.failure, w)
        else
          (.success, log (.respond (headerBlock status (ascii "text/html")
            body.length keepAlive) (!keepAlive)) w)

/-- Prepares an error response; a message takes the place of the page. -/
def httpResponsePrepareError (response : HttpResponse) (status : HttpStatus)
    (message : Option (List Byte)) (w : World) :
    ReturnCode × HttpResponse × World :=
  match httpResponsePrepareErrorBody status with
  | none => (.failure, response, w)
  | some page =>
    let body := message.getD page
    match httpResponseSetBody response body w with
    | (.failure, response, w) => (.failure, response, w)
    | (.success, response, w) =>
      match httpBuildResponseHeaders httpResponseHeaderMax status
          (ascii "text/html") body.length false with
      | none => (.failure, response, w)
      | some headers =>
        (.success,
          { response with
            headers := headers
            headersSent := 0
            sendBody := true
            complete := false }, w)

/-- The last loop, for a static file; without a descriptor there is nothing
left to do. -/
def httpResponseSendFile (response : HttpResponse) (w : World) :
    ReturnCode × HttpResponse × World :=
  match response.fileFd with
  | none => (.success, { response with complete := true }, w)
  | some fd =>
    match (sendLoop (sendfileOffer fd response.fileSize)
        response.fileSize).run (response.fileOffset, w) with
    | (.complete, offset, w) =>
      (.success, { response with fileOffset := offset, complete := true }, w)
    | (_, offset, w) => (.failure, { response with fileOffset := offset }, w)

/-- The loop for a body in memory, followed by the file. -/
def httpResponseSendBody (response : HttpResponse) (w : World) :
    ReturnCode × HttpResponse × World :=
  match (sendLoop (sendOffer response.body) response.body.length).run
      (response.bodySent, w) with
  | (.complete, sent, w) =>
    httpResponseSendFile { response with bodySent := sent } w
  | (_, sent, w) => (.failure, { response with bodySent := sent }, w)

/-- Sends what is left of a response: headers, body in memory, file. -/
def httpResponseSendBlocking (response : HttpResponse) (w : World) :
    ReturnCode × HttpResponse × World :=
  if response.complete then (.failure, response, w)
  else
    match (sendLoop (sendOffer response.headers) response.headers.length).run
        (response.headersSent, w) with
    | (.complete, sent, w) =>
      let response := { response with headersSent := sent }
      if !response.sendBody then
        (.success, { response with complete := true }, w)
      else
        httpResponseSendBody response w
    | (_, sent, w) => (.failure, { response with headersSent := sent }, w)

end HttpCerver.Response
