import HttpCerver.Parse.Request
import HttpCerver.Runtime.Memory

/-!
# Request parsing in arrays

The model of `http_parse_request` and of what it calls, with the arrays of
`http_request_t` and the local arrays as checked memory.  The buffer is a
string with its NUL, a pointer into it an offset.  What the arrays hold at the
start is whatever the stack holds.
-/

namespace HttpCerver.Arrays

open HttpCerver.Bytes hiding strchr strstr memchr
open HttpCerver.Config
open HttpCerver.Iteration
open HttpCerver.Memory
open HttpCerver.Request (httpHeaderNameMax httpHeaderValueMax httpHexValue
  httpIsTchar httpMaxHeaders isOws methodSize targetSize)

/-- `http_header_t`. -/
structure HttpHeader where
  name : List.Vector Byte httpHeaderNameMax
  value : List.Vector Byte httpHeaderValueMax

/-- `http_request_t`. -/
structure HttpRequest where
  method : List.Vector Byte methodSize
  path : List.Vector Byte targetSize
  query : List.Vector Byte targetSize
  version : List.Vector Byte methodSize
  headers : List.Vector HttpHeader httpMaxHeaders
  headerCount : ℕ

/-- `http_parse_result_t`. -/
inductive HttpParseResult
  | ok
  | badRequest
  | headersTooLarge
  deriving DecidableEq

/-- How `http_decode_path` ends: with `0`, or with `-1` because something is
not accepted or because the decoded path is too long. -/
inductive DecodeExit
  | decoded
  | refused
  | tooLong
  deriving DecidableEq

/-- The locals of the loop of `http_decode_path`. -/
structure DecodeCursor (size : ℕ) where
  src : ℕ
  dst : ℕ
  decoded : List.Vector Byte size

/-- The value at `src` and the next `src`; `none` for an escape that is not
accepted. -/
def httpDecodeValue (encoded : List Byte) (src : ℕ) :
    Checked (Option (Byte × ℕ)) := do
  let c ← read encoded src
  if c = percent then
    let first ← read encoded (src + 1)
    if first = 0 then return none
    let second ← read encoded (src + 2)
    if second = 0 then return none
    match httpHexValue first, httpHexValue second with
    | some high, some low =>
      return some (UInt8.ofNat (high <<< 4 ||| low), src + 3)
    | _, _ => return none
  else return some (c, src + 1)

/-- One round of the loop of `http_decode_path`. -/
def httpDecodeRound {size : ℕ} (decodedSize : ℕ) (encoded : List Byte)
    (cursor : DecodeCursor size) :
    Checked (DecodeCursor size ⊕ DecodeExit × List.Vector Byte size) := do
  let c ← read encoded cursor.src
  if c = 0 then
    let decoded ← write cursor.decoded cursor.dst 0
    return .inr (.decoded, decoded)
  if decodedSize ≤ cursor.dst + 1 then
    return .inr (.tooLong, cursor.decoded)
  let some (value, src) ← httpDecodeValue encoded cursor.src
    | return .inr (.refused, cursor.decoded)
  if value = 0 ∨ value < 32 ∨ value = 127 then
    return .inr (.refused, cursor.decoded)
  let decoded ← write cursor.decoded cursor.dst value
  return .inl { src := src, dst := cursor.dst + 1, decoded := decoded }

theorem httpDecodeValue_lt {encoded : List Byte} {src next : ℕ} {value : Byte}
    (hvalue : httpDecodeValue encoded src = .ok (some (value, next))) :
    src < next := by
  obtain ⟨c, -, hvalue⟩ := bind_eq_ok hvalue
  split_ifs at hvalue
  · obtain ⟨first, -, hvalue⟩ := bind_eq_ok hvalue
    split_ifs at hvalue
    · cases hvalue
    obtain ⟨second, -, hvalue⟩ := bind_eq_ok hvalue
    split_ifs at hvalue
    · cases hvalue
    split at hvalue
    · cases hvalue
      exact Nat.lt_add_of_pos_right (by decide)
    · cases hvalue
  · cases hvalue
    exact Nat.lt_succ_self src

theorem httpDecodeRound_lt {size decodedSize : ℕ} {encoded : List Byte}
    {cursor next : DecodeCursor size}
    (hround : httpDecodeRound decodedSize encoded cursor = .ok (.inl next)) :
    encoded.length - next.src < encoded.length - cursor.src := by
  obtain ⟨c, hread, hround⟩ := bind_eq_ok hround
  have hinside := lt_length_of_read hread
  split_ifs at hround
  · obtain ⟨decoded, -, hround⟩ := bind_eq_ok hround
    cases hround
  · cases hround
  obtain ⟨found, hvalue, hround⟩ := bind_eq_ok hround
  cases found with
  | none => cases hround
  | some found =>
      have hlt := httpDecodeValue_lt hvalue
      dsimp only at hround
      split_ifs at hround
      · cases hround
      obtain ⟨decoded, -, hround⟩ := bind_eq_ok hround
      cases hround
      dsimp only
      omega

/-- The loop of `http_decode_path`. -/
def httpDecodeLoop (size decodedSize : ℕ) (encoded : List Byte) :
    Loop (DecodeCursor size)
      (Checked (DecodeExit × List.Vector Byte size)) where
  body cursor := outcome (httpDecodeRound decodedSize encoded cursor)
  rank cursor := encoded.length - cursor.src
  rank_lt hbody := httpDecodeRound_lt (outcome_eq_inl hbody)

def httpDecodePath {size : ℕ} (encoded : List Byte)
    (decoded : List.Vector Byte size) (decodedSize : ℕ) :
    Checked (DecodeExit × List.Vector Byte size) :=
  if decodedSize = 0 then return (.refused, decoded)
  else
    (httpDecodeLoop size decodedSize encoded).run
      { src := 0, dst := 0, decoded := decoded }

/-- What `http_parse_target` returns and leaves behind, and the exit of
`http_decode_path` where that is called. -/
structure TargetExit where
  code : ReturnCode
  request : HttpRequest
  decoding : Option DecodeExit

/-- The end of `http_parse_target`: the path that has been cut off is decoded
into the request. -/
def httpStorePath (path : List.Vector Byte targetSize)
    (request : HttpRequest) : Checked TargetExit := do
  let first ← read path.toList 0
  if first ≠ slash then
    return { code := .failure, request := request, decoding := none }
  let (decoding, decoded) ← httpDecodePath path.toList request.path targetSize
  return {
    code := if decoding = .decoded then .success else .failure
    request := { request with path := decoded }
    decoding := some decoding }

def httpParseTarget (target : List Byte) (path : List.Vector Byte targetSize)
    (request : HttpRequest) : Checked TargetExit := do
  match ← strchr target 0 question with
  | some queryStart =>
    let pathLength ← distance queryStart 0
    if pathLength = 0 ∨ targetSize ≤ pathLength then
      return { code := .failure, request := request, decoding := none }
    let path ← copyString path target 0 pathLength
    let queryLength ← strlen target (queryStart + 1)
    if targetSize ≤ queryLength then
      return { code := .failure, request := request, decoding := none }
    let query ← memcpy request.query target (queryStart + 1) (queryLength + 1)
    httpStorePath path { request with query := query }
  | none =>
    let pathLength ← strlen target 0
    if pathLength = 0 ∨ targetSize ≤ pathLength then
      return { code := .failure, request := request, decoding := none }
    let path ← memcpy path target 0 (pathLength + 1)
    let query ← write request.query 0 0
    httpStorePath path { request with query := query }

def httpValidHeaderName (memory : List Byte) (name length : ℕ) :
    Checked Bool :=
  if length = 0 then return false
  else checkBytes httpIsTchar memory name length

def httpValidHeaderValue (memory : List Byte) (value length : ℕ) :
    Checked Bool :=
  checkBytes (fun c => !((c < 32 && c ≠ htab) || c = 127)) memory value length

/-- The loop that drops leading white space: `value_start` and the number of
bytes between it and `line_end`. -/
def skipOws (buffer : List Byte) (valueStart : ℕ) : (count : ℕ) → Checked ℕ
  | 0 => return valueStart
  | count + 1 => do
    let c ← read buffer valueStart
    if isOws c then skipOws buffer (valueStart + 1) count
    else return valueStart

/-- The loop that drops trailing white space. -/
def dropOws (buffer : List Byte) (valueStart : ℕ) :
    (valueLength : ℕ) → Checked ℕ
  | 0 => return 0
  | valueLength + 1 => do
    let c ← read buffer (valueStart + valueLength)
    if isOws c then dropOws buffer valueStart valueLength
    else return valueLength + 1

/-- `line[0] == '\r' && line[1] == '\n'`. -/
def atEmptyLine (buffer : List Byte) (line : ℕ) : Checked Bool := do
  let first ← read buffer line
  if first = cr then
    let second ← read buffer (line + 1)
    return second = lf
  else return false

/-- The part of a round of `http_parse_headers` that stores the name of the
header; what goes on is where the colon is. -/
def httpStoreName (config : ServerConfig) (buffer : List Byte)
    (line lineEnd : ℕ) (request : HttpRequest) :
    Checked ((ℕ × HttpRequest) ⊕ HttpParseResult × HttpRequest) := do
  let lineLength ← distance lineEnd line
  let some colon ← memchr buffer line colon lineLength
    | return .inr (.badRequest, request)
  let nameLength ← distance colon line
  if nameLength = 0 then return .inr (.badRequest, request)
  let last ← read buffer (line + nameLength - 1)
  if last = sp ∨ last = htab then return .inr (.badRequest, request)
  let valid ← httpValidHeaderName buffer line nameLength
  if ¬ valid then return .inr (.badRequest, request)
  if config.httpHeaderNameMax ≤ nameLength then
    return .inr (.headersTooLarge, request)
  let header ← read request.headers.toList request.headerCount
  let name ← copyString header.name buffer line nameLength
  let headers ← write request.headers request.headerCount
    { header with name := name }
  return .inl (colon, { request with headers := headers })

/-- The part of a round that stores the value of the header and counts it. -/
def httpStoreValue (config : ServerConfig) (buffer : List Byte)
    (colon lineEnd : ℕ) (request : HttpRequest) :
    Checked (HttpRequest ⊕ HttpParseResult × HttpRequest) := do
  let valueStart ← skipOws buffer (colon + 1) (lineEnd - (colon + 1))
  let untrimmed ← distance lineEnd valueStart
  let valueLength ← dropOws buffer valueStart untrimmed
  let valid ← httpValidHeaderValue buffer valueStart valueLength
  if ¬ valid then return .inr (.badRequest, request)
  if config.httpHeaderValueMax ≤ valueLength then
    return .inr (.headersTooLarge, request)
  let header ← read request.headers.toList request.headerCount
  let value ← copyString header.value buffer valueStart valueLength
  let headers ← write request.headers request.headerCount
    { header with value := value }
  return .inl { request with
    headers := headers
    headerCount := request.headerCount + 1 }

/-- The part of a round behind the search for the end of the line. -/
def httpStoreHeader (config : ServerConfig) (buffer : List Byte)
    (line lineEnd : ℕ) (request : HttpRequest) :
    Checked (HttpRequest ⊕ HttpParseResult × HttpRequest) := do
  match ← httpStoreName config buffer line lineEnd request with
  | .inr exit => return .inr exit
  | .inl (colon, request) =>
    httpStoreValue config buffer colon lineEnd request

/-- The locals of the loop of `http_parse_headers`. -/
structure HeaderCursor where
  line : ℕ
  request : HttpRequest

/-- One round of `http_parse_headers`. -/
def httpParseHeader (config : ServerConfig) (buffer : List Byte)
    (cursor : HeaderCursor) :
    Checked (HeaderCursor ⊕ HttpParseResult × HttpRequest) := do
  let done ← atEmptyLine buffer cursor.line
  if done then return .inr (.ok, cursor.request)
  if config.httpMaxHeaders ≤ cursor.request.headerCount then
    return .inr (.headersTooLarge, cursor.request)
  let some lineEnd ← strstr buffer cursor.line crlf
    | return .inr (.badRequest, cursor.request)
  match ← httpStoreHeader config buffer cursor.line lineEnd cursor.request with
  | .inr exit => return .inr exit
  | .inl request => return .inl { line := lineEnd + 2, request := request }

theorem httpParseHeader_lt {config : ServerConfig} {buffer : List Byte}
    {cursor next : HeaderCursor}
    (hround : httpParseHeader config buffer cursor = .ok (.inl next)) :
    buffer.length - next.line < buffer.length - cursor.line := by
  obtain ⟨done, hdone, hround⟩ := bind_eq_ok hround
  obtain ⟨first, hread, -⟩ := bind_eq_ok hdone
  have hinside := lt_length_of_read hread
  split_ifs at hround
  · cases hround
  · cases hround
  obtain ⟨found, hfound, hround⟩ := bind_eq_ok hround
  cases found with
  | none => cases hround
  | some lineEnd =>
      have hle := le_of_strstr hfound
      obtain ⟨stored, -, hround⟩ := bind_eq_ok hround
      cases stored with
      | inr exit => cases hround
      | inl request =>
          cases hround
          dsimp only
          omega

/-- The loop of `http_parse_headers`. -/
def httpParseHeaderLoop (config : ServerConfig) (buffer : List Byte) :
    Loop HeaderCursor (Checked (HttpParseResult × HttpRequest)) where
  body cursor := outcome (httpParseHeader config buffer cursor)
  rank cursor := buffer.length - cursor.line
  rank_lt hbody := httpParseHeader_lt (outcome_eq_inl hbody)

def httpParseHeaders (buffer : List Byte) (request : HttpRequest)
    (config : ServerConfig) : Checked (HttpParseResult × HttpRequest) := do
  let some line ← strstr buffer 0 crlf
    | return (.badRequest, request)
  (httpParseHeaderLoop config buffer).run
    { line := line + 2, request := request }

/-- The return code, the request and the target. -/
def httpParseRequestLine (buffer : List Byte) (request : HttpRequest)
    (target : List.Vector Byte targetSize) :
    Checked (ReturnCode × HttpRequest × List.Vector Byte targetSize) := do
  let some lineEnd ← strstr buffer 0 crlf
    | return (.failure, request, target)
  let lineLength ← distance lineEnd 0
  let some firstSpace ← memchr buffer 0 sp lineLength
    | return (.failure, request, target)
  let restLength ← distance lineEnd (firstSpace + 1)
  let some secondSpace ← memchr buffer (firstSpace + 1) sp restLength
    | return (.failure, request, target)
  let versionLength ← distance lineEnd (secondSpace + 1)
  let thirdSpace ← memchr buffer (secondSpace + 1) sp versionLength
  if thirdSpace.isSome then return (.failure, request, target)
  let methodLength ← distance firstSpace 0
  if methodLength = 0 ∨ methodSize ≤ methodLength then
    return (.failure, request, target)
  let valid ← httpValidHeaderName buffer 0 methodLength
  if ¬ valid then return (.failure, request, target)
  let method ← copyString request.method buffer 0 methodLength
  let targetLength ← distance secondSpace (firstSpace + 1)
  if targetLength = 0 ∨ targetSize ≤ targetLength then
    return (.failure, { request with method := method }, target)
  let target ← copyString target buffer (firstSpace + 1) targetLength
  if versionLength = 0 ∨ methodSize ≤ versionLength then
    return (.failure, { request with method := method }, target)
  let version ← copyString request.version buffer (secondSpace + 1)
    versionLength
  return (.success, { request with method := method, version := version },
    target)

/-- The two `strcmp` calls on the version, the second only where the first
finds a difference. -/
def httpVersionSupported (version : List Byte) : Checked Bool := do
  let current ← strcmp version (ascii "HTTP/1.1")
  if current then return true
  strcmp version (ascii "HTTP/1.0")

/-- The local arrays `target` and `path`. -/
structure Locals where
  target : List.Vector Byte targetSize
  path : List.Vector Byte targetSize

/-- What `http_parse_request` returns and leaves behind, and the exit of
`http_decode_path` where that is called. -/
structure ParseExit where
  result : HttpParseResult
  request : HttpRequest
  decoding : Option DecodeExit

def httpParseRequest (buffer : List Byte) (request : HttpRequest)
    (locals : Locals) (config : ServerConfig) : Checked ParseExit := do
  let query ← write request.query 0 0
  let (code, request, target) ← httpParseRequestLine buffer
    { request with headerCount := 0, query := query } locals.target
  if code = .failure then
    return { result := .badRequest, request := request, decoding := none }
  let supported ← httpVersionSupported request.version.toList
  if ¬ supported then
    return { result := .badRequest, request := request, decoding := none }
  let parsed ← httpParseTarget target.toList locals.path request
  if parsed.code = .failure then
    return {
      result := .badRequest
      request := parsed.request
      decoding := parsed.decoding }
  let (result, request) ← httpParseHeaders buffer parsed.request config
  return { result := result, request := request, decoding := parsed.decoding }

end HttpCerver.Arrays
