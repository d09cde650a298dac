import HttpCerver.Config
import HttpCerver.Core.Trim

/-!
# Request parsing

The model of `http_parse.c`.  The raw search of the framer works on a buffer
of arbitrary bytes; the parser proper works on a C string.  Pointers into that
string are offsets, and the pointer `line` of the header loop is the suffix it
points at.  The writes into the fixed arrays of `http_request_t` are guarded
by the length checks below, with the array sizes as constants.
-/

namespace HttpCerver.Request

open HttpCerver.Bytes
open HttpCerver.Config
open HttpCerver.Iteration
open HttpCerver.Search
open HttpCerver.Trim

/-- `http_header_t`. -/
structure HttpHeader where
  name : List Byte
  value : List Byte
  deriving DecidableEq

/-- `http_request_t`; `header_count` is the length of `headers`. -/
structure HttpRequest where
  method : List Byte
  path : List Byte
  query : List Byte
  version : List Byte
  headers : List HttpHeader
  deriving DecidableEq

/-- `http_parse_result_t`, with the request that `HTTP_PARSE_OK` leaves. -/
inductive HttpParseResult
  | ok (request : HttpRequest)
  | badRequest
  | headersTooLarge
  deriving DecidableEq

def httpMaxHeaders : ℕ := defaultHttpMaxHeaders
def httpHeaderNameMax : ℕ := defaultHttpHeaderNameMax
def httpHeaderValueMax : ℕ := defaultHttpHeaderValueMax

/-- `sizeof(request->method)` and `sizeof(request->version)`. -/
def methodSize : ℕ := 16

/-- `sizeof` the target and of the path and query arrays. -/
def targetSize : ℕ := 4096

/-- The value of a hexadecimal digit, `none` for `-1`. -/
def httpHexValue (c : Byte) : Option ℕ :=
  if 48 ≤ c ∧ c ≤ 57 then some (c.toNat - 48)
  else if 97 ≤ c ∧ c ≤ 102 then some (c.toNat - 97 + 10)
  else if 65 ≤ c ∧ c ≤ 70 then some (c.toNat - 65 + 10)
  else none

/-- The store at the end of a round: control characters are refused. -/
def httpStoreDecoded (decoded : List Byte) (value : Byte) :
    Option (List Byte) :=
  if value = 0 ∨ value < 32 ∨ value = 127 then none
  else some (decoded ++ [value])

/-- The loop of `http_decode_path`, from the rest of the input and the bytes
stored so far. -/
def httpDecodePathLoop (decodedSize : ℕ) (encoded decoded : List Byte) :
    Option (List Byte) :=
  match encoded with
  | [] => some decoded
  | c :: rest =>
    if decodedSize ≤ decoded.length + 1 then none
    else if c = percent then
      match rest with
      | high :: low :: rest =>
        match httpHexValue high, httpHexValue low with
        | some high, some low =>
          match httpStoreDecoded decoded (UInt8.ofNat (high <<< 4 ||| low)) with
          | none => none
          | some decoded => httpDecodePathLoop decodedSize rest decoded
        | _, _ => none
      | _ => none
    else
      match httpStoreDecoded decoded c with
      | none => none
      | some decoded => httpDecodePathLoop decodedSize rest decoded

def httpDecodePath (encoded : List Byte) (decodedSize : ℕ) :
    Option (List Byte) :=
  if decodedSize = 0 then none
  else httpDecodePathLoop decodedSize encoded []

/-- The path and the query a request target is split into. -/
structure ParsedTarget where
  path : List Byte
  query : List Byte
  deriving DecidableEq

/-- The split at the first `'?'`, with the length checks on both parts. -/
def httpSplitTarget (target : List Byte) : Option ParsedTarget :=
  match strchr target question with
  | some pathLength =>
    if pathLength = 0 ∨ targetSize ≤ pathLength then none
    else
      let query := target.drop (pathLength + 1)
      if targetSize ≤ query.length then none
      else some { path := target.take pathLength, query := query }
  | none =>
    if target.length = 0 ∨ targetSize ≤ target.length then none
    else some { path := target, query := [] }

/-- The path that is stored is the decoded one. -/
def httpParseTarget (target : List Byte) : Option ParsedTarget :=
  match httpSplitTarget target with
  | none => none
  | some split =>
    if split.path.head? ≠ some slash then none
    else
      match httpDecodePath split.path targetSize with
      | none => none
      | some path => some { path := path, query := split.query }

/-- Length up to and including the first CRLFCRLF of a raw buffer. -/
def httpFindHeaderEnd (buffer : List Byte) : Option ℕ :=
  (firstOccurrence crlfCrlf buffer).map (· + 4)

/-- A head is at least its terminator and lies inside the buffer. -/
theorem httpFindHeaderEnd_bounds {buffer : List Byte} {length : ℕ}
    (hfound : httpFindHeaderEnd buffer = some length) :
    4 ≤ length ∧ length ≤ buffer.length := by
  obtain ⟨offset, hoffset, rfl⟩ := Option.map_eq_some_iff.mp hfound
  have hinside := firstOccurrence_add_length_le hoffset
  simp only [crlfCrlf, List.length_cons, List.length_nil] at hinside
  omega

theorem httpFindHeaderEnd_eq_none_iff {buffer : List Byte} :
    httpFindHeaderEnd buffer = none ↔ ¬ crlfCrlf <:+: buffer := by
  rw [httpFindHeaderEnd, Option.map_eq_none_iff, firstOccurrence_eq_none_iff]

def httpRequestComplete (buffer : List Byte) : Bool :=
  (httpFindHeaderEnd buffer).isSome

/-- The value of the first header of that name. -/
def httpGetHeader (request : HttpRequest) (name : List Byte) :
    Option (List Byte) :=
  (request.headers.find? fun header => strcasecmp header.name name).map
    (·.value)

def httpIsTchar (c : Byte) : Bool :=
  (48 ≤ c && c ≤ 57) || (65 ≤ c && c ≤ 90) || (97 ≤ c && c ≤ 122) ||
    c ∈ ascii "!#$%&'*+-.^_`|~"

def httpValidHeaderName (name : List Byte) : Bool :=
  if name.length = 0 then false else name.all httpIsTchar

def httpValidHeaderValue (value : List Byte) : Bool :=
  value.all fun c => !((c < 32 && c ≠ htab) || c = 127)

/-- The optional white space around a header value. -/
def isOws (c : Byte) : Bool :=
  c = sp || c = htab

/-- The two trimming loops: leading, then trailing white space. -/
def trimOws (value : List Byte) : List Byte :=
  trim isOws value

/-- The locals of the header loop: where `line` points and what has been
stored. -/
structure HeaderScan where
  line : List Byte
  request : HttpRequest

/-- One round of `http_parse_headers`.  On leaving, the suffix `line` points
at is kept beside the result. -/
def httpParseHeader (config : ServerConfig) (scan : HeaderScan) :
    HeaderScan ⊕ HttpParseResult × List Byte :=
  let line := scan.line
  let request := scan.request
  if line.take 2 = crlf then
    .inr (.ok request, line)
  else if config.httpMaxHeaders ≤ request.headers.length then
    .inr (.headersTooLarge, line)
  else
    match strstr line crlf with
    | none => .inr (.badRequest, line)
    | some lineEnd =>
      match memchr line colon lineEnd with
      | none => .inr (.badRequest, line)
      | some nameLength =>
        let name := line.take nameLength
        if nameLength = 0 ∨ name.getLast? = some sp ∨
            name.getLast? = some htab then
          .inr (.badRequest, line)
        else if ¬ httpValidHeaderName name then
          .inr (.badRequest, line)
        else if config.httpHeaderNameMax ≤ nameLength then
          .inr (.headersTooLarge, line)
        else
          let value := trimOws ((line.take lineEnd).drop (nameLength + 1))
          if ¬ httpValidHeaderValue value then
            .inr (.badRequest, line)
          else if config.httpHeaderValueMax ≤ value.length then
            .inr (.headersTooLarge, line)
          else
            .inl
              { line := line.drop (lineEnd + 2)
                request :=
                  { request with
                    headers := request.headers ++
                      [{ name := name, value := value }] } }

theorem httpParseHeader_length_lt {config : ServerConfig}
    {scan next : HeaderScan} (hbody : httpParseHeader config scan = .inl next) :
    next.line.length < scan.line.length := by
  simp only [httpParseHeader] at hbody
  split_ifs at hbody
  cases hend : strstr scan.line crlf with
  | none => simp [hend] at hbody
  | some lineEnd =>
      have hinside := firstOccurrence_add_length_le hend
      simp only [hend] at hbody
      cases hcolon : memchr scan.line colon lineEnd with
      | none => simp [hcolon] at hbody
      | some nameLength =>
          simp only [hcolon] at hbody
          split_ifs at hbody
          simp only [Sum.inl.injEq] at hbody
          subst hbody
          simp only [crlf, List.length_cons, List.length_nil] at hinside
          simp only [List.length_drop]
          omega

/-- The loop of `http_parse_headers`. -/
def httpParseHeaderLoop (config : ServerConfig) :
    Loop HeaderScan (HttpParseResult × List Byte) where
  body := httpParseHeader config
  rank scan := scan.line.length
  rank_lt := httpParseHeader_length_lt

/-- The result, with the suffix at which the scan of the header lines
stopped. -/
def httpParseHeaders (buffer : List Byte) (request : HttpRequest)
    (config : ServerConfig) : HttpParseResult × List Byte :=
  match strstr buffer crlf with
  | none => (.badRequest, buffer)
  | some line => (httpParseHeaderLoop config).run
      { line := buffer.drop (line + 2), request := request }

/-- The method, target and version of a request line. -/
structure RequestLine where
  method : List Byte
  target : List Byte
  version : List Byte
  deriving DecidableEq

def httpParseRequestLine (buffer : List Byte) : Option RequestLine := do
  let lineEnd ← strstr buffer crlf
  let firstSpace ← memchr buffer sp lineEnd
  let afterFirst := buffer.drop (firstSpace + 1)
  let targetLength ← memchr afterFirst sp (lineEnd - firstSpace - 1)
  let secondSpace := firstSpace + 1 + targetLength
  let afterSecond := buffer.drop (secondSpace + 1)
  let versionLength := lineEnd - secondSpace - 1
  if (memchr afterSecond sp versionLength).isSome then none
  else if firstSpace = 0 ∨ methodSize ≤ firstSpace then none
  else if ¬ httpValidHeaderName (buffer.take firstSpace) then none
  else if targetLength = 0 ∨ targetSize ≤ targetLength then none
  else if versionLength = 0 ∨ methodSize ≤ versionLength then none
  else
    some
      { method := buffer.take firstSpace
        target := afterFirst.take targetLength
        version := afterSecond.take versionLength }

def httpParseRequest (buffer : CString) (config : ServerConfig) :
    HttpParseResult :=
  match httpParseRequestLine buffer.bytes with
  | none => .badRequest
  | some line =>
    if line.version ≠ ascii "HTTP/1.1" ∧ line.version ≠ ascii "HTTP/1.0" then
      .badRequest
    else
      match httpParseTarget line.target with
      | none => .badRequest
      | some target =>
        (httpParseHeaders buffer.bytes
          { method := line.method
            path := target.path
            query := target.query
            version := line.version
            headers := [] } config).1

end HttpCerver.Request
