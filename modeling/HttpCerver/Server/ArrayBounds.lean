import HttpCerver.Parse.HeaderBounds
import HttpCerver.Server.Http

/-!
# Parsing stays inside the arrays

Under a valid configuration the limits are at most the sizes of the arrays, so
no string makes `http_parse_request` read or write outside of one.  The request
buffer of `http_prepare_response` ends with a NUL, so the same holds of every
head that is answered.
-/

namespace HttpCerver.ArrayBounds

open HttpCerver.Bytes
open HttpCerver.Config
open HttpCerver.HeaderBounds
open HttpCerver.Http
open HttpCerver.Memory
open HttpCerver.Request (httpHeaderNameMax httpHeaderValueMax httpMaxHeaders)

/-- What a call of `http_parse_request` leaves, next to the result on lists. -/
structure Inside (config : ServerConfig) (text : CString)
    (exit : Arrays.ParseExit) : Prop where
  decoding : exit.decoding ≠ some .tooLong
  terminated : exit.result = .ok → Terminated exit.request
  headerCount : exit.result = .ok →
    exit.request.headerCount ≤ config.httpMaxHeaders ∧
      config.httpMaxHeaders ≤ 64
  parsed : Parsed config (Request.httpParseRequest text config)
    (exit.result, exit.request)

section Calls

variable {config : ServerConfig}

/-- A call on any memory that begins with a string. -/
theorem inside_of_holds (hconfig : httpConfigValid config = true)
    {buffer : List Byte} {text : CString} (h : Holds buffer text.bytes)
    (request : Arrays.HttpRequest) (locals : Arrays.Locals) :
    ∃ exit, Arrays.httpParseRequest buffer request locals config = .ok exit ∧
      Inside config text exit := by
  obtain ⟨-, ⟨-, hheadersMax⟩, ⟨-, hnameMax⟩, -, hvalueMax⟩ :=
    httpConfigValid_iff.mp hconfig
  obtain ⟨exit, hexit, htooLong, hparsed⟩ := safe_iff.mp
    (httpParseRequest_spec h hheadersMax hnameMax hvalueMax request locals)
  have hok : exit.result = .ok → Terminated exit.request ∧
      exit.request.headerCount ≤ config.httpMaxHeaders := by
    intro hresult
    rw [hresult] at hparsed
    exact hparsed.of_ok
  exact ⟨exit, hexit, htooLong, fun hresult => (hok hresult).1,
    fun hresult => ⟨(hok hresult).2, hheadersMax⟩, hparsed⟩

/-- The copy of a head that `http_prepare_response` makes for the parser, with
whatever NULs are in it. -/
theorem inside_requestBuffer (hconfig : httpConfigValid config = true)
    (buffer : List Byte) (length : ℕ) (request : Arrays.HttpRequest)
    (locals : Arrays.Locals) :
    ∃ exit, Arrays.httpParseRequest (buffer.take length ++ [0]) request locals
        config = .ok exit ∧
      Inside config (cstring (buffer.take length)) exit :=
  inside_of_holds hconfig (holds_cstring _) request locals

/-- The parser stays inside its arrays: no access faults, whatever the string
is and whatever the arrays hold before, and the decoded path always fits. -/
theorem httpParseRequest_inside (hconfig : httpConfigValid config = true)
    (text : CString) (request : Arrays.HttpRequest) (locals : Arrays.Locals) :
    ∃ exit, Arrays.httpParseRequest (text.bytes ++ [0]) request locals config =
        .ok exit ∧
      Inside config text exit :=
  inside_of_holds hconfig ⟨List.prefix_refl _, text.nul_notMem⟩ request locals

end Calls

/-- Arrays as they may be found on the stack: no NUL anywhere. -/
def garbage (size : ℕ) : List.Vector Byte size :=
  List.Vector.replicate size 170

def garbageRequest : Arrays.HttpRequest where
  method := garbage _
  path := garbage _
  query := garbage _
  version := garbage _
  headers := List.Vector.replicate _
    { name := garbage _, value := garbage _ }
  headerCount := 170

/-- A percent sign without its digits, and a head that is accepted. -/
theorem httpParseRequest_inside_garbage :
    (∃ exit, Arrays.httpParseRequest
        ((cstring (ascii "GET /% HTTP/1.0\r\n\r\n")).bytes ++ [0])
        garbageRequest { target := garbage _, path := garbage _ } configInit =
          .ok exit ∧
      Inside configInit (cstring (ascii "GET /% HTTP/1.0\r\n\r\n")) exit) ∧
    ∃ exit, Arrays.httpParseRequest
        ((cstring (ascii "GET /%41?b HTTP/1.1\r\nHost: a\r\n\r\n")).bytes ++
          [0])
        garbageRequest { target := garbage _, path := garbage _ } configInit =
          .ok exit ∧
      Inside configInit
        (cstring (ascii "GET /%41?b HTTP/1.1\r\nHost: a\r\n\r\n")) exit :=
  ⟨httpParseRequest_inside (by decide) _ _ _,
    httpParseRequest_inside (by decide) _ _ _⟩

end HttpCerver.ArrayBounds
