import HttpCerver.Core.Framed
import HttpCerver.Parse.Boundary
import HttpCerver.Server.Answers

/-!
# What a client reads

A client takes a response apart by its header block: the block ends with the
first empty line, its fields are found by name, and `Content-Length` bytes
follow, unless the request was a `HEAD` that succeeded.  Reading a block back
gives what it was built from.
-/

namespace HttpCerver.Client

open HttpCerver.Answers
open HttpCerver.Bytes
open HttpCerver.Config
open HttpCerver.Delimited
open HttpCerver.File
open HttpCerver.Framed
open HttpCerver.Grammar
open HttpCerver.Http
open HttpCerver.Numerals
open HttpCerver.Request
open HttpCerver.Resolution
open HttpCerver.Response
open HttpCerver.Search
open HttpCerver.System
open HttpCerver.Delivery

/-- What stands behind `literal`, if the text begins with it. -/
def expect (literal text : List Byte) : Option (List Byte) :=
  if text.take literal.length = literal then some (text.drop literal.length)
  else none

@[simp]
theorem expect_append (literal text : List Byte) :
    expect literal (literal ++ text) = some text := by
  rw [expect, List.take_left, if_pos rfl, List.drop_left]

/-- A text that begins differently. -/
theorem expect_eq_none {literal start : List Byte} (text : List Byte)
    (hdiffers : literal.take start.length ≠ start.take literal.length) :
    expect literal (start ++ text) = none := by
  rw [expect, if_neg]
  intro hsame
  apply hdiffers
  calc literal.take start.length =
        ((start ++ text).take literal.length).take start.length := by
          rw [hsame]
    _ = ((start ++ text).take start.length).take literal.length := by
          rw [List.take_take, List.take_take, Nat.min_comm]
    _ = start.take literal.length := by
          rw [List.take_left]

/-- The lines of a block. -/
def linesOf (text : List Byte) : List (List Byte) :=
  match hend : strstr text crlf with
  | none => []
  | some offset => text.take offset :: linesOf (text.drop (offset + 2))
termination_by text.length
decreasing_by
  have hinside := firstOccurrence_add_length_le hend
  rw [show crlf.length = 2 from rfl] at hinside
  rw [List.length_drop]
  omega

theorem linesOf_append {line : List Byte} (hline : ¬ crlf <:+: line)
    (after : List Byte) :
    linesOf (line ++ crlf ++ after) = line :: linesOf after := by
  have hend := strstr_crlf_append hline after
  rw [linesOf]
  split
  · next hnone =>
      rw [hend] at hnone
      cases hnone
  · next offset hoffset =>
      have hlength : line.length = offset := by
        rw [hend] at hoffset
        exact Option.some.inj hoffset
      rw [← hlength, ← List.drop_drop, List.append_assoc, List.take_left,
        List.drop_left]
      rfl

theorem linesOf_nil : linesOf [] = [] := by
  rw [linesOf]
  split
  · rfl
  · next offset hoffset =>
      have hinside := firstOccurrence_add_length_le hoffset
      rw [show crlf.length = 2 from rfl, List.length_nil] at hinside
      omega

/-- The value of the first field with a name. -/
def fieldValue (name : List Byte) (fields : List (List Byte)) :
    Option (List Byte) :=
  fields.findSome? (expect (name ++ ascii ": "))

/-- The status with a number. -/
def statusOfCode (code : ℕ) : Option HttpStatus :=
  [.ok, .badRequest, .forbidden, .notFound, .methodNotAllowed,
    .requestHeaderFieldsTooLarge, .internalServerError].find?
      fun status : HttpStatus => status.code = code

/-- The status of a status line. -/
def statusOfLine (line : List Byte) : Option HttpStatus :=
  (expect (ascii "HTTP/1.1 ") line).bind fun rest =>
    statusOfCode (decimalValue (rest.takeWhile isdigit))

/-- What a header block declares. -/
structure Declared where
  status : HttpStatus
  contentType : List Byte
  length : ℕ
  keepAlive : Bool
  deriving DecidableEq

/-- The reading of a header block. -/
def decode (block : List Byte) : Option Declared :=
  match linesOf block with
  | [] => none
  | statusLine :: fields => do
    let status ← statusOfLine statusLine
    let contentType ← fieldValue (ascii "Content-Type") fields
    let length ← fieldValue (ascii "Content-Length") fields
    let connection ← fieldValue (ascii "Connection") fields
    some
      { status := status
        contentType := contentType
        length := decimalValue length
        keepAlive := connection = ascii "keep-alive" }

/-- The lines of the header block that is built. -/
def builtLines (status : HttpStatus) (contentType : List Byte)
    (contentLength : ℕ) (keepAlive : Bool) : List (List Byte) :=
  [ascii "HTTP/1.1 " ++ decimal status.code ++ ascii " " ++
      httpStatusReason status,
    ascii "Content-Type: " ++ contentType,
    ascii "Content-Length: " ++ decimal contentLength,
    ascii "Connection: " ++
      if keepAlive then ascii "keep-alive" else ascii "close"]

theorem headerBlock_eq (status : HttpStatus) (contentType : List Byte)
    (contentLength : ℕ) (keepAlive : Bool) :
    headerBlock status contentType contentLength keepAlive =
      headerBlockOf (builtLines status contentType contentLength keepAlive) ++
        crlf := by
  simp [headerBlock, headerBlockOf, builtLines]

/-- No line that is built contains a carriage return. -/
theorem cr_notMem_builtLines (status : HttpStatus) {contentType : List Byte}
    (htype : cr ∉ contentType) (contentLength : ℕ) (keepAlive : Bool) :
    ∀ line ∈ builtLines status contentType contentLength keepAlive,
      line ≠ [] ∧ cr ∉ line := by
  have hdigits : cr ∉ decimal contentLength := fun hmem =>
    absurd (isdigit_of_mem_decimal hmem) (by decide)
  have hstatus : cr ∉ ascii "HTTP/1.1 " ++ decimal status.code ++ ascii " " ++
      httpStatusReason status := by
    cases status <;> decide +kernel
  have hconnection : cr ∉ if keepAlive then ascii "keep-alive"
      else ascii "close" := by
    cases keepAlive <;> decide
  have htitle : cr ∉ ascii "Content-Type: " := by decide
  have hlength : cr ∉ ascii "Content-Length: " := by decide
  have hname : cr ∉ ascii "Connection: " := by decide
  intro line hline
  simp only [builtLines, List.mem_cons, List.not_mem_nil, or_false] at hline
  rcases hline with rfl | rfl | rfl | rfl
  · exact ⟨by cases status <;> decide +kernel, hstatus⟩
  · exact ⟨by simp [ascii], by simp [htitle, htype]⟩
  · exact ⟨by simp [ascii], by simp [hlength, hdigits]⟩
  · exact ⟨by simp [ascii], by simp [hname, hconnection]⟩

theorem linesOf_headerBlockOf {lines : List (List Byte)}
    (hlines : ∀ line ∈ lines, line ≠ [] ∧ cr ∉ line) :
    linesOf (headerBlockOf lines ++ crlf) = lines ++ [[]] := by
  induction lines with
  | nil =>
      have hempty : linesOf ([] ++ crlf ++ []) = [] :: linesOf [] :=
        linesOf_append (by decide) []
      rwa [linesOf_nil] at hempty
  | cons line lines ih =>
      rw [List.forall_mem_cons] at hlines
      rw [headerBlockOf, List.flatMap_cons, List.append_assoc,
        linesOf_append (not_crlf_infix_of_notMem cr (by decide) hlines.1.2)]
      rw [← headerBlockOf, ih hlines.2, List.cons_append]

theorem fieldValue_cons_of_eq (name value : List Byte)
    (fields : List (List Byte)) :
    fieldValue name ((name ++ ascii ": " ++ value) :: fields) =
      some value := by
  rw [fieldValue, List.findSome?_cons, expect_append]

theorem fieldValue_cons_of_ne {name start : List Byte}
    (hdiffers : (name ++ ascii ": ").take start.length ≠
      start.take (name ++ ascii ": ").length) (value : List Byte)
    (fields : List (List Byte)) :
    fieldValue name ((start ++ value) :: fields) = fieldValue name fields := by
  rw [fieldValue, List.findSome?_cons, expect_eq_none value hdiffers]
  rfl

theorem statusOfLine_eq (status : HttpStatus) :
    statusOfLine (ascii "HTTP/1.1 " ++ decimal status.code ++ ascii " " ++
      httpStatusReason status) = some status := by
  cases status <;> decide +kernel

/-- Reading a built block gives back what it was built from. -/
theorem decode_headerBlock {contentType : List Byte}
    (htype : cr ∉ contentType) (status : HttpStatus) (contentLength : ℕ)
    (keepAlive : Bool) :
    decode (headerBlock status contentType contentLength keepAlive) =
      some
        { status := status
          contentType := contentType
          length := contentLength
          keepAlive := keepAlive } := by
  have hlines := linesOf_headerBlockOf
    (cr_notMem_builtLines status htype contentLength keepAlive)
  have hconnection : decide ((if keepAlive then ascii "keep-alive"
      else ascii "close") = ascii "keep-alive") = keepAlive := by
    cases keepAlive <;> decide
  have htypeName : ascii "Content-Type: " =
      ascii "Content-Type" ++ ascii ": " := by decide
  have hlengthName : ascii "Content-Length: " =
      ascii "Content-Length" ++ ascii ": " := by decide
  have hconnectionName : ascii "Connection: " =
      ascii "Connection" ++ ascii ": " := by decide
  rw [decode, headerBlock_eq, hlines]
  simp only [builtLines, List.cons_append, statusOfLine_eq]
  rw [htypeName, fieldValue_cons_of_eq, fieldValue_cons_of_ne (by decide),
    hlengthName, fieldValue_cons_of_eq, fieldValue_cons_of_ne (by decide),
    fieldValue_cons_of_ne (by decide), hconnectionName, fieldValue_cons_of_eq]
  simp only [Option.bind_eq_bind, Option.bind_some, decimalValue_decimal,
    hconnection]

/-- The end of a head is not looked for inside a line. -/
theorem httpFindHeaderEnd_line_append {line : List Byte} (hline : cr ∉ line)
    (text : List Byte) :
    httpFindHeaderEnd (line ++ text) =
      (httpFindHeaderEnd text).map (line.length + ·) := by
  have hskip : firstOccurrence crlfCrlf (line ++ text) =
      (firstOccurrence crlfCrlf text).map (· + line.length) :=
    firstOccurrence_append_of_notMem hline text
  rw [httpFindHeaderEnd, hskip, httpFindHeaderEnd, Option.map_map,
    Option.map_map]
  congr 1
  funext offset
  simp only [Function.comp_apply]
  omega

/-- Nor is a line end such an end when another line follows. -/
theorem httpFindHeaderEnd_crlf_cons {byte : Byte} (hbyte : byte ≠ cr)
    (rest : List Byte) :
    httpFindHeaderEnd (crlf ++ byte :: rest) =
      (httpFindHeaderEnd (byte :: rest)).map (2 + ·) := by
  have hhere : ¬ crlfCrlf <+: cr :: lf :: byte :: rest := by
    simp [crlfCrlf, hbyte.symm]
  have hskip : firstOccurrence crlfCrlf (cr :: lf :: byte :: rest) =
      (firstOccurrence crlfCrlf (lf :: byte :: rest)).map (· + 1) := by
    rw [firstOccurrence, if_neg (by rwa [List.isPrefixOf_iff_prefix])]
  have hnext : firstOccurrence crlfCrlf (lf :: byte :: rest) =
      (firstOccurrence crlfCrlf (byte :: rest)).map (· + 1) :=
    firstOccurrence_append_of_notMem (show cr ∉ [lf] by decide) (byte :: rest)
  rw [show crlf ++ byte :: rest = cr :: lf :: byte :: rest from rfl,
    httpFindHeaderEnd, hskip, hnext, httpFindHeaderEnd]
  simp only [Option.map_map]
  congr 1
  funext offset
  simp only [Function.comp_apply]
  omega

/-- A block of lines ends with its empty line and nowhere else. -/
theorem httpFindHeaderEnd_headerBlockOf {line : List Byte}
    {lines : List (List Byte)} (hline : cr ∉ line)
    (hlines : ∀ line ∈ lines, line ≠ [] ∧ cr ∉ line) :
    httpFindHeaderEnd (headerBlockOf (line :: lines) ++ crlf) =
      some (headerBlockOf (line :: lines) ++ crlf).length := by
  induction lines generalizing line with
  | nil =>
      rw [headerBlockOf, List.flatMap_cons, List.flatMap_nil, List.append_nil,
        List.append_assoc, httpFindHeaderEnd_line_append hline]
      rw [show httpFindHeaderEnd (crlf ++ crlf) = some 4 from by decide,
        List.length_append]
      rfl
  | cons next lines ih =>
      rw [List.forall_mem_cons] at hlines
      obtain ⟨⟨hne, hnext⟩, hrest⟩ := hlines
      obtain ⟨byte, tail, rfl⟩ := List.exists_cons_of_ne_nil hne
      have hfound := ih hnext hrest
      have hbyte : byte ≠ cr := fun hsame => hnext (by simp [hsame])
      have hsplit : headerBlockOf (line :: (byte :: tail) :: lines) ++ crlf =
          line ++ (crlf ++ (headerBlockOf ((byte :: tail) :: lines) ++ crlf)) := by
        simp [headerBlockOf]
      have hcons : headerBlockOf ((byte :: tail) :: lines) ++ crlf =
          byte :: (tail ++ crlf ++ headerBlockOf lines ++ crlf) := by
        simp [headerBlockOf]
      rw [hsplit, httpFindHeaderEnd_line_append hline, hcons,
        httpFindHeaderEnd_crlf_cons hbyte, ← hcons, hfound]
      simp only [Option.map_some, List.length_append, crlf, List.length_cons,
        List.length_nil]

/-- A client knows a `HEAD` request by its first bytes. -/
def isHead (head : List Byte) : Bool :=
  head.take 5 = ascii "HEAD "

/-- The parser takes the same requests for `HEAD` requests. -/
theorem isHead_eq {config : ServerConfig} {head : List Byte}
    {request : HttpRequest}
    (hparse : httpParseRequest (cstring head) config = .ok request) :
    isHead head = decide (request.method = ascii "HEAD") := by
  obtain ⟨target, lines, after, ⟨hmethod, -⟩, htext, -⟩ :=
    httpParseRequest_sound hparse
  obtain ⟨rest, hrest⟩ := cstring_begins_buffer head
  have hsp : sp ∉ request.method := fun hmem =>
    (hmethod.tchar sp hmem).ne.2.1 rfl
  obtain ⟨tail, hhead⟩ : ∃ tail, head = request.method ++ sp :: tail :=
    ⟨_, by rw [← hrest, htext, List.append_assoc, List.append_assoc]; rfl⟩
  rw [isHead, decide_eq_decide]
  constructor
  · intro htake
    have hcut : request.method ++ sp :: tail =
        ascii "HEAD" ++ sp :: head.drop 5 := by
      rw [← hhead]
      exact (List.take_append_drop 5 head).symm.trans (by rw [htake]; rfl)
    have hlength := firstOccurrence_singleton_append hsp tail
    rw [hcut, firstOccurrence_singleton_append (by decide),
      Option.some.injEq] at hlength
    exact (List.append_inj hcut hlength.symm).1
  · intro hmethod
    rw [hhead, hmethod]
    rfl

/-- The parts of an answer agree with each other and with the request. -/
structure Consistent (head : List Byte) (answer : Answer) : Prop where
  length_contentType : answer.contentType.length ≤ 24
  cr_notMem : cr ∉ answer.contentType
  length_lt : answer.length < 2 ^ 63
  content : match answer.content with
    | .page text => answer.status ≠ .ok ∧ answer.closes = true ∧
        answer.length = text.length
    | .file file sendBody => answer.status = .ok ∧
        answer.length = file.size ∧ sendBody = !isHead head

theorem consistent_refusal (refusal : Refusal) (head : List Byte)
    (hstatus : refusal.status ≠ .ok) (hlength : refusal.text.length ≤ 74) :
    Consistent head refusal.answer where
  length_contentType := show (ascii "text/html").length ≤ 24 by decide
  cr_notMem := show cr ∉ ascii "text/html" by decide
  length_lt := show refusal.text.length < 2 ^ 63 by omega
  content := ⟨hstatus, rfl, rfl⟩

theorem consistent_answer (config : ServerConfig)
    (resolve : List Byte → Except Errno OpenedFile) (closing : Bool)
    (head : List Byte) : Consistent head (answer config resolve closing head) := by
  rw [answer]
  cases hjudge : judge config head with
  | error refusal =>
      obtain ⟨hstatus, hlength⟩ := judge_eq_error hjudge
      exact consistent_refusal refusal head hstatus hlength
  | ok request =>
      cases hresolved : resolve request.path with
      | error errno =>
          simp only [hresolved]
          exact consistent_refusal { status := errnoStatus errno, message := none }
            head (errnoStatus_ne_ok errno) (length_errorText_le _)
      | ok file =>
          have hmethod := isHead_eq (judge_eq_ok_iff.mp hjudge).1
          simp only [hresolved]
          exact ⟨length_mimeType_le _, cr_notMem_mimeType _, file.size_lt, rfl,
            rfl, by rw [hmethod]; simp⟩

end HttpCerver.Client
