import HttpCerver.Parse.Lines

/-!
# The spelling of header lines

Two texts whose header lines differ only in the case of names and in the white
space around values are parsed alike: with the same error, or to requests whose
headers differ only in the case of names.
-/

namespace HttpCerver.Spelling

open HttpCerver.Bytes
open HttpCerver.Config
open HttpCerver.Grammar
open HttpCerver.Iteration
open HttpCerver.Lines
open HttpCerver.Request
open HttpCerver.Search
open HttpCerver.Trim

/-- The same line, or one header spelled in two ways. -/
inductive SameLine : List Byte → List Byte → Prop
  | same (line : List Byte) : SameLine line line
  | respelled {name name' before before' after after' : List Byte}
      (value : List Byte) (hcolon : colon ∉ name)
      (hname : strcasecmp name name' = true)
      (hbefore : ∀ c ∈ before, isOws c = true)
      (hbefore' : ∀ c ∈ before', isOws c = true)
      (hafter : ∀ c ∈ after, isOws c = true)
      (hafter' : ∀ c ∈ after', isOws c = true) :
      SameLine (name ++ colon :: (before ++ value ++ after))
        (name' ++ colon :: (before' ++ value ++ after'))

/-- The same header, but for the case of its name. -/
structure SameHeader (header header' : HttpHeader) : Prop where
  name : strcasecmp header.name header'.name = true
  value : header.value = header'.value

/-- Requests with the same request line and the same headers. -/
structure SameRequest (request request' : HttpRequest) : Prop where
  method : request.method = request'.method
  path : request.path = request'.path
  query : request.query = request'.query
  version : request.version = request'.version
  headers : List.Forall₂ SameHeader request.headers request'.headers

inductive SameResult : HttpParseResult → HttpParseResult → Prop
  | ok {request request' : HttpRequest} (h : SameRequest request request') :
      SameResult (.ok request) (.ok request')
  | error (result : HttpParseResult) : SameResult result result

theorem strcasecmp_iff {left right : List Byte} :
    strcasecmp left right = true ↔ left.map tolower = right.map tolower := by
  simp [strcasecmp]

section Names

variable {name name' : List Byte} (hname : strcasecmp name name' = true)

include hname

theorem length_eq_of_strcasecmp : name.length = name'.length := by
  have hlength := congrArg List.length (strcasecmp_iff.mp hname)
  simpa using hlength

/-- A byte that case does not touch is in both names or in neither. -/
theorem mem_iff_of_strcasecmp {byte : Byte}
    (hbyte : ∀ c : Byte, tolower c = byte ↔ c = byte) :
    byte ∈ name ↔ byte ∈ name' := by
  have hmem : ∀ text : List Byte, byte ∈ text ↔ byte ∈ text.map tolower := by
    intro text
    simp [hbyte]
  rw [hmem name, hmem name', strcasecmp_iff.mp hname]

theorem httpValidHeaderName_eq_of_strcasecmp :
    httpValidHeaderName name = httpValidHeaderName name' := by
  have hall : ∀ text : List Byte,
      text.all httpIsTchar = (text.map tolower).all httpIsTchar := by
    intro text
    rw [List.all_map]
    have hlower : ∀ c : Byte, httpIsTchar c = httpIsTchar (tolower c) :=
      forall_byte (by decide +kernel)
    exact List.all_congr rfl hlower
  rw [httpValidHeaderName, httpValidHeaderName,
    length_eq_of_strcasecmp hname, hall name, hall name',
    strcasecmp_iff.mp hname]

theorem getLast?_iff_of_strcasecmp {byte : Byte}
    (hbyte : ∀ c : Byte, tolower c = byte ↔ c = byte) :
    name.getLast? = some byte ↔ name'.getLast? = some byte := by
  have hlast : ∀ text : List Byte, text.getLast? = some byte ↔
      (text.map tolower).getLast? = some byte := by
    intro text
    simp [List.getLast?_map, hbyte]
  rw [hlast name, hlast name', strcasecmp_iff.mp hname]

end Names

/-- The same error, or the same header. -/
inductive SameRead :
    Except HttpParseResult HttpHeader → Except HttpParseResult HttpHeader → Prop
  | error (result : HttpParseResult) : SameRead (.error result) (.error result)
  | ok {header header' : HttpHeader} (h : SameHeader header header') :
      SameRead (.ok header) (.ok header')

theorem SameHeader.refl (header : HttpHeader) : SameHeader header header where
  name := strcasecmp_iff.mpr rfl
  value := rfl

theorem SameRead.refl (result : Except HttpParseResult HttpHeader) :
    SameRead result result := by
  cases result with
  | error result => exact .error result
  | ok header => exact .ok (.refl header)

theorem judgeHeader_same (config : ServerConfig) {name name' : List Byte}
    (hname : strcasecmp name name' = true) (value : List Byte) :
    SameRead (judgeHeader config name value)
      (judgeHeader config name' value) := by
  have hsp : ∀ c : Byte, tolower c = sp ↔ c = sp :=
    forall_byte (by decide +kernel)
  have htab : ∀ c : Byte, tolower c = htab ↔ c = htab :=
    forall_byte (by decide +kernel)
  rw [judgeHeader, judgeHeader, length_eq_of_strcasecmp hname,
    httpValidHeaderName_eq_of_strcasecmp hname]
  simp only [getLast?_iff_of_strcasecmp hname hsp,
    getLast?_iff_of_strcasecmp hname htab]
  split_ifs
  · exact .error _
  · exact .error _
  · exact .error _
  · exact .ok ⟨hname, rfl⟩
  · exact .error _
  · exact .error _

section SameLine

variable {line line' : List Byte}

/-- Two spellings of a line are read alike. -/
theorem readHeader_same (config : ServerConfig) (h : SameLine line line') :
    SameRead (readHeader config line) (readHeader config line') := by
  cases h with
  | same => exact .refl _
  | respelled value hcolon hname hbefore hbefore' hafter hafter' =>
      have hlower : ∀ c : Byte, tolower c = colon ↔ c = colon :=
        forall_byte (by decide +kernel)
      rw [readHeader_append config hcolon, readHeader_append config
        ((mem_iff_of_strcasecmp hname hlower).not.mp hcolon)]
      rw [trimOws, trimOws, trim_padded hbefore hafter,
        trim_padded hbefore' hafter']
      exact judgeHeader_same config hname _

theorem SameLine.nil_iff (h : SameLine line line') :
    line = [] ↔ line' = [] := by
  cases h <;> simp

/-- White space contains no NUL. -/
theorem nul_notMem_of_isOws {blank : List Byte}
    (hblank : ∀ c ∈ blank, isOws c = true) : 0 ∉ blank :=
  fun hmem => absurd (hblank 0 hmem) (by decide)

theorem SameLine.nul_iff (h : SameLine line line') :
    0 ∈ line ↔ 0 ∈ line' := by
  cases h with
  | same => rfl
  | respelled value hcolon hname hbefore hbefore' hafter hafter' =>
      have hlower : ∀ c : Byte, tolower c = 0 ↔ c = 0 :=
        forall_byte (by decide +kernel)
      simp only [List.mem_append, List.mem_cons,
        mem_iff_of_strcasecmp hname hlower, nul_notMem_of_isOws hbefore,
        nul_notMem_of_isOws hbefore', nul_notMem_of_isOws hafter,
        nul_notMem_of_isOws hafter']

end SameLine

/-- The same text behind the request line, up to the spelling of lines.  A NUL
can cut both texts inside a line. -/
inductive SameText : List Byte → List Byte → Prop
  | tail (text : List Byte) : SameText text text
  | cut {text text' : List Byte} (htext : ¬ crlf <:+: text)
      (htext' : ¬ crlf <:+: text') : SameText text text'
  | line {line line' after after' : List Byte} (hsame : SameLine line line')
      (hline : ¬ crlf <:+: line) (hline' : ¬ crlf <:+: line')
      (hafter : SameText after after') :
      SameText (line ++ crlf ++ after) (line' ++ crlf ++ after')

/-- What two rounds on such texts do. -/
inductive SameRound : HeaderScan ⊕ HttpParseResult × List Byte →
    HeaderScan ⊕ HttpParseResult × List Byte → Prop
  | next {scan scan' : HeaderScan} (htext : SameText scan.line scan'.line)
      (hrequest : SameRequest scan.request scan'.request) :
      SameRound (.inl scan) (.inl scan')
  | result {result result' : HttpParseResult} {rest rest' : List Byte}
      (h : SameResult result result') :
      SameRound (.inr (result, rest)) (.inr (result', rest'))

section SameRound

variable (config : ServerConfig) {request request' : HttpRequest}

theorem SameRequest.append (h : SameRequest request request')
    {header header' : HttpHeader} (hheader : SameHeader header header') :
    SameRequest { request with headers := request.headers ++ [header] }
      { request' with headers := request'.headers ++ [header'] } where
  method := h.method
  path := h.path
  query := h.query
  version := h.version
  headers := List.rel_append h.headers (.cons hheader .nil)

theorem sameRound_line {line line' after after' : List Byte}
    (hsame : SameLine line line') (hline : ¬ crlf <:+: line)
    (hline' : ¬ crlf <:+: line') (hafter : SameText after after')
    (hrequest : SameRequest request request') :
    SameRound
      (httpParseHeader config
        { line := line ++ crlf ++ after, request := request })
      (httpParseHeader config
        { line := line' ++ crlf ++ after', request := request' }) := by
  by_cases hempty : line = []
  · rw [hempty, hsame.nil_iff.mp hempty, List.nil_append,
      httpParseHeader_of_end, httpParseHeader_of_end]
    exact .result (.ok hrequest)
  · have hempty' : line' ≠ [] := fun h => hempty (hsame.nil_iff.mpr h)
    rw [httpParseHeader_of_line config hline hempty,
      httpParseHeader_of_line config hline' hempty',
      hrequest.headers.length_eq]
    split_ifs with hmany
    · exact .result (.error _)
    · have hread := readHeader_same config hsame
      generalize readHeader config line = read at hread
      generalize readHeader config line' = read' at hread
      cases hread with
      | error result => exact .result (.error result)
      | ok hheader => exact .next hafter (hrequest.append hheader)

theorem sameRound_cut {text text' : List Byte} (htext : ¬ crlf <:+: text)
    (htext' : ¬ crlf <:+: text') (hrequest : SameRequest request request') :
    SameRound (httpParseHeader config { line := text, request := request })
      (httpParseHeader config { line := text', request := request' }) := by
  rw [httpParseHeader_of_cut config htext,
    httpParseHeader_of_cut config htext', hrequest.headers.length_eq]
  exact .result (.error _)

theorem sameRound {text text' : List Byte} (htext : SameText text text')
    (hrequest : SameRequest request request') :
    SameRound (httpParseHeader config { line := text, request := request })
      (httpParseHeader config { line := text', request := request' }) := by
  cases htext with
  | cut hcut hcut' => exact sameRound_cut config hcut hcut' hrequest
  | line hsame hline hline' hafter =>
      exact sameRound_line config hsame hline hline' hafter hrequest
  | tail =>
      rcases text_cases text with hcut | ⟨after, rfl⟩ |
        ⟨line, after, rfl, hline, -⟩
      · exact sameRound_cut config hcut hcut hrequest
      · rw [httpParseHeader_of_end, httpParseHeader_of_end]
        exact .result (.ok hrequest)
      · exact sameRound_line config (.same line) hline hline (.tail after)
          hrequest

/-- The two scans end alike. -/
theorem httpParseHeaderLoop_same {text text' : List Byte}
    (htext : SameText text text') (hrequest : SameRequest request request') :
    SameResult
      ((httpParseHeaderLoop config).run { line := text, request := request }).1
      ((httpParseHeaderLoop config).run
        { line := text', request := request' }).1 := by
  refine (httpParseHeaderLoop config).run_simulation
    (httpParseHeaderLoop config)
    (fun scan scan' => SameText scan.line scan'.line ∧
      SameRequest scan.request scan'.request)
    (fun result result' => SameResult result.1 result'.1) ?_ ?_ _ _
    ⟨htext, hrequest⟩
  · rintro scan scan' next ⟨hline, hsame⟩ hbody
    have hround := sameRound config hline hsame
    rw [show httpParseHeader config
      { line := scan.line, request := scan.request } = .inl next
        from hbody] at hround
    generalize hbody' : httpParseHeader config
      { line := scan'.line, request := scan'.request } = round at hround
    cases hround with
    | next hagain hrequests => exact ⟨_, hbody', hagain, hrequests⟩
  · rintro scan scan' result ⟨hline, hsame⟩ hbody
    have hround := sameRound config hline hsame
    rw [show httpParseHeader config
      { line := scan.line, request := scan.request } = .inr result
        from hbody] at hround
    generalize hbody' : httpParseHeader config
      { line := scan'.line, request := scan'.request } = round at hround
    cases hround with
    | result hresult =>
        rw [(httpParseHeaderLoop config).run_of_exit hbody']
        exact hresult

end SameRound

/-- The text of a request: its first line, its header lines and the rest. -/
def requestText (requestLine : List Byte) (lines : List (List Byte))
    (rest : List Byte) : List Byte :=
  requestLine ++ crlf ++ (headerBlockOf lines ++ rest)

theorem headerBlockOf_cons (line : List Byte) (lines : List (List Byte))
    (rest : List Byte) :
    headerBlockOf (line :: lines) ++ rest =
      line ++ (crlf ++ (headerBlockOf lines ++ rest)) := by
  simp [headerBlockOf]

/-- The lines that are left of two texts when a NUL ends them. -/
theorem sameText_cstring {lines lines' : List (List Byte)}
    (hlines : List.Forall₂ SameLine lines lines')
    (hfree : ∀ line ∈ lines, ¬ crlf <:+: line)
    (hfree' : ∀ line ∈ lines', ¬ crlf <:+: line) (rest : List Byte) :
    SameText (cstring (headerBlockOf lines ++ rest)).bytes
      (cstring (headerBlockOf lines' ++ rest)).bytes := by
  induction hlines with
  | nil => exact .tail _
  | @cons line line' lines lines' hsame hlines ih =>
      rw [List.forall_mem_cons] at hfree hfree'
      have hcrlf : 0 ∉ crlf := by decide
      rw [headerBlockOf_cons, headerBlockOf_cons]
      by_cases hnul : 0 ∈ line
      · rw [cstring_append_of_mem hnul,
          cstring_append_of_mem (hsame.nul_iff.mp hnul)]
        have hcut : ∀ text : List Byte, ¬ crlf <:+: text →
            ¬ crlf <:+: (cstring text).bytes := fun text htext hcontains =>
          htext (hcontains.trans (cstring_begins_buffer text).isInfix)
        exact .cut (hcut line hfree.1) (hcut line' hfree'.1)
      · rw [cstring_append_of_notMem hnul,
          cstring_append_of_notMem (hsame.nul_iff.not.mp hnul),
          cstring_append_of_notMem hcrlf, cstring_append_of_notMem hcrlf,
          ← List.append_assoc, ← List.append_assoc]
        exact .line hsame hfree.1 hfree'.1 (ih hfree.2 hfree'.2)

/-- The parser of the request line does not look behind its end. -/
theorem httpParseRequestLine_congr {requestLine : List Byte}
    (hline : ¬ crlf <:+: requestLine) (after after' : List Byte) :
    httpParseRequestLine (requestLine ++ crlf ++ after) =
      httpParseRequestLine (requestLine ++ crlf ++ after') := by
  have hsame : ∀ line : List Byte, ¬ crlf <:+: line → ∀ after : List Byte,
      (∃ tail, requestLine ++ crlf ++ after = line ++ (crlf ++ tail)) ↔
        requestLine = line := by
    intro line hfree after
    constructor
    · rintro ⟨tail, htext⟩
      have hend := strstr_crlf_append hline after
      rw [htext, ← List.append_assoc, strstr_crlf_append hfree,
        Option.some.injEq] at hend
      rw [List.append_assoc] at htext
      exact (List.append_inj htext hend.symm).1
    · rintro rfl
      exact ⟨after, List.append_assoc ..⟩
  ext line
  simp only [httpParseRequestLine_eq_some_iff]
  refine and_congr_right fun _ => and_congr_right fun hfree => ?_
  rw [hsame _ hfree, hsame _ hfree]

theorem SameRequest.refl (request : HttpRequest) :
    SameRequest request request where
  method := rfl
  path := rfl
  query := rfl
  version := rfl
  headers := List.forall₂_same.mpr fun header _ => .refl header

theorem SameResult.refl (result : HttpParseResult) :
    SameResult result result := by
  cases result with
  | ok request => exact .ok (.refl request)
  | badRequest => exact .error _
  | headersTooLarge => exact .error _

/-- Only the bytes of the string matter. -/
theorem httpParseRequest_of_bytes (config : ServerConfig)
    {buffer buffer' : CString} (hbytes : buffer.bytes = buffer'.bytes) :
    httpParseRequest buffer config = httpParseRequest buffer' config := by
  rw [httpParseRequest, httpParseRequest, hbytes]

/-- Two strings with the same request line and the same text behind it. -/
theorem httpParseRequest_sameText (config : ServerConfig)
    {requestLine text text' : List Byte} {buffer buffer' : CString}
    (hline : ¬ crlf <:+: requestLine)
    (hbytes : buffer.bytes = requestLine ++ crlf ++ text)
    (hbytes' : buffer'.bytes = requestLine ++ crlf ++ text')
    (htext : SameText text text') :
    SameResult (httpParseRequest buffer config)
      (httpParseRequest buffer' config) := by
  have hheaders : ∀ request, SameResult
      (httpParseHeaders (requestLine ++ crlf ++ text) request config).1
      (httpParseHeaders (requestLine ++ crlf ++ text') request config).1 := by
    intro request
    rw [List.append_assoc, List.append_assoc, httpParseHeaders_of_line hline,
      httpParseHeaders_of_line hline]
    exact httpParseHeaderLoop_same config htext (.refl request)
  rw [httpParseRequest, httpParseRequest, hbytes, hbytes',
    httpParseRequestLine_congr hline text text']
  cases httpParseRequestLine (requestLine ++ crlf ++ text') with
  | none => exact .error _
  | some line =>
      dsimp only
      split_ifs with hversion
      · exact .error _
      · cases httpParseTarget line.target with
        | none => exact .error _
        | some target => exact hheaders _

/-- Two spellings of a request are parsed alike. -/
theorem httpParseRequest_same (config : ServerConfig)
    {requestLine : List Byte} (hrequestLine : ¬ crlf <:+: requestLine)
    {lines lines' : List (List Byte)}
    (hlines : List.Forall₂ SameLine lines lines')
    (hfree : ∀ line ∈ lines, ¬ crlf <:+: line)
    (hfree' : ∀ line ∈ lines', ¬ crlf <:+: line) (rest : List Byte) :
    SameResult
      (httpParseRequest (cstring (requestText requestLine lines rest)) config)
      (httpParseRequest (cstring (requestText requestLine lines' rest))
        config) := by
  by_cases hnul : 0 ∈ requestLine
  · have hcut : ∀ lines : List (List Byte),
        (cstring (requestText requestLine lines rest)).bytes =
          (cstring requestLine).bytes := by
      intro lines
      rw [requestText, List.append_assoc, cstring_append_of_mem hnul]
    rw [httpParseRequest_of_bytes config ((hcut lines).trans (hcut lines').symm)]
    exact .refl _
  · have hcrlf : 0 ∉ requestLine ++ crlf := by
      rw [List.mem_append, not_or]
      exact ⟨hnul, by decide⟩
    exact httpParseRequest_sameText config hrequestLine
      (cstring_append_of_notMem hcrlf _) (cstring_append_of_notMem hcrlf _)
      (sameText_cstring hlines hfree hfree' rest)

end HttpCerver.Spelling
