import HttpCerver.Parse.Encoding
import HttpCerver.Stream.Client
import HttpCerver.Stream.Pipelining

/-!
# Rendering requests

A request can be written in many ways: any byte of the path may be
percent-encoded, header values may be padded, an empty query may be announced.
`renderRequest` writes it in the shortest way.  The parser reads the same
request back, so the rendering is a normal form of the texts it accepts.
-/

namespace HttpCerver.Rendering

open HttpCerver.Boundary
open HttpCerver.Answers
open HttpCerver.Bytes
open HttpCerver.Client
open HttpCerver.Config
open HttpCerver.Encoding
open HttpCerver.ForkServer
open HttpCerver.Grammar
open HttpCerver.Http
open HttpCerver.Pipelining
open HttpCerver.Reference
open HttpCerver.Request
open HttpCerver.Search
open HttpCerver.System
open HttpCerver.Trim

def hexDigits : List Byte := ascii "0123456789ABCDEF"

def hexDigit (value : ℕ) : Byte :=
  hexDigits[value]?.getD 0

/-- The bytes of a path that cannot stand for themselves. -/
def isReserved (c : Byte) : Bool :=
  c = percent || c = question || c = sp

def encodeByte (c : Byte) : List Byte :=
  if isReserved c then
    [percent, hexDigit (c.toNat / 16), hexDigit (c.toNat % 16)]
  else [c]

def encodePath (path : List Byte) : List Byte :=
  path.flatMap encodeByte

/-- An empty query is not announced. -/
def renderTarget (path query : List Byte) : List Byte :=
  if query = [] then encodePath path
  else encodePath path ++ question :: query

def renderHeader (header : HttpHeader) : List Byte :=
  header.name ++ colon :: header.value

def renderRequest (request : HttpRequest) : List Byte :=
  request.method ++ sp :: renderTarget request.path request.query ++
    sp :: request.version ++ crlf ++
    (request.headers.map renderHeader).flatMap (· ++ crlf) ++ crlf

section Path

variable {encoded path : List Byte}

theorem isHexDigit_hexDigit {value : ℕ} (hvalue : value < 16) :
    IsHexDigit (hexDigit value) value := by
  right
  have hlength : hexDigits.length = 16 := by decide
  have hdigit : hexDigits[value]? = some _ :=
    List.getElem?_eq_getElem (hlength ▸ hvalue)
  rw [hexDigit, hdigit, Option.getD_some, ← hdigit, hexDigits]

theorem encodes_encodePath (path : List Byte) :
    Encodes (encodePath path) path := by
  induction path with
  | nil => exact .nil
  | cons c path ih =>
      rw [encodePath, List.flatMap_cons, encodeByte]
      by_cases hreserved : isReserved c = true
      · rw [if_pos hreserved]
        have hbyte := c.toNat_lt
        exact .escaped (isHexDigit_hexDigit (by omega))
          (isHexDigit_hexDigit (by omega)) ih
      · rw [if_neg hreserved]
        simp only [isReserved, Bool.or_eq_true, decide_eq_true_eq, not_or]
          at hreserved
        exact .raw hreserved.1.1 hreserved.1.2 ih

/-- The bytes of an encoded path. -/
theorem mem_encodePath {c : Byte} (hmem : c ∈ encodePath path) :
    c = percent ∨ c ∈ ascii "0123456789abcdefABCDEF" ∨
      (c ∈ path ∧ isReserved c = false) := by
  obtain ⟨source, hsource, hc⟩ := List.mem_flatMap.mp hmem
  rw [encodeByte] at hc
  split_ifs at hc with hreserved
  · have hbyte := source.toNat_lt
    simp only [List.mem_cons, List.not_mem_nil, or_false] at hc
    obtain rfl | rfl | rfl := hc
    · exact .inl rfl
    · exact .inr (.inl (isHexDigit_hexDigit (by omega)).mem)
    · exact .inr (.inl (isHexDigit_hexDigit (by omega)).mem)
  · rw [List.mem_singleton] at hc
    subst hc
    exact .inr (.inr ⟨hsource, by simpa using hreserved⟩)

theorem sp_notMem_encodePath (path : List Byte) : sp ∉ encodePath path := by
  intro hmem
  obtain hpercent | hdigit | ⟨-, hreserved⟩ := mem_encodePath hmem
  · exact absurd hpercent (by decide)
  · exact absurd hdigit (by decide +kernel)
  · exact absurd hreserved (by decide)

theorem cr_notMem_encodePath (hcontrol : ∀ c ∈ path, 32 ≤ c ∧ c ≠ 127) :
    cr ∉ encodePath path := by
  intro hmem
  obtain hpercent | hdigit | ⟨hpath, -⟩ := mem_encodePath hmem
  · exact absurd hpercent (by decide)
  · exact absurd hdigit (by decide +kernel)
  · exact absurd (hcontrol cr hpath).1 (by decide)

/-- No encoding without blanks is shorter. -/
theorem length_encodePath_le (hencodes : Encodes encoded path)
    (hblank : sp ∉ encoded) :
    (encodePath path).length ≤ encoded.length := by
  have hthree (c : Byte) : (encodeByte c).length ≤ 3 := by
    rw [encodeByte]
    split_ifs
    · exact Nat.le_refl 3
    · exact Nat.le_of_ble_eq_true rfl
  induction hencodes with
  | nil => exact Nat.le_refl _
  | @raw c encoded path hpercent hquestion hrest ih =>
      rw [List.mem_cons, not_or] at hblank
      have hone : encodeByte c = [c] := by
        rw [encodeByte, if_neg]
        simp [isReserved, hpercent, hquestion, Ne.symm hblank.1]
      have hmore := ih hblank.2
      rw [encodePath, List.flatMap_cons, hone]
      simpa [encodePath] using hmore
  | @escaped c high low encoded path hhigh hlow hrest ih =>
      simp only [List.mem_cons, not_or] at hblank
      have hmore := ih hblank.2.2.2
      have hc := hthree c
      rw [encodePath, List.flatMap_cons, List.length_append]
      rw [encodePath] at hmore
      simp only [List.length_cons]
      omega

theorem encodedPath_encodePath (h : EncodedPath encoded path) :
    EncodedPath (encodePath path) path := by
  obtain ⟨⟨-⟩, hcontrol⟩ := encodedPath_iff.mp h
  exact encodedPath_iff.mpr ⟨.mk (encodes_encodePath _), hcontrol⟩

theorem length_le_of_encodedPath (h : EncodedPath encoded path)
    (hblank : sp ∉ encoded) :
    (encodePath path).length ≤ encoded.length := by
  have hencodes : Encodes encoded path :=
    encodes_iff.mpr ⟨h.decodes, h.question⟩
  exact length_encodePath_le hencodes hblank

end Path

/-- A target in its shortest form. -/
theorem renderTarget_spec {target path query : List Byte}
    (h : TargetOf target path query) (hblank : sp ∉ target)
    (hcrlf : ¬ crlf <:+: target) :
    TargetOf (renderTarget path query) path query ∧
      sp ∉ renderTarget path query ∧ ¬ crlf <:+: renderTarget path query ∧
      (renderTarget path query).length ≤ target.length := by
  have hfree {path : List Byte} (hcontrol : ∀ c ∈ path, 32 ≤ c ∧ c ≠ 127) :
      ¬ crlf <:+: encodePath path :=
    not_crlf_infix_of_notMem cr (by decide) (cr_notMem_encodePath hcontrol)
  cases h with
  | path hpath =>
      exact ⟨.path (encodedPath_encodePath hpath), sp_notMem_encodePath path,
        hfree hpath.control, length_le_of_encodedPath hpath hblank⟩
  | @query encoded _ _ hpath =>
      rw [List.mem_append, List.mem_cons, not_or, not_or] at hblank
      have hshort := length_le_of_encodedPath hpath hblank.1
      rw [renderTarget]
      by_cases hquery : query = []
      · rw [if_pos hquery, hquery]
        refine ⟨.path (encodedPath_encodePath hpath),
          sp_notMem_encodePath path, hfree hpath.control, ?_⟩
        rw [List.length_append]
        omega
      · rw [if_neg hquery]
        rw [crlf, pair_infix_append_cons_iff (by decide) (by decide), not_or]
          at hcrlf
        refine ⟨.query (encodedPath_encodePath hpath), ?_, ?_, ?_⟩
        · rw [List.mem_append, List.mem_cons, not_or, not_or]
          exact ⟨sp_notMem_encodePath path, hblank.2⟩
        · rw [crlf, pair_infix_append_cons_iff (by decide) (by decide), not_or]
          exact ⟨hfree hpath.control, hcrlf.2⟩
        · rw [List.length_append, List.length_append, List.length_cons]
          omega

section Request

variable {config : ServerConfig} {request : HttpRequest} {text : List Byte}

/-- A header line in its shortest form. -/
theorem headerLine_renderHeader {header : HttpHeader} {line : List Byte}
    (h : HeaderLine config header line) :
    HeaderLine config header (renderHeader header) ∧
      (renderHeader header).length ≤ line.length := by
  cases h with
  | @mk before after hname hbefore hafter hvalue htext hlength =>
      have hline : HeaderLine config header
          (header.name ++ colon :: ([] ++ header.value ++ [])) :=
        .mk hname (by simp) (by simp) hvalue htext hlength
      rw [List.nil_append, List.append_nil] at hline
      refine ⟨hline, ?_⟩
      simp only [renderHeader, List.length_append, List.length_cons]
      omega

theorem headerLines_renderHeader {headers : List HttpHeader}
    {lines : List (List Byte)}
    (h : List.Forall₂ (HeaderLine config) headers lines) :
    List.Forall₂ (HeaderLine config) headers (headers.map renderHeader) ∧
      (headerBlockOf (headers.map renderHeader)).length ≤
        (headerBlockOf lines).length := by
  induction h with
  | nil => exact ⟨.nil, Nat.le_refl _⟩
  | cons hline hrest ih =>
      obtain ⟨hrendered, hshort⟩ := headerLine_renderHeader hline
      obtain ⟨hothers, hshorter⟩ := ih
      refine ⟨.cons hrendered hothers, ?_⟩
      simp only [headerBlockOf] at hshorter ⊢
      simp only [List.map_cons, List.flatMap_cons, List.length_append]
      omega

/-- The rendering of a request is in the grammar and no longer than any text
that stands for it. -/
theorem accepts_renderRequest (h : Accepts config text request) :
    Accepts config (renderRequest request) request ∧
      (renderRequest request).length ≤ text.length := by
  cases h with
  | @mk _ target lines after hmethod hspace hcrlf hlength htarget hversion
      hheaders hcount =>
      obtain ⟨htarget', hspace', hcrlf', hshort⟩ :=
        renderTarget_spec htarget hspace hcrlf
      obtain ⟨hheaders', hshorter⟩ := headerLines_renderHeader hheaders
      have haccepts := Accepts.mk [] hmethod hspace' hcrlf'
        (hshort.trans_lt hlength) htarget' hversion hheaders' hcount
      rw [List.append_nil] at haccepts
      refine ⟨haccepts, ?_⟩
      simp only [headerBlockOf] at hshorter
      simp only [renderRequest, List.length_append, List.length_cons]
      omega

/-- The text of an accepted buffer is in the grammar. -/
theorem accepts_of_parsed {buffer : CString}
    (hparse : httpParseRequest buffer config = .ok request) :
    Accepts config buffer.bytes request := by
  obtain ⟨target, lines, after, ⟨hmethod, hspace, hcrlf, hlength, htarget,
    hversion, hall, hcount⟩, htext, -⟩ := httpParseRequest_sound hparse
  have haccepts := Accepts.mk after hmethod hspace hcrlf hlength htarget
    hversion hall hcount
  rw [htext]
  simpa [headerBlockOf] using haccepts

theorem nul_notMem_renderTarget {target path query : List Byte}
    (h : TargetOf target path query) (hnul : 0 ∉ target) :
    0 ∉ renderTarget path query := by
  have hpath {encoded : List Byte} (h : EncodedPath encoded path) :
      0 ∉ encodePath path := by
    intro hmem
    obtain hpercent | hdigit | ⟨hbyte, -⟩ := mem_encodePath hmem
    · exact absurd hpercent (by decide)
    · exact absurd hdigit (by decide +kernel)
    · exact absurd (h.control 0 hbyte).1 (by decide)
  rw [renderTarget]
  cases h with
  | path h => exact hpath h
  | query h =>
      rw [List.mem_append, not_or] at hnul
      split_ifs
      · exact hpath h
      · rw [List.mem_append, not_or]
        exact ⟨hpath h, hnul.2⟩

theorem nul_notMem_headerLine {header : HttpHeader} {line : List Byte}
    (h : HeaderLine config header line) : 0 ∉ line := by
  cases h with
  | mk hname hbefore hafter hvalue htext hlength =>
      simp only [List.mem_append, List.mem_cons, not_or]
      refine ⟨fun hmem => ?_, by decide, ⟨fun hmem => ?_, fun hmem => ?_⟩,
        fun hmem => ?_⟩
      · exact absurd (hname.tchar 0 hmem) (by decide)
      · exact absurd (hbefore 0 hmem) (by decide)
      · exact absurd (htext 0 hmem) (by unfold IsText; decide)
      · exact absurd (hafter 0 hmem) (by decide)

/-- A rendering is a C string. -/
theorem nul_notMem_renderRequest (h : Accepts config text request)
    (hnul : 0 ∉ text) : 0 ∉ renderRequest request := by
  cases h with
  | @mk _ target lines after hmethod hspace hcrlf hlength htarget hversion
      hheaders hcount =>
      have htargetNul : 0 ∉ target := by
        intro hmem
        apply hnul
        simp [hmem]
      have hmethodNul : 0 ∉ request.method := fun hmem =>
        absurd (hmethod.tchar 0 hmem) (by decide)
      have hversionNul : 0 ∉ request.version := by
        obtain hversion | hversion := hversion <;> rw [hversion] <;> decide
      have hheadersNul :
          0 ∉ (request.headers.map renderHeader).flatMap (· ++ crlf) := by
        rw [List.mem_flatMap]
        rintro ⟨line, hline, hmem⟩
        obtain ⟨header, -, hheader⟩ :=
          exists_header_of_mem (headerLines_renderHeader hheaders).1 hline
        rw [List.mem_append] at hmem
        exact hmem.elim (nul_notMem_headerLine hheader) (by decide)
      have hcrlfNul : 0 ∉ crlf := by decide
      simp only [renderRequest, List.mem_append, List.mem_cons, not_or]
      exact ⟨⟨⟨⟨⟨hmethodNul, by decide, nul_notMem_renderTarget htarget
        htargetNul⟩, by decide, hversionNul⟩, hcrlfNul⟩, hheadersNul⟩, hcrlfNul⟩

/-- The end of a head is not looked for in front of the first line end. -/
theorem httpFindHeaderEnd_of_line {line : List Byte}
    (hline : ¬ crlf <:+: line) (rest : List Byte) :
    httpFindHeaderEnd (line ++ crlf ++ rest) =
      (httpFindHeaderEnd (crlf ++ rest)).map (line.length + ·) := by
  have hskip : firstOccurrence crlfCrlf (line ++ crlf ++ rest) =
      (firstOccurrence crlfCrlf (crlf ++ rest)).map (· + line.length) := by
    rw [firstOccurrence_eq_drop (show crlf <+: crlfCrlf by decide)
      (strstr_crlf_append hline rest), List.append_assoc, List.drop_left]
  rw [httpFindHeaderEnd, hskip, httpFindHeaderEnd, Option.map_map,
    Option.map_map]
  congr 1
  funext offset
  simp only [Function.comp_apply]
  omega

/-- A rendering is one whole head. -/
theorem httpFindHeaderEnd_renderRequest (h : Accepts config text request) :
    httpFindHeaderEnd (renderRequest request) =
      some (renderRequest request).length := by
  cases h with
  | @mk _ target lines after hmethod hspace hcrlf hlength htarget hversion
      hheaders hcount =>
      obtain ⟨-, -, htargetFree, -⟩ := renderTarget_spec htarget hspace hcrlf
      set line := request.method ++
        sp :: (renderTarget request.path request.query ++ sp :: request.version)
        with hline
      have hfree : ¬ crlf <:+: line := fun hcontains =>
        htargetFree ((crlf_infix_requestLine_iff hmethod hversion).mp hcontains)
      have hlines : ∀ line ∈ request.headers.map renderHeader,
          line ≠ [] ∧ cr ∉ line := by
        intro line hmem
        obtain ⟨header, -, hheader⟩ :=
          exists_header_of_mem (headerLines_renderHeader hheaders).1 hmem
        refine ⟨fun hnil => ?_, hheader.cr_notMem⟩
        rw [hnil] at hheader
        exact hheader.take_two_ne crlf rfl
      have hblock := httpFindHeaderEnd_headerBlockOf
        (show cr ∉ ([] : List Byte) by decide) hlines
      have hsplit : headerBlockOf ([] :: request.headers.map renderHeader) ++
          crlf = crlf ++ (headerBlockOf (request.headers.map renderHeader) ++
            crlf) := by
        simp [headerBlockOf]
      have hrender : renderRequest request =
          line ++ crlf ++ (headerBlockOf (request.headers.map renderHeader) ++
            crlf) := by
        simp [renderRequest, hline, headerBlockOf]
      rw [hsplit] at hblock
      rw [hrender, httpFindHeaderEnd_of_line hfree, hblock, Option.map_some,
        List.append_assoc, @List.length_append _ line]

/-- Parsing undoes rendering: the rendering of an accepted request is a C
string and one whole head, it is no longer than the text it was read from, and
the parser reads the same request from it. -/
theorem parse_render {buffer : CString}
    (hparse : httpParseRequest buffer config = .ok request) :
    0 ∉ renderRequest request ∧
      httpFindHeaderEnd (renderRequest request) =
        some (renderRequest request).length ∧
      (renderRequest request).length ≤ buffer.bytes.length ∧
      httpParseRequest (cstring (renderRequest request)) config =
        .ok request := by
  have haccepts := accepts_of_parsed hparse
  have hnul := nul_notMem_renderRequest haccepts buffer.nul_notMem
  obtain ⟨hrendered, hlength⟩ := accepts_renderRequest haccepts
  refine ⟨hnul, httpFindHeaderEnd_renderRequest haccepts, hlength, ?_⟩
  apply httpParseRequest_complete
  rwa [cstring_bytes_of_notMem hnul]

end Request

/-- A request with an encoded path, an empty query and a padded value. -/
def paddedHead : List Byte :=
  ascii "GET /%61%20%62? HTTP/1.1\r\nHost:\t  x \r\n\r\n"

def paddedRequest : HttpRequest where
  method := ascii "GET"
  path := ascii "/a b"
  query := []
  version := ascii "HTTP/1.1"
  headers := [{ name := ascii "Host", value := ascii "x" }]

theorem httpParseRequest_paddedHead :
    httpParseRequest (cstring paddedHead) configInit = .ok paddedRequest := by
  decide +kernel

theorem renderRequest_paddedRequest :
    renderRequest paddedRequest =
      ascii "GET /a%20b HTTP/1.1\r\nHost:x\r\n\r\n" := by
  decide +kernel

theorem parse_render_padded :
    httpParseRequest (cstring (renderRequest paddedRequest)) configInit =
      .ok paddedRequest :=
  (parse_render httpParseRequest_paddedHead).2.2.2

/-- A head with its request in the shortest form; a head that is not accepted
stays as it is. -/
def normalise (config : ServerConfig) (head : List Byte) : List Byte :=
  match httpParseRequest (cstring head) config with
  | .ok request => renderRequest request
  | .badRequest => head
  | .headersTooLarge => head

section Normalise

variable {config : ServerConfig} {tree : Tree} {root : Option Inode}

theorem normalise_spec {head : List Byte}
    (hwhole : httpFindHeaderEnd head = some head.length) :
    httpFindHeaderEnd (normalise config head) =
        some (normalise config head).length ∧
      (normalise config head).length ≤ head.length ∧
      httpParseRequest (cstring (normalise config head)) config =
        httpParseRequest (cstring head) config := by
  rw [normalise]
  cases hparse : httpParseRequest (cstring head) config with
  | badRequest => exact ⟨hwhole, Nat.le_refl _, hparse⟩
  | headersTooLarge => exact ⟨hwhole, Nat.le_refl _, hparse⟩
  | ok request =>
      obtain ⟨-, hrendered, hlength, hagain⟩ := parse_render hparse
      have hbegins := (cstring_begins_buffer head).length_le
      exact ⟨hrendered, hlength.trans hbegins, hagain⟩

theorem judge_normalise {head : List Byte}
    (hwhole : httpFindHeaderEnd head = some head.length) :
    judge config (normalise config head) = judge config head := by
  rw [judge, judge, (normalise_spec hwhole).2.2]

theorem answerTo_normalise {head : List Byte}
    (hwhole : httpFindHeaderEnd head = some head.length) :
    answerTo config tree root (normalise config head) =
      answerTo config tree root head := by
  rw [answerTo, answerTo, answer, answer, judge_normalise hwhole]

theorem fitting_normalise {head : List Byte} (h : Fitting config head) :
    Fitting config (normalise config head) where
  whole := (normalise_spec h.whole).1
  length_le := (normalise_spec h.whole).2.1.trans h.length_le

theorem reference_normalise {heads : List (List Byte)}
    (hheads : ∀ head ∈ heads, Fitting config head) (rest : List Byte) :
    reference config tree root
        ((heads.map (normalise config)).flatten ++ rest) =
      reference config tree root (heads.flatten ++ rest) := by
  induction heads with
  | nil => rfl
  | cons head heads ih =>
      rw [List.forall_mem_cons] at hheads
      obtain ⟨hhead, hothers⟩ := hheads
      rw [List.map_cons, List.flatten_cons, List.flatten_cons,
        List.append_assoc, List.append_assoc, reference_fitting hhead,
        reference_fitting (fitting_normalise hhead), answerTo_normalise hhead.whole,
        ih hothers]

/-- The server cannot tell a request from its normal form: a client that sends
its requests in the shortest form is answered with the same bytes. -/
theorem normal_form_suffices (hconfig : httpConfigValid config = true)
    {heads : List (List Byte)} (hheads : ∀ head ∈ heads, Fitting config head)
    {rest : List Byte} {environment environment' : Environment}
    (h : Undisturbed tree environment) (h' : Undisturbed tree environment')
    (hmallocs : false ∉ environment.mallocs)
    (hmallocs' : false ∉ environment'.mallocs)
    (hincoming : environment.incoming = heads.flatten ++ rest)
    (hincoming' : environment'.incoming =
      (heads.map (normalise config)).flatten ++ rest)
    (rootFd : Fd) (inherited : List (Fd × Inode)) :
    output rootFd config environment' inherited =
      output rootFd config environment inherited := by
  rw [(output_eq hconfig h rootFd inherited).2 hmallocs,
    (output_eq hconfig h' rootFd inherited).2 hmallocs', hincoming, hincoming',
    reference_normalise hheads]

end Normalise

/-- A padded request in front of a broken one. -/
def padded : Environment where
  incoming := paddedHead ++ ascii "GET\r\n\r\n"
  recvs := [.arrive 9, .fail .eintr, .arrive 40]
  sends := [.accept 0, .fail .eintr, .accept 7]
  mallocs := []
  fileSystem _ := smallFileSystem

def unpadded : Environment where
  incoming := ascii "GET /a%20b HTTP/1.1\r\nHost:x\r\n\r\nGET\r\n\r\n"
  recvs := []
  sends := []
  mallocs := []
  fileSystem _ := smallFileSystem

theorem undisturbed_padded : Undisturbed smallTree padded where
  fileSystem := rfl
  sends := by decide
  recvs := by simp [padded]

theorem undisturbed_unpadded : Undisturbed smallTree unpadded where
  fileSystem := rfl
  sends := by simp [unpadded]
  recvs := by simp [unpadded]

theorem normal_form_suffices_padded :
    output 3 configInit unpadded [(3, 0)] =
      output 3 configInit padded [(3, 0)] :=
  have hfitting : ∀ head ∈ [paddedHead], Fitting configInit head := by
    intro head hhead
    rw [List.mem_singleton.mp hhead]
    exact ⟨by decide +kernel, by decide +kernel⟩
  have hincoming : unpadded.incoming =
      ([paddedHead].map (normalise configInit)).flatten ++
        ascii "GET\r\n\r\n" := by
    rw [List.map_singleton, List.flatten_singleton, normalise,
      httpParseRequest_paddedHead]
    dsimp only
    rw [renderRequest_paddedRequest]
    decide +kernel
  normal_form_suffices (by decide) hfitting undisturbed_padded
    undisturbed_unpadded (by decide) (by decide) rfl hincoming 3 [(3, 0)]

end HttpCerver.Rendering
