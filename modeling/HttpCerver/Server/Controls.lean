import HttpCerver.Parse.Grammar
import HttpCerver.Server.Http

/-!
# Control characters

Which texts of an accepted request can contain a control character.  The
method, the decoded path, the version and the headers cannot; the query is
copied as it stands.
-/

namespace HttpCerver.Controls

open HttpCerver.Bytes
open HttpCerver.Config
open HttpCerver.Grammar
open HttpCerver.Http
open HttpCerver.Request

def IsControl (c : Byte) : Prop :=
  c < 32 ∨ c = 127

instance (c : Byte) : Decidable (IsControl c) := by
  unfold IsControl
  infer_instance

/-- No stored text contains a control character, but for tabs inside the
values of headers. -/
structure Clean (request : HttpRequest) : Prop where
  method : ∀ c ∈ request.method, ¬ IsControl c
  path : ∀ c ∈ request.path, ¬ IsControl c
  query : ∀ c ∈ request.query, ¬ IsControl c
  version : ∀ c ∈ request.version, ¬ IsControl c
  name : ∀ header ∈ request.headers, ∀ c ∈ header.name, ¬ IsControl c
  value : ∀ header ∈ request.headers, ∀ c ∈ header.value,
    IsControl c → c = htab

/-- The text in front of the first CRLF. -/
def requestLineOf (text : List Byte) : List Byte :=
  text.take ((strstr text crlf).getD text.length)

theorem not_isControl_iff {c : Byte} : ¬ IsControl c ↔ 32 ≤ c ∧ c ≠ 127 := by
  rw [IsControl, not_or, UInt8.not_lt]

theorem IsTchar.not_isControl {c : Byte} (h : IsTchar c) : ¬ IsControl c := by
  have hall : ∀ c : Byte, IsTchar c → ¬ IsControl c :=
    forall_byte (by decide +kernel)
  exact hall c h

theorem IsHexDigit.not_isControl {c : Byte} {value : ℕ}
    (h : IsHexDigit c value) : ¬ IsControl c := by
  have hall : ∀ c ∈ ascii "0123456789abcdefABCDEF", ¬ IsControl c := by
    decide +kernel
  exact hall c h.mem

theorem IsText.eq_htab {c : Byte} (h : IsText c) (hcontrol : IsControl c) :
    c = htab := by
  obtain ⟨htab | hlow, hdel⟩ := h
  · exact htab
  · exact absurd hcontrol (not_isControl_iff.mpr ⟨hlow, hdel⟩)

/-- A control character that is not encoded would be stored. -/
theorem not_isControl_of_decodes {encoded path : List Byte}
    (hdecodes : Decodes encoded path) (hpath : ∀ c ∈ path, ¬ IsControl c) :
    ∀ c ∈ encoded, ¬ IsControl c := by
  induction hdecodes with
  | nil => simp
  | literal hc hrest ih =>
      rw [List.forall_mem_cons] at hpath ⊢
      exact ⟨hpath.1, ih hpath.2⟩
  | escape hhigh hlow hrest ih =>
      rw [List.forall_mem_cons] at hpath
      simp only [List.forall_mem_cons]
      exact ⟨by decide, IsHexDigit.not_isControl hhigh,
        IsHexDigit.not_isControl hlow, ih hpath.2⟩

/-- A target contains control characters just when its query does. -/
theorem target_clean_iff {target path query : List Byte}
    (htarget : TargetOf target path query) :
    (∀ c ∈ target, ¬ IsControl c) ↔ ∀ c ∈ query, ¬ IsControl c := by
  cases htarget with
  | path hencoded =>
      have hclean := not_isControl_of_decodes hencoded.decodes
        fun c hc => not_isControl_iff.mpr (hencoded.control c hc)
      simp only [List.not_mem_nil, false_implies, implies_true, iff_true]
      exact hclean
  | query hencoded =>
      have hclean := not_isControl_of_decodes hencoded.decodes
        fun c hc => not_isControl_iff.mpr (hencoded.control c hc)
      have hquestion : ¬ IsControl question := by decide
      rw [List.forall_mem_append, List.forall_mem_cons, and_iff_right hclean,
        and_iff_right hquestion]

/-- The fields that the parser checks are clean in every accepted request. -/
theorem clean_iff_query {config : ServerConfig} {text : List Byte}
    {request : HttpRequest} (haccepts : Accepts config text request) :
    Clean request ↔ ∀ c ∈ request.query, ¬ IsControl c := by
  refine ⟨Clean.query, fun hquery => ?_⟩
  cases haccepts with
  | mk after hmethod hspace hcrlf hlength htarget hversion hheaders hcount =>
      have hheads : ∀ header ∈ request.headers,
          (∀ c ∈ header.name, IsTchar c) ∧ ∀ c ∈ header.value, IsText c := by
        intro header hheader
        obtain ⟨line, hline⟩ := exists_line_of_mem hheaders hheader
        cases hline with
        | mk hname _ _ _ htext _ => exact ⟨hname.tchar, htext⟩
      refine ⟨fun c hc => IsTchar.not_isControl (hmethod.tchar c hc), ?_, hquery,
        ?_, ?_, ?_⟩
      · intro c hc
        generalize request.query = query at htarget
        cases htarget with
        | path hencoded => exact not_isControl_iff.mpr (hencoded.control c hc)
        | query hencoded => exact not_isControl_iff.mpr (hencoded.control c hc)
      · rcases hversion with hv | hv <;> rw [hv] <;> decide +kernel
      · intro header hheader c hc
        exact IsTchar.not_isControl ((hheads header hheader).1 c hc)
      · intro header hheader c hc
        exact IsText.eq_htab ((hheads header hheader).2 c hc)

/-- No control character is left in front of the headers. -/
theorem requestLineOf_clean_iff {config : ServerConfig} {text : List Byte}
    {request : HttpRequest} (haccepts : Accepts config text request) :
    (∀ c ∈ requestLineOf text, ¬ IsControl c) ↔
      ∀ c ∈ request.query, ¬ IsControl c := by
  cases haccepts with
  | @mk _ target lines after hmethod hspace hcrlf hlength htarget hversion
      hheaders hcount =>
      have hline : ¬ crlf <:+: request.method ++
          sp :: (target ++ sp :: request.version) := fun hcontains =>
        hcrlf ((crlf_infix_requestLine_iff hmethod hversion).mp hcontains)
      have htext : request.method ++ sp :: target ++ sp :: request.version ++
          crlf ++ lines.flatMap (· ++ crlf) ++ crlf ++ after =
        request.method ++ sp :: (target ++ sp :: request.version) ++ crlf ++
          (lines.flatMap (· ++ crlf) ++ crlf ++ after) := by
        simp
      have hcut : requestLineOf (request.method ++ sp :: target ++
          sp :: request.version ++ crlf ++ lines.flatMap (· ++ crlf) ++ crlf ++
          after) = request.method ++ sp :: (target ++ sp :: request.version) := by
        rw [htext, requestLineOf, strstr_crlf_append hline, Option.getD_some,
          List.append_assoc, List.take_left]
      have htokens : ∀ c ∈ request.method, ¬ IsControl c := fun c hc =>
        IsTchar.not_isControl (hmethod.tchar c hc)
      have hversions : ∀ c ∈ request.version, ¬ IsControl c := by
        rcases hversion with hv | hv <;> rw [hv] <;> decide +kernel
      have hspaceClean : ¬ IsControl sp := by decide
      rw [hcut, ← target_clean_iff htarget]
      simp only [List.forall_mem_append, List.forall_mem_cons]
      exact ⟨fun h => h.2.2.1, fun h => ⟨htokens, hspaceClean, h, hspaceClean,
        hversions⟩⟩

/-- An accepted request carries no control character just when there is none
in its request line. -/
theorem accepted_clean_iff {config : ServerConfig} {buffer : CString}
    {request : HttpRequest}
    (hparse : httpParseRequest buffer config = .ok request) :
    Clean request ↔ ∀ c ∈ requestLineOf buffer.bytes, ¬ IsControl c := by
  have haccepts := httpParseRequest_eq_ok_iff.mp hparse
  rw [clean_iff_query haccepts, requestLineOf_clean_iff haccepts]

/-- A tab in a value and a line feed in the query. -/
def lineFeedBuffer : CString :=
  cstring (ascii "GET /a%20b?c\nd HTTP/1.0\r\nA: x\ty\r\n\r\n")

def lineFeedRequest : HttpRequest where
  method := ascii "GET"
  path := ascii "/a b"
  query := ascii "c\nd"
  version := ascii "HTTP/1.0"
  headers := [{ name := ascii "A", value := ascii "x\ty" }]

theorem httpParseRequest_lineFeedBuffer :
    httpParseRequest lineFeedBuffer configInit = .ok lineFeedRequest := by
  decide +kernel

theorem accepted_clean_iff_lineFeed :
    Clean lineFeedRequest ↔
      ∀ c ∈ requestLineOf lineFeedBuffer.bytes, ¬ IsControl c :=
  accepted_clean_iff httpParseRequest_lineFeedBuffer

theorem query_keeps_controls :
    ¬ ∀ (config : ServerConfig) (buffer : CString) (request : HttpRequest),
      httpConfigValid config = true →
        httpParseRequest buffer config = .ok request → Clean request := by
  intro hall
  have hclean := hall configInit lineFeedBuffer lineFeedRequest (by decide)
    httpParseRequest_lineFeedBuffer
  exact hclean.query lf (by decide) (by decide)

end HttpCerver.Controls
