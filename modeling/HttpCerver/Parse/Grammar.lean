import HttpCerver.Parse.Request
import Mathlib.Data.List.Forall2

/-!
# The grammar of requests

The requests that `http_parse_request` accepts, as relations between texts and
what they stand for.  Every function of the parser is matched by one relation,
and the parser returns a request just when its text is in the grammar.
-/

namespace HttpCerver.Grammar

open HttpCerver.Bytes
open HttpCerver.Config
open HttpCerver.Request
open HttpCerver.Search
open HttpCerver.Trim

/-- The characters of a token: digits, letters and some marks. -/
def IsTchar (c : Byte) : Prop :=
  (48 ≤ c ∧ c ≤ 57) ∨ (65 ≤ c ∧ c ≤ 90) ∨ (97 ≤ c ∧ c ≤ 122) ∨
    c ∈ ascii "!#$%&'*+-.^_`|~"

instance (c : Byte) : Decidable (IsTchar c) := by
  unfold IsTchar
  infer_instance

/-- A token of at least one and fewer than `bound` bytes. -/
structure Token (bound : ℕ) (text : List Byte) : Prop where
  ne_nil : text ≠ []
  length_lt : text.length < bound
  tchar : ∀ c ∈ text, IsTchar c

/-- A hexadecimal digit and its value. -/
def IsHexDigit (c : Byte) (value : ℕ) : Prop :=
  (ascii "0123456789abcdef")[value]? = some c ∨
    (ascii "0123456789ABCDEF")[value]? = some c

/-- One pass of percent-decoding: every `'%'` stands in front of two digits. -/
inductive Decodes : List Byte → List Byte → Prop
  | nil : Decodes [] []
  | literal {c : Byte} {encoded decoded : List Byte} (hc : c ≠ percent)
      (hrest : Decodes encoded decoded) : Decodes (c :: encoded) (c :: decoded)
  | escape {high low : Byte} {h l : ℕ} {encoded decoded : List Byte}
      (hhigh : IsHexDigit high h) (hlow : IsHexDigit low l)
      (hrest : Decodes encoded decoded) :
      Decodes (percent :: high :: low :: encoded)
        (UInt8.ofNat (16 * h + l) :: decoded)

/-- The encoded form of a path without control characters. -/
structure EncodedPath (encoded path : List Byte) : Prop where
  slash : encoded.head? = some slash
  question : question ∉ encoded
  decodes : Decodes encoded path
  control : ∀ c ∈ path, 32 ≤ c ∧ c ≠ 127

/-- A request target is a path, or a path and a query. -/
inductive TargetOf : List Byte → List Byte → List Byte → Prop
  | path {encoded path : List Byte} (hpath : EncodedPath encoded path) :
      TargetOf encoded path []
  | query {encoded path query : List Byte} (hpath : EncodedPath encoded path) :
      TargetOf (encoded ++ question :: query) path query

/-- The bytes of a header value. -/
def IsText (c : Byte) : Prop :=
  (c = htab ∨ 32 ≤ c) ∧ c ≠ 127

/-- A header line, without its CRLF. -/
inductive HeaderLine (config : ServerConfig) : HttpHeader → List Byte → Prop
  | mk {header : HttpHeader} {before after : List Byte}
      (hname : Token config.httpHeaderNameMax header.name)
      (hbefore : ∀ c ∈ before, isOws c = true)
      (hafter : ∀ c ∈ after, isOws c = true)
      (hvalue : Trimmed isOws header.value)
      (htext : ∀ c ∈ header.value, IsText c)
      (hlength : header.value.length < config.httpHeaderValueMax) :
      HeaderLine config header
        (header.name ++ colon :: (before ++ header.value ++ after))

def IsVersion (version : List Byte) : Prop :=
  version = ascii "HTTP/1.0" ∨ version = ascii "HTTP/1.1"

/-- The requests the parser accepts; what comes behind the empty line does not
matter. -/
inductive Accepts (config : ServerConfig) : List Byte → HttpRequest → Prop
  | mk {request : HttpRequest} {target : List Byte} {lines : List (List Byte)}
      (after : List Byte) (hmethod : Token methodSize request.method)
      (hspace : sp ∉ target) (hcrlf : ¬ crlf <:+: target)
      (hlength : target.length < targetSize)
      (htarget : TargetOf target request.path request.query)
      (hversion : IsVersion request.version)
      (hheaders : List.Forall₂ (HeaderLine config) request.headers lines)
      (hcount : request.headers.length ≤ config.httpMaxHeaders) :
      Accepts config
        (request.method ++ sp :: target ++ sp :: request.version ++ crlf ++
          lines.flatMap (· ++ crlf) ++ crlf ++ after) request

theorem httpIsTchar_iff (c : Byte) : httpIsTchar c = true ↔ IsTchar c := by
  simp [httpIsTchar, IsTchar, or_assoc]

instance (c : Byte) (value : ℕ) : Decidable (IsHexDigit c value) := by
  unfold IsHexDigit
  infer_instance

theorem IsHexDigit.lt {c : Byte} {value : ℕ} (h : IsHexDigit c value) :
    value < 16 := by
  rcases h with h | h <;> exact (List.getElem?_eq_some_iff.mp h).1

theorem IsHexDigit.mem {c : Byte} {value : ℕ} (h : IsHexDigit c value) :
    c ∈ ascii "0123456789abcdefABCDEF" := by
  have hlower : ∀ c ∈ ascii "0123456789abcdef",
      c ∈ ascii "0123456789abcdefABCDEF" := by simp [ascii]
  have hupper : ∀ c ∈ ascii "0123456789ABCDEF",
      c ∈ ascii "0123456789abcdefABCDEF" := by simp [ascii]
  rcases h with h | h
  · exact hlower c (List.mem_of_getElem? h)
  · exact hupper c (List.mem_of_getElem? h)

theorem httpHexValue_eq_some_iff {c : Byte} {value : ℕ} :
    httpHexValue c = some value ↔ IsHexDigit c value := by
  have hdigit : ∀ c : Byte, ∀ value ∈ httpHexValue c, IsHexDigit c value :=
    forall_byte (by decide +kernel)
  have hlower : ∀ value : Fin 16,
      httpHexValue ((ascii "0123456789abcdef").get value) = some value.val := by
    decide
  have hupper : ∀ value : Fin 16,
      httpHexValue ((ascii "0123456789ABCDEF").get value) = some value.val := by
    decide
  constructor
  · exact hdigit c value
  · rintro (h | h)
    · obtain ⟨hvalue, rfl⟩ := List.getElem?_eq_some_iff.mp h
      exact hlower ⟨value, hvalue⟩
    · obtain ⟨hvalue, rfl⟩ := List.getElem?_eq_some_iff.mp h
      exact hupper ⟨value, hvalue⟩

theorem httpStoreDecoded_eq_some_iff (decoded : List Byte)
    {next : List Byte} {c : Byte} :
    httpStoreDecoded decoded c = some next ↔
      (32 ≤ c ∧ c ≠ 127) ∧ next = decoded ++ [c] := by
  have hcontrol : ∀ c : Byte, (c = 0 ∨ c < 32 ∨ c = 127) ↔
      ¬ (32 ≤ c ∧ c ≠ 127) := by
    intro c
    rw [not_and_or, UInt8.not_le, not_not]
    constructor
    · rintro (rfl | h)
      · left
        decide
      · exact h
    · exact Or.inr
  rw [httpStoreDecoded]
  simp only [hcontrol]
  split_ifs with h
  · simp [h, eq_comm]
  · simp [h]

/-- The two digits are put together without overlap. -/
theorem shiftLeft_or_eq {h l : ℕ} (hl : l < 16) :
    h <<< 4 ||| l = 16 * h + l := by
  rw [Nat.shiftLeft_eq, Nat.mul_comm, ← Nat.two_pow_add_eq_or_of_lt hl]

/-- What the decoding loop stores is the decoding of what it reads. -/
theorem decodes_of_httpDecodePathLoop {decodedSize : ℕ}
    {encoded decoded result : List Byte}
    (hresult : httpDecodePathLoop decodedSize encoded decoded = some result) :
    ∃ tail, result = decoded ++ tail ∧ Decodes encoded tail ∧
      ∀ c ∈ tail, 32 ≤ c ∧ c ≠ 127 := by
  fun_induction httpDecodePathLoop decodedSize encoded decoded with
  | case1 decoded =>
      cases hresult
      exact ⟨[], by simp, .nil, by simp⟩
  | case4 decoded hroom high low rest h l hlow hhigh next hstore ih =>
      obtain ⟨hc, rfl⟩ := (httpStoreDecoded_eq_some_iff _).mp hstore
      obtain ⟨tail, rfl, hdecodes, hcontrol⟩ := ih hresult
      have hl := httpHexValue_eq_some_iff.mp hlow
      rw [shiftLeft_or_eq hl.lt] at hc ⊢
      exact ⟨_ :: tail, by simp,
        .escape (httpHexValue_eq_some_iff.mp hhigh) hl hdecodes,
        List.forall_mem_cons.mpr ⟨hc, hcontrol⟩⟩
  | case8 decoded c rest hroom hpercent next hstore ih =>
      obtain ⟨hc, rfl⟩ := (httpStoreDecoded_eq_some_iff _).mp hstore
      obtain ⟨tail, rfl, hdecodes, hcontrol⟩ := ih hresult
      exact ⟨c :: tail, by simp, .literal hpercent hdecodes,
        List.forall_mem_cons.mpr ⟨hc, hcontrol⟩⟩
  | case2 | case3 | case5 | case6 | case7 => cases hresult

/-- With room enough, the loop gets through everything that decodes. -/
theorem httpDecodePathLoop_of_decodes {decodedSize : ℕ}
    {encoded tail : List Byte} (hdecodes : Decodes encoded tail)
    (hcontrol : ∀ c ∈ tail, 32 ≤ c ∧ c ≠ 127) {decoded : List Byte}
    (hroom : decoded.length + encoded.length < decodedSize) :
    httpDecodePathLoop decodedSize encoded decoded =
      some (decoded ++ tail) := by
  induction hdecodes generalizing decoded with
  | nil => simp [httpDecodePathLoop]
  | @literal c encoded tail hc hrest ih =>
      rw [List.forall_mem_cons] at hcontrol
      rw [List.length_cons] at hroom
      have hstore := (httpStoreDecoded_eq_some_iff decoded).mpr
        ⟨hcontrol.1, rfl⟩
      unfold httpDecodePathLoop
      rw [if_neg (by omega), if_neg hc, hstore]
      dsimp only
      rw [ih hcontrol.2 (by simp; omega), List.append_assoc,
        List.singleton_append]
  | @escape high low h l encoded tail hhigh hlow hrest ih =>
      rw [List.forall_mem_cons] at hcontrol
      simp only [List.length_cons] at hroom
      have hstore := (httpStoreDecoded_eq_some_iff decoded).mpr
        ⟨hcontrol.1, rfl⟩
      rw [httpDecodePathLoop, if_neg (by omega), if_pos rfl]
      simp only [httpHexValue_eq_some_iff.mpr hhigh,
        httpHexValue_eq_some_iff.mpr hlow, shiftLeft_or_eq hlow.lt, hstore]
      rw [ih hcontrol.2 (by simp; omega), List.append_assoc,
        List.singleton_append]

theorem httpDecodePath_eq_some_iff {encoded path : List Byte}
    (hlength : encoded.length < targetSize) :
    httpDecodePath encoded targetSize = some path ↔
      Decodes encoded path ∧ ∀ c ∈ path, 32 ≤ c ∧ c ≠ 127 := by
  rw [httpDecodePath, if_neg (by decide)]
  constructor
  · intro hresult
    obtain ⟨tail, rfl, hdecodes, hcontrol⟩ :=
      decodes_of_httpDecodePathLoop hresult
    exact ⟨hdecodes, hcontrol⟩
  · rintro ⟨hdecodes, hcontrol⟩
    exact httpDecodePathLoop_of_decodes hdecodes hcontrol (by simpa)

/-- The split of a target at its first question mark. -/
theorem httpSplitTarget_eq_some_iff_lengths {target : List Byte}
    (split : ParsedTarget) :
    httpSplitTarget target = some split ↔
      (question ∉ split.path ∧ split.path ≠ [] ∧
        split.path.length < targetSize) ∧
      (target = split.path ∧ split.query = [] ∨
        target = split.path ++ question :: split.query ∧
          split.query.length < targetSize) := by
  rw [httpSplitTarget, strchr]
  cases hfound : firstOccurrence [question] target with
  | none =>
      have hnone := firstOccurrence_singleton_eq_none_iff.mp hfound
      dsimp only
      constructor
      · intro hsplit
        split_ifs at hsplit with hbad
        cases hsplit
        rw [not_or, List.length_eq_zero_iff] at hbad
        exact ⟨⟨hnone, hbad.1, Nat.lt_of_not_le hbad.2⟩, .inl ⟨rfl, rfl⟩⟩
      · rintro ⟨⟨_, hne, hpath⟩, ⟨rfl, hquery⟩ | ⟨rfl, _⟩⟩
        · rw [if_neg (by simp [hne]; exact hpath), ← hquery]
        · simp at hnone
  | some offset =>
      obtain ⟨path, query, rfl, rfl, hpath⟩ :=
        firstOccurrence_singleton_eq_some_iff.mp hfound
      have hdrop : (path ++ question :: query).drop (path.length + 1) =
          query := by
        rw [← List.drop_drop, List.drop_left]
        rfl
      simp only [hdrop, List.take_left]
      constructor
      · intro hsplit
        split_ifs at hsplit with hbad hlong
        cases hsplit
        rw [not_or, List.length_eq_zero_iff] at hbad
        exact ⟨⟨hpath, hbad.1, Nat.lt_of_not_le hbad.2⟩,
          .inr ⟨rfl, Nat.lt_of_not_le hlong⟩⟩
      · rintro ⟨⟨hfree, hne, hlength⟩, ⟨hsame, _⟩ | ⟨hsame, hlong⟩⟩
        · rw [← hsame] at hfree
          simp at hfree
        · have hagain := firstOccurrence_singleton_append hfree split.query
          rw [← hsame, hfound, Option.some.injEq] at hagain
          obtain ⟨rfl, hrest⟩ := List.append_inj hsame hagain
          cases hrest
          rw [if_neg (by
            rw [List.length_eq_zero_iff]
            exact not_or.mpr ⟨hne, Nat.not_le_of_lt hlength⟩),
            if_neg (Nat.not_le_of_lt hlong)]

/-- In a short target both parts are short. -/
theorem httpSplitTarget_eq_some_iff {target : List Byte}
    (split : ParsedTarget) (hlength : target.length < targetSize) :
    httpSplitTarget target = some split ↔
      question ∉ split.path ∧ split.path ≠ [] ∧
        (target = split.path ∧ split.query = [] ∨
          target = split.path ++ question :: split.query) := by
  rw [httpSplitTarget_eq_some_iff_lengths]
  constructor
  · rintro ⟨⟨hfree, hne, -⟩, htarget⟩
    exact ⟨hfree, hne, htarget.imp_right And.left⟩
  · rintro ⟨hfree, hne, ⟨rfl, hquery⟩ | rfl⟩
    · exact ⟨⟨hfree, hne, hlength⟩, .inl ⟨rfl, hquery⟩⟩
    · rw [List.length_append, List.length_cons] at hlength
      exact ⟨⟨hfree, hne, by omega⟩, .inr ⟨rfl, by omega⟩⟩

theorem EncodedPath.ne_nil {encoded path : List Byte}
    (h : EncodedPath encoded path) : encoded ≠ [] := by
  rintro rfl
  simpa using h.slash

theorem TargetOf.ne_nil {target path query : List Byte}
    (h : TargetOf target path query) : target ≠ [] := by
  cases h with
  | path hencoded => exact hencoded.ne_nil
  | query hencoded => simp

/-- A split target is accepted when its path decodes. -/
theorem httpParseTarget_of_split {target : List Byte}
    {split parsed : ParsedTarget} (hsplit : httpSplitTarget target = some split)
    (hquestion : question ∉ split.path)
    (hpath : split.path.length < targetSize) :
    httpParseTarget target = some parsed ↔
      EncodedPath split.path parsed.path ∧ parsed.query = split.query := by
  rw [httpParseTarget, hsplit]
  dsimp only
  cases hdecode : httpDecodePath split.path targetSize with
  | none =>
      constructor
      · intro hnone
        split_ifs at hnone
      · rintro ⟨hencoded, _⟩
        have hsome := (httpDecodePath_eq_some_iff hpath).mpr
          ⟨hencoded.decodes, hencoded.control⟩
        simp [hdecode] at hsome
  | some path =>
      obtain ⟨hdecodes, hcontrol⟩ :=
        (httpDecodePath_eq_some_iff hpath).mp hdecode
      constructor
      · intro hsome
        split_ifs at hsome with hslash
        cases hsome
        exact ⟨⟨by simpa using hslash, hquestion, hdecodes, hcontrol⟩, rfl⟩
      · rintro ⟨hencoded, hquery⟩
        have hsome := (httpDecodePath_eq_some_iff hpath).mpr
          ⟨hencoded.decodes, hencoded.control⟩
        rw [hdecode, Option.some.injEq] at hsome
        rw [if_neg (by simp [hencoded.slash]), hsome, ← hquery]

/-- The target of a request line, split and decoded. -/
theorem httpParseTarget_eq_some_iff {target : List Byte}
    {parsed : ParsedTarget} (hlength : target.length < targetSize) :
    httpParseTarget target = some parsed ↔
      TargetOf target parsed.path parsed.query := by
  constructor
  · intro hresult
    cases hsplit : httpSplitTarget target with
    | none => simp [httpParseTarget, hsplit] at hresult
    | some split =>
        obtain ⟨hquestion, _, htarget⟩ :=
          (httpSplitTarget_eq_some_iff _ hlength).mp hsplit
        have hpath : split.path.length < targetSize := by
          rcases htarget with ⟨rfl, _⟩ | rfl
          · exact hlength
          · rw [List.length_append] at hlength
            omega
        obtain ⟨hencoded, hquery⟩ :=
          (httpParseTarget_of_split hsplit hquestion hpath).mp hresult
        rw [hquery]
        rcases htarget with ⟨rfl, hnil⟩ | rfl
        · rw [hnil]
          exact .path hencoded
        · exact .query hencoded
  · intro htarget
    generalize hquery : parsed.query = query at htarget
    generalize hpath : parsed.path = path at htarget
    cases htarget with
    | path hencoded =>
        have hsplit := (httpSplitTarget_eq_some_iff
          { path := target, query := [] } hlength).mpr
          ⟨hencoded.question, hencoded.ne_nil, .inl ⟨rfl, rfl⟩⟩
        exact (httpParseTarget_of_split hsplit hencoded.question hlength).mpr
          ⟨hpath ▸ hencoded, hquery⟩
    | @query encoded _ _ hencoded =>
        have hsplit := (httpSplitTarget_eq_some_iff
          { path := encoded, query := query } hlength).mpr
          ⟨hencoded.question, hencoded.ne_nil, .inr rfl⟩
        refine (httpParseTarget_of_split hsplit hencoded.question ?_).mpr
          ⟨hpath ▸ hencoded, hquery⟩
        rw [List.length_append] at hlength
        dsimp only
        omega

theorem httpValidHeaderName_iff {name : List Byte} :
    httpValidHeaderName name = true ↔ name ≠ [] ∧ ∀ c ∈ name, IsTchar c := by
  rw [httpValidHeaderName]
  split_ifs with hempty
  · simp [List.length_eq_zero_iff.mp hempty]
  · simp only [List.all_eq_true, httpIsTchar_iff]
    exact ⟨fun h => ⟨fun hnil => hempty (by simp [hnil]), h⟩, fun h => h.2⟩

theorem httpValidHeaderValue_iff {value : List Byte} :
    httpValidHeaderValue value = true ↔ ∀ c ∈ value, IsText c := by
  have htext : ∀ c : Byte,
      (!((c < 32 && c ≠ htab) || c = 127)) = true ↔ IsText c := by
    intro c
    simp [IsText, UInt8.not_lt, or_comm]
  simp only [httpValidHeaderValue, List.all_eq_true, htext]

theorem IsTchar.ne {c : Byte} (h : IsTchar c) :
    c ≠ cr ∧ c ≠ sp ∧ c ≠ htab ∧ c ≠ colon := by
  refine ⟨?_, ?_, ?_, ?_⟩ <;>
    · rintro rfl
      revert h
      decide

theorem IsText.ne_cr {c : Byte} (h : IsText c) : c ≠ cr := by
  rintro rfl
  revert h
  rw [IsText]
  decide

/-- A header line contains no carriage return, so it ends at the first CRLF
behind it. -/
theorem HeaderLine.cr_notMem {config : ServerConfig} {header : HttpHeader}
    {line : List Byte} (h : HeaderLine config header line) : cr ∉ line := by
  cases h with
  | mk hname hbefore hafter hvalue htext hlength =>
      intro hmem
      simp only [List.mem_append, List.mem_cons] at hmem
      rcases hmem with hmem | hmem | (hmem | hmem) | hmem
      · exact (hname.tchar _ hmem).ne.1 rfl
      · exact absurd hmem (by decide)
      · exact absurd (hbefore _ hmem) (by decide)
      · exact (htext _ hmem).ne_cr rfl
      · exact absurd (hafter _ hmem) (by decide)

/-- A header line does not look like the empty line. -/
theorem HeaderLine.take_two_ne {config : ServerConfig} {header : HttpHeader}
    {line : List Byte} (h : HeaderLine config header line)
    (after : List Byte) : (line ++ after).take 2 ≠ crlf := by
  intro htake
  have hcr := h.cr_notMem
  cases line with
  | nil =>
      generalize hline : ([] : List Byte) = line at h
      cases h
      simp at hline
  | cons c line =>
      rw [List.cons_append, List.take_succ_cons, crlf, List.cons.injEq] at htake
      exact hcr (htake.1 ▸ List.mem_cons_self)

/-- The first colon of a header line ends its name. -/
theorem HeaderLine.memchr_colon {config : ServerConfig} {header : HttpHeader}
    {line : List Byte} (h : HeaderLine config header line)
    (after : List Byte) :
    memchr (line ++ after) colon line.length = some header.name.length := by
  cases h with
  | mk hname hbefore hafter hvalue htext hlength =>
      rw [memchr, List.take_left]
      exact firstOccurrence_singleton_append
        (fun hmem => (hname.tchar _ hmem).ne.2.2.2 rfl) _

/-- The pieces that a round cuts out of a line. -/
theorem header_pieces (name tail after : List Byte) :
    (name ++ colon :: tail ++ crlf ++ after).take name.length = name ∧
      (((name ++ colon :: tail ++ crlf ++ after).take
        (name ++ colon :: tail).length).drop (name.length + 1)) = tail ∧
      (name ++ colon :: tail ++ crlf ++ after).drop
        ((name ++ colon :: tail).length + 2) = after := by
  refine ⟨?_, ?_, ?_⟩
  · rw [List.append_assoc, List.append_assoc, List.take_left]
  · rw [List.append_assoc, List.take_left, ← List.drop_drop, List.drop_left]
    rfl
  · rw [← List.drop_drop, List.append_assoc, List.drop_left]
    rfl

/-- A round of the header loop that goes on has read one header line. -/
theorem httpParseHeader_eq_inl_iff {config : ServerConfig}
    {scan next : HeaderScan} :
    httpParseHeader config scan = .inl next ↔
      scan.request.headers.length < config.httpMaxHeaders ∧
        ∃ header line, HeaderLine config header line ∧
          scan.line = line ++ crlf ++ next.line ∧
          next.request = { scan.request with
            headers := scan.request.headers ++ [header] } := by
  obtain ⟨text, request⟩ := scan
  constructor
  · intro hround
    simp only [httpParseHeader] at hround
    split_ifs at hround with hempty hmany
    cases hend : strstr text crlf with
    | none => simp [hend] at hround
    | some lineEnd =>
        obtain ⟨line, after, rfl, rfl, hline⟩ :=
          strstr_crlf_eq_some_iff.mp hend
        simp only [hend] at hround
        cases hcolon : memchr (line ++ crlf ++ after) colon line.length with
        | none =>
            rw [hcolon] at hround
            cases hround
        | some nameLength =>
            simp only [hcolon] at hround
            obtain ⟨name, tail, hsplit, rfl, hname⟩ :=
              memchr_eq_some_iff.mp hcolon
            rw [List.append_assoc, List.take_left] at hsplit
            subst hsplit
            obtain ⟨hcutName, hcutTail, hcutAfter⟩ :=
              header_pieces name tail after
            rw [hcutName, hcutTail, hcutAfter] at hround
            split_ifs at hround with hblank hvalid hlong hvalue hbig
            cases hround
            obtain ⟨left, right, htail, hleft, hright⟩ :=
              exists_eq_append_trim isOws tail
            obtain ⟨hne, htchar⟩ := httpValidHeaderName_iff.mp hvalid
            refine ⟨Nat.lt_of_not_le hmany,
              { name := name, value := trimOws tail }, _, ?_, rfl, rfl⟩
            have hheader : HeaderLine config
                { name := name, value := trimOws tail }
                (name ++ colon :: (left ++ trimOws tail ++ right)) := .mk
              ⟨hne, Nat.lt_of_not_le hlong, htchar⟩ hleft hright
              (trimmed_trim tail) (httpValidHeaderValue_iff.mp hvalue)
              (Nat.lt_of_not_le hbig)
            rwa [trimOws, ← htail] at hheader
  · rintro ⟨hroom, header, line, hheader, htext, hnext⟩
    dsimp only at hroom htext hnext
    subst htext
    have hempty := hheader.take_two_ne (crlf ++ next.line)
    have hend := strstr_crlf_append
      (not_crlf_infix_of_notMem _ (by decide) hheader.cr_notMem) next.line
    have hcolon := hheader.memchr_colon (crlf ++ next.line)
    rw [← List.append_assoc] at hempty hcolon
    simp only [httpParseHeader, hempty, hend, hcolon, if_false,
      Nat.not_le_of_lt hroom]
    cases hheader with
    | @mk before after hname hbefore hafter hvalue htext hlength =>
        obtain ⟨hcutName, hcutTail, hcutAfter⟩ := header_pieces header.name
          (before ++ header.value ++ after) next.line
        have htrim : trimOws (before ++ header.value ++ after) = header.value :=
          trim_append_append hbefore hafter hvalue
        have hlast : ¬ (header.name.length = 0 ∨
            header.name.getLast? = some sp ∨
              header.name.getLast? = some htab) := by
          rw [List.length_eq_zero_iff]
          rintro (hnil | hsp | htab)
          · exact hname.ne_nil hnil
          · exact (hname.tchar _ (List.mem_of_getLast? hsp)).ne.2.1 rfl
          · exact (hname.tchar _ (List.mem_of_getLast? htab)).ne.2.2.1 rfl
        rw [hcutName, hcutTail, hcutAfter, htrim, if_neg hlast,
          if_neg (by simp [httpValidHeaderName_iff.mpr
            ⟨hname.ne_nil, hname.tchar⟩]),
          if_neg (Nat.not_le_of_lt hname.length_lt),
          if_neg (by simp [httpValidHeaderValue_iff.mpr htext]),
          if_neg (Nat.not_le_of_lt hlength), ← hnext]

/-- A round leaves with a request at the empty line only. -/
theorem httpParseHeader_eq_inr_ok_iff {config : ServerConfig}
    {scan : HeaderScan} {request : HttpRequest} {rest : List Byte} :
    httpParseHeader config scan = .inr (.ok request, rest) ↔
      request = scan.request ∧ rest = scan.line ∧
        ∃ after, scan.line = crlf ++ after := by
  have htake : scan.line.take 2 = crlf ↔ ∃ after, scan.line = crlf ++ after := by
    constructor
    · intro htake
      exact ⟨scan.line.drop 2, by rw [← htake, List.take_append_drop]⟩
    · rintro ⟨after, hline⟩
      rw [hline]
      rfl
  rw [← htake]
  constructor
  · intro hround
    simp only [httpParseHeader] at hround
    split_ifs at hround with hempty hmany
    · cases hround
      exact ⟨rfl, rfl, hempty⟩
    · cases hround
    · cases hend : strstr scan.line crlf with
      | none => simp [hend] at hround
      | some lineEnd =>
          simp only [hend] at hround
          cases hcolon : memchr scan.line colon lineEnd with
          | none => simp [hcolon] at hround
          | some nameLength =>
              simp only [hcolon] at hround
              split_ifs at hround <;> cases hround
  · rintro ⟨rfl, rfl, hempty⟩
    simp [httpParseHeader, hempty]

theorem exists_header_of_mem {config : ServerConfig}
    {headers : List HttpHeader} {lines : List (List Byte)}
    (hall : List.Forall₂ (HeaderLine config) headers lines) {line : List Byte}
    (hline : line ∈ lines) :
    ∃ header ∈ headers, HeaderLine config header line := by
  induction hall with
  | nil => simp at hline
  | @cons header _ headers _ hheader hall ih =>
      rcases List.mem_cons.mp hline with rfl | hline
      · exact ⟨header, List.mem_cons_self, hheader⟩
      · obtain ⟨other, hother, hmatch⟩ := ih hline
        exact ⟨other, List.mem_cons_of_mem _ hother, hmatch⟩

theorem exists_line_of_mem {config : ServerConfig}
    {headers : List HttpHeader} {lines : List (List Byte)}
    (hall : List.Forall₂ (HeaderLine config) headers lines)
    {header : HttpHeader} (hheader : header ∈ headers) :
    ∃ line, HeaderLine config header line := by
  induction hall with
  | nil => simp at hheader
  | cons hline hall ih =>
      rcases List.mem_cons.mp hheader with rfl | hheader
      · exact ⟨_, hline⟩
      · exact ih hheader

/-- The header lines of a request, each with its CRLF. -/
def headerBlockOf (lines : List (List Byte)) : List Byte :=
  lines.flatMap (· ++ crlf)

/-- What the header loop has read when it leaves with a request. -/
theorem httpParseHeaderLoop_sound {config : ServerConfig} {scan : HeaderScan}
    {request : HttpRequest} {rest : List Byte}
    (hrun : (httpParseHeaderLoop config).run scan = (.ok request, rest)) :
    ∃ headers lines after, scan.line = headerBlockOf lines ++ rest ∧
      rest = crlf ++ after ∧
      request = { scan.request with
        headers := scan.request.headers ++ headers } ∧
      List.Forall₂ (HeaderLine config) headers lines ∧
      (headers = [] ∨
        scan.request.headers.length + headers.length ≤
          config.httpMaxHeaders) := by
  refine (httpParseHeaderLoop config).run_induction
    (motive := fun scan result => result = (.ok request, rest) →
      ∃ headers lines after, scan.line = headerBlockOf lines ++ rest ∧
        rest = crlf ++ after ∧
        request = { scan.request with
          headers := scan.request.headers ++ headers } ∧
        List.Forall₂ (HeaderLine config) headers lines ∧
        (headers = [] ∨
          scan.request.headers.length + headers.length ≤
            config.httpMaxHeaders)) ?_ ?_ scan hrun
  · rintro scan _ hbody rfl
    obtain ⟨rfl, rfl, after, hafter⟩ := httpParseHeader_eq_inr_ok_iff.mp hbody
    exact ⟨[], [], after, rfl, hafter, by simp, .nil, .inl rfl⟩
  · intro scan next result hbody hnext hresult
    obtain ⟨hroom, header, line, hheader, hline, hrequest⟩ :=
      httpParseHeader_eq_inl_iff.mp hbody
    obtain ⟨headers, lines, after, htext, hafter, hdone, hall, hcount⟩ :=
      hnext hresult
    refine ⟨header :: headers, line :: lines, after, ?_, hafter, ?_,
      .cons hheader hall, .inr ?_⟩
    · simp [hline, htext, headerBlockOf]
    · simp [hdone, hrequest]
    · rw [hrequest] at hcount
      rcases hcount with rfl | hcount
      · simp
        omega
      · simp at hcount ⊢
        omega

/-- The header loop reads every list of header lines that is short enough. -/
theorem httpParseHeaderLoop_complete {config : ServerConfig}
    {headers : List HttpHeader} {lines : List (List Byte)}
    (hall : List.Forall₂ (HeaderLine config) headers lines)
    {request : HttpRequest} (after : List Byte)
    (hcount : request.headers.length + headers.length ≤
      config.httpMaxHeaders) :
    (httpParseHeaderLoop config).run
        { line := headerBlockOf lines ++ crlf ++ after, request := request } =
      (.ok { request with headers := request.headers ++ headers },
        crlf ++ after) := by
  induction hall generalizing request with
  | nil =>
      have hexit : httpParseHeader config
          { line := headerBlockOf [] ++ crlf ++ after, request := request } =
          .inr (.ok { request with headers := request.headers ++ [] },
            crlf ++ after) :=
        httpParseHeader_eq_inr_ok_iff.mpr ⟨by simp, rfl, after, rfl⟩
      exact (httpParseHeaderLoop config).run_of_exit hexit
  | @cons header line headers lines hheader hall ih =>
      rw [List.length_cons] at hcount
      have hround : httpParseHeader config
          { line := headerBlockOf (line :: lines) ++ crlf ++ after
            request := request } =
          .inl { line := headerBlockOf lines ++ crlf ++ after
                 request := { request with
                  headers := request.headers ++ [header] } } := by
        refine httpParseHeader_eq_inl_iff.mpr
          ⟨by dsimp only; omega, header, line, hheader, ?_, rfl⟩
        simp [headerBlockOf]
      rw [(httpParseHeaderLoop config).run_of_continue hround, ih]
      · simp
      · simp
        omega

/-- A line that contains a space, cut at its first. -/
theorem memchr_sp_append {before : List Byte} (hbefore : sp ∉ before)
    (tail after : List Byte) :
    memchr (before ++ sp :: tail ++ after) sp (before ++ sp :: tail).length =
      some before.length := by
  rw [memchr, List.take_left]
  exact firstOccurrence_singleton_append hbefore _

theorem drop_space (before tail after : List Byte) :
    (before ++ sp :: tail ++ after).drop (before.length + 1) =
      tail ++ after := by
  rw [List.append_assoc, ← List.drop_drop, List.drop_left]
  rfl

/-- What the searches of the parser leave of a request line. -/
theorem httpParseRequestLine_of_pieces {method target version : List Byte}
    (hmethod : sp ∉ method) (htarget : sp ∉ target)
    (hcrlf : ¬ crlf <:+: method ++ sp :: (target ++ sp :: version))
    (after : List Byte) :
    httpParseRequestLine
        (method ++ sp :: (target ++ sp :: version) ++ (crlf ++ after)) =
      if sp ∈ version then none
      else if method.length = 0 ∨ methodSize ≤ method.length then none
      else if ¬ httpValidHeaderName method then none
      else if target.length = 0 ∨ targetSize ≤ target.length then none
      else if version.length = 0 ∨ methodSize ≤ version.length then none
      else some { method := method, target := target, version := version } := by
  have hend := strstr_crlf_append hcrlf after
  rw [List.append_assoc] at hend
  have hfirst := memchr_sp_append hmethod (target ++ sp :: version)
    (crlf ++ after)
  have hsecond := memchr_sp_append htarget version (crlf ++ after)
  have hafterFirst := drop_space method (target ++ sp :: version)
    (crlf ++ after)
  have hafterSecond : (method ++ sp :: (target ++ sp :: version) ++
      (crlf ++ after)).drop (method.length + 1 + target.length + 1) =
        version ++ (crlf ++ after) := by
    rw [Nat.add_assoc, ← List.drop_drop, hafterFirst, drop_space]
  have htargetLength : (method ++ sp :: (target ++ sp :: version)).length -
      method.length - 1 = (target ++ sp :: version).length := by
    simp only [List.length_append, List.length_cons]
    omega
  have hversionLength : (method ++ sp :: (target ++ sp :: version)).length -
      (method.length + 1 + target.length) - 1 = version.length := by
    simp only [List.length_append, List.length_cons]
    omega
  simp only [httpParseRequestLine, hend, hfirst, Option.bind_eq_bind,
    Option.bind_some, hafterFirst, htargetLength, hsecond, hafterSecond,
    hversionLength, List.take_left]
  have hthird : (memchr (version ++ (crlf ++ after)) sp
      version.length).isSome = true ↔ sp ∈ version := by
    rw [memchr, List.take_left, isSome_firstOccurrence_iff,
      List.singleton_infix_iff]
  have htakeMethod : (method ++ sp :: (target ++ sp :: version) ++
      (crlf ++ after)).take method.length = method := by
    rw [List.append_assoc, List.take_left]
  have htakeTarget : (target ++ sp :: version ++ (crlf ++ after)).take
      target.length = target := by
    rw [List.append_assoc, List.take_left]
  simp only [hthird, htakeMethod, htakeTarget]

/-- The request line, from its first to its last byte. -/
theorem httpParseRequestLine_eq_some_iff {text : List Byte}
    {line : RequestLine} :
    httpParseRequestLine text = some line ↔
      (Token methodSize line.method ∧ sp ∉ line.target ∧ sp ∉ line.version ∧
        line.target ≠ [] ∧ line.target.length < targetSize ∧
        line.version ≠ [] ∧ line.version.length < methodSize) ∧
      ¬ crlf <:+: line.method ++ sp :: (line.target ++ sp :: line.version) ∧
      ∃ after, text = line.method ++ sp :: (line.target ++
        sp :: line.version) ++ (crlf ++ after) := by
  constructor
  · intro hparse
    have hsearches := hparse
    simp only [httpParseRequestLine, Option.bind_eq_bind,
      Option.bind_eq_some_iff] at hsearches
    obtain ⟨lineEnd, hend, firstSpace, hfirst, targetLength, hsecond, -⟩ :=
      hsearches
    obtain ⟨whole, after, rfl, rfl, hwhole⟩ := strstr_crlf_eq_some_iff.mp hend
    obtain ⟨method, tail, hsplit, rfl, hmethod⟩ := memchr_eq_some_iff.mp hfirst
    rw [List.append_assoc] at hsecond hsplit hparse ⊢
    rw [List.take_left] at hsplit
    subst hsplit
    have hcount : (method ++ sp :: tail).length - method.length - 1 =
        tail.length := by
      simp only [List.length_append, List.length_cons]
      omega
    rw [drop_space, hcount] at hsecond
    obtain ⟨target, version, hsplit, rfl, htarget⟩ :=
      memchr_eq_some_iff.mp hsecond
    rw [List.take_left] at hsplit
    subst hsplit
    rw [httpParseRequestLine_of_pieces hmethod htarget hwhole] at hparse
    split_ifs at hparse with hversion hmethodSize hname htargetSize hversionSize
    cases hparse
    obtain ⟨hne, htchar⟩ := httpValidHeaderName_iff.mp hname
    simp only [List.length_eq_zero_iff, not_or, Nat.not_le] at *
    exact ⟨⟨⟨hne, hmethodSize.2, htchar⟩, htarget, hversion, htargetSize.1,
      htargetSize.2, hversionSize.1, hversionSize.2⟩, hwhole, after, rfl⟩
  · rintro ⟨⟨htoken, htarget, hversion, htargetNe, htargetLength, hversionNe,
      hversionLength⟩, hcrlf, after, rfl⟩
    have hmethod : sp ∉ line.method := fun hmem =>
      (htoken.tchar _ hmem).ne.2.1 rfl
    rw [httpParseRequestLine_of_pieces hmethod htarget hcrlf]
    simp only [List.length_eq_zero_iff, htoken.ne_nil, htargetNe, hversionNe,
      hversion, false_or, if_false, Nat.not_le_of_lt htoken.length_lt,
      Nat.not_le_of_lt htargetLength, Nat.not_le_of_lt hversionLength,
      httpValidHeaderName_iff.mpr ⟨htoken.ne_nil, htoken.tchar⟩, not_true]

/-- The scan of the headers starts behind the request line. -/
theorem httpParseHeaders_of_line {config : ServerConfig} {line : List Byte}
    (hline : ¬ crlf <:+: line) (after : List Byte) (request : HttpRequest) :
    httpParseHeaders (line ++ (crlf ++ after)) request config =
      (httpParseHeaderLoop config).run
        { line := after, request := request } := by
  have hend := strstr_crlf_append hline after
  have hdrop : (line ++ (crlf ++ after)).drop (line.length + 2) = after := by
    rw [← List.drop_drop, List.drop_left]
    rfl
  rw [List.append_assoc] at hend
  simp only [httpParseHeaders, hend, hdrop]

/-- Between two tokens only the target could contain a CRLF. -/
theorem crlf_infix_requestLine_iff {method target version : List Byte}
    (hmethod : Token methodSize method) (hversion : IsVersion version) :
    crlf <:+: method ++ sp :: (target ++ sp :: version) ↔
      crlf <:+: target := by
  have hmethodCr : ¬ crlf <:+: method :=
    not_crlf_infix_of_notMem cr (by decide)
      fun hmem => (hmethod.tchar _ hmem).ne.1 rfl
  have hversionCr : ¬ crlf <:+: version := by
    apply not_crlf_infix_of_notMem cr (by decide)
    rcases hversion with rfl | rfl <;> decide
  rw [crlf] at *
  rw [pair_infix_append_cons_iff (by decide) (by decide),
    pair_infix_append_cons_iff (by decide) (by decide)]
  simp [hmethodCr, hversionCr]

/-- The request in front of the scan of its headers. -/
def withoutHeaders (line : RequestLine) (target : ParsedTarget) :
    HttpRequest where
  method := line.method
  path := target.path
  query := target.query
  version := line.version
  headers := []

/-- The steps of an accepting run of the parser. -/
theorem httpParseRequest_eq_ok_steps {buffer : CString} {config : ServerConfig}
    {request : HttpRequest} :
    httpParseRequest buffer config = .ok request ↔
      ∃ line target, httpParseRequestLine buffer.bytes = some line ∧
        IsVersion line.version ∧ httpParseTarget line.target = some target ∧
        (httpParseHeaders buffer.bytes (withoutHeaders line target) config).1 =
          .ok request := by
  have hversion : ∀ version : List Byte, (version ≠ ascii "HTTP/1.1" ∧
      version ≠ ascii "HTTP/1.0") ↔ ¬ IsVersion version := by
    intro version
    rw [IsVersion, not_or]
    exact and_comm
  rw [httpParseRequest]
  cases hline : httpParseRequestLine buffer.bytes with
  | none => simp
  | some line =>
      dsimp only
      by_cases hisVersion : IsVersion line.version
      · rw [if_neg fun h => (hversion line.version).mp h hisVersion]
        cases htarget : httpParseTarget line.target with
        | none =>
            constructor
            · intro hbad
              cases hbad
            · rintro ⟨_, _, ⟨rfl⟩, _, hsome, _⟩
              simp [htarget] at hsome
        | some target =>
            constructor
            · exact fun h => ⟨line, target, rfl, hisVersion, htarget, h⟩
            · rintro ⟨_, _, ⟨rfl⟩, _, hsome, h⟩
              rw [htarget, Option.some.injEq] at hsome
              subst hsome
              exact h
      · rw [if_pos ((hversion line.version).mpr hisVersion)]
        constructor
        · intro hbad
          cases hbad
        · rintro ⟨_, _, ⟨rfl⟩, hother, _⟩
          exact absurd hother hisVersion

/-- An accepted text, with the place at which the scan of the headers stops. -/
theorem httpParseRequest_sound {buffer : CString} {config : ServerConfig}
    {request : HttpRequest}
    (hparse : httpParseRequest buffer config = .ok request) :
    ∃ target lines after,
      (Token methodSize request.method ∧ sp ∉ target ∧ ¬ crlf <:+: target ∧
        target.length < targetSize ∧
        TargetOf target request.path request.query ∧
        IsVersion request.version ∧
        List.Forall₂ (HeaderLine config) request.headers lines ∧
        request.headers.length ≤ config.httpMaxHeaders) ∧
      buffer.bytes = request.method ++ sp :: (target ++ sp :: request.version) ++
        (crlf ++ (headerBlockOf lines ++ (crlf ++ after))) ∧
      httpParseHeaders buffer.bytes { request with headers := [] } config =
        (.ok request, crlf ++ after) := by
  obtain ⟨line, target, hline, hversion, htarget, hheaders⟩ :=
    httpParseRequest_eq_ok_steps.mp hparse
  obtain ⟨⟨htoken, hspace, _, _, htargetLength, _, _⟩, hcrlf, after, htext⟩ :=
    httpParseRequestLine_eq_some_iff.mp hline
  have htargetOf := (httpParseTarget_eq_some_iff htargetLength).mp htarget
  rw [htext, httpParseHeaders_of_line hcrlf] at hheaders
  obtain ⟨rest, hrun⟩ : ∃ rest, (httpParseHeaderLoop config).run
      { line := after, request := withoutHeaders line target } =
        (.ok request, rest) := ⟨_, Prod.ext hheaders rfl⟩
  obtain ⟨headers, lines, tail, hlines, rfl, rfl, hall, hcount⟩ :=
    httpParseHeaderLoop_sound hrun
  refine ⟨line.target, lines, tail, ⟨htoken, hspace, fun hcontains => hcrlf
    ((crlf_infix_requestLine_iff htoken hversion).mpr hcontains), htargetLength,
    htargetOf, hversion, hall, ?_⟩, ?_, ?_⟩
  · rcases hcount with rfl | hcount
    · exact Nat.zero_le _
    · simpa [withoutHeaders] using hcount
  · rw [htext]
    exact congrArg _ (congrArg _ hlines)
  · rw [htext, httpParseHeaders_of_line hcrlf]
    exact hrun

theorem httpParseRequest_complete {buffer : CString} {config : ServerConfig}
    {request : HttpRequest} (haccepts : Accepts config buffer.bytes request) :
    httpParseRequest buffer config = .ok request := by
  obtain ⟨text, hnul⟩ := buffer
  dsimp only at haccepts
  cases haccepts with
  | @mk _ target lines after hmethod hspace hcrlf hlength htarget hversion
      hheaders hcount =>
      have hne := htarget.ne_nil
      have hversionBytes : sp ∉ request.version ∧ request.version ≠ [] ∧
          request.version.length < methodSize := by
        rcases hversion with hv | hv <;> rw [hv] <;> decide
      have hline : ¬ crlf <:+: request.method ++
          sp :: (target ++ sp :: request.version) := fun hcontains =>
        hcrlf ((crlf_infix_requestLine_iff hmethod hversion).mp hcontains)
      have htext : request.method ++ sp :: target ++ sp :: request.version ++
          crlf ++ lines.flatMap (· ++ crlf) ++ crlf ++ after =
        request.method ++ sp :: (target ++ sp :: request.version) ++
          (crlf ++ (headerBlockOf lines ++ crlf ++ after)) := by
        simp [headerBlockOf]
      refine httpParseRequest_eq_ok_steps.mpr
        ⟨{ method := request.method
           target := target
           version := request.version },
          { path := request.path, query := request.query }, ?_, hversion,
          (httpParseTarget_eq_some_iff hlength).mpr htarget, ?_⟩
      · exact httpParseRequestLine_eq_some_iff.mpr ⟨⟨hmethod, hspace,
          hversionBytes.1, hne, hlength, hversionBytes.2⟩, hline, _, htext⟩
      · dsimp only
        rw [htext, httpParseHeaders_of_line hline,
          httpParseHeaderLoop_complete hheaders after
            (by simpa [withoutHeaders] using hcount)]
        simp [withoutHeaders]

/-- The parser accepts exactly the grammar and returns exactly the fields. -/
theorem httpParseRequest_eq_ok_iff {buffer : CString} {config : ServerConfig}
    {request : HttpRequest} :
    httpParseRequest buffer config = .ok request ↔
      Accepts config buffer.bytes request := by
  constructor
  · intro hparse
    obtain ⟨target, lines, after, ⟨hmethod, hspace, hcrlf, hlength, htarget,
      hversion, hall, hcount⟩, htext, -⟩ := httpParseRequest_sound hparse
    have haccepts := Accepts.mk after hmethod hspace hcrlf hlength htarget
      hversion hall hcount
    rw [htext]
    simpa [headerBlockOf] using haccepts
  · exact httpParseRequest_complete

end HttpCerver.Grammar
