import HttpCerver.Server.Http

/-!
# Declared bodies

What `http_validate_request_framing` decides: a request is let through just
when its headers do not declare a body.  A `Content-Length` declares none only
if its value is a run of zeros; the accumulator never wraps around to zero.
-/

namespace HttpCerver.Framing

open HttpCerver.Bytes
open HttpCerver.Http
open HttpCerver.Numerals
open HttpCerver.Request
open HttpCerver.Trim

def isContentLength (header : HttpHeader) : Bool :=
  strcasecmp header.name (ascii "Content-Length")

def isTransferEncoding (header : HttpHeader) : Bool :=
  strcasecmp header.name (ascii "Transfer-Encoding")

/-- The value of a length that announces an empty body: a run of zeros. -/
def IsZero (value : List Byte) : Prop :=
  value ≠ [] ∧ ∀ c ∈ value, c = 48

/-- The headers announce a body, or do not say clearly that there is none. -/
def DeclaresBody (headers : List HttpHeader) : Prop :=
  headers.any isTransferEncoding ∨ 1 < headers.countP isContentLength ∨
    ∃ header ∈ headers, isContentLength header ∧ ¬ IsZero header.value

/-- What the scan has found behind `headers`. -/
def FramingScan.after (scan : FramingScan) (headers : List HttpHeader) :
    FramingScan where
  contentLength :=
    if headers.countP isContentLength = 0 then scan.contentLength
    else (headers.find? isContentLength).map (·.value)
  contentLengthCount :=
    scan.contentLengthCount + headers.countP isContentLength
  transferEncodingPresent :=
    scan.transferEncodingPresent || headers.any isTransferEncoding

theorem httpScanFraming_cons_of_length {header : HttpHeader}
    (hlength : isContentLength header = true) (headers : List HttpHeader)
    (scan : FramingScan) :
    httpScanFraming (header :: headers) scan =
      if 1 < scan.contentLengthCount + 1 then none
      else
        httpScanFraming headers
          { contentLength := some header.value
            contentLengthCount := scan.contentLengthCount + 1
            transferEncodingPresent :=
              scan.transferEncodingPresent || isTransferEncoding header } := by
  rw [isContentLength] at hlength
  simp only [httpScanFraming, hlength, true_and, if_true]
  rfl

theorem httpScanFraming_cons_of_not_length {header : HttpHeader}
    (hlength : isContentLength header = false) (headers : List HttpHeader)
    (scan : FramingScan) :
    httpScanFraming (header :: headers) scan =
      httpScanFraming headers
        { scan with
          transferEncodingPresent :=
            scan.transferEncodingPresent || isTransferEncoding header } := by
  rw [isContentLength] at hlength
  rw [httpScanFraming]
  simp only [hlength]
  rfl

/-- The scan over the headers in closed form. -/
theorem httpScanFraming_eq (headers : List HttpHeader) {scan : FramingScan}
    (hcount : scan.contentLengthCount ≤ 1) :
    httpScanFraming headers scan =
      if scan.contentLengthCount + headers.countP isContentLength ≤ 1 then
        some (FramingScan.after scan headers)
      else none := by
  induction headers generalizing scan with
  | nil => simp [httpScanFraming, hcount, FramingScan.after]
  | cons header headers ih =>
      cases hlength : isContentLength header with
      | true =>
          rw [httpScanFraming_cons_of_length hlength,
            List.countP_cons_of_pos hlength]
          by_cases hfirst : 1 < scan.contentLengthCount + 1
          · rw [if_pos hfirst, if_neg (by omega)]
          · rw [if_neg hfirst, ih (by dsimp only; omega)]
            dsimp only
            split_ifs with hone hsame hsame
            · have hnone : headers.countP isContentLength = 0 := by omega
              simp [FramingScan.after, hlength, hnone, Bool.or_assoc]
            · omega
            · omega
            · rfl
      | false =>
          rw [httpScanFraming_cons_of_not_length hlength,
            List.countP_cons_of_neg (by simp [hlength]), ih (by simpa)]
          simp [FramingScan.after, hlength, Bool.or_assoc]

/-- A length that accumulates to zero has zeros as its only digits. -/
theorem httpAccumulateLength_eq_zero_iff {digits : List Byte} {start : ℕ} :
    httpAccumulateLength digits start = some 0 ↔
      start = 0 ∧ ∀ c ∈ digits, c = 48 := by
  induction digits generalizing start with
  | nil => simp [httpAccumulateLength]
  | cons c digits ih =>
      rw [httpAccumulateLength]
      dsimp only
      split_ifs with hdigit hguard
      · have hstart : start ≠ 0 := by omega
        simp [hstart]
      · have hzero : c.toNat - 48 = 0 ↔ c = 48 := by
          have hlow : 48 ≤ c.toNat := by
            simp only [isdigit, Bool.and_eq_true, decide_eq_true_eq,
              UInt8.le_iff_toNat_le] at hdigit
            exact hdigit.1
          rw [← UInt8.toNat_inj]
          simp only [UInt8.reduceToNat]
          omega
        rw [ih, List.forall_mem_cons, ← hzero, ← and_assoc]
        exact and_congr_left fun _ => by omega
      · have hzero : c ≠ 48 := by
          rintro rfl
          exact hdigit (by decide)
        simp [hzero]

/-- A trimmed value is accepted as a length just when it is a run of zeros. -/
theorem accepted_length_iff {value : List Byte} (hvalue : Trimmed isOws value) :
    (value ≠ [] ∧ value.rdropWhile isOws ≠ [] ∧
      httpAccumulateLength (value.rdropWhile isOws) 0 = some 0) ↔
      IsZero value := by
  rw [hvalue.rdropWhile_eq, httpAccumulateLength_eq_zero_iff, IsZero]
  simp

/-- The only element that satisfies a predicate is the one that is found. -/
theorem eq_of_countP_le_one {headers : List HttpHeader} {found : HttpHeader}
    (hcount : headers.countP isContentLength ≤ 1)
    (hfound : headers.find? isContentLength = some found)
    {header : HttpHeader} (hmem : header ∈ headers)
    (hlength : isContentLength header = true) : header = found := by
  obtain ⟨hfirst, before, after, rfl, hbefore⟩ :=
    List.find?_eq_some_iff_append.mp hfound
  rw [List.countP_append, List.countP_cons_of_pos hfirst] at hcount
  have hafter : after.countP isContentLength = 0 := by omega
  rw [List.countP_eq_zero] at hafter
  rcases List.mem_append.mp hmem with hmem | hmem
  · simpa [hlength] using hbefore header hmem
  · rcases List.mem_cons.mp hmem with rfl | hmem
    · rfl
    · exact absurd hlength (hafter header hmem)

/-- A request is let through just when it does not declare a body. -/
theorem httpValidateRequestFraming_eq_none_iff {request : HttpRequest}
    (htrimmed : ∀ header ∈ request.headers, Trimmed isOws header.value) :
    httpValidateRequestFraming request = none ↔
      ¬ DeclaresBody request.headers := by
  rw [httpValidateRequestFraming, httpScanFraming_eq request.headers (by simp),
    DeclaresBody, not_or, not_or]
  dsimp only
  rw [Nat.zero_add]
  by_cases hmany : request.headers.countP isContentLength ≤ 1
  · rw [if_pos hmany]
    simp only [FramingScan.after, Bool.false_or]
    by_cases hencoding : request.headers.any isTransferEncoding = true
    · simp [hencoding]
    · rw [if_neg hencoding]
      cases hfound : request.headers.find? isContentLength with
      | none =>
          have hnone := List.find?_eq_none.mp hfound
          have hzero : request.headers.countP isContentLength = 0 :=
            List.countP_eq_zero.mpr hnone
          simp only [hzero, if_true, true_iff]
          refine ⟨hencoding, by omega, ?_⟩
          rintro ⟨header, hmem, hlength, -⟩
          exact hnone header hmem hlength
      | some header =>
          have hmem := List.mem_of_find?_eq_some hfound
          have hlength := List.find?_some hfound
          have hpos : request.headers.countP isContentLength ≠ 0 :=
            Nat.ne_of_gt (List.countP_pos_iff.mpr ⟨header, hmem, hlength⟩)
          have hall : (∃ other ∈ request.headers, isContentLength other ∧
              ¬ IsZero other.value) ↔ ¬ IsZero header.value := by
            constructor
            · rintro ⟨other, hother, hotherLength, hzero⟩
              rwa [eq_of_countP_le_one hmany hfound hother hotherLength]
                at hzero
            · exact fun hzero => ⟨header, hmem, hlength, hzero⟩
          rw [hall, ← accepted_length_iff (htrimmed header hmem)]
          simp only [hpos, if_false, Option.map_some, hencoding,
            Nat.not_lt_of_le hmany, not_false_eq_true, true_and, not_not]
          split_ifs with hempty hdigits
          · simp [hempty]
          · simp [hdigits]
          · cases hlengthValue : httpAccumulateLength
                (header.value.rdropWhile isOws) 0 with
            | none => simp
            | some length =>
                by_cases hzero : length = 0 <;> simp [hempty, hdigits, hzero]
  · rw [if_neg hmany]
    simp
    omega

end HttpCerver.Framing
