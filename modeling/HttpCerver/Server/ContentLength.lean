import HttpCerver.Server.Framing

/-!
# The value of a length

The loop of `http_validate_request_framing` computes the number that a string
of digits denotes, as long as it fits `unsigned long long`.  The guard in front
of each step is exact, so the loop on 64-bit words never wraps around.
-/

namespace HttpCerver.ContentLength

open HttpCerver.Bytes
open HttpCerver.Framing
open HttpCerver.Http
open HttpCerver.Numerals
open HttpCerver.Request

/-- The text is a string of digits that denotes the number. -/
structure Denotes (text : List Byte) (number : ℕ) : Prop where
  ne_nil : text ≠ []
  digit : ∀ c ∈ text, isdigit c = true
  value : decimalValue text = number

/-- The number that `start`, followed by some digits, denotes. -/
def valueFrom (start : ℕ) (digits : List Byte) : ℕ :=
  digits.foldl (fun value digit => value * 10 + (digit.toNat - 48)) start

/-- The values of `length * 10 + digit` in the accumulator loop. -/
def httpLengthSteps : List Byte → ℕ → List ℕ
  | [], _ => []
  | c :: rest, length =>
    if ¬ isdigit c then []
    else
      let digit := c.toNat - 48
      if (ullongMax - digit) / 10 < length then []
      else (length * 10 + digit) ::
        httpLengthSteps rest (length * 10 + digit)

/-- The accumulator loop on 64-bit words, which wrap around. -/
def httpAccumulateLength64 : List Byte → UInt64 → Option UInt64
  | [], length => some length
  | c :: rest, length =>
    if ¬ isdigit c then none
    else
      let digit := (c - 48).toUInt64
      if (UInt64.ofNat ullongMax - digit) / 10 < length then none
      else httpAccumulateLength64 rest (length * 10 + digit)

theorem le_valueFrom (start : ℕ) (digits : List Byte) :
    start ≤ valueFrom start digits := by
  induction digits generalizing start with
  | nil => exact Nat.le_refl _
  | cons c digits ih =>
      calc
        start ≤ start * 10 + (c.toNat - 48) := by omega
        _ ≤ valueFrom (start * 10 + (c.toNat - 48)) digits := ih _
        _ = valueFrom start (c :: digits) := rfl

theorem isdigit_iff {c : Byte} :
    isdigit c = true ↔ 48 ≤ c.toNat ∧ c.toNat ≤ 57 := by
  simp [isdigit, UInt8.le_iff_toNat_le]

/-- The guard is exact for every last digit. -/
theorem guard_iff {length digit : ℕ} (hdigit : digit ≤ 9) :
    ¬ (ullongMax - digit) / 10 < length ↔ length * 10 + digit ≤ ullongMax := by
  rw [ullongMax]
  omega

/-- The loop computes the number that the digits denote, if it fits. -/
theorem httpAccumulateLength_eq_some_iff {digits : List Byte}
    {start length : ℕ} (hstart : start ≤ ullongMax) :
    httpAccumulateLength digits start = some length ↔
      (∀ c ∈ digits, isdigit c = true) ∧
        valueFrom start digits = length ∧ length ≤ ullongMax := by
  induction digits generalizing start with
  | nil =>
      simp only [httpAccumulateLength, valueFrom, Option.some.injEq,
        List.not_mem_nil, List.foldl_nil]
      constructor
      · rintro rfl
        exact ⟨by simp, rfl, hstart⟩
      · exact fun h => h.2.1
  | cons c digits ih =>
      rw [httpAccumulateLength, List.forall_mem_cons]
      dsimp only
      by_cases hdigit : isdigit c = true
      · have hbounds := isdigit_iff.mp hdigit
        have hguard := @guard_iff start (c.toNat - 48) (by omega)
        rw [if_neg (not_not.mpr hdigit)]
        by_cases hroom : start * 10 + (c.toNat - 48) ≤ ullongMax
        · rw [if_neg (hguard.mpr hroom), ih hroom]
          simp [hdigit, valueFrom]
        · rw [if_pos (not_not.mp (mt hguard.mp hroom))]
          have hgrows := le_valueFrom (start * 10 + (c.toNat - 48)) digits
          simp only [reduceCtorEq, false_iff, not_and]
          intro _ hvalue
          rw [← hvalue]
          exact fun hfits => hroom (hgrows.trans hfits)
      · rw [if_pos hdigit]
        simp [hdigit]

/-- No step of the loop leaves the range of the type. -/
theorem httpLengthSteps_le (digits : List Byte) (start : ℕ) :
    ∀ value ∈ httpLengthSteps digits start, value ≤ ullongMax := by
  induction digits generalizing start with
  | nil => simp [httpLengthSteps]
  | cons c digits ih =>
      rw [httpLengthSteps]
      dsimp only
      split_ifs with hdigit hguard
      · simp
      · have hbounds := isdigit_iff.mp hdigit
        exact List.forall_mem_cons.mpr
          ⟨(guard_iff (by omega)).mp hguard, ih _⟩
      · simp

/-- The loop on 64-bit words does what the loop on numbers does. -/
theorem httpAccumulateLength64_eq (digits : List Byte) (start : UInt64) :
    (httpAccumulateLength64 digits start).map UInt64.toNat =
      httpAccumulateLength digits start.toNat := by
  induction digits generalizing start with
  | nil => rfl
  | cons c digits ih =>
      rw [httpAccumulateLength64, httpAccumulateLength]
      dsimp only
      by_cases hdigit : isdigit c = true
      · have hbounds := isdigit_iff.mp hdigit
        have hword : (c - 48).toUInt64.toNat = c.toNat - 48 := by
          have hle : (48 : UInt8) ≤ c := UInt8.le_iff_toNat_le.mpr hbounds.1
          rw [UInt8.toNat_toUInt64, UInt8.toNat_sub_of_le _ _ hle]
          rfl
        have hsub : (UInt64.ofNat ullongMax - (c - 48).toUInt64).toNat =
            ullongMax - (c.toNat - 48) := by
          rw [UInt64.toNat_sub_of_le _ _ ?_, hword]
          · rfl
          · rw [UInt64.le_iff_toNat_le, hword]
            change _ ≤ ullongMax
            rw [ullongMax]
            omega
        have hguard : (UInt64.ofNat ullongMax - (c - 48).toUInt64) / 10 <
            start ↔ (ullongMax - (c.toNat - 48)) / 10 < start.toNat := by
          rw [UInt64.lt_iff_toNat_lt, UInt64.toNat_div, hsub]
          rfl
        have hpass : ¬ ¬ isdigit c = true := not_not.mpr hdigit
        rw [if_neg hpass, if_neg hpass]
        by_cases hroom : (ullongMax - (c.toNat - 48)) / 10 < start.toNat
        · rw [if_pos hroom, if_pos (hguard.mpr hroom)]
          rfl
        · have hfits := (guard_iff (by omega)).mp hroom
          have hstep : (start * 10 + (c - 48).toUInt64).toNat =
              start.toNat * 10 + (c.toNat - 48) := by
            rw [UInt64.toNat_add, UInt64.toNat_mul, hword]
            change (start.toNat * 10 % 2 ^ 64 + (c.toNat - 48)) % 2 ^ 64 = _
            rw [ullongMax] at hfits
            omega
          rw [if_neg hroom, if_neg (mt hguard.mp hroom), ih, hstep]
      · rw [if_pos hdigit, if_pos hdigit]
        rfl

/-- Accumulated from zero, the length is the number that is denoted. -/
theorem httpAccumulateLength_denotes {text : List Byte} {length : ℕ}
    (htext : text ≠ []) :
    httpAccumulateLength text 0 = some length ↔
      Denotes text length ∧ length ≤ ullongMax := by
  rw [httpAccumulateLength_eq_some_iff (Nat.zero_le _), ← and_assoc]
  refine and_congr_left fun _ => ?_
  constructor
  · rintro ⟨hdigit, hvalue⟩
    exact ⟨htext, hdigit, hvalue⟩
  · intro h
    exact ⟨h.digit, h.value⟩

/-- What the one `Content-Length` of a request decides. -/
def httpJudgeLength (value : List Byte) : Option (List Byte) :=
  if value.rdropWhile isOws = [] then some (ascii "Invalid Content-Length")
  else
    match httpAccumulateLength (value.rdropWhile isOws) 0 with
    | none => some (ascii "Invalid Content-Length")
    | some length =>
      if length = 0 then none
      else some (ascii "Request bodies are not supported")

theorem httpJudgeLength_eq_none_iff {value : List Byte} :
    httpJudgeLength value = none ↔ Denotes (value.rdropWhile isOws) 0 := by
  rw [httpJudgeLength]
  by_cases hempty : value.rdropWhile isOws = []
  · rw [if_pos hempty, hempty]
    simp only [reduceCtorEq, false_iff]
    exact fun h => h.ne_nil rfl
  · rw [if_neg hempty]
    have hdenotes := @httpAccumulateLength_denotes _ 0 hempty
    simp only [Nat.zero_le, and_true] at hdenotes
    rw [← hdenotes]
    cases httpAccumulateLength (value.rdropWhile isOws) 0 with
    | none => simp
    | some length => by_cases hzero : length = 0 <;> simp [hzero]

theorem httpJudgeLength_eq_unsupported_iff {value : List Byte} :
    httpJudgeLength value = some (ascii "Request bodies are not supported") ↔
      ∃ number, Denotes (value.rdropWhile isOws) number ∧ 0 < number ∧
        number ≤ ullongMax := by
  have hdiffer : ascii "Invalid Content-Length" ≠
      ascii "Request bodies are not supported" := by decide
  rw [httpJudgeLength]
  by_cases hempty : value.rdropWhile isOws = []
  · rw [if_pos hempty, hempty]
    simp only [Option.some.injEq, hdiffer, false_iff]
    rintro ⟨number, h, -⟩
    exact h.ne_nil rfl
  · have hdenotes : ∀ number,
        (Denotes (value.rdropWhile isOws) number ∧ 0 < number ∧
          number ≤ ullongMax) ↔
        httpAccumulateLength (value.rdropWhile isOws) 0 = some number ∧
          0 < number := fun number => by
      rw [httpAccumulateLength_denotes hempty, and_right_comm, and_assoc]
    rw [if_neg hempty, exists_congr hdenotes]
    cases httpAccumulateLength (value.rdropWhile isOws) 0 with
    | none => simp [hdiffer]
    | some length =>
        simp only [Option.some.injEq, exists_eq_left']
        by_cases hzero : length = 0 <;> simp [hzero, Nat.pos_iff_ne_zero]

/-- Every other text is an invalid length. -/
theorem httpJudgeLength_eq_invalid_iff {value : List Byte} :
    httpJudgeLength value = some (ascii "Invalid Content-Length") ↔
      ¬ Denotes (value.rdropWhile isOws) 0 ∧
        ¬ ∃ number, Denotes (value.rdropWhile isOws) number ∧ 0 < number ∧
          number ≤ ullongMax := by
  rw [← httpJudgeLength_eq_none_iff, ← httpJudgeLength_eq_unsupported_iff,
    httpJudgeLength]
  have hdiffer : ascii "Invalid Content-Length" ≠
      ascii "Request bodies are not supported" := by decide
  split_ifs
  · simp [hdiffer]
  · cases httpAccumulateLength (value.rdropWhile isOws) 0 with
    | none => simp [hdiffer]
    | some length => by_cases hzero : length = 0 <;> simp [hzero, hdiffer.symm]

/-- The decision over a whole list of headers. -/
theorem httpValidateRequestFraming_eq (request : HttpRequest) :
    httpValidateRequestFraming request =
      if 1 < request.headers.countP isContentLength then
        some (ascii "Duplicate Content-Length headers are not supported")
      else if request.headers.any isTransferEncoding then
        some (ascii "Transfer-Encoding is not supported")
      else (request.headers.find? isContentLength).elim none
        fun header => httpJudgeLength header.value := by
  rw [httpValidateRequestFraming, httpScanFraming_eq request.headers (by simp)]
  dsimp only
  rw [Nat.zero_add]
  by_cases hmany : request.headers.countP isContentLength ≤ 1
  · rw [if_pos hmany, if_neg (Nat.not_lt_of_le hmany)]
    simp only [FramingScan.after, Bool.false_or]
    split_ifs with hencoding hnone
    · rfl
    · rw [List.countP_eq_zero] at hnone
      rw [List.find?_eq_none.mpr hnone]
      rfl
    · cases hfound : request.headers.find? isContentLength with
      | none =>
          exact absurd (List.countP_eq_zero.mpr (List.find?_eq_none.mp hfound))
            hnone
      | some header =>
          simp only [Option.map_some, Option.elim_some, httpJudgeLength]
          by_cases hempty : header.value = []
          · simp [hempty]
          · exact if_neg hempty
  · rw [if_neg hmany, if_pos (Nat.lt_of_not_le hmany)]

/-- `http_validate_request_framing` decides framing exactly, on lengths of any
size, and no step of it wraps around. -/
theorem httpValidateRequestFraming_exact (request : HttpRequest) :
    (httpValidateRequestFraming request = none ↔
      (∀ header ∈ request.headers, isTransferEncoding header = false) ∧
        request.headers.countP isContentLength ≤ 1 ∧
        ∀ header ∈ request.headers, isContentLength header = true →
          Denotes (header.value.rdropWhile isOws) 0) ∧
      ((∀ header ∈ request.headers, isTransferEncoding header = false) →
        ∀ header, request.headers.filter isContentLength = [header] →
          (httpValidateRequestFraming request =
              some (ascii "Request bodies are not supported") ↔
            ∃ number, Denotes (header.value.rdropWhile isOws) number ∧
              0 < number ∧ number ≤ ullongMax) ∧
          (httpValidateRequestFraming request =
              some (ascii "Invalid Content-Length") ↔
            ¬ Denotes (header.value.rdropWhile isOws) 0 ∧
              ¬ ∃ number, Denotes (header.value.rdropWhile isOws) number ∧
                0 < number ∧ number ≤ ullongMax)) ∧
      ∀ digits, (∀ value ∈ httpLengthSteps digits 0, value ≤ ullongMax) ∧
        (httpAccumulateLength64 digits 0).map UInt64.toNat =
          httpAccumulateLength digits 0 := by
  have heq := httpValidateRequestFraming_eq request
  refine ⟨?_, ?_, fun digits => ⟨httpLengthSteps_le digits 0,
    httpAccumulateLength64_eq digits 0⟩⟩
  · have hnone : (∀ header ∈ request.headers,
        isTransferEncoding header = false) ↔
          ¬ request.headers.any isTransferEncoding = true := by simp
    rw [heq, hnone]
    split_ifs with hmany hencoding
    · simp only [false_iff]
      omega
    · simp [hencoding]
    · have hone := Nat.le_of_not_lt hmany
      rw [and_iff_right hencoding, and_iff_right hone]
      cases hfound : request.headers.find? isContentLength with
      | none =>
          have hnever := List.find?_eq_none.mp hfound
          simp only [Option.elim_none, true_iff]
          exact fun header hmem hlength => absurd hlength (hnever header hmem)
      | some found =>
          rw [Option.elim_some, httpJudgeLength_eq_none_iff]
          constructor
          · intro h header hmem hlength
            rwa [eq_of_countP_le_one hone hfound hmem hlength]
          · exact fun h => h found (List.mem_of_find?_eq_some hfound)
              (List.find?_some hfound)
  · intro hnone header hfilter
    have hcount : request.headers.countP isContentLength = 1 := by
      rw [List.countP_eq_length_filter, hfilter]
      rfl
    have hfound : request.headers.find? isContentLength = some header := by
      rw [← List.head?_filter, hfilter]
      rfl
    rw [heq, if_neg (by omega), if_neg (by simpa using hnone), hfound]
    exact ⟨httpJudgeLength_eq_unsupported_iff, httpJudgeLength_eq_invalid_iff⟩

/-- A length of `2 ^ 64`, which would wrap around to zero. -/
def wrappingRequest : HttpRequest where
  method := ascii "GET"
  path := ascii "/"
  query := []
  version := ascii "HTTP/1.1"
  headers :=
    [{ name := ascii "Host", value := ascii "a" },
      { name := ascii "content-length"
        value := ascii "0018446744073709551616 " }]

theorem httpValidateRequestFraming_exact_wrapping :
    httpValidateRequestFraming wrappingRequest =
      some (ascii "Invalid Content-Length") := by
  have hnumber : decimalValue (ascii "0018446744073709551616") = 2 ^ 64 := by
    decide +kernel
  have hexact := httpValidateRequestFraming_exact wrappingRequest
  refine ((hexact.2.1 (by decide +kernel) _ rfl).2).mpr ⟨?_, ?_⟩
  · intro h
    have hvalue : decimalValue (ascii "0018446744073709551616") = 0 := h.value
    rw [hnumber] at hvalue
    cases hvalue
  · rintro ⟨number, h, -, hfits⟩
    have hvalue : decimalValue (ascii "0018446744073709551616") = number :=
      h.value
    rw [hnumber] at hvalue
    rw [ullongMax] at hfits
    omega

end HttpCerver.ContentLength
