import HttpCerver.Config

/-!
# Numbers on the command line

What a string denotes as a number, and which strings the two number parsers of
`config.c` read as that number.  `strtol` saturates, so `parse_positive_int`
means what it says; `strtoull` negates in the unsigned type, so
`parse_positive_size` takes some negative numbers for small positive ones.
-/

namespace HttpCerver.Numbers

open HttpCerver.Bytes
open HttpCerver.Config
open HttpCerver.Numerals

/-- The signs of a numeral: none, `'+'` or `'-'`. -/
inductive Sign : List Byte → Bool → Prop
  | none : Sign [] false
  | plus : Sign [43] false
  | minus : Sign [45] true

/-- The whole text is white space, a sign and digits that denote the number. -/
inductive NumeralOf : List Byte → Int → Prop
  | mk {blank sign digits : List Byte} {negative : Bool}
      (hblank : ∀ c ∈ blank, isspace c = true) (hsign : Sign sign negative)
      (hdigits : digits ≠ []) (hdigit : ∀ c ∈ digits, isdigit c = true) :
      NumeralOf (blank ++ sign ++ digits)
        (if negative then -(decimalValue digits : Int)
          else decimalValue digits)

/-- What a number parser returns and leaves behind `result`. -/
def storeResult (parsed : Option ℕ) (result : ℕ) : ReturnCode × ℕ :=
  match parsed with
  | none => (.failure, result)
  | some number => (.success, number)

/-- The parser stores the number that the text denotes, if it is in range, and
refuses every other text. -/
def MeansWhatItSays (parse : CString → Option ℕ) (largest : ℕ)
    (value : CString) : Prop :=
  ∀ result : ℕ,
    (∀ number : ℕ, NumeralOf value.bytes number → 1 ≤ number →
      number ≤ largest →
        storeResult (parse value) result = (.success, number)) ∧
    ((∀ number : ℕ, NumeralOf value.bytes number →
      ¬ (1 ≤ number ∧ number ≤ largest)) →
        storeResult (parse value) result = (.failure, result))

/-- A negative number that the unsigned type takes for a size. -/
def WrapsAround (value : CString) : Prop :=
  ∃ magnitude : ℕ, NumeralOf value.bytes (-(magnitude : Int)) ∧
    2 ^ 64 - intMax < magnitude ∧ magnitude < 2 ^ 64

theorem isspace_of_isdigit {c : Byte} (hdigit : isdigit c = true) :
    isspace c = false := by
  have hall : ∀ c : Byte, isdigit c = true → isspace c = false :=
    forall_byte (by decide +kernel)
  exact hall c hdigit

theorem takeWhile_append_of_head {text rest : List Byte}
    {keep : Byte → Bool} (htext : ∀ c ∈ text, keep c = true)
    (hrest : ∀ c ∈ rest.head?, keep c = false) :
    (text ++ rest).takeWhile keep = text ∧
      (text ++ rest).dropWhile keep = rest := by
  induction text with
  | nil =>
      cases rest with
      | nil => simp
      | cons c rest =>
          have hfirst := hrest c (by simp)
          simp [hfirst]
  | cons c text ih =>
      rw [List.forall_mem_cons] at htext
      obtain ⟨htake, hdrop⟩ := ih htext.2
      simp [htext.1, htake, hdrop]

/-- The sign and the first digit stop the scan of the white space. -/
theorem isspace_head_sign {sign digits : List Byte} {negative : Bool}
    (hsign : Sign sign negative) (hdigits : digits ≠ [])
    (hdigit : ∀ c ∈ digits, isdigit c = true) :
    ∀ c ∈ (sign ++ digits).head?, isspace c = false := by
  intro c hc
  cases hsign with
  | none =>
      cases digits with
      | nil => exact absurd rfl hdigits
      | cons digit digits =>
          simp only [List.nil_append, List.head?_cons, Option.mem_some_iff] at hc
          rw [← hc]
          exact isspace_of_isdigit (hdigit digit (by simp))
  | plus =>
      cases hc
      decide
  | minus =>
      cases hc
      decide

/-- Digits are neither of the two signs. -/
theorem head_ne_sign {digits : List Byte}
    (hdigit : ∀ c ∈ digits, isdigit c = true) (rest : List Byte) :
    digits ≠ 45 :: rest ∧ digits ≠ 43 :: rest := by
  constructor
  · rintro rfl
    exact absurd (hdigit 45 (by simp)) (by decide)
  · rintro rfl
    exact absurd (hdigit 43 (by simp)) (by decide)

/-- A scan that gets to the end of a text has found a numeral. -/
theorem numeralOf_of_scanned {text sign rest : List Byte} {negative : Bool}
    (hsign : Sign sign negative)
    (hrest : text.dropWhile isspace = sign ++ rest)
    (hfound : rest.takeWhile isdigit ≠ [])
    (hstop : (text.takeWhile isspace).length + sign.length +
      (rest.takeWhile isdigit).length = text.length) :
    NumeralOf text (if negative
      then -(decimalValue (rest.takeWhile isdigit) : Int)
      else decimalValue (rest.takeWhile isdigit)) := by
  have hsplit : text.takeWhile isspace ++ (sign ++ rest) = text := by
    rw [← hrest, List.takeWhile_append_dropWhile]
  have hlength := congrArg List.length hsplit
  rw [List.length_append, List.length_append] at hlength
  have hwhole : rest.takeWhile isdigit = rest :=
    (List.takeWhile_prefix isdigit).eq_of_length (by omega)
  have hnumeral := NumeralOf.mk
    (fun c hc => List.mem_takeWhile_imp (l := text) (p := isspace) hc) hsign
    hfound (fun c hc => List.mem_takeWhile_imp hc)
  have htext : text.takeWhile isspace ++ sign ++ rest.takeWhile isdigit =
      text := by
    rw [hwhole, List.append_assoc, hsplit]
  rwa [htext] at hnumeral

/-- What the scan finds behind white space and a sign. -/
theorem scanNumeral_eq {text sign rest : List Byte} {negative : Bool}
    (hsign : Sign sign negative)
    (hrest : text.dropWhile isspace = sign ++ rest)
    (hunsigned : sign = [] → ∀ tail, rest ≠ 45 :: tail ∧ rest ≠ 43 :: tail) :
    scanNumeral text =
      { negative := negative
        digits := rest.takeWhile isdigit
        stop := if rest.takeWhile isdigit = [] then 0
          else (text.takeWhile isspace).length + sign.length +
            (rest.takeWhile isdigit).length } := by
  rw [scanNumeral, hrest]
  cases hsign with
  | plus => rfl
  | minus => rfl
  | none =>
      rw [List.nil_append]
      split
      · next tail => exact absurd rfl (hunsigned rfl tail).1
      · next tail => exact absurd rfl (hunsigned rfl tail).2
      · rfl

/-- The scan of a numeral finds its parts and gets to its end. -/
theorem scanNumeral_append {blank sign digits : List Byte} {negative : Bool}
    (hblank : ∀ c ∈ blank, isspace c = true) (hsign : Sign sign negative)
    (hdigits : digits ≠ []) (hdigit : ∀ c ∈ digits, isdigit c = true) :
    scanNumeral (blank ++ sign ++ digits) =
      { negative := negative
        digits := digits
        stop := (blank ++ sign ++ digits).length } := by
  have hhead := isspace_head_sign hsign hdigits hdigit
  obtain ⟨htake, hdrop⟩ := takeWhile_append_of_head hblank hhead
  have hall : digits.takeWhile isdigit = digits :=
    List.takeWhile_eq_self_iff.mpr hdigit
  rw [List.append_assoc, scanNumeral_eq hsign hdrop fun _ =>
    head_ne_sign hdigit, htake, hall, if_neg hdigits]
  simp [Nat.add_assoc]

/-- Every text can be cut behind its white space and its sign. -/
theorem exists_sign (text : List Byte) :
    ∃ (sign rest : List Byte) (negative : Bool), Sign sign negative ∧
      text = sign ++ rest ∧
      (sign = [] → ∀ tail, rest ≠ 45 :: tail ∧ rest ≠ 43 :: tail) := by
  cases text with
  | nil => exact ⟨[], [], false, .none, rfl, by simp⟩
  | cons c rest =>
      by_cases hminus : c = 45
      · subst hminus
        exact ⟨[45], rest, true, .minus, rfl, by simp⟩
      · by_cases hplus : c = 43
        · subst hplus
          exact ⟨[43], rest, false, .plus, rfl, by simp⟩
        · exact ⟨[], c :: rest, false, .none, rfl, by simp [hminus, hplus]⟩

/-- A text whose scan gets to its end, behind some digit, is a numeral. -/
theorem numeralOf_scanNumeral {text : List Byte}
    (hstart : (scanNumeral text).stop ≠ 0)
    (hstop : (scanNumeral text).stop = text.length) :
    NumeralOf text (if (scanNumeral text).negative
      then -(decimalValue (scanNumeral text).digits : Int)
      else decimalValue (scanNumeral text).digits) := by
  obtain ⟨sign, rest, negative, hsign, hrest, hunsigned⟩ :=
    exists_sign (text.dropWhile isspace)
  rw [scanNumeral_eq hsign hrest hunsigned] at hstart hstop ⊢
  dsimp only at hstart hstop ⊢
  by_cases hfound : rest.takeWhile isdigit = []
  · exact absurd (if_pos hfound) hstart
  · rw [if_neg hfound] at hstop
    exact numeralOf_of_scanned hsign hrest hfound hstop

/-- A text is a numeral for a number just when the scan says so. -/
theorem numeralOf_iff {text : List Byte} {number : Int} :
    NumeralOf text number ↔
      (scanNumeral text).stop ≠ 0 ∧ (scanNumeral text).stop = text.length ∧
        number = if (scanNumeral text).negative
          then -(decimalValue (scanNumeral text).digits : Int)
          else decimalValue (scanNumeral text).digits := by
  constructor
  · rintro ⟨hblank, hsign, hdigits, hdigit⟩
    rw [scanNumeral_append hblank hsign hdigits hdigit]
    simp [hdigits]
  · rintro ⟨hstart, hstop, rfl⟩
    exact numeralOf_scanNumeral hstart hstop

/-- `parse_positive_int` reads the numbers up to `INT_MAX`. -/
theorem parsePositiveInt_eq_some_iff {value : CString} {number : ℕ} :
    parsePositiveInt value = some number ↔
      NumeralOf value.bytes number ∧ 1 ≤ number ∧ number ≤ intMax := by
  rw [numeralOf_iff, parsePositiveInt, strtol]
  generalize scanNumeral value.bytes = numeral
  generalize (if numeral.negative = true
    then -(decimalValue numeral.digits : Int)
    else decimalValue numeral.digits) = denoted
  by_cases hlow : denoted < -2 ^ 63
  · simp only [if_pos hlow, intMax, true_or, if_true, reduceCtorEq, false_iff]
    omega
  · by_cases hhigh : 2 ^ 63 - 1 < denoted
    · simp only [if_neg hlow, if_pos hhigh, intMax, true_or, if_true,
        reduceCtorEq, false_iff]
      omega
    · simp only [if_neg hlow, if_neg hhigh, Bool.false_eq_true, false_or,
        Option.ite_none_left_eq_some, Option.some.injEq, intMax]
      omega

/-- `parse_positive_size` reads the numbers below `INT_MAX`, and takes a
negative number for its remainder modulo `2 ^ 64`. -/
theorem parsePositiveSize_eq_some_iff {value : CString} {number : ℕ} :
    parsePositiveSize value = some number ↔
      1 ≤ number ∧ number < intMax ∧
        (NumeralOf value.bytes number ∨
          NumeralOf value.bytes ((number : Int) - 2 ^ 64)) := by
  rw [numeralOf_iff, numeralOf_iff, parsePositiveSize, strtoull]
  generalize scanNumeral value.bytes = numeral
  generalize decimalValue numeral.digits = magnitude
  by_cases hlarge : ullongMax < magnitude
  · simp only [if_pos hlarge, true_or, if_true, reduceCtorEq, false_iff]
    rw [ullongMax] at hlarge
    rw [intMax]
    cases numeral.negative with
    | false =>
        simp only [Bool.false_eq_true, if_false]
        omega
    | true =>
        simp only [if_true]
        omega
  · simp only [if_neg hlarge, Bool.false_eq_true, false_or,
      Option.ite_none_left_eq_some, Option.some.injEq]
    rw [ullongMax] at hlarge
    rw [intMax]
    cases numeral.negative with
    | false =>
        simp only [Bool.false_eq_true, if_false]
        omega
    | true =>
        simp only [if_true]
        omega

/-- A parser that reads the numbers up to `largest` means what it says. -/
theorem meansWhatItSays_iff {parse : CString → Option ℕ} {largest : ℕ}
    {value : CString} :
    MeansWhatItSays parse largest value ↔
      ∀ number, parse value = some number ↔
        NumeralOf value.bytes number ∧ 1 ≤ number ∧ number ≤ largest := by
  constructor
  · intro h number
    constructor
    · intro hparse
      by_contra hdenied
      have hrefused := (h 0).2 fun other hother hrange => ?_
      · rw [hparse] at hrefused
        cases hrefused
      · have hstored := (h 0).1 other hother hrange.1 hrange.2
        rw [hparse] at hstored
        cases hstored
        exact hdenied ⟨hother, hrange⟩
    · rintro ⟨hnumeral, hpos, hle⟩
      have hstored := (h 0).1 number hnumeral hpos hle
      cases hparse : parse value with
      | none =>
          rw [hparse] at hstored
          cases hstored
      | some stored =>
          rw [hparse] at hstored
          cases hstored
          rfl
  · intro h result
    constructor
    · intro number hnumeral hpos hle
      rw [(h number).mpr ⟨hnumeral, hpos, hle⟩]
      rfl
    · intro hnone
      cases hparse : parse value with
      | none => rfl
      | some number =>
          obtain ⟨hnumeral, hrange⟩ := (h number).mp hparse
          exact absurd hrange (hnone number hnumeral)

theorem meansWhatItSays_parsePositiveInt (value : CString) :
    MeansWhatItSays parsePositiveInt intMax value :=
  meansWhatItSays_iff.mpr fun _ => parsePositiveInt_eq_some_iff

/-- Numeric options mean what they say, but for the negative numbers that the
unsigned type takes for sizes. -/
theorem numbers_mean_what_they_say_iff (value : CString) :
    (MeansWhatItSays parsePositiveInt intMax value ∧
      MeansWhatItSays parsePositiveSize (intMax - 1) value) ↔
      ¬ WrapsAround value := by
  rw [and_iff_right (meansWhatItSays_parsePositiveInt value),
    meansWhatItSays_iff]
  constructor
  · rintro h ⟨magnitude, hnumeral, hlow, hhigh⟩
    have hstored : parsePositiveSize value = some (2 ^ 64 - magnitude) := by
      rw [parsePositiveSize_eq_some_iff]
      rw [intMax] at hlow ⊢
      refine ⟨by omega, by omega, .inr ?_⟩
      have hsame : ((2 ^ 64 - magnitude : ℕ) : Int) - 2 ^ 64 =
          -(magnitude : Int) := by omega
      rwa [hsame]
    obtain ⟨hpositive, hrange⟩ := (h _).mp hstored
    rw [numeralOf_iff] at hnumeral hpositive
    rw [← hpositive.2.2] at hnumeral
    have hsigns := hnumeral.2.2
    omega
  · intro hwraps number
    rw [parsePositiveSize_eq_some_iff]
    constructor
    · rintro ⟨hpos, hlt, hnumeral | hnumeral⟩
      · exact ⟨hnumeral, hpos, by omega⟩
      · refine absurd ⟨2 ^ 64 - number, ?_, ?_⟩ hwraps
        · have hsame : (number : Int) - 2 ^ 64 =
              -((2 ^ 64 - number : ℕ) : Int) := by
            rw [intMax] at hlt
            omega
          rwa [← hsame]
        · rw [intMax] at hlt ⊢
          omega
    · rintro ⟨hnumeral, hpos, hle⟩
      rw [intMax] at hle ⊢
      exact ⟨hpos, by omega, .inl hnumeral⟩

/-- `-(2 ^ 64 - 1)`, which is taken for `1`. -/
def wrappedSize : CString :=
  cstring (ascii "-18446744073709551615")

theorem wrapped_size_accepted :
    ¬ ∀ value : CString, MeansWhatItSays parsePositiveInt intMax value ∧
      MeansWhatItSays parsePositiveSize (intMax - 1) value := by
  intro hall
  have hsize := meansWhatItSays_iff.mp (hall wrappedSize).2 1
  have hstored : parsePositiveSize wrappedSize = some 1 := by decide +kernel
  obtain ⟨hnumeral, -⟩ := hsize.mp hstored
  obtain ⟨-, -, hvalue⟩ := numeralOf_iff.mp hnumeral
  revert hvalue
  decide +kernel

end HttpCerver.Numbers
