import HttpCerver.Runtime.Bytes
import Mathlib.Algebra.Order.Ring.Nat

/-!
# Decimal numerals

`printf` writes a number as its decimal digits; `strtol` and `strtoull` read
white space, a sign and digits, and report how far they got and whether the
value left the range of the result type.
-/

namespace HttpCerver.Numerals

open HttpCerver.Bytes

/-- `INT_MAX` of a 32-bit `int`. -/
def intMax : ℕ := 2147483647

/-- `ULLONG_MAX`, which is also `SIZE_MAX`. -/
def ullongMax : ℕ := 18446744073709551615

def isdigit (byte : Byte) : Bool :=
  48 ≤ byte && byte ≤ 57

/-- `isspace` in the C locale. -/
def isspace (byte : Byte) : Bool :=
  byte == 32 || (9 ≤ byte && byte ≤ 13)

/-- The number a string of digits denotes. -/
def decimalValue (digits : List Byte) : ℕ :=
  digits.foldl (fun value digit => value * 10 + (digit.toNat - 48)) 0

/-- `%d` and `%lld` of a number that is not negative. -/
def decimal (value : ℕ) : List Byte :=
  (Nat.toDigits 10 value).map fun char => UInt8.ofNat char.toNat

/-- The parts `strtol` and `strtoull` find in a string. -/
structure Numeral where
  negative : Bool
  digits : List Byte
  /-- Offset of `*endptr`; the start of the string when there is no digit. -/
  stop : ℕ
  deriving DecidableEq

/-- White space, an optional sign, digits. -/
def scanNumeral (text : List Byte) : Numeral :=
  let blank := text.takeWhile isspace
  let unsigned (negative : Bool) (sign : ℕ) (rest : List Byte) : Numeral :=
    let digits := rest.takeWhile isdigit
    { negative := negative
      digits := digits
      stop := if digits = [] then 0
        else blank.length + sign + digits.length }
  match text.dropWhile isspace with
  | 45 :: rest => unsigned true 1 rest
  | 43 :: rest => unsigned false 1 rest
  | rest => unsigned false 0 rest

/-- What a conversion function returns, leaves in `*endptr` and in `errno`. -/
structure Conversion (Value : Type) where
  value : Value
  stop : ℕ
  erange : Bool
  deriving DecidableEq

/-- `strtol(text, &end, 10)` with a 64-bit `long`: saturates. -/
def strtol (text : List Byte) : Conversion Int :=
  let numeral := scanNumeral text
  let value : Int :=
    if numeral.negative then -(decimalValue numeral.digits : Int)
    else decimalValue numeral.digits
  if value < -(2 ^ 63) then
    { value := -(2 ^ 63), stop := numeral.stop, erange := true }
  else if 2 ^ 63 - 1 < value then
    { value := 2 ^ 63 - 1, stop := numeral.stop, erange := true }
  else
    { value := value, stop := numeral.stop, erange := false }

/-- `strtoull(text, &end, 10)`: a minus sign negates in the unsigned type. -/
def strtoull (text : List Byte) : Conversion ℕ :=
  let numeral := scanNumeral text
  let magnitude := decimalValue numeral.digits
  if ullongMax < magnitude then
    { value := ullongMax, stop := numeral.stop, erange := true }
  else
    { value := if numeral.negative then (2 ^ 64 - magnitude) % 2 ^ 64
        else magnitude
      stop := numeral.stop
      erange := false }

/-- The digit characters are one byte each, at their value above `'0'`. -/
private theorem digit_toNat {char : Char} (hdigit : char.isDigit = true) :
    48 ≤ char.toNat ∧ char.toNat ≤ 57 := by
  simp only [Char.isDigit, Bool.and_eq_true, decide_eq_true_eq] at hdigit
  exact ⟨UInt32.le_iff_toNat_le.mp hdigit.1,
    UInt32.le_iff_toNat_le.mp hdigit.2⟩

private theorem byte_of_digit {char : Char} (hdigit : char.isDigit = true) :
    (UInt8.ofNat char.toNat).toNat = char.toNat := by
  have hbounds := digit_toNat hdigit
  exact UInt8.toNat_ofNat_of_lt' (lt_of_le_of_lt hbounds.2 (by decide))

theorem isdigit_of_mem_decimal {value : ℕ} {byte : Byte}
    (hmem : byte ∈ decimal value) : isdigit byte = true := by
  obtain ⟨char, hchar, rfl⟩ := List.mem_map.mp hmem
  have hdigit := Nat.isDigit_of_mem_toDigits (by decide) (by decide) hchar
  have hbounds := digit_toNat hdigit
  simp [isdigit, UInt8.le_iff_toNat_le, byte_of_digit hdigit, hbounds]

private theorem foldl_digits {chars : List Char}
    (hdigits : ∀ char ∈ chars, char.isDigit = true) (start : ℕ) :
    (chars.map fun char => UInt8.ofNat char.toNat).foldl
        (fun value digit => value * 10 + (digit.toNat - 48)) start =
      Nat.ofDigitChars 10 chars start := by
  induction chars generalizing start with
  | nil => rfl
  | cons char chars ih =>
      simp only [List.mem_cons, forall_eq_or_imp] at hdigits
      rw [List.map_cons, List.foldl_cons, ih hdigits.2,
        byte_of_digit hdigits.1, Nat.ofDigitChars_cons, Nat.mul_comm start]
      rfl

/-- Reading back a printed number. -/
@[simp]
theorem decimalValue_decimal (value : ℕ) :
    decimalValue (decimal value) = value := by
  rw [decimalValue, decimal, foldl_digits, Nat.ofDigitChars_ten_toDigits]
  exact fun char => Nat.isDigit_of_mem_toDigits (by decide) (by decide)

theorem length_decimal_le {value width : ℕ} (hwidth : 0 < width)
    (hvalue : value < 10 ^ width) : (decimal value).length ≤ width := by
  rw [decimal, List.length_map]
  exact (Nat.length_toDigits_le_iff (by decide) hwidth).mpr hvalue

end HttpCerver.Numerals
