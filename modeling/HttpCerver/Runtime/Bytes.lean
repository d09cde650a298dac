import HttpCerver.Core.Search
import Mathlib.Data.List.TakeWhile

/-!
# Bytes and C strings

Memory is a list of bytes.  A C string is what precedes its terminating NUL,
so it carries the proof that it contains none; a pointer into one is the
offset, or the suffix, at which it points.  The functions of `<string.h>` and
`<strings.h>` return offsets in place of pointers and `none` in place of
`NULL`.
-/

namespace HttpCerver.Bytes

open HttpCerver.Search

abbrev Byte := UInt8

/-- What is checked of every number below 256 holds of every byte. -/
theorem forall_byte {property : Byte → Prop}
    (h : ∀ value : Fin 256, property (UInt8.ofNat value)) (byte : Byte) :
    property byte := by
  have hbyte := h ⟨byte.toNat, byte.toNat_lt⟩
  rwa [UInt8.ofNat_toNat] at hbyte

/-- The `int` results of the program's functions: `0` and `-1`. -/
inductive ReturnCode
  | success
  | failure
  deriving DecidableEq

abbrev cr : Byte := 13
abbrev lf : Byte := 10
abbrev htab : Byte := 9
abbrev sp : Byte := 32
abbrev percent : Byte := 37
abbrev dot : Byte := 46
abbrev slash : Byte := 47
abbrev colon : Byte := 58
abbrev question : Byte := 63

/-- The bytes of a string literal of the source. -/
def ascii (text : String) : List Byte :=
  text.toList.map fun char => UInt8.ofNat char.toNat

def crlf : List Byte := [cr, lf]

def crlfCrlf : List Byte := [cr, lf, cr, lf]

/-- A C string: the bytes in front of its NUL. -/
structure CString where
  bytes : List Byte
  nul_notMem : 0 ∉ bytes
  deriving DecidableEq

/-- The string that starts at the beginning of a NUL-terminated buffer: a NUL
inside the buffer ends it early. -/
def cstring (buffer : List Byte) : CString where
  bytes := buffer.takeWhile (· ≠ 0)
  nul_notMem := by
    intro hmem
    simpa using List.mem_takeWhile_imp hmem

theorem cstring_begins_buffer (buffer : List Byte) :
    (cstring buffer).bytes <+: buffer :=
  List.takeWhile_prefix _

theorem cstring_bytes_of_notMem {buffer : List Byte} (hnul : 0 ∉ buffer) :
    (cstring buffer).bytes = buffer := by
  rw [cstring, List.takeWhile_eq_self_iff]
  intro byte hbyte
  simp only [ne_eq, decide_eq_true_eq]
  rintro rfl
  exact hnul hbyte

/-- What follows a NUL is not part of the string. -/
theorem cstring_append_of_mem {buffer : List Byte} (hnul : 0 ∈ buffer)
    (more : List Byte) :
    (cstring (buffer ++ more)).bytes = (cstring buffer).bytes := by
  induction buffer with
  | nil => simp at hnul
  | cons byte buffer ih =>
      by_cases hbyte : byte = 0
      · simp [cstring, hbyte]
      · have hrest := ih ((List.mem_cons.mp hnul).resolve_left (Ne.symm hbyte))
        simpa [cstring, hbyte] using hrest

theorem cstring_append_of_notMem {buffer : List Byte} (hnul : 0 ∉ buffer)
    (more : List Byte) :
    (cstring (buffer ++ more)).bytes = buffer ++ (cstring more).bytes := by
  induction buffer with
  | nil => rfl
  | cons byte buffer ih =>
      rw [List.mem_cons, not_or] at hnul
      have hrest := ih hnul.2
      have hbyte : byte ≠ 0 := Ne.symm hnul.1
      simpa [cstring, hbyte] using hrest

/-- A buffer whose string is as long as itself contains no NUL. -/
theorem notMem_of_length_cstring {buffer : List Byte}
    (hlength : buffer.length ≤ (cstring buffer).bytes.length) :
    0 ∉ buffer := by
  have hsame := (cstring_begins_buffer buffer).eq_of_length_le hlength
  rw [← hsame]
  exact (cstring buffer).nul_notMem

/-- `strstr`: offset of the first occurrence of `needle`. -/
def strstr (text needle : List Byte) : Option ℕ :=
  firstOccurrence needle text

/-- `memchr`: offset of the first `byte` among the first `count` bytes. -/
def memchr (text : List Byte) (byte : Byte) (count : ℕ) : Option ℕ :=
  firstOccurrence [byte] (text.take count)

/-- `strchr`: offset of the first `byte`. -/
def strchr (text : List Byte) (byte : Byte) : Option ℕ :=
  firstOccurrence [byte] text

/-- `strrchr`: the text from the last `byte` on. -/
def strrchr (byte : Byte) : List Byte → Option (List Byte)
  | [] => none
  | head :: tail =>
      match strrchr byte tail with
      | some found => some found
      | none => if head = byte then some (head :: tail) else none

/-- `tolower` in the C locale. -/
def tolower (byte : Byte) : Byte :=
  if 65 ≤ byte ∧ byte ≤ 90 then byte + 32 else byte

/-- `strcasecmp(left, right) == 0`. -/
def strcasecmp (left right : List Byte) : Bool :=
  left.map tolower = right.map tolower

theorem cr_ne_lf : cr ≠ lf := by decide

theorem strstr_crlf_eq_some_iff {text : List Byte} {offset : ℕ} :
    strstr text crlf = some offset ↔
      ∃ line after, text = line ++ crlf ++ after ∧
        line.length = offset ∧ ¬ crlf <:+: line := by
  simpa [strstr, crlf] using
    firstOccurrence_pair_eq_some_iff cr_ne_lf text offset

theorem strstr_crlf_append {line : List Byte} (hline : ¬ crlf <:+: line)
    (after : List Byte) :
    strstr (line ++ crlf ++ after) crlf = some line.length :=
  strstr_crlf_eq_some_iff.mpr ⟨line, after, rfl, rfl, hline⟩

theorem memchr_eq_some_iff {text : List Byte} {byte : Byte}
    {count offset : ℕ} :
    memchr text byte count = some offset ↔
      ∃ before after, text.take count = before ++ byte :: after ∧
        before.length = offset ∧ byte ∉ before :=
  firstOccurrence_singleton_eq_some_iff

theorem memchr_lt {text : List Byte} {byte : Byte} {count offset : ℕ}
    (hfound : memchr text byte count = some offset) : offset < count := by
  have hinside := firstOccurrence_add_length_le hfound
  rw [List.length_take, List.length_singleton] at hinside
  omega

/-- A text without line feeds, or without carriage returns, has no CRLF. -/
theorem not_crlf_infix_of_notMem {text : List Byte} (byte : Byte)
    (hbyte : byte ∈ crlf) (htext : byte ∉ text) : ¬ crlf <:+: text :=
  fun hcrlf => htext (hcrlf.subset hbyte)

end HttpCerver.Bytes
