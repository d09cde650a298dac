import HttpCerver.Parse.Grammar

/-!
# Percent-encoding

`http_parse_target` undoes every way of percent-encoding a path, and undoes it
once: the targets it accepts are the encodings of the paths it stores, with or
without a query behind them.
-/

namespace HttpCerver.Encoding

open HttpCerver.Bytes
open HttpCerver.Grammar
open HttpCerver.Request

/-- Every byte as it stands or as two hexadecimal digits behind a `'%'`. -/
inductive Encodes : List Byte → List Byte → Prop
  | nil : Encodes [] []
  | raw {c : Byte} {encoded path : List Byte} (hpercent : c ≠ percent)
      (hquestion : c ≠ question) (hrest : Encodes encoded path) :
      Encodes (c :: encoded) (c :: path)
  | escaped {c high low : Byte} {encoded path : List Byte}
      (hhigh : IsHexDigit high (c.toNat / 16))
      (hlow : IsHexDigit low (c.toNat % 16)) (hrest : Encodes encoded path) :
      Encodes (percent :: high :: low :: encoded) (c :: path)

/-- The encodings of a path; its first slash stands for itself. -/
inductive EncodingOf : List Byte → List Byte → Prop
  | mk {encoded path : List Byte} (hrest : Encodes encoded path) :
      EncodingOf (slash :: encoded) (slash :: path)

theorem IsHexDigit.ne_question {c : Byte} {value : ℕ}
    (h : IsHexDigit c value) : c ≠ question := by
  rintro rfl
  exact absurd h.mem (by decide)

/-- A byte is put together from its two digits. -/
theorem ofNat_digits (c : Byte) :
    UInt8.ofNat (16 * (c.toNat / 16) + c.toNat % 16) = c := by
  rw [Nat.div_add_mod, UInt8.ofNat_toNat]

theorem toNat_ofNat_digits {h l : ℕ} (hh : h < 16) (hl : l < 16) :
    (UInt8.ofNat (16 * h + l)).toNat / 16 = h ∧
      (UInt8.ofNat (16 * h + l)).toNat % 16 = l := by
  rw [UInt8.toNat_ofNat_of_lt' (show 16 * h + l < 256 by omega)]
  omega

/-- Encoding is the inverse of decoding, on texts without a question mark. -/
theorem encodes_iff {encoded path : List Byte} :
    Encodes encoded path ↔ Decodes encoded path ∧ question ∉ encoded := by
  constructor
  · intro h
    induction h with
    | nil => exact ⟨.nil, by simp⟩
    | raw hpercent hquestion hrest ih =>
        exact ⟨.literal hpercent ih.1,
          List.not_mem_cons_of_ne_of_not_mem hquestion.symm ih.2⟩
    | @escaped c high low encoded path hhigh hlow hrest ih =>
        have hdecodes := Decodes.escape hhigh hlow ih.1
        rw [ofNat_digits] at hdecodes
        refine ⟨hdecodes, ?_⟩
        simp only [List.mem_cons, not_or]
        exact ⟨by decide, (IsHexDigit.ne_question hhigh).symm,
          (IsHexDigit.ne_question hlow).symm, ih.2⟩
  · rintro ⟨h, hquestion⟩
    induction h with
    | nil => exact .nil
    | literal hc hrest ih =>
        rw [List.mem_cons, not_or] at hquestion
        exact .raw hc (Ne.symm hquestion.1) (ih hquestion.2)
    | escape hhigh hlow hrest ih =>
        simp only [List.mem_cons, not_or] at hquestion
        obtain ⟨hdiv, hmod⟩ := toNat_ofNat_digits hhigh.lt hlow.lt
        exact .escaped (by rwa [hdiv]) (by rwa [hmod]) (ih hquestion.2.2.2)

/-- The encodings of a path without control characters are what the grammar of
targets calls its encoded form. -/
theorem encodedPath_iff {encoded path : List Byte} :
    EncodedPath encoded path ↔
      EncodingOf encoded path ∧ ∀ c ∈ path, 32 ≤ c ∧ c ≠ 127 := by
  constructor
  · rintro ⟨hslash, hquestion, hdecodes, hcontrol⟩
    refine ⟨?_, hcontrol⟩
    cases hdecodes with
    | nil => cases hslash
    | literal hc hrest =>
        cases hslash
        rw [List.mem_cons, not_or] at hquestion
        exact .mk (encodes_iff.mpr ⟨hrest, hquestion.2⟩)
    | escape hhigh hlow hrest => cases hslash
  · rintro ⟨⟨hrest⟩, hcontrol⟩
    obtain ⟨hdecodes, hquestion⟩ := encodes_iff.mp hrest
    exact ⟨rfl, List.not_mem_cons_of_ne_of_not_mem (by decide) hquestion,
      .literal (by decide) hdecodes, hcontrol⟩

/-- A target of any length: its parts are short and its path is encoded. -/
theorem httpParseTarget_eq_some_iff_lengths {target : List Byte}
    {parsed : ParsedTarget} :
    httpParseTarget target = some parsed ↔
      ∃ encoded, EncodedPath encoded parsed.path ∧
        encoded.length < targetSize ∧
        (target = encoded ∧ parsed.query = [] ∨
          target = encoded ++ question :: parsed.query ∧
            parsed.query.length < targetSize) := by
  constructor
  · intro hparse
    cases hsplit : httpSplitTarget target with
    | none => simp [httpParseTarget, hsplit] at hparse
    | some split =>
        obtain ⟨⟨hfree, -, hlength⟩, htarget⟩ :=
          (httpSplitTarget_eq_some_iff_lengths split).mp hsplit
        obtain ⟨hencoded, hquery⟩ :=
          (httpParseTarget_of_split hsplit hfree hlength).mp hparse
        rw [← hquery] at htarget
        exact ⟨split.path, hencoded, hlength, htarget⟩
  · rintro ⟨encoded, hencoded, hlength, htarget⟩
    have hsplit := (httpSplitTarget_eq_some_iff_lengths
      { path := encoded, query := parsed.query }).mpr
      ⟨⟨hencoded.question, hencoded.ne_nil, hlength⟩, htarget⟩
    exact (httpParseTarget_of_split hsplit hencoded.question hlength).mpr
      ⟨hencoded, rfl⟩

/-- An encoded path contains no NUL. -/
theorem nul_notMem_encoding {encoded path : List Byte}
    (h : Encodes encoded path) (hcontrol : ∀ c ∈ path, 32 ≤ c ∧ c ≠ 127) :
    0 ∉ encoded := by
  induction h with
  | nil => simp
  | raw hpercent hquestion hrest ih =>
      rw [List.forall_mem_cons] at hcontrol
      refine List.not_mem_cons_of_ne_of_not_mem ?_ (ih hcontrol.2)
      rintro rfl
      exact absurd hcontrol.1.1 (by decide)
  | escaped hhigh hlow hrest ih =>
      rw [List.forall_mem_cons] at hcontrol
      simp only [List.mem_cons, not_or]
      refine ⟨by decide, ?_, ?_, ih hcontrol.2⟩
      · rintro rfl
        exact absurd hhigh.mem (by decide)
      · rintro rfl
        exact absurd hlow.mem (by decide)

/-- `http_parse_target` undoes every percent-encoding of a path, whatever the
query behind it, and accepts nothing else. -/
theorem percent_encoding_undone :
    (∀ encoded path : List Byte, EncodingOf encoded path →
      (∀ c ∈ path, 32 ≤ c ∧ c ≠ 127) → encoded.length ≤ 4095 →
        httpParseTarget (cstring encoded).bytes =
            some { path := path, query := [] } ∧
          ∀ query : List Byte, 0 ∉ query → query.length ≤ 4095 →
            httpParseTarget (cstring (encoded ++ question :: query)).bytes =
              some { path := path, query := query }) ∧
      ∀ (target : CString) (parsed : ParsedTarget),
        httpParseTarget target.bytes = some parsed →
          ∃ encoded, EncodingOf encoded parsed.path ∧
            (∀ c ∈ parsed.path, 32 ≤ c ∧ c ≠ 127) ∧ encoded.length ≤ 4095 ∧
            (target.bytes = encoded ∧ parsed.query = [] ∨
              target.bytes = encoded ++ question :: parsed.query ∧
                parsed.query.length ≤ 4095) := by
  have hsize : ∀ length, length < targetSize ↔ length ≤ 4095 := fun length =>
    Nat.lt_succ_iff
  constructor
  · intro encoded path hencoding hcontrol hlength
    have hnul : 0 ∉ encoded := by
      cases hencoding with
      | mk hrest =>
          rw [List.forall_mem_cons] at hcontrol
          exact List.not_mem_cons_of_ne_of_not_mem (by decide)
            (nul_notMem_encoding hrest hcontrol.2)
    have hencoded := encodedPath_iff.mpr ⟨hencoding, hcontrol⟩
    constructor
    · rw [cstring_bytes_of_notMem hnul]
      exact httpParseTarget_eq_some_iff_lengths.mpr
        ⟨encoded, hencoded, (hsize _).mpr hlength, .inl ⟨rfl, rfl⟩⟩
    · intro query hquery hshort
      have hwhole : 0 ∉ encoded ++ question :: query := by
        simp only [List.mem_append, List.mem_cons, not_or]
        exact ⟨hnul, by decide, hquery⟩
      rw [cstring_bytes_of_notMem hwhole]
      exact httpParseTarget_eq_some_iff_lengths.mpr ⟨encoded, hencoded,
        (hsize _).mpr hlength, .inr ⟨rfl, (hsize _).mpr hshort⟩⟩
  · intro target parsed hparse
    obtain ⟨encoded, hencoded, hlength, htarget⟩ :=
      httpParseTarget_eq_some_iff_lengths.mp hparse
    obtain ⟨hencoding, hcontrol⟩ := encodedPath_iff.mp hencoded
    simp only [hsize] at hlength htarget
    exact ⟨encoded, hencoding, hcontrol, hlength, htarget⟩

/-- The path `/%3F`, with its percent sign encoded: it is decoded once, and no
query starts at the encoded question mark. -/
theorem percent_encoding_undone_once :
    httpParseTarget (cstring (ascii "/%253f?%3F")).bytes =
      some { path := ascii "/%3f", query := ascii "%3F" } := by
  have hencodes : EncodingOf (ascii "/%253f") (ascii "/%3f") :=
    .mk (.escaped (.inl rfl) (.inl rfl) (.raw (by decide) (by decide)
      (.raw (by decide) (by decide) .nil)))
  have hcontrol : ∀ c ∈ ascii "/%3f", 32 ≤ c ∧ c ≠ 127 := by decide +kernel
  exact ((percent_encoding_undone.1 _ _ hencodes hcontrol (by decide)).2
    (ascii "%3F") (by decide) (by decide))

end HttpCerver.Encoding
