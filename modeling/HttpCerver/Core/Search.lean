import Mathlib.Data.List.Basic
import Mathlib.Data.List.Infix
import Mathlib.Tactic.Common
import Mathlib.Data.Nat.Notation

/-!
# First occurrence of a pattern

One left-to-right search serves every scan of this development: the byte
searches, the substring search and the framer's search for a terminator.  The
result is an offset, and the laws below say which cut of the text it makes and
how it behaves when text is appended or cut off behind it.
-/

namespace HttpCerver.Search

variable {α : Type*} [DecidableEq α]

/-- Offset of the first occurrence of `needle` in a text. -/
def firstOccurrence (needle : List α) : List α → Option ℕ
  | [] => if needle.isPrefixOf [] then some 0 else none
  | head :: tail =>
      if needle.isPrefixOf (head :: tail) then some 0
      else (firstOccurrence needle tail).map (· + 1)

theorem firstOccurrence_eq_some_iff {needle text : List α} {offset : ℕ} :
    firstOccurrence needle text = some offset ↔
      offset ≤ text.length ∧ needle <+: text.drop offset ∧
        ∀ earlier < offset, ¬ needle <+: text.drop earlier := by
  induction text generalizing offset with
  | nil =>
      simp only [firstOccurrence, List.isPrefixOf_iff_prefix]
      constructor
      · intro h
        split at h
        · next hneedle =>
            simp only [Option.some.injEq] at h
            subst h
            simpa using hneedle
        · simp at h
      · rintro ⟨hle, hneedle, -⟩
        have hzero : offset = 0 := by simpa using hle
        subst hzero
        simpa using hneedle
  | cons head tail ih =>
      simp only [firstOccurrence, List.isPrefixOf_iff_prefix]
      by_cases hhere : needle <+: head :: tail
      · rw [if_pos hhere]
        constructor
        · intro h
          simp only [Option.some.injEq] at h
          subst h
          simpa using hhere
        · rintro ⟨-, -, hfirst⟩
          cases offset with
          | zero => rfl
          | succ offset => exact absurd hhere (hfirst 0 (Nat.succ_pos _))
      · rw [if_neg hhere]
        cases offset with
        | zero => simpa using hhere
        | succ offset =>
            simp only [Option.map_eq_some_iff, Nat.add_right_cancel_iff,
              exists_eq_right, ih, List.length_cons, List.drop_succ_cons,
              Nat.add_le_add_iff_right]
            constructor
            · rintro ⟨hle, hneedle, hfirst⟩
              refine ⟨hle, hneedle, ?_⟩
              intro earlier hearlier
              cases earlier with
              | zero => simpa using hhere
              | succ earlier => simpa using hfirst earlier (by omega)
            · rintro ⟨hle, hneedle, hfirst⟩
              refine ⟨hle, hneedle, ?_⟩
              intro earlier hearlier
              simpa using hfirst (earlier + 1) (by omega)

theorem firstOccurrence_eq_none_iff {needle text : List α} :
    firstOccurrence needle text = none ↔ ¬ needle <:+: text := by
  induction text with
  | nil => simp [firstOccurrence, List.isPrefixOf_iff_prefix]
  | cons head tail ih =>
      simp only [firstOccurrence, List.isPrefixOf_iff_prefix,
        List.infix_cons_iff, not_or]
      by_cases hhere : needle <+: head :: tail
      · simp [hhere]
      · simp [hhere, ih]

theorem isSome_firstOccurrence_iff {needle text : List α} :
    (firstOccurrence needle text).isSome ↔ needle <:+: text := by
  rw [← not_iff_not, ← firstOccurrence_eq_none_iff]
  simp

/-- The occurrence lies inside the text. -/
theorem firstOccurrence_add_length_le {needle text : List α} {offset : ℕ}
    (hfound : firstOccurrence needle text = some offset) :
    offset + needle.length ≤ text.length := by
  obtain ⟨hle, hneedle, -⟩ := firstOccurrence_eq_some_iff.mp hfound
  have hlength := hneedle.length_le
  rw [List.length_drop] at hlength
  omega

/-- A found occurrence cuts the text in three. -/
theorem eq_of_firstOccurrence {needle text : List α} {offset : ℕ}
    (hfound : firstOccurrence needle text = some offset) :
    text = text.take offset ++ needle ++ text.drop (offset + needle.length) := by
  obtain ⟨-, ⟨after, hafter⟩, -⟩ := firstOccurrence_eq_some_iff.mp hfound
  have hdrop : text.drop (offset + needle.length) = after := by
    rw [← List.drop_drop, ← hafter, List.drop_left]
  rw [hdrop, List.append_assoc, hafter, List.take_append_drop]

/-- Text that arrives later does not move the first occurrence. -/
theorem firstOccurrence_append {needle text : List α} {offset : ℕ}
    (hfound : firstOccurrence needle text = some offset) (more : List α) :
    firstOccurrence needle (text ++ more) = some offset := by
  have hinside := firstOccurrence_add_length_le hfound
  obtain ⟨hle, hneedle, hfirst⟩ := firstOccurrence_eq_some_iff.mp hfound
  rw [firstOccurrence_eq_some_iff]
  refine ⟨by simp; omega, ?_, ?_⟩
  · rw [List.drop_append_of_le_length hle]
    exact hneedle.trans (List.prefix_append _ _)
  · intro earlier hearlier hbegins
    rw [List.drop_append_of_le_length (by omega)] at hbegins
    apply hfirst earlier hearlier
    exact List.prefix_of_prefix_length_le hbegins (List.prefix_append _ _)
      (by rw [List.length_drop]; omega)

/-- Cutting the text behind the occurrence does not lose it. -/
theorem firstOccurrence_take {needle text : List α} {offset bound : ℕ}
    (hfound : firstOccurrence needle text = some offset)
    (hbound : offset + needle.length ≤ bound) :
    firstOccurrence needle (text.take bound) = some offset := by
  cases hcut : firstOccurrence needle (text.take bound) with
  | some other =>
      have hagain := firstOccurrence_append hcut (text.drop bound)
      rw [List.take_append_drop, hfound] at hagain
      exact hagain.symm
  | none =>
      exfalso
      apply firstOccurrence_eq_none_iff.mp hcut
      have hcuts : text.take (offset + needle.length) =
          text.take offset ++ needle := by
        have hinside := firstOccurrence_add_length_le hfound
        have hlength : (text.take offset ++ needle).length =
            offset + needle.length := by
          rw [List.length_append, List.length_take, Nat.min_eq_left (by omega)]
        conv_lhs => rw [eq_of_firstOccurrence hfound]
        rw [← hlength, List.take_left]
      refine List.IsInfix.trans ⟨text.take offset, [], ?_⟩
        (List.take_prefix_take_left hbound).isInfix
      rw [List.append_nil, hcuts]

/-- The text in front of a found occurrence does not contain the pattern. -/
theorem not_infix_take_of_firstOccurrence {needle text : List α} {offset : ℕ}
    (hneedle : needle ≠ [])
    (hfound : firstOccurrence needle text = some offset) :
    ¬ needle <:+: text.take offset := by
  intro hcontains
  obtain ⟨other, hother⟩ :=
    Option.isSome_iff_exists.mp (isSome_firstOccurrence_iff.mpr hcontains)
  have hinside := firstOccurrence_add_length_le hother
  have hagain := firstOccurrence_append hother (text.drop offset)
  rw [List.take_append_drop, hfound, Option.some.injEq] at hagain
  have hpos := List.length_pos_iff.mpr hneedle
  rw [List.length_take] at hinside
  omega

/-- Symbols other than the first one of the pattern are skipped. -/
theorem firstOccurrence_append_of_notMem {first : α} {needle before : List α}
    (hbefore : first ∉ before) (text : List α) :
    firstOccurrence (first :: needle) (before ++ text) =
      (firstOccurrence (first :: needle) text).map (· + before.length) := by
  induction before with
  | nil => simp
  | cons head before ih =>
      rw [List.mem_cons, not_or] at hbefore
      have hhere : ¬ first :: needle <+: head :: (before ++ text) := by
        rw [List.cons_prefix_cons]
        exact fun hsame => hbefore.1 hsame.1
      rw [List.cons_append, firstOccurrence,
        if_neg (by rwa [List.isPrefixOf_iff_prefix]), ih hbefore.2,
        Option.map_map, List.length_cons]
      rfl

/-- A pattern is not looked for in front of one of its prefixes. -/
theorem firstOccurrence_eq_drop {short needle text : List α} {offset : ℕ}
    (hshort : short <+: needle)
    (hfound : firstOccurrence short text = some offset) :
    firstOccurrence needle text =
      (firstOccurrence needle (text.drop offset)).map (· + offset) := by
  induction text generalizing offset with
  | nil =>
      have hzero := firstOccurrence_add_length_le hfound
      rw [List.length_nil, Nat.le_zero, Nat.add_eq_zero_iff] at hzero
      rw [hzero.1]
      simp
  | cons head tail ih =>
      rw [firstOccurrence] at hfound
      split_ifs at hfound with hhere
      · rw [← Option.some.inj hfound]
        simp
      · obtain ⟨before, hbefore, rfl⟩ := Option.map_eq_some_iff.mp hfound
        have hneedle : ¬ needle.isPrefixOf (head :: tail) := by
          rw [List.isPrefixOf_iff_prefix] at hhere ⊢
          exact fun hbegins => hhere (hshort.trans hbegins)
        rw [firstOccurrence, if_neg hneedle, ih hbefore, Option.map_map,
          List.drop_succ_cons]
        rfl

theorem firstOccurrence_singleton_append {symbol : α} {before : List α}
    (hbefore : symbol ∉ before) (after : List α) :
    firstOccurrence [symbol] (before ++ symbol :: after) =
      some before.length := by
  rw [firstOccurrence_append_of_notMem hbefore]
  simp [firstOccurrence]

/-- A single symbol is found where the text before it does not contain it. -/
theorem firstOccurrence_singleton_eq_some_iff {symbol : α} {text : List α}
    {offset : ℕ} :
    firstOccurrence [symbol] text = some offset ↔
      ∃ before after, text = before ++ symbol :: after ∧
        before.length = offset ∧ symbol ∉ before := by
  constructor
  · intro hfound
    have hinside := firstOccurrence_add_length_le hfound
    refine ⟨text.take offset, text.drop (offset + 1), ?_, ?_, ?_⟩
    · simpa using eq_of_firstOccurrence hfound
    · rw [List.length_take]
      omega
    · intro hmem
      obtain ⟨left, right, hsplit⟩ := List.append_of_mem hmem
      exact not_infix_take_of_firstOccurrence (by simp) hfound
        ⟨left, right, by simp [hsplit]⟩
  · rintro ⟨before, after, rfl, rfl, hbefore⟩
    exact firstOccurrence_singleton_append hbefore after

theorem firstOccurrence_singleton_eq_none_iff {symbol : α} {text : List α} :
    firstOccurrence [symbol] text = none ↔ symbol ∉ text := by
  rw [firstOccurrence_eq_none_iff, List.singleton_infix_iff]

/-- Two different symbols cannot overlap an occurrence of themselves, so the
text before the first occurrence is any text free of the pair. -/
theorem firstOccurrence_pair_append {first second : α}
    (hdistinct : first ≠ second) {before : List α}
    (hbefore : ¬ [first, second] <:+: before) (after : List α) :
    firstOccurrence [first, second] (before ++ first :: second :: after) =
      some before.length := by
  induction before with
  | nil => simp [firstOccurrence]
  | cons head before ih =>
      rw [List.infix_cons_iff, not_or] at hbefore
      have hhead : ¬ [first, second] <+:
          head :: (before ++ first :: second :: after) := by
        cases before with
        | nil => simp [List.cons_prefix_cons, hdistinct.symm]
        | cons next before =>
            simpa [List.cons_prefix_cons] using hbefore.1
      simp only [List.cons_append, firstOccurrence, List.isPrefixOf_iff_prefix]
      rw [if_neg hhead, ih hbefore.2]
      rfl

theorem firstOccurrence_pair_eq_some_iff {first second : α}
    (hdistinct : first ≠ second) (text : List α) (offset : ℕ) :
    firstOccurrence [first, second] text = some offset ↔
      ∃ before after, text = before ++ first :: second :: after ∧
        before.length = offset ∧ ¬ [first, second] <:+: before := by
  constructor
  · intro hfound
    have hinside := firstOccurrence_add_length_le hfound
    refine ⟨text.take offset, text.drop (offset + 2), ?_, ?_,
      not_infix_take_of_firstOccurrence (by simp) hfound⟩
    · simpa using eq_of_firstOccurrence hfound
    · simp only [List.length_cons, List.length_nil] at hinside
      rw [List.length_take]
      omega
  · rintro ⟨before, after, rfl, rfl, hbefore⟩
    exact firstOccurrence_pair_append hdistinct hbefore after

omit [DecidableEq α] in
/-- A pair of symbols does not reach across a third one. -/
theorem pair_infix_append_cons_iff {first second separator : α}
    (hfirst : separator ≠ first) (hsecond : separator ≠ second)
    {before after : List α} :
    [first, second] <:+: before ++ separator :: after ↔
      [first, second] <:+: before ∨ [first, second] <:+: after := by
  induction before with
  | nil => simp [List.infix_cons_iff, hfirst.symm]
  | cons head before ih =>
      have hbegins : [first, second] <+: head :: before ++ separator :: after ↔
          [first, second] <+: head :: before := by
        cases before with
        | nil => simp [hsecond.symm]
        | cons next before => simp
      rw [List.cons_append, List.infix_cons_iff, ih, List.infix_cons_iff,
        or_assoc, ← List.cons_append, hbegins]

end HttpCerver.Search
