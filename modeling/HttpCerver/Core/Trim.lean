import Mathlib.Data.List.DropRight
import Mathlib.Data.List.TakeWhile

/-!
# Trimming

Removing from both ends of a list what satisfies a predicate.  The trimmed
list is characterised by the two padded ends that were removed, so that any
padding of it trims to the same list.
-/

namespace HttpCerver.Trim

variable {α : Type*} (pad : α → Bool)

/-- Drop the padding in front, then the padding behind. -/
def trim (text : List α) : List α :=
  (text.dropWhile pad).rdropWhile pad

/-- Neither end of the list is padding. -/
structure Trimmed (text : List α) : Prop where
  head : ∀ symbol ∈ text.head?, pad symbol = false
  last : ∀ symbol ∈ text.getLast?, pad symbol = false

variable {pad}

theorem dropWhile_append_of_all {left text : List α}
    (hleft : ∀ symbol ∈ left, pad symbol = true) :
    (left ++ text).dropWhile pad = text.dropWhile pad := by
  induction left with
  | nil => rfl
  | cons symbol left ih =>
      simp only [List.mem_cons, forall_eq_or_imp] at hleft
      simp [hleft.1, ih hleft.2]

theorem rdropWhile_append_of_all {text right : List α}
    (hright : ∀ symbol ∈ right, pad symbol = true) :
    (text ++ right).rdropWhile pad = text.rdropWhile pad := by
  rw [List.rdropWhile, List.reverse_append, dropWhile_append_of_all]
  · rfl
  · simpa using hright

theorem dropWhile_of_head {symbol : α} {text : List α}
    (hsymbol : pad symbol = false) :
    (symbol :: text).dropWhile pad = symbol :: text := by
  simp [hsymbol]

theorem Trimmed.rdropWhile_eq {text : List α} (htext : Trimmed pad text) :
    text.rdropWhile pad = text := by
  rw [List.rdropWhile_eq_self_iff]
  intro hne
  simpa using htext.last _ (List.getLast?_eq_getLast_of_ne_nil hne)

/-- Padding on both sides of a trimmed text is removed again. -/
theorem trim_append_append {left text right : List α}
    (hleft : ∀ symbol ∈ left, pad symbol = true)
    (hright : ∀ symbol ∈ right, pad symbol = true)
    (htext : Trimmed pad text) : trim pad (left ++ text ++ right) = text := by
  rw [trim, List.append_assoc, dropWhile_append_of_all hleft]
  cases text with
  | nil =>
      have hall : right.dropWhile pad = [] := by
        simpa using hright
      simp [hall]
  | cons symbol text =>
      have hsymbol := htext.head symbol (by simp)
      rw [List.cons_append, dropWhile_of_head hsymbol, ← List.cons_append,
        rdropWhile_append_of_all hright, htext.rdropWhile_eq]

/-- What trimming removes is padding. -/
theorem exists_eq_append_trim (pad : α → Bool) (text : List α) :
    ∃ left right, text = left ++ trim pad text ++ right ∧
      (∀ symbol ∈ left, pad symbol = true) ∧
      ∀ symbol ∈ right, pad symbol = true := by
  refine ⟨text.takeWhile pad, (text.dropWhile pad).rtakeWhile pad, ?_, ?_, ?_⟩
  · rw [trim, List.append_assoc, List.rdropWhile_append_rtakeWhile,
      List.takeWhile_append_dropWhile]
  · exact fun symbol hsymbol => List.mem_takeWhile_imp hsymbol
  · exact fun symbol hsymbol => List.mem_rtakeWhile_imp hsymbol

theorem trimmed_trim (text : List α) : Trimmed pad (trim pad text) where
  head symbol hsymbol := by
    have hbegins : trim pad text <+: text.dropWhile pad :=
      List.rdropWhile_prefix pad _
    obtain ⟨rest, hrest⟩ := hbegins
    cases hhead : trim pad text with
    | nil => simp [hhead] at hsymbol
    | cons first tail =>
        simp only [hhead, List.head?_cons, Option.mem_def,
          Option.some.injEq] at hsymbol
        subst hsymbol
        rw [hhead, List.cons_append] at hrest
        have hdrop := List.dropWhile_get_zero_not pad text (by simp [← hrest])
        simpa [← hrest] using hdrop
  last symbol hsymbol := by
    have hne : trim pad text ≠ [] := by
      rintro hnil
      simp [hnil] at hsymbol
    have hlast := List.rdropWhile_last_not pad (text.dropWhile pad) hne
    rw [List.getLast?_eq_getLast_of_ne_nil hne, Option.mem_def,
      Option.some.injEq] at hsymbol
    rw [← hsymbol]
    exact Bool.eq_false_iff.mpr hlast

/-- Padding around any text does not change what it trims to. -/
theorem trim_padded {left right : List α}
    (hleft : ∀ symbol ∈ left, pad symbol = true)
    (hright : ∀ symbol ∈ right, pad symbol = true) (text : List α) :
    trim pad (left ++ text ++ right) = trim pad text := by
  obtain ⟨before, after, htext, hbefore, hafter⟩ :=
    exists_eq_append_trim pad text
  have houter : left ++ text ++ right =
      (left ++ before) ++ trim pad text ++ (after ++ right) := by
    conv_lhs => rw [htext]
    simp only [List.append_assoc]
  rw [houter]
  exact trim_append_append
    (List.forall_mem_append.mpr ⟨hleft, hbefore⟩)
    (List.forall_mem_append.mpr ⟨hafter, hright⟩) (trimmed_trim text)

end HttpCerver.Trim
