import HttpCerver.Core.Iteration
import HttpCerver.Runtime.Bytes
import Mathlib.Data.Vector.Basic

/-!
# Checked memory

Arrays of fixed sizes whose accesses are checked: what C leaves undefined is a
fault here.  A pointer into an array is an offset.  The functions of
`<string.h>` look at their whole range, or at a string up to its NUL, so they
fault whenever the C functions could read outside the array.
-/

namespace HttpCerver.Memory

open HttpCerver.Bytes hiding strchr strstr memchr
open HttpCerver.Iteration
open HttpCerver.Search

/-- What goes wrong: a read or a write outside its array, or a difference of
pointers that is negative and would become a huge `size_t`. -/
inductive Fault
  | read
  | write
  | distance
  deriving DecidableEq

abbrev Checked (α : Type*) := Except Fault α

section Accesses

variable {α : Type*} {size : ℕ}

def read (memory : List α) (offset : ℕ) : Checked α :=
  match memory[offset]? with
  | some value => .ok value
  | none => .error .read

def readRange (memory : List α) (offset count : ℕ) : Checked (List α) :=
  if offset + count ≤ memory.length then
    .ok ((memory.drop offset).take count)
  else .error .read

def write (array : List.Vector α size) (offset : ℕ) (value : α) :
    Checked (List.Vector α size) :=
  if hinside : offset < size then .ok (array.set ⟨offset, hinside⟩ value)
  else .error .write

/-- `memcpy(array, memory + offset, count)`. -/
def memcpy (array : List.Vector α size) (memory : List α)
    (offset count : ℕ) : Checked (List.Vector α size) := do
  let data ← readRange memory offset count
  if hfits : data.length ≤ size then
    .ok ⟨data ++ array.toList.drop data.length, by
      rw [List.length_append, List.length_drop, array.toList_length]
      omega⟩
  else .error .write

/-- `high - low` as a `size_t`. -/
def distance (high low : ℕ) : Checked ℕ :=
  if low ≤ high then .ok (high - low) else .error .distance

end Accesses

section Strings

variable {size : ℕ}

/-- The string at the beginning of a memory. -/
def readString : (memory : List Byte) → Checked (List Byte)
  | [] => .error .read
  | byte :: rest => if byte = 0 then .ok [] else (byte :: ·) <$> readString rest

def strlen (memory : List Byte) (offset : ℕ) : Checked ℕ := do
  let text ← readString (memory.drop offset)
  return text.length

def strchr (memory : List Byte) (offset : ℕ) (byte : Byte) :
    Checked (Option ℕ) := do
  let text ← readString (memory.drop offset)
  return (Bytes.strchr text byte).map (offset + ·)

def strstr (memory : List Byte) (offset : ℕ) (needle : List Byte) :
    Checked (Option ℕ) := do
  let text ← readString (memory.drop offset)
  return (Bytes.strstr text needle).map (offset + ·)

def memchr (memory : List Byte) (offset : ℕ) (byte : Byte) (count : ℕ) :
    Checked (Option ℕ) := do
  let data ← readRange memory offset count
  return (firstOccurrence [byte] data).map (offset + ·)

/-- `strcmp(memory, text) == 0`. -/
def strcmp (memory text : List Byte) : Checked Bool := do
  let found ← readString memory
  return found = text

/-- A `memcpy` and the NUL that is put behind it. -/
def copyString (array : List.Vector Byte size) (memory : List Byte)
    (offset count : ℕ) : Checked (List.Vector Byte size) := do
  let array ← memcpy array memory offset count
  write array count 0

/-- The loop `for (i = 0; i < count; i++) if (!check(memory[offset + i]))`. -/
def checkBytes (check : Byte → Bool) (memory : List Byte) (offset : ℕ) :
    (count : ℕ) → Checked Bool
  | 0 => return true
  | count + 1 => do
    let byte ← read memory offset
    if check byte then checkBytes check memory (offset + 1) count
    else return false

end Strings

section Loops

variable {State Result : Type*}

/-- The outcome of a round as that of a loop body: a fault ends the loop. -/
def outcome : Checked (State ⊕ Result) → State ⊕ Checked Result
  | .error fault => .inr (.error fault)
  | .ok (.inl next) => .inl next
  | .ok (.inr result) => .inr (.ok result)

theorem outcome_eq_inl {round : Checked (State ⊕ Result)} {next : State}
    (hround : outcome round = .inl next) : round = .ok (.inl next) := by
  cases round with
  | error fault => cases hround
  | ok result =>
      cases result with
      | inl state =>
          cases hround
          rfl
      | inr result => cases hround

end Loops

theorem ok_bind {α β : Type} (value : α) (next : α → Checked β) :
    (.ok value : Checked α) >>= next = next value := rfl

/-- A computation that does not fault is made of steps that do not. -/
theorem bind_eq_ok {α β : Type} {computation : Checked α}
    {next : α → Checked β} {result : β}
    (hrun : computation >>= next = .ok result) :
    ∃ value, computation = .ok value ∧ next value = .ok result := by
  cases computation with
  | error fault => cases hrun
  | ok value => exact ⟨value, rfl, hrun⟩

theorem lt_length_of_read {α : Type} {memory : List α} {offset : ℕ}
    {value : α} (hread : read memory offset = .ok value) :
    offset < memory.length := by
  rw [read] at hread
  split at hread
  · next hget => exact (List.getElem?_eq_some_iff.mp hget).1
  · cases hread

theorem le_of_strstr {memory needle : List Byte} {offset found : ℕ}
    (hfound : strstr memory offset needle = .ok (some found)) :
    offset ≤ found := by
  obtain ⟨text, -, hfound⟩ := bind_eq_ok hfound
  obtain ⟨inside, -, rfl⟩ := Option.map_eq_some_iff.mp (Except.ok.inj hfound)
  exact Nat.le_add_right offset inside

/-- The computation does not fault, and its result has the property. -/
def Safe {α : Type*} (post : α → Prop) : Checked α → Prop
  | .ok value => post value
  | .error _ => False

section Safe

variable {α β : Type} {post : α → Prop} {computation : Checked α}

theorem safe_iff :
    Safe post computation ↔ ∃ value, computation = .ok value ∧ post value := by
  cases computation with
  | error fault => simp [Safe]
  | ok value => simp [Safe]

theorem Safe.bind {post' : β → Prop} {next : α → Checked β}
    (h : Safe post computation)
    (hnext : ∀ value, post value → Safe post' (next value)) :
    Safe post' (computation >>= next) := by
  cases computation with
  | error fault => exact h.elim
  | ok value => exact hnext value h

theorem Safe.mono {post' : α → Prop} (h : Safe post computation)
    (himplies : ∀ value, post value → post' value) :
    Safe post' computation := by
  cases computation with
  | error fault => exact h.elim
  | ok value => exact himplies value h

/-- Where a computation branches as its specification does, so does the
proof. -/
theorem Safe.ite {post' : β → α → Prop} {condition : Prop}
    [Decidable condition] {result result' : β} {computation' : Checked α}
    (hthen : condition → Safe (post' result) computation)
    (helse : ¬ condition → Safe (post' result') computation') :
    Safe (post' (if condition then result else result'))
      (if condition then computation else computation') := by
  split_ifs with hcondition
  · exact hthen hcondition
  · exact helse hcondition

end Safe

section Runs

variable {State Result : Type}

/-- What the outcome of a round means for the run: the invariant goes on and
the result of the rest will do, or the result does. -/
def Leads (invariant : State → Prop) (post : State → Result → Prop)
    (state : State) : State ⊕ Result → Prop
  | .inl next => invariant next ∧ ∀ result, post next result → post state result
  | .inr result => post state result

/-- The rule for checked loops: no round faults, so the run does not. -/
theorem safe_run (loop : Loop State (Checked Result))
    {round : State → Checked (State ⊕ Result)}
    (hbody : ∀ state, loop.body state = outcome (round state))
    {invariant : State → Prop} {post : State → Result → Prop}
    (hround : ∀ state, invariant state →
      Safe (Leads invariant post state) (round state))
    {state : State} (hstate : invariant state) :
    Safe (post state) (loop.run state) := by
  refine loop.run_induction
    (motive := fun state result => invariant state → Safe (post state) result)
    ?_ ?_ state hstate
  · intro state result hexit hinvariant
    obtain ⟨next | value, hok, hleads⟩ :=
      safe_iff.mp (hround state hinvariant)
    · rw [hbody, hok] at hexit
      cases hexit
    · rw [hbody, hok] at hexit
      cases hexit
      exact hleads
  · intro state next result hnext hrest hinvariant
    have hok := outcome_eq_inl ((hbody state).symm.trans hnext)
    have hleads := hround state hinvariant
    rw [hok] at hleads
    exact (hrest hleads.1).mono hleads.2

end Runs

section Accesses

variable {α : Type} {size : ℕ} {memory : List α} {offset count : ℕ}

theorem readRange_eq (hinside : offset + count ≤ memory.length) :
    readRange memory offset count = .ok ((memory.drop offset).take count) :=
  if_pos hinside

theorem distance_eq {high low : ℕ} (hle : low ≤ high) :
    distance high low = .ok (high - low) :=
  if_pos hle

/-- A write inside the array. -/
theorem write_eq {array : List.Vector α size} (value : α)
    (hinside : offset < size) :
    write array offset value = .ok (array.set ⟨offset, hinside⟩ value) :=
  dif_pos hinside

/-- A read inside the array. -/
theorem read_eq {array : List.Vector α size} (hinside : offset < size) :
    read array.toList offset = .ok (array.get ⟨offset, hinside⟩) := by
  have hlength : offset < array.toList.length :=
    hinside.trans_eq array.toList_length.symm
  rw [read, List.getElem?_eq_getElem hlength]
  rfl

/-- An array up to and including a place that has been written. -/
theorem take_set (array : List.Vector α size) (hinside : offset < size)
    (value : α) :
    (array.set ⟨offset, hinside⟩ value).toList.take (offset + 1) =
      array.toList.take offset ++ [value] := by
  have hlength : (array.toList.take offset).length = offset := by
    rw [List.length_take, array.toList_length]
    omega
  have hrest : offset < array.toList.length :=
    hinside.trans_eq array.toList_length.symm
  rw [List.Vector.toList_set, List.set_eq_take_append_cons_drop, if_pos hrest,
    List.append_cons, List.take_left']
  rw [List.length_append, hlength, List.length_singleton]

/-- A copy from inside one array that fits into another. -/
theorem memcpy_safe (array : List.Vector α size)
    (hinside : offset + count ≤ memory.length) (hfits : count ≤ size) :
    Safe (fun array' => array'.toList = (memory.drop offset).take count ++
      array.toList.drop count) (memcpy array memory offset count) := by
  have hlength : ((memory.drop offset).take count).length = count := by
    rw [List.length_take, List.length_drop]
    omega
  rw [memcpy, readRange_eq hinside]
  change Safe _ (if hfits : _ then _ else _)
  rw [dif_pos (hlength.trans_le hfits)]
  change _ ++ array.toList.drop _ = _
  rw [hlength]

end Accesses

/-- A memory that begins with a string and its NUL. -/
structure Holds (memory text : List Byte) : Prop where
  begins : text ++ [0] <+: memory
  nul_notMem : 0 ∉ text

/-- A buffer with a NUL behind it holds the string that it begins with. -/
theorem holds_cstring (buffer : List Byte) :
    Holds (buffer ++ [0]) (cstring buffer).bytes where
  begins := by
    induction buffer with
    | nil => exact List.prefix_refl _
    | cons byte buffer ih =>
        by_cases hbyte : byte = 0
        · rw [hbyte]
          exact ⟨buffer ++ [0], rfl⟩
        · have hcons : (cstring (byte :: buffer)).bytes =
              byte :: (cstring buffer).bytes := by
            simp [cstring, hbyte]
          rw [hcons, List.cons_append, List.cons_append]
          exact (List.prefix_cons_inj byte).mpr ih
  nul_notMem := (cstring buffer).nul_notMem

/-- A NUL makes a string of what stands before it. -/
theorem holds_set {size offset : ℕ} {array : List.Vector Byte size}
    (hinside : offset < size) (hnul : 0 ∉ array.toList.take offset) :
    Holds (array.set ⟨offset, hinside⟩ 0).toList (array.toList.take offset)
    where
  begins := by
    rw [← take_set]
    exact List.take_prefix _ _
  nul_notMem := hnul

section Holds

variable {size : ℕ} {memory text : List Byte} {offset count : ℕ}

theorem Holds.nul_mem (h : Holds memory text) : 0 ∈ memory :=
  h.begins.subset (by simp)

theorem Holds.length_lt (h : Holds memory text) :
    text.length < memory.length := by
  have hlength := h.begins.length_le
  rw [List.length_append, List.length_singleton] at hlength
  exact hlength

/-- A suffix of a string is a string. -/
theorem Holds.drop (h : Holds memory text) (hoffset : offset ≤ text.length) :
    Holds (memory.drop offset) (text.drop offset) where
  begins := by
    rw [← List.drop_append_of_le_length hoffset]
    exact h.begins.drop offset
  nul_notMem := fun hmem => h.nul_notMem (List.mem_of_mem_drop hmem)

theorem Holds.readString (h : Holds memory text) :
    Memory.readString memory = .ok text := by
  induction text generalizing memory with
  | nil =>
      obtain ⟨rest, rfl⟩ := h.begins
      rfl
  | cons byte text ih =>
      obtain ⟨rest, rfl⟩ := h.begins
      have hnul := h.nul_notMem
      rw [List.mem_cons, not_or] at hnul
      have hrest : Holds (text ++ [0] ++ rest) text :=
        ⟨List.prefix_append _ _, hnul.2⟩
      rw [List.cons_append, List.cons_append, Memory.readString,
        if_neg (Ne.symm hnul.1), ih hrest]
      rfl

theorem Holds.strlen (h : Holds memory text) (hoffset : offset ≤ text.length) :
    Memory.strlen memory offset = .ok (text.length - offset) := by
  rw [Memory.strlen, (h.drop hoffset).readString, ← List.length_drop]
  rfl

theorem Holds.strchr (h : Holds memory text) (hoffset : offset ≤ text.length)
    (byte : Byte) :
    Memory.strchr memory offset byte =
      .ok ((Bytes.strchr (text.drop offset) byte).map (offset + ·)) := by
  rw [Memory.strchr, (h.drop hoffset).readString]
  rfl

theorem Holds.strstr (h : Holds memory text) (hoffset : offset ≤ text.length)
    (needle : List Byte) :
    Memory.strstr memory offset needle =
      .ok ((Bytes.strstr (text.drop offset) needle).map (offset + ·)) := by
  rw [Memory.strstr, (h.drop hoffset).readString]
  rfl

theorem Holds.strcmp (h : Holds memory text) (other : List Byte) :
    Memory.strcmp memory other = .ok (text = other) := by
  rw [Memory.strcmp, h.readString]
  rfl

/-- What is read from inside the string is what is there. -/
theorem Holds.readRange (h : Holds memory text)
    (hinside : offset + count ≤ text.length) :
    Memory.readRange memory offset count =
      .ok ((text.drop offset).take count) := by
  obtain ⟨rest, rfl⟩ := h.begins
  rw [readRange_eq (by simp; omega), List.append_assoc,
    List.drop_append_of_le_length (by omega), List.take_append_of_le_length]
  rw [List.length_drop]
  omega

theorem Holds.memchr (h : Holds memory text)
    (hinside : offset + count ≤ text.length) (byte : Byte) :
    Memory.memchr memory offset byte count =
      .ok ((Bytes.memchr (text.drop offset) byte count).map (offset + ·)) := by
  rw [Memory.memchr, h.readRange hinside]
  rfl

/-- The byte at a place in the string, or the NUL at its end. -/
theorem Holds.read (h : Holds memory text) (hoffset : offset ≤ text.length) :
    Memory.read memory offset = .ok ((text.drop offset).headD 0) := by
  obtain ⟨rest, rfl⟩ := h.begins
  have hget : (text ++ [0] ++ rest)[offset]? =
      some ((text.drop offset).headD 0) := by
    rcases Nat.lt_or_eq_of_le hoffset with hlt | rfl
    · rw [List.append_assoc, List.getElem?_append_left hlt,
        List.getElem?_eq_getElem hlt, List.drop_eq_getElem_cons hlt]
      rfl
    · simp
  rw [Memory.read, hget]

/-- The byte at a place that is not the end of the string. -/
theorem Holds.read_of_drop (h : Holds memory text) {c : Byte}
    {rest : List Byte} (hdrop : text.drop offset = c :: rest) :
    Memory.read memory offset = .ok c := by
  have hoffset : offset ≤ text.length := by
    by_contra hlt
    rw [List.drop_of_length_le (by omega)] at hdrop
    cases hdrop
  rw [h.read hoffset, hdrop, List.headD_cons]

/-- The NUL at the end of the string. -/
theorem Holds.read_of_drop_nil (h : Holds memory text)
    (hoffset : offset ≤ text.length) (hdrop : text.drop offset = []) :
    Memory.read memory offset = .ok 0 := by
  rw [h.read hoffset, hdrop, List.headD_nil]

theorem drop_succ {c : Byte} {rest : List Byte}
    (hdrop : text.drop offset = c :: rest) : text.drop (offset + 1) = rest := by
  rw [← List.drop_drop, hdrop, List.drop_succ_cons, List.drop_zero]

theorem lt_length_of_drop {c : Byte} {rest : List Byte}
    (hdrop : text.drop offset = c :: rest) : offset < text.length := by
  have hlength := congrArg List.length hdrop
  rw [List.length_drop, List.length_cons] at hlength
  omega

theorem Holds.ne_zero_of_drop (h : Holds memory text) {c : Byte}
    {rest : List Byte} (hdrop : text.drop offset = c :: rest) : c ≠ 0 := by
  rintro rfl
  apply h.nul_notMem
  apply List.mem_of_mem_drop (i := offset)
  rw [hdrop]
  exact List.mem_cons_self

/-- A loop over bytes of the string checks all of them. -/
theorem Holds.checkBytes (h : Holds memory text) (check : Byte → Bool)
    (hinside : offset + count ≤ text.length) :
    Memory.checkBytes check memory offset count =
      .ok (((text.drop offset).take count).all check) := by
  induction count generalizing offset with
  | zero => rfl
  | succ count ih =>
      have hlt : offset < text.length := by omega
      rw [Memory.checkBytes, h.read hlt.le, ok_bind,
        List.drop_eq_getElem_cons hlt, List.headD_cons, List.take_succ_cons,
        List.all_cons]
      split_ifs with hcheck
      · rw [ih (by omega), hcheck, Bool.true_and]
      · rw [Bool.eq_false_of_not_eq_true hcheck, Bool.false_and]
        rfl

/-- A part of a string that is shorter than the array is stored as a string. -/
theorem Holds.copyString (h : Holds memory text) (array : List.Vector Byte size)
    (hinside : offset + count ≤ text.length) (hfits : count < size) :
    Safe (fun array' => Holds array'.toList ((text.drop offset).take count))
      (Memory.copyString array memory offset count) := by
  have hmemory : offset + count ≤ memory.length :=
    hinside.trans h.length_lt.le
  have hdata : (memory.drop offset).take count =
      (text.drop offset).take count :=
    Except.ok.inj ((readRange_eq hmemory).symm.trans (h.readRange hinside))
  have hlength : ((text.drop offset).take count).length = count := by
    rw [List.length_take, List.length_drop]
    omega
  apply (memcpy_safe array hmemory hfits.le).bind
  intro copied hcopied
  have htake : copied.toList.take count = (text.drop offset).take count := by
    rw [hcopied, hdata, List.take_left' hlength]
  have hnul : 0 ∉ (text.drop offset).take count := fun hmem =>
    h.nul_notMem (List.mem_of_mem_drop (List.mem_of_mem_take hmem))
  rw [write_eq 0 hfits]
  rw [← htake] at hnul ⊢
  exact holds_set hfits hnul

/-- The rest of a string is copied together with its NUL. -/
theorem Holds.memcpy (h : Holds memory text) (array : List.Vector Byte size)
    (hoffset : offset ≤ text.length) (hfits : text.length - offset < size) :
    Safe (fun array' => Holds array'.toList (text.drop offset))
      (Memory.memcpy array memory offset (text.length - offset + 1)) := by
  have hrest := h.drop hoffset
  have hlength := h.length_lt
  have hdata : (memory.drop offset).take (text.length - offset + 1) =
      text.drop offset ++ [0] := by
    rw [List.prefix_iff_eq_take.mp hrest.begins, List.length_append,
      List.length_drop, List.length_singleton]
  apply (memcpy_safe array (by omega) hfits).mono
  intro copied hcopied
  rw [hdata] at hcopied
  exact ⟨⟨_, hcopied.symm⟩, hrest.nul_notMem⟩

end Holds

end HttpCerver.Memory
