import HttpCerver.Core.Search

/-!
# Streams of delimited messages

A framer finds the first complete message at the front of a buffer.  What it
finds does not depend on what arrives later, so a stream that is read through
a window of bounded size falls apart into the same messages however it
arrives.  `exchange` is that split, up to the first message that closes the
exchange or to the first one that does not fit the window.
-/

namespace HttpCerver.Delimited

open HttpCerver.Search

/-- How the length of the first message of a buffer is found. -/
structure Framer (α : Type*) where
  find : List α → Option ℕ
  pos : ∀ {buffer length}, find buffer = some length → 0 < length
  le_length : ∀ {buffer length}, find buffer = some length →
    length ≤ buffer.length
  extend : ∀ {buffer length}, find buffer = some length →
    ∀ more, find (buffer ++ more) = some length
  restrict : ∀ {buffer more length}, find (buffer ++ more) = some length →
    length ≤ buffer.length → find buffer = some length

/-- A message ends with the first occurrence of its delimiter. -/
def delimited {α : Type*} [DecidableEq α] (delimiter : List α)
    (hdelimiter : delimiter ≠ []) : Framer α where
  find buffer := (firstOccurrence delimiter buffer).map (· + delimiter.length)
  pos {buffer length} hfound := by
    obtain ⟨offset, -, rfl⟩ := Option.map_eq_some_iff.mp hfound
    have hpos := List.length_pos_iff.mpr hdelimiter
    omega
  le_length {buffer length} hfound := by
    obtain ⟨offset, hoffset, rfl⟩ := Option.map_eq_some_iff.mp hfound
    exact firstOccurrence_add_length_le hoffset
  extend {buffer length} hfound more := by
    obtain ⟨offset, hoffset, rfl⟩ := Option.map_eq_some_iff.mp hfound
    rw [firstOccurrence_append hoffset, Option.map_some]
  restrict {buffer more length} hfound hlength := by
    obtain ⟨offset, hoffset, rfl⟩ := Option.map_eq_some_iff.mp hfound
    have hcut := firstOccurrence_take hoffset hlength
    rw [List.take_left] at hcut
    rw [hcut, Option.map_some]

section Exchange

variable {α : Type*} (framer : Framer α) (closes : List α → Bool) (limit : ℕ)

/-- The messages of a stream that are taken up, in order, and whether the
exchange stops because the next one does not fit the window. -/
def exchange (stream : List α) : List (List α) × Bool :=
  match _hfound : framer.find (stream.take limit) with
  | none => ([], limit ≤ stream.length)
  | some length =>
    if closes (stream.take length) then ([stream.take length], false)
    else
      let rest := exchange (stream.drop length)
      (stream.take length :: rest.1, rest.2)
termination_by stream.length
decreasing_by
  have hpos := framer.pos _hfound
  have hle := framer.le_length _hfound
  rw [List.length_take] at hle
  rw [List.length_drop]
  omega

variable {framer closes limit}

theorem exchange_of_none {stream : List α}
    (hnone : framer.find (stream.take limit) = none) :
    exchange framer closes limit stream =
      ([], decide (limit ≤ stream.length)) := by
  rw [exchange]
  split
  · rfl
  · next length hfound => simp [hnone] at hfound

theorem exchange_of_some {stream : List α} {length : ℕ}
    (hsome : framer.find (stream.take limit) = some length) :
    exchange framer closes limit stream =
      if closes (stream.take length) then ([stream.take length], false)
      else
        (stream.take length ::
            (exchange framer closes limit (stream.drop length)).1,
          (exchange framer closes limit (stream.drop length)).2) := by
  rw [exchange]
  split
  · next hnone => simp [hsome] at hnone
  · next other hfound =>
      have hsame : length = other := by simpa [hsome] using hfound
      subst hsame
      rfl

/-- What is found in the part of the window that has arrived is what the
exchange takes up. -/
theorem find_take_append {pending : List α} {length : ℕ}
    (hfound : framer.find pending = some length)
    (hlimit : pending.length ≤ limit) (incoming : List α) :
    framer.find ((pending ++ incoming).take limit) = some length := by
  rw [List.take_append, List.take_of_length_le hlimit]
  exact framer.extend hfound _

section Window

variable {pending incoming : List α} {length : ℕ}

/-- A complete message that closes the exchange is its last. -/
theorem exchange_closing (framer : Framer α)
    (hfound : framer.find pending = some length)
    (hlimit : pending.length ≤ limit)
    (hcloses : closes (pending.take length) = true) :
    exchange framer closes limit (pending ++ incoming) =
      ([pending.take length], false) := by
  have hle := framer.le_length hfound
  rw [exchange_of_some (find_take_append hfound hlimit incoming),
    List.take_append_of_le_length hle, if_pos hcloses]

/-- A complete message that does not close it is taken up and dropped. -/
theorem exchange_continuing (framer : Framer α)
    (hfound : framer.find pending = some length)
    (hlimit : pending.length ≤ limit)
    (hcloses : closes (pending.take length) = false) :
    exchange framer closes limit (pending ++ incoming) =
      (pending.take length ::
          (exchange framer closes limit (pending.drop length ++ incoming)).1,
        (exchange framer closes limit
          (pending.drop length ++ incoming)).2) := by
  have hle := framer.le_length hfound
  rw [exchange_of_some (find_take_append hfound hlimit incoming),
    List.take_append_of_le_length hle, List.drop_append_of_le_length hle,
    if_neg (by simp [hcloses])]

/-- A full window without a complete message ends the exchange. -/
theorem exchange_overflow (framer : Framer α)
    (hnone : framer.find pending = none)
    (hfull : pending.length = limit) :
    exchange framer closes limit (pending ++ incoming) = ([], true) := by
  have htake : (pending ++ incoming).take limit = pending := by
    rw [← hfull, List.take_left]
  rw [exchange_of_none (by rw [htake, hnone]), List.length_append, hfull]
  simp

/-- So does the end of the stream. -/
theorem exchange_end (framer : Framer α)
    (hnone : framer.find pending = none)
    (hspace : pending.length < limit) :
    exchange framer closes limit pending = ([], false) := by
  have htake : pending.take limit = pending :=
    List.take_of_length_le (Nat.le_of_lt hspace)
  rw [exchange_of_none (by rw [htake, hnone])]
  simp [hspace]

end Window

/-- The messages up to the first one that closes the exchange. -/
def upToClosing (closes : List α → Bool) : List (List α) → List (List α)
  | [] => []
  | message :: messages =>
    if closes message then [message]
    else message :: upToClosing closes messages

theorem upToClosing_begins (messages : List (List α)) :
    upToClosing closes messages <+: messages := by
  induction messages with
  | nil => exact List.prefix_refl _
  | cons message messages ih =>
      rw [upToClosing]
      split_ifs
      · exact List.prefix_append [message] messages
      · exact (List.prefix_cons_inj message).mpr ih

/-- The last of them closes it. -/
theorem exists_getLast?_upToClosing (closes : List α → Bool)
    {messages : List (List α)}
    (hcloses : ∃ message ∈ messages, closes message = true) :
    ∃ last, (upToClosing closes messages).getLast? = some last ∧
      closes last = true := by
  induction messages with
  | nil => simp at hcloses
  | cons message messages ih =>
      rw [upToClosing]
      split_ifs with hmessage
      · exact ⟨message, rfl, hmessage⟩
      · simp only [List.mem_cons, exists_eq_or_imp, hmessage] at hcloses
        obtain ⟨last, hlast, hcloses⟩ := ih (by simpa using hcloses)
        refine ⟨last, ?_, hcloses⟩
        rw [List.getLast?_cons, hlast]
        rfl

/-- Messages that close an exchange only cut it off. -/
theorem exchange_upToClosing (framer : Framer α) (closes : List α → Bool)
    (limit : ℕ) (stream : List α) :
    (exchange framer closes limit stream).1 =
        upToClosing closes
          (exchange framer (fun _ => false) limit stream).1 ∧
      ((exchange framer closes limit stream).2 = true →
        exchange framer closes limit stream =
          exchange framer (fun _ => false) limit stream) := by
  fun_induction exchange framer closes limit stream with
  | case1 stream hnone =>
      rw [exchange_of_none hnone]
      exact ⟨rfl, fun _ => rfl⟩
  | case2 stream length hsome hcloses =>
      rw [exchange_of_some hsome]
      refine ⟨?_, by simp⟩
      simp [upToClosing, hcloses]
  | case3 stream length hsome hcloses rest ih =>
      obtain ⟨hheads, hoverflow⟩ := ih
      rw [exchange_of_some hsome, if_neg Bool.false_ne_true]
      refine ⟨?_, fun hfull => ?_⟩
      · simp only [upToClosing, hcloses]
        exact congrArg _ hheads
      · rw [← hoverflow hfull]

/-- Complete messages that fit the window, one of which closes, determine the
exchange, whatever follows. -/
theorem exchange_flatten (framer : Framer α) {messages : List (List α)}
    (hcomplete : ∀ message ∈ messages,
      framer.find message = some message.length ∧ message.length ≤ limit)
    (hcloses : ∃ message ∈ messages, closes message = true)
    (more : List α) :
    exchange framer closes limit (messages.flatten ++ more) =
      (upToClosing closes messages, false) := by
  induction messages with
  | nil => simp at hcloses
  | cons message messages ih =>
      rw [List.forall_mem_cons] at hcomplete
      obtain ⟨⟨hfound, hlimit⟩, hrest⟩ := hcomplete
      rw [List.flatten_cons, List.append_assoc, upToClosing]
      have htake : message.take message.length = message := List.take_length
      have hdrop : message.drop message.length = [] := List.drop_length
      cases hmessage : closes message with
      | true =>
          rw [exchange_closing framer hfound hlimit (by rw [htake, hmessage]), htake]
          rfl
      | false =>
          rw [exchange_continuing framer hfound hlimit (by rw [htake, hmessage]),
            htake, hdrop, List.nil_append, ih hrest]
          · rfl
          · simpa [hmessage] using hcloses

end Exchange

end HttpCerver.Delimited
