import HttpCerver.Core.Delimited

/-!
# Messages with a declared body

A message may consist of a head and as many symbols as the head declares.
Such messages are again found by a framer.  A reader with a framer for each
position takes back from a stream exactly the messages that were written, so a
stream falls apart into complete messages in one way only.
-/

namespace HttpCerver.Framed

open HttpCerver.Delimited

variable {α : Type*}

section Declared

variable (framer : Framer α) (bodyLength : List α → Option ℕ)

/-- The length of the head and of the body it declares, if all of it is
there. -/
def findDeclared (buffer : List α) : Option ℕ :=
  match framer.find buffer with
  | none => none
  | some length =>
    match bodyLength (buffer.take length) with
    | none => none
    | some body =>
      if length + body ≤ buffer.length then some (length + body) else none

variable {framer bodyLength}

theorem findDeclared_eq_some_iff {buffer : List α} {total : ℕ} :
    findDeclared framer bodyLength buffer = some total ↔
      ∃ length body, framer.find buffer = some length ∧
        bodyLength (buffer.take length) = some body ∧
        length + body = total ∧ total ≤ buffer.length := by
  rw [findDeclared]
  constructor
  · intro hfound
    split at hfound
    · cases hfound
    · next length hlength =>
        split at hfound
        · cases hfound
        · next body hbody =>
            split_ifs at hfound with hfits
            cases hfound
            exact ⟨length, body, hlength, hbody, rfl, hfits⟩
  · rintro ⟨length, body, hlength, hbody, rfl, hfits⟩
    simp only [hlength, hbody, if_pos hfits]

/-- A head of one framer in front of a body is a message of another. -/
theorem findDeclared_append {head body : List α}
    (hhead : framer.find head = some head.length)
    (hbody : bodyLength head = some body.length) :
    findDeclared framer bodyLength (head ++ body) =
      some (head ++ body).length := by
  rw [findDeclared_eq_some_iff]
  refine ⟨head.length, body.length, framer.extend hhead body, ?_,
    List.length_append.symm, Nat.le_refl _⟩
  rw [List.take_left]
  exact hbody

variable (framer bodyLength)

/-- Heads followed by the bodies they declare. -/
def declared : Framer α where
  find := findDeclared framer bodyLength
  pos := by
    intro buffer total hfound
    obtain ⟨length, body, hlength, -, rfl, -⟩ :=
      findDeclared_eq_some_iff.mp hfound
    have hpos := framer.pos hlength
    omega
  le_length := by
    intro buffer total hfound
    obtain ⟨length, body, -, -, -, hfits⟩ :=
      findDeclared_eq_some_iff.mp hfound
    exact hfits
  extend := by
    intro buffer total hfound more
    obtain ⟨length, body, hlength, hbody, htotal, hfits⟩ :=
      findDeclared_eq_some_iff.mp hfound
    rw [findDeclared_eq_some_iff]
    refine ⟨length, body, framer.extend hlength more, ?_, htotal, ?_⟩
    · rwa [List.take_append_of_le_length (framer.le_length hlength)]
    · rw [List.length_append]
      omega
  restrict := by
    intro buffer more total hfound hinside
    obtain ⟨length, body, hlength, hbody, htotal, -⟩ :=
      findDeclared_eq_some_iff.mp hfound
    have hhead : length ≤ buffer.length := by omega
    rw [findDeclared_eq_some_iff]
    refine ⟨length, body, framer.restrict hlength hhead, ?_, htotal, hinside⟩
    rwa [List.take_append_of_le_length hhead] at hbody

end Declared

theorem find_nil (framer : Framer α) : framer.find [] = none := by
  cases hfound : framer.find [] with
  | none => rfl
  | some length =>
      have hpos := framer.pos hfound
      have hle := framer.le_length hfound
      rw [List.length_nil] at hle
      omega

/-- Every message is complete for the framer of its position. -/
def Complete (framers : ℕ → Framer α) (messages : List (List α)) : Prop :=
  ∀ index message, messages[index]? = some message →
    (framers index).find message = some message.length

theorem complete_cons_iff {framers : ℕ → Framer α} {message : List α}
    {messages : List (List α)} :
    Complete framers (message :: messages) ↔
      (framers 0).find message = some message.length ∧
        Complete (fun index => framers (index + 1)) messages := by
  constructor
  · intro hcomplete
    exact ⟨hcomplete 0 message rfl, fun index later hlater =>
      hcomplete (index + 1) later hlater⟩
  · rintro ⟨hfirst, hrest⟩ index later hlater
    cases index with
    | zero =>
        cases hlater
        exact hfirst
    | succ index => exact hrest index later hlater

/-- The messages a reader takes from a stream, each with the framer of its
position. -/
def receive (framers : ℕ → Framer α) (stream : List α) : List (List α) :=
  match _hfound : (framers 0).find stream with
  | none => []
  | some length =>
    stream.take length ::
      receive (fun index => framers (index + 1)) (stream.drop length)
termination_by stream.length
decreasing_by
  have hpos := (framers 0).pos _hfound
  have hle := (framers 0).le_length _hfound
  rw [List.length_drop]
  omega

theorem receive_nil (framers : ℕ → Framer α) : receive framers [] = [] := by
  rw [receive]
  split
  · rfl
  · next length hfound =>
      rw [find_nil] at hfound
      cases hfound

theorem receive_append {framers : ℕ → Framer α} {message : List α}
    (hmessage : (framers 0).find message = some message.length)
    (stream : List α) :
    receive framers (message ++ stream) =
      message :: receive (fun index => framers (index + 1)) stream := by
  have hextended := (framers 0).extend hmessage stream
  rw [receive]
  split
  · next hnone =>
      rw [hextended] at hnone
      cases hnone
  · next length hfound =>
      have hlength : message.length = length := by simpa [hextended] using hfound
      rw [← hlength, List.take_left, List.drop_left]

/-- What was written is read back. -/
theorem receive_flatten {framers : ℕ → Framer α} {messages : List (List α)}
    (hcomplete : Complete framers messages) :
    receive framers messages.flatten = messages := by
  induction messages generalizing framers with
  | nil => exact receive_nil framers
  | cons message messages ih =>
      obtain ⟨hfirst, hrest⟩ := complete_cons_iff.mp hcomplete
      rw [List.flatten_cons, receive_append hfirst, ih hrest]

/-- A message that has not arrived in full is not taken. -/
theorem receive_incomplete {framers : ℕ → Framer α} {message stream : List α}
    (hmessage : (framers 0).find message = some message.length)
    (hbegins : stream <+: message) (hshort : stream.length < message.length) :
    receive framers stream = [] := by
  rw [receive]
  split
  · rfl
  · next length hfound =>
      obtain ⟨rest, rfl⟩ := hbegins
      have hle := (framers 0).le_length hfound
      rw [(framers 0).extend hfound rest, Option.some.injEq] at hmessage
      omega

/-- From the beginning of what was written a reader takes the first messages,
and what is left is the beginning of the next one. -/
theorem receive_of_begins {framers : ℕ → Framer α} {messages : List (List α)}
    {stream : List α} (hcomplete : Complete framers messages)
    (hbegins : stream <+: messages.flatten) :
    ∃ count rest, receive framers stream = messages.take count ∧
      stream = (messages.take count).flatten ++ rest ∧
      rest <+: messages.getD count [] := by
  induction messages generalizing framers stream with
  | nil =>
      rw [List.flatten_nil, List.prefix_nil] at hbegins
      exact ⟨0, [], by rw [hbegins, receive_nil, List.take_nil],
        by simpa using hbegins, List.nil_prefix⟩
  | cons message messages ih =>
      obtain ⟨hfirst, hrest⟩ := complete_cons_iff.mp hcomplete
      rw [List.flatten_cons] at hbegins
      rcases Nat.lt_or_ge stream.length message.length with hshort | hlong
      · have hinside : stream <+: message :=
          List.prefix_of_prefix_length_le hbegins (List.prefix_append _ _)
            (Nat.le_of_lt hshort)
        exact ⟨0, stream, receive_incomplete hfirst hinside hshort, rfl,
          hinside⟩
      · obtain ⟨later, rfl⟩ : message <+: stream :=
          List.prefix_of_prefix_length_le (List.prefix_append _ _) hbegins hlong
        obtain ⟨count, rest, hreceived, hlater, hnext⟩ :=
          ih hrest ((List.prefix_append_right_inj message).mp hbegins)
        refine ⟨count + 1, rest, ?_, ?_, hnext⟩
        · rw [receive_append hfirst, hreceived, List.take_succ_cons]
        · rw [List.take_succ_cons, List.flatten_cons, List.append_assoc,
            ← hlater]

/-- A stream falls apart into complete messages in one way only. -/
theorem eq_of_flatten_eq {framers : ℕ → Framer α}
    {messages others : List (List α)} (hmessages : Complete framers messages)
    (hothers : Complete framers others)
    (hflatten : messages.flatten = others.flatten) : messages = others := by
  rw [← receive_flatten hmessages, hflatten, receive_flatten hothers]

end HttpCerver.Framed
