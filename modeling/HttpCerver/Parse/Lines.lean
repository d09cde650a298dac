import HttpCerver.Parse.Grammar

/-!
# Header lines one at a time

What a round of the header loop does with the line in front of it depends on
that line only, on the limits and on how many headers there are already.
-/

namespace HttpCerver.Lines

open HttpCerver.Bytes
open HttpCerver.Config
open HttpCerver.Grammar
open HttpCerver.Request
open HttpCerver.Search

/-- The checks on the name and the value of a header. -/
def judgeHeader (config : ServerConfig) (name value : List Byte) :
    Except HttpParseResult HttpHeader :=
  if name.length = 0 ∨ name.getLast? = some sp ∨
      name.getLast? = some htab then
    .error .badRequest
  else if ¬ httpValidHeaderName name then .error .badRequest
  else if config.httpHeaderNameMax ≤ name.length then .error .headersTooLarge
  else if ¬ httpValidHeaderValue value then .error .badRequest
  else if config.httpHeaderValueMax ≤ value.length then
    .error .headersTooLarge
  else .ok { name := name, value := value }

/-- The header of a line that does not contain a CRLF. -/
def readHeader (config : ServerConfig) (line : List Byte) :
    Except HttpParseResult HttpHeader :=
  match strchr line colon with
  | none => .error .badRequest
  | some nameLength =>
    judgeHeader config (line.take nameLength)
      (trimOws (line.drop (nameLength + 1)))

theorem readHeader_of_notMem (config : ServerConfig) {line : List Byte}
    (hcolon : colon ∉ line) : readHeader config line = .error .badRequest := by
  rw [readHeader, strchr, firstOccurrence_singleton_eq_none_iff.mpr hcolon]

theorem readHeader_append (config : ServerConfig) {name : List Byte}
    (hname : colon ∉ name) (tail : List Byte) :
    readHeader config (name ++ colon :: tail) =
      judgeHeader config name (trimOws tail) := by
  have hdrop : (name ++ colon :: tail).drop (name.length + 1) = tail := by
    rw [← List.drop_drop, List.drop_left]
    rfl
  rw [readHeader, strchr, firstOccurrence_singleton_append hname]
  dsimp only
  rw [List.take_left, hdrop]

theorem exists_eq_append_colon {line : List Byte} (hcolon : colon ∈ line) :
    ∃ name tail, line = name ++ colon :: tail ∧ colon ∉ name := by
  have hcontains : [colon] <:+: line := by
    rwa [List.singleton_infix_iff]
  obtain ⟨offset, hoffset⟩ := Option.isSome_iff_exists.mp
    (isSome_firstOccurrence_iff.mpr hcontains)
  obtain ⟨name, tail, hsplit, -, hname⟩ :=
    firstOccurrence_singleton_eq_some_iff.mp hoffset
  exact ⟨name, tail, hsplit, hname⟩

/-- Where the text of a round is a header line and what follows it. -/
theorem take_two_append {line : List Byte} (hline : ¬ crlf <:+: line)
    (hne : line ≠ []) (after : List Byte) :
    (line ++ crlf ++ after).take 2 ≠ crlf := by
  intro htake
  have hbegins := List.take_prefix 2 (line ++ crlf ++ after)
  rw [htake] at hbegins
  have hfound := firstOccurrence_eq_some_iff.mpr
    ⟨Nat.zero_le _, hbegins, fun _ hlt => absurd hlt (Nat.not_lt_zero _)⟩
  rw [← strstr, strstr_crlf_append hline, Option.some.injEq,
    List.length_eq_zero_iff] at hfound
  exact hne hfound

/-- A round on a header line. -/
theorem httpParseHeader_of_line (config : ServerConfig) {line : List Byte}
    (hline : ¬ crlf <:+: line) (hne : line ≠ []) (after : List Byte)
    (request : HttpRequest) :
    httpParseHeader config
        { line := line ++ crlf ++ after, request := request } =
      if config.httpMaxHeaders ≤ request.headers.length then
        .inr (.headersTooLarge, line ++ crlf ++ after)
      else
        match readHeader config line with
        | .error result => .inr (result, line ++ crlf ++ after)
        | .ok header => .inl
            { line := after
              request := { request with
                headers := request.headers ++ [header] } } := by
  simp only [httpParseHeader, take_two_append hline hne,
    strstr_crlf_append hline, if_false]
  split_ifs with hmany
  · rfl
  · by_cases hcolon : colon ∈ line
    · obtain ⟨name, tail, rfl, hname⟩ := exists_eq_append_colon hcolon
      have hfound : memchr (name ++ colon :: tail ++ crlf ++ after) colon
          (name ++ colon :: tail).length = some name.length := by
        rw [memchr, List.append_assoc, List.take_left]
        exact firstOccurrence_singleton_append hname tail
      obtain ⟨hcutName, hcutTail, hcutAfter⟩ := header_pieces name tail after
      simp only [hfound, hcutName, hcutTail, hcutAfter,
        readHeader_append config hname, judgeHeader]
      split_ifs <;> rfl
    · have hfound : memchr (line ++ crlf ++ after) colon line.length =
          none := by
        rw [memchr, List.append_assoc, List.take_left]
        exact firstOccurrence_singleton_eq_none_iff.mpr hcolon
      rw [hfound, readHeader_of_notMem config hcolon]

/-- A round on a text without a CRLF. -/
theorem httpParseHeader_of_cut (config : ServerConfig) {text : List Byte}
    (htext : ¬ crlf <:+: text) (request : HttpRequest) :
    httpParseHeader config { line := text, request := request } =
      .inr (if config.httpMaxHeaders ≤ request.headers.length
        then .headersTooLarge else .badRequest, text) := by
  have htake : text.take 2 ≠ crlf := fun h =>
    htext (h ▸ (List.take_prefix 2 text).isInfix)
  have hend : strstr text crlf = none :=
    firstOccurrence_eq_none_iff.mpr htext
  simp only [httpParseHeader, htake, hend, if_false]
  split_ifs <;> rfl

/-- A round on the empty line. -/
theorem httpParseHeader_of_end (config : ServerConfig) (after : List Byte)
    (request : HttpRequest) :
    httpParseHeader config { line := crlf ++ after, request := request } =
      .inr (.ok request, crlf ++ after) :=
  httpParseHeader_eq_inr_ok_iff.mpr ⟨rfl, rfl, after, rfl⟩

/-- Every text is cut, ends the headers or starts with a header line. -/
theorem text_cases (text : List Byte) :
    ¬ crlf <:+: text ∨ (∃ after, text = crlf ++ after) ∨
      ∃ line after, text = line ++ crlf ++ after ∧ ¬ crlf <:+: line ∧
        line ≠ [] := by
  cases hend : strstr text crlf with
  | none => exact .inl (firstOccurrence_eq_none_iff.mp hend)
  | some lineEnd =>
      obtain ⟨line, after, rfl, -, hline⟩ := strstr_crlf_eq_some_iff.mp hend
      by_cases hempty : line = []
      · exact .inr (.inl ⟨after, by rw [hempty, List.nil_append]⟩)
      · exact .inr (.inr ⟨line, after, rfl, hline, hempty⟩)

end HttpCerver.Lines
