import HttpCerver.Parse.Grammar

/-!
# Where a request ends

The framer looks for the first CRLFCRLF among raw bytes; the parser walks line
by line through a C string.  When the parser accepts what the framer has cut
off, both have found the same end, and nothing in between was skipped.
-/

namespace HttpCerver.Boundary

open HttpCerver.Bytes
open HttpCerver.Config
open HttpCerver.Grammar
open HttpCerver.Request
open HttpCerver.Search

/-- The last CRLF in front of the empty line. -/
theorem exists_eq_append_crlf (line : List Byte) (lines : List (List Byte)) :
    ∃ before, line ++ (crlf ++ headerBlockOf lines) = before ++ crlf := by
  induction lines generalizing line with
  | nil => exact ⟨line, by simp [headerBlockOf]⟩
  | cons next lines ih =>
      obtain ⟨before, hbefore⟩ := ih next
      refine ⟨line ++ crlf ++ before, ?_⟩
      rw [List.append_assoc, ← hbefore]
      simp [headerBlockOf]

/-- An occurrence of the terminator is not before the first one. -/
theorem length_le_of_crlfCrlf {buffer : List Byte} {length : ℕ}
    (hfound : httpFindHeaderEnd buffer = some length)
    (before after : List Byte) (hbuffer : buffer = before ++ crlfCrlf ++ after) :
    length ≤ before.length + 4 := by
  obtain ⟨offset, hoffset, rfl⟩ := Option.map_eq_some_iff.mp hfound
  obtain ⟨-, -, hfirst⟩ := firstOccurrence_eq_some_iff.mp hoffset
  by_contra hlater
  apply hfirst before.length (by omega)
  rw [hbuffer, List.append_assoc, List.drop_left]
  exact List.prefix_append _ _

/-- The head that the framer cuts off is accepted as a whole. -/
theorem accepted_head {buffer : List Byte} {length : ℕ} {config : ServerConfig}
    {request : HttpRequest} (hfound : httpFindHeaderEnd buffer = some length)
    (hparse : httpParseRequest (cstring (buffer.take length)) config =
      .ok request) :
    0 ∉ buffer.take length ∧
      ∃ requestLine lines, ¬ crlf <:+: requestLine ∧
        List.Forall₂ (HeaderLine config) request.headers lines ∧
        buffer.take length =
          requestLine ++ crlf ++ headerBlockOf lines ++ crlf ∧
        httpParseHeaders (buffer.take length) { request with headers := [] }
          config = (.ok request, crlf) := by
  have hlength := (httpFindHeaderEnd_bounds hfound).2
  obtain ⟨target, lines, after, ⟨hmethod, -, hcrlf, -, -, hversion, hall, -⟩,
    htext, hheaders⟩ := httpParseRequest_sound hparse
  set requestLine := request.method ++ sp :: (target ++ sp :: request.version)
    with hrequestLine
  obtain ⟨before, hbefore⟩ := exists_eq_append_crlf requestLine lines
  obtain ⟨rest, hrest⟩ := cstring_begins_buffer (buffer.take length)
  have hsame : requestLine ++ (crlf ++ (headerBlockOf lines ++
      (crlf ++ after))) = before ++ crlfCrlf ++ after := by
    have hsplit : crlfCrlf = crlf ++ crlf := rfl
    rw [hsplit, ← List.append_assoc before, ← hbefore]
    simp
  -- the string runs up to the end of the head, so no NUL has cut it
  have hend : length ≤ before.length + 4 := by
    refine length_le_of_crlfCrlf hfound before
      (after ++ rest ++ buffer.drop length) ?_
    calc buffer = buffer.take length ++ buffer.drop length :=
          (List.take_append_drop _ _).symm
      _ = before ++ crlfCrlf ++ (after ++ rest ++ buffer.drop length) := by
          rw [← hrest, htext, hsame]
          simp
  have hwhole : before.length + 4 + after.length ≤
      (cstring (buffer.take length)).bytes.length := by
    rw [htext, hsame]
    simp [crlfCrlf]
    omega
  have htake : (buffer.take length).length = length := List.length_take_of_le hlength
  have hbound := (cstring_begins_buffer (buffer.take length)).length_le
  have hnul : 0 ∉ buffer.take length :=
    notMem_of_length_cstring (by omega)
  have hafter : after = [] := List.length_eq_zero_iff.mp (by omega)
  rw [cstring_bytes_of_notMem hnul] at htext hheaders
  subst hafter
  refine ⟨hnul, requestLine, lines, ?_, hall, ?_, by simpa using hheaders⟩
  · exact fun hcontains =>
      hcrlf ((crlf_infix_requestLine_iff hmethod hversion).mp hcontains)
  · rw [htext]
    simp

/-- Framer and parser agree on the end of an accepted head: it contains no NUL,
the scan of the headers stops at its last two bytes, and there are as many
headers as lines between the request line and the empty line. -/
theorem framer_parser_agree {buffer : List Byte} {length : ℕ}
    {config : ServerConfig} {request : HttpRequest}
    (hfound : httpFindHeaderEnd buffer = some length)
    (hparse : httpParseRequest (cstring (buffer.take length)) config =
      .ok request) :
    0 ∉ buffer.take length ∧
      httpParseHeaders (cstring (buffer.take length)).bytes
          { request with headers := [] } config =
        (.ok request, (buffer.take length).drop (length - 2)) ∧
      (buffer.take length).drop (length - 2) = crlf ∧
      ∃ (requestLine : List Byte) (lines : List (List Byte)),
        buffer.take length =
          requestLine ++ crlf ++ lines.flatMap (· ++ crlf) ++ crlf ∧
        ¬ crlf <:+: requestLine ∧ (∀ line ∈ lines, ¬ crlf <:+: line) ∧
        request.headers.length = lines.length := by
  obtain ⟨hnul, requestLine, lines, hline, hall, hhead, hheaders⟩ :=
    accepted_head hfound hparse
  have htake : (buffer.take length).length = length :=
    List.length_take_of_le (httpFindHeaderEnd_bounds hfound).2
  have hlast : (buffer.take length).drop (length - 2) = crlf := by
    have hcut : length - 2 =
        (requestLine ++ crlf ++ headerBlockOf lines).length := by
      rw [hhead, List.length_append] at htake
      simp only [crlf, List.length_cons, List.length_nil] at htake ⊢
      omega
    rw [hhead, hcut, List.drop_left]
  refine ⟨hnul, ?_, hlast, requestLine, lines, hhead, hline, ?_,
    hall.length_eq⟩
  · rw [cstring_bytes_of_notMem hnul, hlast, hheaders]
  · intro line hmem
    obtain ⟨header, -, hheader⟩ := exists_header_of_mem hall hmem
    exact not_crlf_infix_of_notMem _ (by decide) hheader.cr_notMem

/-- A request with more bytes behind it. -/
def requestBuffer : List Byte :=
  ascii "GET /?a HTTP/1.1\r\nHost: b \r\n\r\nmore"

theorem framer_parser_agree_requestBuffer :
    0 ∉ requestBuffer.take 30 ∧ (requestBuffer.take 30).drop 28 = crlf :=
  have hfound : httpFindHeaderEnd requestBuffer = some 30 := by decide +kernel
  have hparse : httpParseRequest (cstring (requestBuffer.take 30)) configInit =
      .ok
        { method := ascii "GET"
          path := ascii "/"
          query := ascii "a"
          version := ascii "HTTP/1.1"
          headers := [{ name := ascii "Host", value := ascii "b" }] } := by
    decide +kernel
  have hagree := framer_parser_agree hfound hparse
  ⟨hagree.1, hagree.2.2.1⟩

end HttpCerver.Boundary
