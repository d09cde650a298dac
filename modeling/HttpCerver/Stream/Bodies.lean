import HttpCerver.Parse.Boundary
import HttpCerver.Server.Framing
import HttpCerver.Stream.Reference

/-!
# A declared body is never read as a request

A head that declares a body is answered with an error, and an error closes the
connection.  What follows such a head therefore has no influence on the output
of the handler, wherever the receives cut the stream.
-/

namespace HttpCerver.Bodies

open HttpCerver.Answers
open HttpCerver.Boundary
open HttpCerver.Bytes
open HttpCerver.Config
open HttpCerver.Delimited
open HttpCerver.Framing
open HttpCerver.Grammar
open HttpCerver.Http
open HttpCerver.Reference
open HttpCerver.Request
open HttpCerver.Search
open HttpCerver.System
open HttpCerver.Trim

/-- The lines of a head: the request line and the lines up to the empty one. -/
structure Layout (head requestLine : List Byte) (lines : List (List Byte)) :
    Prop where
  head_eq : head = requestLine ++ crlf ++ lines.flatMap (· ++ crlf) ++ crlf
  requestLine : ¬ crlf <:+: requestLine
  lines : ∀ line ∈ lines, ¬ crlf <:+: line

/-- The field of a header line: what stands in front of its first colon and,
without the white space around it, what stands behind. -/
def fieldOf (line : List Byte) : Option HttpHeader :=
  (strchr line colon).map fun offset =>
    { name := line.take offset, value := trimOws (line.drop (offset + 1)) }

/-- The header fields of a raw head declare a body. -/
def BodyDeclared (head : List Byte) : Prop :=
  ∃ requestLine lines, Layout head requestLine lines ∧
    DeclaresBody (lines.filterMap fieldOf)

/-- A text is cut at its first CRLF in one way only. -/
theorem crlf_cut_unique {left right leftRest rightRest : List Byte}
    (hleft : ¬ crlf <:+: left) (hright : ¬ crlf <:+: right)
    (hsame : left ++ crlf ++ leftRest = right ++ crlf ++ rightRest) :
    left = right ∧ leftRest = rightRest := by
  have hlength := strstr_crlf_append hleft leftRest
  rw [hsame, strstr_crlf_append hright, Option.some.injEq] at hlength
  rw [List.append_assoc, List.append_assoc] at hsame
  obtain ⟨hcut, hrest⟩ := List.append_inj hsame hlength.symm
  exact ⟨hcut, List.append_cancel_left hrest⟩

theorem lines_unique {left right : List (List Byte)}
    (hleft : ∀ line ∈ left, ¬ crlf <:+: line)
    (hright : ∀ line ∈ right, ¬ crlf <:+: line)
    (hsame : left.flatMap (· ++ crlf) ++ crlf =
      right.flatMap (· ++ crlf) ++ crlf) : left = right := by
  induction left generalizing right with
  | nil =>
      cases right with
      | nil => rfl
      | cons line right =>
          have hlength := congrArg List.length hsame
          simp [crlf] at hlength
          omega
  | cons line left ih =>
      cases right with
      | nil =>
          have hlength := congrArg List.length hsame
          simp [crlf] at hlength
          omega
      | cons other right =>
          rw [List.forall_mem_cons] at hleft hright
          rw [List.flatMap_cons, List.flatMap_cons,
            List.append_assoc (line ++ crlf),
            List.append_assoc (other ++ crlf)] at hsame
          obtain ⟨rfl, hrest⟩ := crlf_cut_unique hleft.1 hright.1 hsame
          rw [ih hleft.2 hright.2 hrest]

theorem Layout.unique {head requestLine other : List Byte}
    {lines others : List (List Byte)} (h : Layout head requestLine lines)
    (hother : Layout head other others) :
    requestLine = other ∧ lines = others := by
  have hsame := h.head_eq.symm.trans hother.head_eq
  rw [List.append_assoc _ _ crlf, List.append_assoc _ _ crlf] at hsame
  obtain ⟨hline, hrest⟩ :=
    crlf_cut_unique h.requestLine hother.requestLine hsame
  exact ⟨hline, lines_unique h.lines hother.lines hrest⟩

/-- The field of a header line is the header it stands for. -/
theorem fieldOf_headerLine {config : ServerConfig} {header : HttpHeader}
    {line : List Byte} (h : HeaderLine config header line) :
    fieldOf line = some header := by
  cases h with
  | @mk before after hname hbefore hafter hvalue htext hlength =>
      have hcolon : colon ∉ header.name := fun hmem =>
        (hname.tchar _ hmem).ne.2.2.2 rfl
      have htrim : trimOws (before ++ header.value ++ after) = header.value :=
        trim_append_append hbefore hafter hvalue
      rw [fieldOf, strchr, firstOccurrence_singleton_append hcolon,
        Option.map_some, List.take_left, ← List.drop_drop, List.drop_left]
      simp only [List.drop_succ_cons, List.drop_zero, htrim]

theorem filterMap_fieldOf {config : ServerConfig} {headers : List HttpHeader}
    {lines : List (List Byte)}
    (hall : List.Forall₂ (HeaderLine config) headers lines) :
    lines.filterMap fieldOf = headers := by
  induction hall with
  | nil => rfl
  | cons hheader hall ih =>
      rw [List.filterMap_cons_some (fieldOf_headerLine hheader), ih]

theorem trimmed_of_headerLines {config : ServerConfig}
    {headers : List HttpHeader} {lines : List (List Byte)}
    (hall : List.Forall₂ (HeaderLine config) headers lines) :
    ∀ header ∈ headers, Trimmed isOws header.value := by
  intro header hheader
  obtain ⟨line, hline⟩ := exists_line_of_mem hall hheader
  cases hline with
  | mk hname hbefore hafter hvalue htext hlength => exact hvalue

/-- A head that declares a body is turned down. -/
theorem judge_of_bodyDeclared (config : ServerConfig) {head : List Byte}
    (hcomplete : httpFindHeaderEnd head = some head.length)
    (hbody : BodyDeclared head) : ∃ refusal, judge config head = .error refusal := by
  rw [judge]
  cases hparse : httpParseRequest (cstring head) config with
  | headersTooLarge => exact ⟨_, rfl⟩
  | badRequest => exact ⟨_, rfl⟩
  | ok request =>
      have hwhole : head.take head.length = head := List.take_length
      obtain ⟨-, requestLine, lines, hline, hall, hhead, -⟩ :=
        accepted_head hcomplete (by rwa [hwhole])
      rw [hwhole] at hhead
      obtain ⟨other, others, hlayout, hdeclares⟩ := hbody
      have hlayout' : Layout head requestLine lines := ⟨hhead, hline, by
        intro line hmem
        obtain ⟨header, -, hheader⟩ := exists_header_of_mem hall hmem
        exact not_crlf_infix_of_notMem _ (by decide) hheader.cr_notMem⟩
      rw [(hlayout.unique hlayout').2, filterMap_fieldOf hall] at hdeclares
      dsimp only
      split_ifs
      · exact ⟨_, rfl⟩
      · cases hframing : httpValidateRequestFraming request with
        | some reason => exact ⟨_, rfl⟩
        | none =>
            rw [httpValidateRequestFraming_eq_none_iff
              (trimmed_of_headerLines hall)] at hframing
            exact absurd hdeclares hframing
      · exact ⟨_, rfl⟩

theorem closes_of_bodyDeclared (config : ServerConfig) (tree : Tree)
    (root : Option Inode) {head : List Byte}
    (hcomplete : httpFindHeaderEnd head = some head.length)
    (hbody : BodyDeclared head) :
    (answerTo config tree root head).closes = true := by
  obtain ⟨refusal, hrefusal⟩ := judge_of_bodyDeclared config hcomplete hbody
  rw [answerTo, answer, hrefusal]
  rfl

/-- Complete heads, each of which fits the buffer. -/
def CompleteHeads (config : ServerConfig) (heads : List (List Byte)) : Prop :=
  ∀ head ∈ heads, httpFindHeaderEnd head = some head.length ∧
    head.length ≤ config.httpBufferSize

/-- The heads of a stream that are answered when one of them declares a body. -/
def answeredHeads (config : ServerConfig) (tree : Tree) (root : Option Inode)
    (heads : List (List Byte)) : List (List Byte) :=
  upToClosing (fun head => (answerTo config tree root head).closes) heads

/-- The reference of a stream does not depend on what follows a body. -/
theorem reference_of_bodyDeclared {config : ServerConfig} {tree : Tree}
    {root : Option Inode} {heads : List (List Byte)} {last : List Byte}
    (hheads : CompleteHeads config heads) (hlast : heads.getLast? = some last)
    (hbody : BodyDeclared last) (more : List Byte) :
    reference config tree root (heads.flatten ++ more) =
      (answeredHeads config tree root heads).flatMap
        fun head => rendered tree (answerTo config tree root head) := by
  have hmem := List.mem_of_getLast? hlast
  have hcloses := closes_of_bodyDeclared config tree root
    (hheads last hmem).1 hbody
  rw [reference, conversation, exchange_flatten headFramer hheads
    ⟨last, hmem, hcloses⟩]
  simp [answeredHeads]

/-- No smuggling, as a law about two runs: what follows a head that declares a
body does not influence the output.  The output answers the heads up to that
one, or up to an earlier one whose answer closed. -/
theorem declared_body_never_read {config : ServerConfig}
    (hconfig : httpConfigValid config = true) {tree : Tree}
    {heads : List (List Byte)} {last : List Byte}
    (hheads : CompleteHeads config heads) (hlast : heads.getLast? = some last)
    (hbody : BodyDeclared last) {first second : Environment}
    (hfirst : Undisturbed tree first) (hsecond : Undisturbed tree second)
    (hfirstMemory : false ∉ first.mallocs)
    (hsecondMemory : false ∉ second.mallocs)
    (hfirstStream : heads.flatten <+: first.incoming)
    (hsecondStream : heads.flatten <+: second.incoming) (rootFd : Fd)
    (inherited : List (Fd × Inode)) :
    output rootFd config first inherited =
        output rootFd config second inherited ∧
      ∃ answered final, answered <+: heads ∧
        answered.getLast? = some final ∧
        (answerTo config tree (inheritedRoot rootFd inherited) final).closes =
          true ∧
        output rootFd config first inherited = answered.flatMap fun head =>
          rendered tree
            (answerTo config tree (inheritedRoot rootFd inherited) head) := by
  have houtput : ∀ {environment}, Undisturbed tree environment →
      false ∉ environment.mallocs → heads.flatten <+: environment.incoming →
      output rootFd config environment inherited =
        (answeredHeads config tree (inheritedRoot rootFd inherited)
          heads).flatMap fun head => rendered tree
            (answerTo config tree (inheritedRoot rootFd inherited) head) := by
    rintro environment hcalm hmemory ⟨more, hstream⟩
    rw [(output_eq hconfig hcalm rootFd inherited).2 hmemory, ← hstream,
      reference_of_bodyDeclared hheads hlast hbody]
  have hmem := List.mem_of_getLast? hlast
  obtain ⟨final, hfinal, hcloses⟩ := exists_getLast?_upToClosing
    (fun head =>
      (answerTo config tree (inheritedRoot rootFd inherited) head).closes)
    ⟨last, hmem, closes_of_bodyDeclared _ _ _ (hheads last hmem).1 hbody⟩
  refine ⟨?_, answeredHeads config tree (inheritedRoot rootFd inherited) heads,
    final, upToClosing_begins heads, hfinal, hcloses,
    houtput hfirst hfirstMemory hfirstStream⟩
  rw [houtput hfirst hfirstMemory hfirstStream,
    houtput hsecond hsecondMemory hsecondStream]

/-- A head whose length is zero modulo `2 ^ 64`. -/
def wrappingHead : List Byte :=
  ascii "GET / HTTP/1.1\r\nHost: a\r\nContent-Length: 18446744073709551616\r\n\r\n"

/-- Its last header. -/
def wrappingLength : HttpHeader where
  name := ascii "Content-Length"
  value := ascii "18446744073709551616"

theorem layout_wrappingHead : Layout wrappingHead (ascii "GET / HTTP/1.1")
    [ascii "Host: a", ascii "Content-Length: 18446744073709551616"] where
  head_eq := by decide +kernel
  requestLine := not_crlf_infix_of_notMem cr (by decide) (by decide)
  lines := by
    intro line hline
    apply not_crlf_infix_of_notMem cr (by decide)
    revert line
    decide +kernel

theorem bodyDeclared_wrappingHead : BodyDeclared wrappingHead := by
  refine ⟨_, _, layout_wrappingHead, .inr (.inr ⟨wrappingLength,
    by decide +kernel, by decide +kernel, ?_⟩)⟩
  rintro ⟨-, hzero⟩
  exact absurd (hzero 49 (by decide)) (by decide)

/-- The same head in front of two continuations that arrive differently. -/
def smuggled (more : List Byte) (recvs : List RecvOutcome) : Environment where
  incoming := wrappingHead ++ more
  recvs := recvs
  sends := [.fail .eintr, .accept 3]
  mallocs := []
  fileSystem _ := smallFileSystem

theorem undisturbed_smuggled {more : List Byte} {recvs : List RecvOutcome}
    (hrecvs : ∀ errno, .fail errno ∈ recvs → errno = .eintr) :
    Undisturbed smallTree (smuggled more recvs) where
  fileSystem := rfl
  sends := by simp [smuggled, SendOutcome.Succeeds]
  recvs := hrecvs

theorem declared_body_never_read_smuggled :
    output 3 configInit
        (smuggled (ascii "GET /x HTTP/1.1\r\n\r\n") [.arrive 9]) [(3, 0)] =
      output 3 configInit (smuggled [] [.fail .eintr]) [(3, 0)] :=
  have hconfig : httpConfigValid configInit = true := by decide
  have hheads : CompleteHeads configInit [wrappingHead] := by
    intro head hhead
    rw [List.mem_singleton.mp hhead]
    decide +kernel
  (declared_body_never_read hconfig hheads rfl bodyDeclared_wrappingHead
    (undisturbed_smuggled (by simp)) (undisturbed_smuggled (by simp))
    (by simp [smuggled]) (by simp [smuggled])
    (by simp [smuggled]) (by simp [smuggled]) 3 [(3, 0)]).1

end HttpCerver.Bodies
