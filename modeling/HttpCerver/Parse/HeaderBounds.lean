import HttpCerver.Parse.Bounds
import HttpCerver.Parse.Lines

/-!
# Headers stay inside their arrays

A round of the header loop looks at its line only, and a line that is not cut
ends before the string does.  Names and values are measured against limits that
are at most the sizes of their arrays, and the number of headers is too.
-/

namespace HttpCerver.HeaderBounds

open HttpCerver.Bounds
open HttpCerver.Bytes hiding strchr strstr memchr
open HttpCerver.Config
open HttpCerver.Iteration
open HttpCerver.Lines (judgeHeader text_cases)
open HttpCerver.Memory
open HttpCerver.Request (httpHeaderNameMax httpHeaderValueMax httpMaxHeaders
  isOws targetSize trimOws)

section Pieces

variable {buffer text : List Byte} {offset count : ℕ}

/-- A line that is not cut ends before the string does. -/
theorem line_le_of_drop {line after : List Byte}
    (hdrop : text.drop offset = line ++ crlf ++ after) :
    offset + line.length + 2 ≤ text.length := by
  have hlength := congrArg List.length hdrop
  rw [List.length_drop, List.length_append, List.length_append, crlf,
    List.length_cons, List.length_singleton] at hlength
  omega

theorem take_of_drop {line after : List Byte}
    (hdrop : text.drop offset = line ++ crlf ++ after) :
    (text.drop offset).take line.length = line := by
  rw [hdrop, List.append_assoc, List.take_left]

/-- The two characters that are looked at for the empty line. -/
theorem atEmptyLine_spec (h : Holds buffer text)
    (hoffset : offset ≤ text.length) :
    Arrays.atEmptyLine buffer offset =
      .ok ((text.drop offset).take 2 = crlf) := by
  rw [Arrays.atEmptyLine]
  cases hdrop : text.drop offset with
  | nil =>
      rw [h.read_of_drop_nil hoffset hdrop, ok_bind, if_neg (by decide)]
      rfl
  | cons first rest =>
      have hrest := drop_succ hdrop
      rw [h.read_of_drop hdrop, ok_bind]
      by_cases hfirst : first = cr
      swap
      · rw [if_neg hfirst]
        simp [crlf, hfirst]
        rfl
      rw [if_pos hfirst]
      cases rest with
      | nil =>
          rw [h.read_of_drop_nil (lt_length_of_drop hdrop) hrest, ok_bind]
          simp [crlf]
          rfl
      | cons second rest =>
          rw [h.read_of_drop hrest, ok_bind]
          simp [crlf, hfirst]
          rfl

/-- The loop that drops leading white space stops inside the value. -/
theorem skipOws_spec (h : Holds buffer text)
    (hinside : offset + count ≤ text.length) :
    Arrays.skipOws buffer offset count = .ok (offset +
      (((text.drop offset).take count).takeWhile isOws).length) := by
  induction count generalizing offset with
  | zero => rfl
  | succ count ih =>
      have hlt : offset < text.length := by omega
      rw [Arrays.skipOws, h.read hlt.le, List.drop_eq_getElem_cons hlt,
        List.headD_cons, ok_bind, List.take_succ_cons, List.takeWhile_cons]
      split_ifs with hows
      · rw [ih (by omega), List.length_cons]
        congr 1
        omega
      · rfl

/-- The loop that drops trailing white space. -/
theorem dropOws_spec (h : Holds buffer text)
    (hinside : offset + count ≤ text.length) :
    Arrays.dropOws buffer offset count =
      .ok (((text.drop offset).take count).rdropWhile isOws).length := by
  induction count with
  | zero => rfl
  | succ count ih =>
      have hlt : count < (text.drop offset).length := by
        rw [List.length_drop]
        omega
      have hlast : read buffer (offset + count) =
          .ok (text.drop offset)[count] := by
        apply h.read_of_drop
        rw [← List.drop_drop, List.drop_eq_getElem_cons hlt]
      rw [Arrays.dropOws, hlast, ok_bind, ← List.take_concat_get' _ _ hlt,
        List.rdropWhile_concat]
      split_ifs with hows
      · exact ih (by omega)
      · rw [List.length_append, List.length_take_of_le hlt.le]
        rfl

/-- The last byte of a name. -/
theorem read_last (h : Holds buffer text) {name rest : List Byte}
    (hdrop : text.drop offset = name ++ rest) (hname : name ≠ []) :
    read buffer (offset + name.length - 1) = .ok (name.getLast hname) := by
  have hpos := List.length_pos_iff.mpr hname
  have hlast : text.drop (offset + (name.length - 1)) =
      name.getLast hname :: rest := by
    rw [← List.drop_drop, hdrop, List.drop_append_of_le_length (by omega),
      List.drop_length_sub_one hname]
    rfl
  rw [Nat.add_sub_assoc hpos]
  exact h.read_of_drop hlast

end Pieces

section Header

/-- The same error in both results. -/
inductive SameError : Arrays.HttpParseResult → Request.HttpParseResult → Prop
  | badRequest : SameError .badRequest .badRequest
  | headersTooLarge : SameError .headersTooLarge .headersTooLarge

/-- The checks on the name of a header are passed. -/
structure NameFine (config : ServerConfig) (name : List Byte) : Prop where
  last : ¬ (name.length = 0 ∨ name.getLast? = some sp ∨
    name.getLast? = some htab)
  valid : Request.httpValidHeaderName name = true
  length_lt : name.length < config.httpHeaderNameMax

theorem NameFine.judgeHeader {config : ServerConfig} {name : List Byte}
    (h : NameFine config name) (value : List Byte) :
    judgeHeader config name value =
      if ¬ Request.httpValidHeaderValue value then .error .badRequest
      else if config.httpHeaderValueMax ≤ value.length then
        .error .headersTooLarge
      else .ok { name := name, value := value } := by
  rw [Lines.judgeHeader, if_neg h.last, if_neg (not_not.mpr h.valid),
    if_neg (Nat.not_le.mpr h.length_lt)]

/-- The name is refused, whatever the value is. -/
def NameRefused (config : ServerConfig) (name : List Byte)
    (result : Arrays.HttpParseResult) : Prop :=
  ∃ error, SameError result error ∧
    ∀ value, judgeHeader config name value = .error error

variable {config : ServerConfig} {buffer text : List Byte}

/-- What `httpStoreName` does with the name before a colon. -/
theorem httpStoreName_spec (h : Holds buffer text)
    (hlimit : config.httpHeaderNameMax ≤ httpHeaderNameMax)
    {request : Arrays.HttpRequest}
    (hroom : request.headerCount < httpMaxHeaders)
    {line : ℕ} {name tail after : List Byte}
    (hdrop : text.drop line = name ++ colon :: tail ++ crlf ++ after)
    (hname : colon ∉ name) :
    Safe (fun stored => match stored with
        | .inr exit => NameRefused config name exit.1
        | .inl (found, request') => found = line + name.length ∧
            NameFine config name ∧ ∃ header, Holds header.name.toList name ∧
              request' = { request with
                headers := request.headers.set
                  ⟨request.headerCount, hroom⟩ header })
      (Arrays.httpStoreName config buffer line
        (line + (name ++ colon :: tail).length) request) := by
  have hline := line_le_of_drop hdrop
  have hlength : (name ++ colon :: tail).length =
      name.length + (tail.length + 1) := by
    rw [List.length_append, List.length_cons]
  have hcolon : Bytes.memchr (text.drop line) colon
      (name ++ colon :: tail).length = some name.length := by
    rw [Bytes.memchr, take_of_drop hdrop]
    exact Search.firstOccurrence_singleton_append hname tail
  have htake : (text.drop line).take name.length = name := by
    rw [hdrop, List.append_assoc, List.append_assoc, List.take_left]
  have hfit : line + name.length ≤ text.length := by omega
  rw [Arrays.httpStoreName, distance_eq (Nat.le_add_right _ _), ok_bind,
    Nat.add_sub_cancel_left, h.memchr (by omega), ok_bind, hcolon]
  dsimp only [Option.map_some]
  rw [distance_eq (Nat.le_add_right _ _), ok_bind, Nat.add_sub_cancel_left]
  by_cases hempty : name.length = 0
  · rw [if_pos hempty]
    refine ⟨_, .badRequest, fun value => ?_⟩
    rw [judgeHeader, if_pos (.inl hempty)]
  rw [if_neg hempty]
  have hne : name ≠ [] := fun hnil => hempty (by rw [hnil]; rfl)
  rw [List.append_assoc, List.append_assoc] at hdrop
  rw [read_last h hdrop hne, ok_bind]
  by_cases hlast : name.getLast hne = sp ∨ name.getLast hne = htab
  · rw [if_pos hlast]
    refine ⟨_, .badRequest, fun value => ?_⟩
    rw [judgeHeader, if_pos]
    rw [List.getLast?_eq_getLast_of_ne_nil hne, Option.some.injEq,
      Option.some.injEq]
    exact .inr hlast
  rw [if_neg hlast]
  have hfine : ¬ (name.length = 0 ∨ name.getLast? = some sp ∨
      name.getLast? = some htab) := by
    rw [List.getLast?_eq_getLast_of_ne_nil hne, Option.some.injEq,
      Option.some.injEq, not_or]
    exact ⟨hempty, hlast⟩
  rw [httpValidHeaderName_spec h hfit, ok_bind, htake]
  by_cases hvalid : Request.httpValidHeaderName name = true
  swap
  · rw [if_pos hvalid]
    refine ⟨_, .badRequest, fun value => ?_⟩
    rw [judgeHeader, if_neg hfine, if_pos hvalid]
  rw [if_neg (not_not.mpr hvalid)]
  by_cases hlong : config.httpHeaderNameMax ≤ name.length
  · rw [if_pos hlong]
    refine ⟨_, .headersTooLarge, fun value => ?_⟩
    rw [judgeHeader, if_neg hfine, if_neg (not_not.mpr hvalid), if_pos hlong]
  rw [if_neg hlong, read_eq hroom, ok_bind]
  have hshort := Nat.lt_of_not_le hlong
  apply (h.copyString _ hfit (hshort.trans_le hlimit)).bind
  intro stored hstored
  rw [htake] at hstored
  rw [write_eq _ hroom, ok_bind]
  exact ⟨rfl, ⟨hfine, hvalid, hshort⟩, _, hstored, rfl⟩

/-- What `httpStoreValue` does with the text between a colon and the end of
the line. -/
theorem httpStoreValue_spec (h : Holds buffer text)
    (hlimit : config.httpHeaderValueMax ≤ httpHeaderValueMax)
    {request : Arrays.HttpRequest}
    (hroom : request.headerCount < httpMaxHeaders)
    {found : ℕ} {tail after : List Byte}
    (hdrop : text.drop (found + 1) = tail ++ crlf ++ after) :
    Safe (fun stored => match stored with
        | .inr exit => ∃ error, SameError exit.1 error ∧
            ∀ name, NameFine config name →
              judgeHeader config name (trimOws tail) = .error error
        | .inl request' =>
            (∀ name, NameFine config name →
              judgeHeader config name (trimOws tail) =
                .ok { name := name, value := trimOws tail }) ∧
            ∃ value, Holds value.toList (trimOws tail) ∧
              request' = { request with
                headers := request.headers.set ⟨request.headerCount, hroom⟩
                  { request.headers.get ⟨request.headerCount, hroom⟩ with
                    value := value }
                headerCount := request.headerCount + 1 })
      (Arrays.httpStoreValue config buffer found (found + 1 + tail.length)
        request) := by
  have hline := line_le_of_drop hdrop
  have hinside : found + 1 + tail.length ≤ text.length := by omega
  have htake := take_of_drop hdrop
  have hsplit : (tail.takeWhile isOws).length + (tail.dropWhile isOws).length =
      tail.length := by
    rw [← List.length_append, List.takeWhile_append_dropWhile]
  have hrest : text.drop (found + 1 + (tail.takeWhile isOws).length) =
      tail.dropWhile isOws ++ crlf ++ after := by
    rw [← List.drop_drop, hdrop, List.append_assoc, List.append_assoc]
    nth_rewrite 2 [← List.takeWhile_append_dropWhile (p := isOws) (l := tail)]
    rw [List.append_assoc, List.drop_left]
  have hkept := take_of_drop hrest
  have htrimmed : (text.drop (found + 1 + (tail.takeWhile isOws).length)).take
      (trimOws tail).length = trimOws tail := by
    obtain ⟨padding, hpadding⟩ : trimOws tail <+: tail.dropWhile isOws :=
      List.rdropWhile_prefix isOws _
    rw [hrest, ← hpadding, List.append_assoc, List.append_assoc, List.take_left]
  have hshorter : (trimOws tail).length ≤ (tail.dropWhile isOws).length :=
    (List.rdropWhile_prefix isOws _).length_le
  have huntrimmed : found + 1 + tail.length -
      (found + 1 + (tail.takeWhile isOws).length) =
        (tail.dropWhile isOws).length := by
    omega
  rw [Arrays.httpStoreValue, Nat.add_sub_cancel_left,
    skipOws_spec h hinside, ok_bind, htake, distance_eq (by omega), ok_bind,
    huntrimmed, dropOws_spec h (by omega), ok_bind, hkept]
  change Safe _ (Arrays.httpValidHeaderValue buffer _ (trimOws tail).length >>=
    fun valid => if ¬ valid then _ else if config.httpHeaderValueMax ≤
      (trimOws tail).length then _ else _)
  rw [Arrays.httpValidHeaderValue, h.checkBytes _ (by omega), ok_bind,
    htrimmed]
  change Safe _ (if ¬ Request.httpValidHeaderValue (trimOws tail) = true
    then _ else _)
  by_cases hvalid : Request.httpValidHeaderValue (trimOws tail) = true
  swap
  · rw [if_pos hvalid]
    refine ⟨_, .badRequest, fun name hname => ?_⟩
    rw [hname.judgeHeader, if_pos hvalid]
  rw [if_neg (not_not.mpr hvalid)]
  by_cases hlong : config.httpHeaderValueMax ≤ (trimOws tail).length
  · rw [if_pos hlong]
    refine ⟨_, .headersTooLarge, fun name hname => ?_⟩
    rw [hname.judgeHeader, if_neg (not_not.mpr hvalid), if_pos hlong]
  rw [if_neg hlong, read_eq hroom, ok_bind]
  have hshort := Nat.lt_of_not_le hlong
  apply (h.copyString _ (by omega) (hshort.trans_le hlimit)).bind
  intro stored hstored
  rw [htrimmed] at hstored
  rw [write_eq _ hroom, ok_bind]
  refine ⟨fun name hname => ?_, _, hstored, rfl⟩
  rw [hname.judgeHeader, if_neg (not_not.mpr hvalid), if_neg hlong]

end Header

/-- The string that an array holds. -/
def textOf {size : ℕ} (array : List.Vector Byte size) : List Byte :=
  (cstring array.toList).bytes

theorem textOf_eq {size : ℕ} {array : List.Vector Byte size}
    {text : List Byte} (h : Holds array.toList text) : textOf array = text := by
  obtain ⟨rest, hrest⟩ := h.begins
  rw [textOf, ← hrest, List.append_assoc,
    cstring_append_of_notMem h.nul_notMem]
  exact List.append_nil text

/-- The header that two arrays hold. -/
def headerView (header : Arrays.HttpHeader) : Request.HttpHeader where
  name := textOf header.name
  value := textOf header.value

/-- The request that the arrays hold. -/
def requestView (request : Arrays.HttpRequest) : Request.HttpRequest where
  method := textOf request.method
  path := textOf request.path
  query := textOf request.query
  version := textOf request.version
  headers := (request.headers.toList.take request.headerCount).map headerView

/-- Every text field of a request ends with a NUL inside its array. -/
structure Terminated (request : Arrays.HttpRequest) : Prop where
  method : 0 ∈ request.method.toList
  path : 0 ∈ request.path.toList
  query : 0 ∈ request.query.toList
  version : 0 ∈ request.version.toList
  headers : ∀ header ∈ request.headers.toList.take request.headerCount,
    0 ∈ header.name.toList ∧ 0 ∈ header.value.toList

section Headers

variable {config : ServerConfig} {buffer text : List Byte}
variable {request : Arrays.HttpRequest}

theorem length_headers_view (hcount : request.headerCount ≤ httpMaxHeaders) :
    (requestView request).headers.length = request.headerCount := by
  rw [requestView, List.length_map, List.length_take_of_le]
  rw [request.headers.toList_length]
  exact hcount

/-- Another header has been stored. -/
theorem headers_stored (hroom : request.headerCount < httpMaxHeaders)
    (header : Arrays.HttpHeader) {name value : List Byte}
    (hname : Holds header.name.toList name)
    (hvalue : Holds header.value.toList value)
    {request' : Arrays.HttpRequest}
    (hrequest' : request' = { request with
      headers := request.headers.set ⟨request.headerCount, hroom⟩ header
      headerCount := request.headerCount + 1 }) :
    requestView request' = { requestView request with
        headers := (requestView request).headers ++
          [{ name := name, value := value }] } ∧
      (Terminated request → Terminated request') := by
  have hheaders := take_set request.headers hroom header
  subst hrequest'
  constructor
  · rw [requestView, hheaders, List.map_append, List.map_singleton, headerView,
      textOf_eq hname, textOf_eq hvalue]
    rfl
  · intro h
    refine ⟨h.method, h.path, h.query, h.version, fun other hmem => ?_⟩
    rw [hheaders] at hmem
    rcases List.mem_append.mp hmem with hmem | hmem
    · exact h.headers other hmem
    · rw [List.mem_singleton.mp hmem]
      exact ⟨hname.nul_mem, hvalue.nul_mem⟩

/-- What a round does with a header line. -/
theorem httpStoreHeader_spec (h : Holds buffer text)
    (hnameMax : config.httpHeaderNameMax ≤ httpHeaderNameMax)
    (hvalueMax : config.httpHeaderValueMax ≤ httpHeaderValueMax)
    (hroom : request.headerCount < httpMaxHeaders)
    {line : ℕ} {name tail after : List Byte}
    (hdrop : text.drop line = name ++ colon :: tail ++ crlf ++ after)
    (hcolon : colon ∉ name) :
    Safe (fun stored => match stored with
        | .inr exit => ∃ error, SameError exit.1 error ∧
            judgeHeader config name (trimOws tail) = .error error
        | .inl request' =>
            judgeHeader config name (trimOws tail) =
              .ok { name := name, value := trimOws tail } ∧
            requestView request' = { requestView request with
              headers := (requestView request).headers ++
                [{ name := name, value := trimOws tail }] } ∧
            (Terminated request → Terminated request') ∧
            request'.headerCount = request.headerCount + 1)
      (Arrays.httpStoreHeader config buffer line
        (line + (name ++ colon :: tail).length) request) := by
  rw [Arrays.httpStoreHeader]
  apply (httpStoreName_spec h hnameMax hroom hdrop hcolon).bind
  intro stored hstored
  cases stored with
  | inr exit =>
      obtain ⟨error, hsame, hrefused⟩ := hstored
      exact ⟨error, hsame, hrefused _⟩
  | inl stored =>
      obtain ⟨found, named⟩ := stored
      obtain ⟨rfl, hfine, header, hname, hnamed⟩ := hstored
      have hnamedRoom : named.headerCount < httpMaxHeaders := by
        rw [hnamed]
        exact hroom
      have hafter : text.drop (line + name.length + 1) =
          tail ++ crlf ++ after := by
        rw [Nat.add_assoc, ← List.drop_drop, hdrop, ← List.drop_drop,
          List.append_assoc, List.append_assoc, List.drop_left,
          List.cons_append, List.drop_succ_cons, List.drop_zero,
          List.append_assoc]
      have hend : line + (name ++ colon :: tail).length =
          line + name.length + 1 + tail.length := by
        rw [List.length_append, List.length_cons]
        omega
      rw [hend]
      apply (httpStoreValue_spec h hvalueMax hnamedRoom hafter).mono
      intro stored hstored
      cases stored with
      | inr exit =>
          obtain ⟨error, hsame, hrefused⟩ := hstored
          exact ⟨error, hsame, hrefused name hfine⟩
      | inl request' =>
          obtain ⟨hjudge, value, hvalue, hrequest'⟩ := hstored
          subst hnamed
          have hsame : (request.headers.set ⟨request.headerCount, hroom⟩
              header).set ⟨request.headerCount, hroom⟩
                { header with value := value } =
              request.headers.set ⟨request.headerCount, hroom⟩
                { header with value := value } :=
            Subtype.ext (List.set_set ..)
          dsimp only at hrequest'
          rw [List.Vector.get_set_same, hsame] at hrequest'
          obtain ⟨hview, hterminated⟩ := headers_stored hroom
            { header with value := value } hname hvalue hrequest'
          refine ⟨hjudge name hfine, hview, hterminated, ?_⟩
          rw [hrequest']

/-- A header line without a colon. -/
theorem httpStoreHeader_of_notMem (h : Holds buffer text) {offset : ℕ}
    {line after : List Byte}
    (hdrop : text.drop offset = line ++ crlf ++ after)
    (hcolon : colon ∉ line) :
    Arrays.httpStoreHeader config buffer offset (offset + line.length)
      request = .ok (.inr (.badRequest, request)) := by
  have hline := line_le_of_drop hdrop
  have hinside : offset + line.length ≤ text.length := by omega
  have hnone : Bytes.memchr (text.drop offset) colon line.length = none := by
    rw [Bytes.memchr, take_of_drop hdrop]
    exact Search.firstOccurrence_singleton_eq_none_iff.mpr hcolon
  rw [Arrays.httpStoreHeader, Arrays.httpStoreName,
    distance_eq (Nat.le_add_right _ _), ok_bind, Nat.add_sub_cancel_left,
    h.memchr hinside, ok_bind, hnone]
  rfl

/-- Where the loop of `http_parse_headers` is. -/
structure HeadersAt (config : ServerConfig) (text : List Byte)
    (cursor : Arrays.HeaderCursor) : Prop where
  line_le : cursor.line ≤ text.length
  terminated : Terminated cursor.request
  count_le : cursor.request.headerCount ≤ config.httpMaxHeaders

/-- The result and the arrays that go with the result on lists. -/
inductive Parsed (config : ServerConfig) :
    Request.HttpParseResult → Arrays.HttpParseResult × Arrays.HttpRequest → Prop
  | ok {request : Arrays.HttpRequest} (hterminated : Terminated request)
      (hcount : request.headerCount ≤ config.httpMaxHeaders) :
      Parsed config (.ok (requestView request)) (.ok, request)
  | error {request : Arrays.HttpRequest} {result : Arrays.HttpParseResult}
      {error : Request.HttpParseResult} (herror : SameError result error) :
      Parsed config error (result, request)

theorem Parsed.of_ok {parsed : Request.HttpParseResult}
    (h : Parsed config parsed (.ok, request)) :
    Terminated request ∧ request.headerCount ≤ config.httpMaxHeaders := by
  cases h with
  | ok hterminated hcount => exact ⟨hterminated, hcount⟩
  | error herror => cases herror

/-- The locals of the loop on lists. -/
def scanView (text : List Byte) (cursor : Arrays.HeaderCursor) :
    Request.HeaderScan where
  line := text.drop cursor.line
  request := requestView cursor.request

/-- The loop from here ends as the loop on lists does. -/
def HeadersParsed (config : ServerConfig) (text : List Byte)
    (cursor : Arrays.HeaderCursor)
    (exit : Arrays.HttpParseResult × Arrays.HttpRequest) : Prop :=
  Parsed config
    ((Request.httpParseHeaderLoop config).run (scanView text cursor)).1 exit

/-- A round on lists that leaves. -/
theorem headersParsed_of_exit {cursor : Arrays.HeaderCursor}
    {result : Request.HttpParseResult} {line : List Byte}
    {exit : Arrays.HttpParseResult × Arrays.HttpRequest}
    (hround : Request.httpParseHeader config (scanView text cursor) =
      .inr (result, line))
    (hexit : Parsed config result exit) :
    HeadersParsed config text cursor exit := by
  rw [HeadersParsed, (Request.httpParseHeaderLoop config).run_of_exit hround]
  exact hexit

variable {cursor : Arrays.HeaderCursor}

/-- A round that finds no end of the line. -/
theorem leads_of_cut (hcursor : HeadersAt config text cursor)
    (hheadersMax : config.httpMaxHeaders ≤ httpMaxHeaders)
    (h : Holds buffer text) (hcut : ¬ crlf <:+: text.drop cursor.line) :
    Safe (Leads (HeadersAt config text) (HeadersParsed config text) cursor)
      (Arrays.httpParseHeader config buffer cursor) := by
  have hcount := length_headers_view (hcursor.count_le.trans hheadersMax)
  have hround := Lines.httpParseHeader_of_cut config hcut
    (requestView cursor.request)
  have htake : (text.drop cursor.line).take 2 ≠ crlf := fun htake =>
    hcut (htake ▸ (List.take_prefix 2 _).isInfix)
  have hend : Bytes.strstr (text.drop cursor.line) crlf = none :=
    Search.firstOccurrence_eq_none_iff.mpr hcut
  rw [hcount] at hround
  rw [Arrays.httpParseHeader, atEmptyLine_spec h hcursor.line_le, ok_bind,
    decide_eq_false htake, if_neg Bool.false_ne_true,
    h.strstr hcursor.line_le, ok_bind, hend]
  by_cases hmany : config.httpMaxHeaders ≤ cursor.request.headerCount
  · rw [if_pos hmany] at hround ⊢
    exact headersParsed_of_exit hround (.error .headersTooLarge)
  · rw [if_neg hmany] at hround ⊢
    exact headersParsed_of_exit hround (.error .badRequest)

/-- A round on a header line that has been judged. -/
theorem leads_of_line (hcursor : HeadersAt config text cursor)
    (hheadersMax : config.httpMaxHeaders ≤ httpMaxHeaders)
    (hnameMax : config.httpHeaderNameMax ≤ httpHeaderNameMax)
    (hvalueMax : config.httpHeaderValueMax ≤ httpHeaderValueMax)
    (h : Holds buffer text) {line after : List Byte}
    (hdrop : text.drop cursor.line = line ++ crlf ++ after)
    (hcrlf : ¬ crlf <:+: line) (hne : line ≠ []) :
    Safe (Leads (HeadersAt config text) (HeadersParsed config text) cursor)
      (Arrays.httpParseHeader config buffer cursor) := by
  have hcount := length_headers_view (hcursor.count_le.trans hheadersMax)
  have hround := Lines.httpParseHeader_of_line config hcrlf hne after
    (requestView cursor.request)
  have htake := Lines.take_two_append hcrlf hne after
  rw [hcount, ← hdrop] at hround
  rw [← hdrop] at htake
  rw [Arrays.httpParseHeader, atEmptyLine_spec h hcursor.line_le, ok_bind,
    decide_eq_false htake, if_neg Bool.false_ne_true]
  by_cases hmany : config.httpMaxHeaders ≤ cursor.request.headerCount
  · rw [if_pos hmany] at hround ⊢
    exact headersParsed_of_exit hround (.error .headersTooLarge)
  rw [if_neg hmany] at hround ⊢
  have hend : Bytes.strstr (text.drop cursor.line) crlf = some line.length := by
    rw [hdrop]
    exact strstr_crlf_append hcrlf after
  have hinside := line_le_of_drop hdrop
  rw [h.strstr hcursor.line_le, ok_bind, hend]
  dsimp only [Option.map_some]
  by_cases hcolon : colon ∈ line
  · obtain ⟨name, tail, rfl, hname⟩ := Lines.exists_eq_append_colon hcolon
    have hroom : cursor.request.headerCount < httpMaxHeaders :=
      (Nat.lt_of_not_le hmany).trans_le hheadersMax
    rw [Lines.readHeader_append config hname] at hround
    apply (httpStoreHeader_spec h hnameMax hvalueMax hroom hdrop hname).bind
    intro stored hstored
    cases stored with
    | inr exit =>
        obtain ⟨error, hsame, hjudge⟩ := hstored
        rw [hjudge] at hround
        exact headersParsed_of_exit hround (.error hsame)
    | inl request' =>
        obtain ⟨hjudge, hview, hterminated, hsucc⟩ := hstored
        rw [hjudge] at hround
        have hafter : text.drop (cursor.line +
            (name ++ colon :: tail).length + 2) = after := by
          rw [Nat.add_assoc, ← List.drop_drop, hdrop, List.append_assoc,
            ← List.drop_drop, List.drop_left]
          rfl
        refine ⟨⟨?_, hterminated hcursor.terminated, ?_⟩, ?_⟩
        · dsimp only
          omega
        · dsimp only
          omega
        · intro exit hexit
          rw [HeadersParsed, scanView] at hexit ⊢
          dsimp only at hexit
          rw [hafter, hview] at hexit
          rw [(Request.httpParseHeaderLoop config).run_of_continue hround]
          exact hexit
  · rw [Lines.readHeader_of_notMem config hcolon] at hround
    rw [httpStoreHeader_of_notMem h hdrop hcolon, ok_bind]
    exact headersParsed_of_exit hround (.error .badRequest)

theorem httpParseHeader_spec (h : Holds buffer text)
    (hheadersMax : config.httpMaxHeaders ≤ httpMaxHeaders)
    (hnameMax : config.httpHeaderNameMax ≤ httpHeaderNameMax)
    (hvalueMax : config.httpHeaderValueMax ≤ httpHeaderValueMax)
    (hcursor : HeadersAt config text cursor) :
    Safe (Leads (HeadersAt config text) (HeadersParsed config text) cursor)
      (Arrays.httpParseHeader config buffer cursor) := by
  obtain hcut | ⟨after, hend⟩ | ⟨line, after, hdrop, hcrlf, hne⟩ :=
    text_cases (text.drop cursor.line)
  · exact leads_of_cut hcursor hheadersMax h hcut
  · have hround := Lines.httpParseHeader_of_end config after
      (requestView cursor.request)
    rw [← hend] at hround
    rw [Arrays.httpParseHeader, atEmptyLine_spec h hcursor.line_le, ok_bind,
      hend]
    exact headersParsed_of_exit hround
      (.ok hcursor.terminated hcursor.count_le)
  · exact leads_of_line hcursor hheadersMax hnameMax hvalueMax h hdrop hcrlf hne

/-- The headers are parsed as on lists. -/
theorem httpParseHeaders_spec (h : Holds buffer text)
    (hheadersMax : config.httpMaxHeaders ≤ httpMaxHeaders)
    (hnameMax : config.httpHeaderNameMax ≤ httpHeaderNameMax)
    (hvalueMax : config.httpHeaderValueMax ≤ httpHeaderValueMax)
    (hterminated : Terminated request)
    (hcount : request.headerCount ≤ config.httpMaxHeaders) :
    Safe (Parsed config
        (Request.httpParseHeaders text (requestView request) config).1)
      (Arrays.httpParseHeaders buffer request config) := by
  rw [Arrays.httpParseHeaders, Request.httpParseHeaders,
    h.strstr (Nat.zero_le _), ok_bind, List.drop_zero]
  cases hend : Bytes.strstr text crlf with
  | none => exact .error .badRequest
  | some line =>
      have hinside : line + 2 ≤ text.length :=
        Search.firstOccurrence_add_length_le hend
      dsimp only [Option.map_some]
      rw [Nat.zero_add]
      have hstart : HeadersAt config text
          { line := line + 2, request := request } :=
        ⟨hinside, hterminated, hcount⟩
      exact safe_run (Arrays.httpParseHeaderLoop config buffer) (fun _ => rfl)
        (fun _ hcursor => httpParseHeader_spec h hheadersMax hnameMax hvalueMax
          hcursor) hstart

end Headers

section Request

variable {config : ServerConfig} {buffer : List Byte} {text : CString}

theorem httpVersionSupported_spec {memory version : List Byte}
    (h : Holds memory version) :
    Arrays.httpVersionSupported memory = .ok (decide (
      version = ascii "HTTP/1.1" ∨ version = ascii "HTTP/1.0")) := by
  rw [Arrays.httpVersionSupported, h.strcmp, ok_bind]
  by_cases hcurrent : version = ascii "HTTP/1.1"
  · rw [if_pos (decide_eq_true hcurrent), decide_eq_true (.inl hcurrent)]
    rfl
  · rw [if_neg (by simp [hcurrent]), h.strcmp]
    simp [hcurrent]

/-- No access of `http_parse_request` faults, no decoded path is too long, and
the arrays hold what the parser on lists finds. -/
theorem httpParseRequest_spec (h : Holds buffer text.bytes)
    (hheadersMax : config.httpMaxHeaders ≤ httpMaxHeaders)
    (hnameMax : config.httpHeaderNameMax ≤ httpHeaderNameMax)
    (hvalueMax : config.httpHeaderValueMax ≤ httpHeaderValueMax)
    (request : Arrays.HttpRequest) (locals : Arrays.Locals) :
    Safe (fun exit => exit.decoding ≠ some .tooLong ∧
        Parsed config (Request.httpParseRequest text config)
          (exit.result, exit.request))
      (Arrays.httpParseRequest buffer request locals config) := by
  rw [Arrays.httpParseRequest, write_eq 0 (by decide), ok_bind]
  apply (httpParseRequestLine_spec h _ locals.target).bind
  rintro ⟨code, lined, target⟩ hline
  rw [Request.httpParseRequest]
  cases hparsed : Request.httpParseRequestLine text.bytes with
  | none =>
      rw [hparsed] at hline
      dsimp only
      rw [if_pos (show code = .failure from hline)]
      exact ⟨(Option.some_ne_none _).symm, .error .badRequest⟩
  | some line =>
      rw [hparsed] at hline
      obtain ⟨hcode, method, version, hlined, hmethod, hversion, htarget⟩ :=
        hline
      dsimp only at hcode hlined htarget ⊢
      subst hcode hlined
      have hgoesOn : ¬ ReturnCode.success = .failure := by decide
      rw [if_neg hgoesOn, httpVersionSupported_spec hversion, ok_bind]
      by_cases hsupported : line.version = ascii "HTTP/1.1" ∨
          line.version = ascii "HTTP/1.0"
      swap
      · rw [if_pos (not_or.mp hsupported), decide_eq_false hsupported,
          if_pos Bool.false_ne_true]
        exact ⟨(Option.some_ne_none _).symm, .error .badRequest⟩
      have hversions : ¬ (line.version ≠ ascii "HTTP/1.1" ∧
          line.version ≠ ascii "HTTP/1.0") :=
        fun hnot => hnot.2 (hsupported.resolve_left hnot.1)
      rw [if_neg hversions, decide_eq_true hsupported,
        if_neg (not_not.mpr rfl)]
      apply (httpParseTarget_spec htarget locals.path _).bind
      rintro exit ⟨htooLong, hexit⟩
      cases hpath : Request.httpParseTarget line.target with
      | none =>
          rw [hpath] at hexit
          rw [if_pos (show exit.code = .failure from hexit)]
          exact ⟨htooLong, .error .badRequest⟩
      | some parsed =>
          rw [hpath] at hexit
          obtain ⟨hcode, path, query, hrequest, hpathText, hqueryText⟩ := hexit
          rw [if_neg (by rw [hcode]; decide), hrequest]
          have hview : requestView exit.request =
              { method := line.method
                path := parsed.path
                query := parsed.query
                version := line.version
                headers := [] } := by
            rw [hrequest]
            simp only [requestView, textOf_eq hmethod, textOf_eq hpathText,
              textOf_eq hqueryText, textOf_eq hversion, List.take_zero,
              List.map_nil]
          have hterminated : Terminated exit.request := by
            rw [hrequest]
            exact ⟨hmethod.nul_mem, hpathText.nul_mem, hqueryText.nul_mem,
              hversion.nul_mem, fun header hmem => absurd hmem List.not_mem_nil⟩
          have hcount : exit.request.headerCount ≤ config.httpMaxHeaders := by
            rw [hrequest]
            exact Nat.zero_le _
          rw [← hrequest]
          dsimp only
          rw [← hview]
          apply (httpParseHeaders_spec h hheadersMax hnameMax hvalueMax
            hterminated hcount).bind
          rintro ⟨result, request'⟩ hheaders
          exact ⟨htooLong, hheaders⟩

end Request

end HttpCerver.HeaderBounds
