import HttpCerver.Parse.Arrays

/-!
# Targets and request lines stay inside their arrays

Every string the parser works on ends with a NUL inside its array, so a read
stops there, and every copy has been measured before.  What is stored is what
the parser on lists finds.
-/

namespace HttpCerver.Bounds

open HttpCerver.Bytes hiding strchr strstr memchr
open HttpCerver.Memory
open HttpCerver.Request (httpDecodePathLoop httpHexValue httpStoreDecoded
  methodSize targetSize)

section Decoding

variable {size : ℕ} {encoded text : List Byte} {src : ℕ}

/-- The byte that two hexadecimal digits stand for. -/
def escaped (high low : Byte) : Option Byte :=
  match httpHexValue high, httpHexValue low with
  | some high, some low => some (UInt8.ofNat (high <<< 4 ||| low))
  | _, _ => none

/-- The byte that is escaped at the beginning of a text, and the rest. -/
def nextEscape : List Byte → Option (Byte × List Byte)
  | high :: low :: rest => (escaped high low).map fun value => (value, rest)
  | _ => none

/-- The value that a round of `http_decode_path` finds, and the rest. -/
def nextValue (c : Byte) (rest : List Byte) : Option (Byte × List Byte) :=
  if c = percent then nextEscape rest else some (c, rest)

/-- A round of the loop on lists with room for another byte. -/
theorem httpDecodePathLoop_cons {decodedSize : ℕ} {decoded : List Byte}
    (hroom : decoded.length + 1 < decodedSize) (c : Byte) (rest : List Byte) :
    httpDecodePathLoop decodedSize (c :: rest) decoded =
      (nextValue c rest).bind fun found =>
        (httpStoreDecoded decoded found.1).bind
          (httpDecodePathLoop decodedSize found.2) := by
  conv_lhs => unfold httpDecodePathLoop
  rw [if_neg (Nat.not_le.mpr hroom), nextValue]
  by_cases hpercent : c = percent
  swap
  · rw [if_neg hpercent, if_neg hpercent, Option.bind_some]
    cases httpStoreDecoded decoded c with
    | none => rfl
    | some stored => rfl
  rw [if_pos hpercent, if_pos hpercent]
  cases rest with
  | nil => rfl
  | cons high rest =>
      cases rest with
      | nil => rfl
      | cons low rest =>
          dsimp only [nextEscape, escaped]
          cases httpHexValue high with
          | none => rfl
          | some high =>
              cases httpHexValue low with
              | none => rfl
              | some low =>
                  dsimp only [Option.map_some, Option.bind_some]
                  cases httpStoreDecoded decoded
                      (UInt8.ofNat (high <<< 4 ||| low)) with
                  | none => rfl
                  | some stored => rfl

/-- The escape or the plain byte that is read at `src`. -/
theorem httpDecodeValue_spec (h : Holds encoded text) {c : Byte}
    {rest : List Byte} (hdrop : text.drop src = c :: rest) :
    Safe (fun found => match found with
      | none => nextValue c rest = none
      | some (value, next) => next ≤ text.length ∧ src < next ∧
          nextValue c rest = some (value, text.drop next))
      (Arrays.httpDecodeValue encoded src) := by
  have hlt := lt_length_of_drop hdrop
  have hrest := drop_succ hdrop
  rw [Arrays.httpDecodeValue, h.read_of_drop hdrop, ok_bind]
  by_cases hpercent : c = percent
  swap
  · rw [if_neg hpercent]
    refine ⟨hlt, Nat.lt_succ_self src, ?_⟩
    rw [nextValue, if_neg hpercent, hrest]
  rw [if_pos hpercent]
  cases rest with
  | nil =>
      rw [h.read_of_drop_nil hlt hrest]
      change nextValue c [] = none
      rw [nextValue, if_pos hpercent]
      rfl
  | cons first rest =>
      have hfirst := lt_length_of_drop hrest
      have hthen := drop_succ hrest
      rw [h.read_of_drop hrest, ok_bind, if_neg (h.ne_zero_of_drop hrest)]
      cases rest with
      | nil =>
          rw [h.read_of_drop_nil hfirst hthen]
          change nextValue c [first] = none
          rw [nextValue, if_pos hpercent]
          rfl
      | cons second rest =>
          have hsecond := lt_length_of_drop hthen
          have hlast := drop_succ hthen
          rw [h.read_of_drop hthen, ok_bind,
            if_neg (h.ne_zero_of_drop hthen), nextValue, if_pos hpercent]
          dsimp only [nextEscape, escaped]
          cases httpHexValue first with
          | none => rfl
          | some high =>
              cases httpHexValue second with
              | none => rfl
              | some low =>
                  refine ⟨hsecond, by omega, ?_⟩
                  rw [hlast]
                  rfl

/-- The bytes that the loop has stored. -/
def stored (cursor : Arrays.DecodeCursor size) : List Byte :=
  cursor.decoded.toList.take cursor.dst

/-- No more is stored than has been read, and no NUL. -/
structure DecodingAt (text : List Byte) (cursor : Arrays.DecodeCursor size) :
    Prop where
  src_le : cursor.src ≤ text.length
  dst_le : cursor.dst ≤ cursor.src
  nul_notMem : 0 ∉ stored cursor

/-- What the loop does from here is what the loop on lists does, and it does
not find the path too long. -/
def Decoded (text : List Byte) (cursor : Arrays.DecodeCursor size)
    (result : Arrays.DecodeExit × List.Vector Byte size) : Prop :=
  result.1 ≠ .tooLong ∧
    match httpDecodePathLoop size (text.drop cursor.src) (stored cursor) with
    | none => result.1 = .refused
    | some path => result.1 = .decoded ∧ Holds result.2.toList path

section Round

variable {cursor : Arrays.DecodeCursor size}

/-- At the end of the input the NUL is stored. -/
theorem decoded_of_nil (hcursor : DecodingAt text cursor)
    (hinside : cursor.dst < size) (hdrop : text.drop cursor.src = []) :
    Decoded text cursor
      (.decoded, cursor.decoded.set ⟨cursor.dst, hinside⟩ 0) := by
  refine ⟨nofun, ?_⟩
  rw [hdrop, httpDecodePathLoop]
  exact ⟨rfl, holds_set hinside hcursor.nul_notMem⟩

theorem decoded_of_none (hloop : httpDecodePathLoop size
      (text.drop cursor.src) (stored cursor) = none) :
    Decoded text cursor (.refused, cursor.decoded) := by
  refine ⟨nofun, ?_⟩
  rw [hloop]

/-- A byte that is stored. -/
theorem leads_of_store {next : ℕ} {value : Byte}
    (hcursor : DecodingAt text cursor) (hinside : cursor.dst < size)
    (hnext : next ≤ text.length) (hlt : cursor.src < next) (hvalue : value ≠ 0)
    (hloop : httpDecodePathLoop size (text.drop cursor.src) (stored cursor) =
      httpDecodePathLoop size (text.drop next) (stored cursor ++ [value])) :
    Leads (DecodingAt text) (Decoded text) cursor
      (.inl { src := next
              dst := cursor.dst + 1
              decoded := cursor.decoded.set ⟨cursor.dst, hinside⟩ value }) := by
  have hstored := take_set cursor.decoded hinside value
  have hdst := hcursor.dst_le
  refine ⟨⟨hnext, Nat.succ_le_of_lt (hdst.trans_lt hlt), ?_⟩, ?_⟩
  · rw [stored, hstored, List.mem_append, not_or, List.mem_singleton]
    exact ⟨hcursor.nul_notMem, hvalue.symm⟩
  · rintro result ⟨htooLong, hresult⟩
    refine ⟨htooLong, ?_⟩
    rw [stored, hstored] at hresult
    rw [hloop]
    exact hresult

theorem httpDecodeRound_spec (h : Holds encoded text)
    (hsize : text.length < size) (hcursor : DecodingAt text cursor) :
    Safe (Leads (DecodingAt text) (Decoded text) cursor)
      (Arrays.httpDecodeRound size encoded cursor) := by
  have hsrc := hcursor.src_le
  have hdst := hcursor.dst_le
  have hinside : cursor.dst < size := by omega
  rw [Arrays.httpDecodeRound]
  cases hdrop : text.drop cursor.src with
  | nil =>
      rw [h.read_of_drop_nil hsrc hdrop, write_eq 0 hinside]
      exact decoded_of_nil hcursor hinside hdrop
  | cons c rest =>
      have hlt := lt_length_of_drop hdrop
      have hroom : (stored cursor).length + 1 < size := by
        have hlength := List.length_take_le cursor.dst cursor.decoded.toList
        rw [stored]
        omega
      have hloop := httpDecodePathLoop_cons hroom c rest
      rw [h.read_of_drop hdrop, ok_bind, if_neg (h.ne_zero_of_drop hdrop),
        if_neg (by omega)]
      apply (httpDecodeValue_spec h hdrop).bind
      intro found hfound
      cases found with
      | none =>
          rw [hfound, ← hdrop] at hloop
          exact decoded_of_none hloop
      | some found =>
          obtain ⟨value, next⟩ := found
          obtain ⟨hnext, hbehind, hvalue⟩ := hfound
          rw [hvalue, ← hdrop, Option.bind_some, httpStoreDecoded] at hloop
          dsimp only at hloop ⊢
          by_cases hcontrol : value = 0 ∨ value < 32 ∨ value = 127
          · rw [if_pos hcontrol] at hloop ⊢
            exact decoded_of_none hloop
          · rw [if_neg hcontrol] at hloop ⊢
            rw [write_eq value hinside]
            exact leads_of_store hcursor hinside hnext hbehind
              (fun hzero => hcontrol (.inl hzero)) hloop

end Round

/-- A path that fits is decoded as on lists, and never found too long. -/
theorem httpDecodePath_spec (h : Holds encoded text)
    (hsize : text.length < size) (decoded : List.Vector Byte size) :
    Safe (fun result => result.1 ≠ .tooLong ∧
        match Request.httpDecodePath text size with
        | none => result.1 = .refused
        | some path => result.1 = .decoded ∧ Holds result.2.toList path)
      (Arrays.httpDecodePath encoded decoded size) := by
  have hne : size ≠ 0 := by omega
  rw [Arrays.httpDecodePath, Request.httpDecodePath, if_neg hne, if_neg hne]
  have hstart : DecodingAt text
      ({ src := 0, dst := 0, decoded := decoded } :
        Arrays.DecodeCursor size) :=
    ⟨Nat.zero_le _, Nat.le_refl 0, List.not_mem_nil⟩
  exact safe_run (Arrays.httpDecodeLoop size size encoded) (fun _ => rfl)
    (fun _ hcursor => httpDecodeRound_spec h hsize hcursor) hstart

end Decoding

section Target

/-- What the parser of targets on lists does with the two parts of a target. -/
def decodeSplit (split : Request.ParsedTarget) : Option Request.ParsedTarget :=
  if split.path.head? ≠ some slash then none
  else
    match Request.httpDecodePath split.path targetSize with
    | none => none
    | some path => some { path := path, query := split.query }

theorem httpParseTarget_eq (target : List Byte) :
    Request.httpParseTarget target =
      (Request.httpSplitTarget target).bind decodeSplit := by
  rw [Request.httpParseTarget]
  cases Request.httpSplitTarget target with
  | none => rfl
  | some split => rfl

/-- The exit of `http_parse_target` that goes with the result on lists. -/
def TargetParsed (request : Arrays.HttpRequest)
    (parsed : Option Request.ParsedTarget) (exit : Arrays.TargetExit) : Prop :=
  exit.decoding ≠ some .tooLong ∧
    match parsed with
    | none => exit.code = .failure
    | some parsed => exit.code = .success ∧ ∃ path query,
        exit.request = { request with path := path, query := query } ∧
          Holds path.toList parsed.path ∧ Holds query.toList parsed.query

variable {text : List Byte}

theorem httpStorePath_spec {path : List.Vector Byte targetSize}
    (h : Holds path.toList text) (request : Arrays.HttpRequest)
    {query : List.Vector Byte targetSize} {queryText : List Byte}
    (hquery : Holds query.toList queryText) :
    Safe (TargetParsed request
        (decodeSplit { path := text, query := queryText }))
      (Arrays.httpStorePath path { request with query := query }) := by
  have hsize := h.length_lt
  rw [path.toList_length] at hsize
  rw [Arrays.httpStorePath, h.read (Nat.zero_le _), ok_bind, decodeSplit,
    List.drop_zero]
  by_cases hslash : text.head? = some slash
  · have hfirst : text.headD 0 = slash := by
      rw [List.headD_eq_head?_getD, hslash, Option.getD_some]
    rw [if_neg (not_not.mpr hfirst), if_neg (not_not.mpr hslash)]
    apply (httpDecodePath_spec h hsize request.path).bind
    rintro ⟨decoding, decoded⟩ ⟨htooLong, hdecoded⟩
    refine ⟨fun hsame => htooLong (Option.some.inj hsame), ?_⟩
    dsimp only at hdecoded ⊢
    cases hpath : Request.httpDecodePath text targetSize with
    | none =>
        rw [hpath] at hdecoded
        dsimp only at hdecoded ⊢
        rw [hdecoded]
        rfl
    | some found =>
        rw [hpath] at hdecoded
        exact ⟨if_pos hdecoded.1, decoded, query, rfl, hdecoded.2, hquery⟩
  · have hfirst : text.headD 0 ≠ slash := by
      intro hsame
      apply hslash
      cases text with
      | nil => cases hsame
      | cons byte text => exact congrArg some hsame
    rw [if_pos hfirst, if_pos hslash]
    exact ⟨(Option.some_ne_none _).symm, rfl⟩

theorem httpParseTarget_spec {target : List Byte} (h : Holds target text)
    (path : List.Vector Byte targetSize) (request : Arrays.HttpRequest) :
    Safe (TargetParsed request (Request.httpParseTarget text))
      (Arrays.httpParseTarget target path request) := by
  have hrefused : TargetParsed request none
      { code := .failure, request := request, decoding := none } :=
    ⟨(Option.some_ne_none _).symm, rfl⟩
  rw [Arrays.httpParseTarget, h.strchr (Nat.zero_le _), ok_bind,
    httpParseTarget_eq, Request.httpSplitTarget, List.drop_zero]
  cases hquestion : Bytes.strchr text question with
  | some pathLength =>
      have hinside : pathLength + 1 ≤ text.length :=
        Search.firstOccurrence_add_length_le hquestion
      rw [Option.map_some, Nat.zero_add]
      dsimp only
      rw [distance_eq (Nat.zero_le _), ok_bind, Nat.sub_zero]
      by_cases hlength : pathLength = 0 ∨ targetSize ≤ pathLength
      · rw [if_pos hlength, if_pos hlength]
        exact hrefused
      rw [if_neg hlength, if_neg hlength]
      rw [not_or] at hlength
      apply (h.copyString path (by omega) (Nat.lt_of_not_le hlength.2)).bind
      intro path' hpath
      rw [h.strlen hinside, ok_bind, ← List.length_drop]
      by_cases hquery : targetSize ≤ (text.drop (pathLength + 1)).length
      · rw [if_pos hquery, if_pos hquery]
        exact hrefused
      rw [if_neg hquery, if_neg hquery]
      rw [List.length_drop] at hquery ⊢
      apply (h.memcpy request.query hinside (Nat.lt_of_not_le hquery)).bind
      intro query hqueryText
      exact httpStorePath_spec hpath request hqueryText
  | none =>
      rw [Option.map_none]
      dsimp only
      rw [h.strlen (Nat.zero_le _), ok_bind, Nat.sub_zero]
      by_cases hlength : text.length = 0 ∨ targetSize ≤ text.length
      · rw [if_pos hlength, if_pos hlength]
        exact hrefused
      rw [if_neg hlength, if_neg hlength]
      rw [not_or] at hlength
      apply (h.memcpy path (Nat.zero_le _) (Nat.lt_of_not_le hlength.2)).bind
      intro path' hpath
      rw [write_eq 0 (by decide), ok_bind]
      exact httpStorePath_spec hpath request
        (holds_set (by decide) List.not_mem_nil)

end Target

section RequestLine

/-- What `http_parse_request_line` leaves in the arrays. -/
def LineParsed (request : Arrays.HttpRequest)
    (parsed : Option Request.RequestLine)
    (exit : ReturnCode × Arrays.HttpRequest × List.Vector Byte targetSize) :
    Prop :=
  match parsed with
  | none => exit.1 = .failure
  | some line => exit.1 = .success ∧ ∃ method version,
      exit.2.1 = { request with method := method, version := version } ∧
        Holds method.toList line.method ∧ Holds version.toList line.version ∧
        Holds exit.2.2.toList line.target

variable {buffer text : List Byte}

theorem httpValidHeaderName_spec (h : Holds buffer text) {offset count : ℕ}
    (hinside : offset + count ≤ text.length) :
    Arrays.httpValidHeaderName buffer offset count =
      .ok (Request.httpValidHeaderName ((text.drop offset).take count)) := by
  have hlength : ((text.drop offset).take count).length = count := by
    rw [List.length_take, List.length_drop]
    omega
  rw [Arrays.httpValidHeaderName, Request.httpValidHeaderName, hlength]
  split_ifs with hcount
  · rfl
  · exact h.checkBytes Request.httpIsTchar hinside

theorem httpParseRequestLine_spec (h : Holds buffer text)
    (request : Arrays.HttpRequest) (target : List.Vector Byte targetSize) :
    Safe (LineParsed request (Request.httpParseRequestLine text))
      (Arrays.httpParseRequestLine buffer request target) := by
  rw [Arrays.httpParseRequestLine, h.strstr (Nat.zero_le _), ok_bind,
    Request.httpParseRequestLine, List.drop_zero]
  cases hend : Bytes.strstr text crlf with
  | none => exact rfl
  | some lineEnd =>
      have hinside : lineEnd + 2 ≤ text.length :=
        Search.firstOccurrence_add_length_le hend
      simp only [Option.map_some, Nat.zero_add, Option.bind_eq_bind,
        Option.bind_some]
      rw [distance_eq (Nat.zero_le lineEnd), ok_bind, Nat.sub_zero,
        h.memchr (by omega), ok_bind, List.drop_zero]
      cases hfirst : Bytes.memchr text sp lineEnd with
      | none => exact rfl
      | some firstSpace =>
          have hfirstLt := memchr_lt hfirst
          simp only [Option.map_some, Nat.zero_add, Option.bind_some]
          rw [distance_eq hfirstLt, ok_bind, h.memchr (by omega), ok_bind,
            Nat.sub_sub]
          cases hsecond : Bytes.memchr (text.drop (firstSpace + 1)) sp
              (lineEnd - (firstSpace + 1)) with
          | none => exact rfl
          | some targetLength =>
              have hsecondLt := memchr_lt hsecond
              simp only [Option.map_some, Option.bind_some]
              rw [distance_eq (by omega), ok_bind, h.memchr (by omega), ok_bind,
                Nat.sub_sub, Option.isSome_map, distance_eq (Nat.zero_le _),
                ok_bind, Nat.sub_zero, httpValidHeaderName_spec h (by omega),
                ok_bind, List.drop_zero]
              have htargetLength :
                  distance (firstSpace + 1 + targetLength) (firstSpace + 1) =
                    .ok targetLength := by
                rw [distance_eq (Nat.le_add_right _ _), Nat.add_sub_cancel_left]
              apply Safe.ite
              · intro _
                exact rfl
              intro _
              apply Safe.ite
              · intro _
                exact rfl
              intro hmethod
              apply Safe.ite
              · intro _
                exact rfl
              intro _
              rw [not_or] at hmethod
              apply (h.copyString request.method (by omega)
                (Nat.lt_of_not_le hmethod.2)).bind
              intro method hmethodText
              rw [htargetLength, ok_bind]
              apply Safe.ite
              · intro _
                exact rfl
              intro htarget
              rw [not_or] at htarget
              apply (h.copyString target (by omega)
                (Nat.lt_of_not_le htarget.2)).bind
              intro target' htargetText
              apply Safe.ite
              · intro _
                exact rfl
              intro hversion
              rw [not_or] at hversion
              apply (h.copyString request.version (by omega)
                (Nat.lt_of_not_le hversion.2)).bind
              intro version hversionText
              exact ⟨rfl, method, version, rfl, hmethodText, hversionText,
                htargetText⟩

end RequestLine

end HttpCerver.Bounds
