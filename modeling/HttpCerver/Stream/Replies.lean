import HttpCerver.Stream.Client
import HttpCerver.Stream.Reference

/-!
# The stream of replies

What the handler writes on a connection is one reply for each head it answers,
in order, and at most one more for a head that is too long.  Every reply
delimits itself, so a client that knows its requests takes exactly these
replies back from the stream.
-/

namespace HttpCerver.Replies

open HttpCerver.Answers
open HttpCerver.Bytes
open HttpCerver.Client
open HttpCerver.Config
open HttpCerver.Delimited
open HttpCerver.Delivery
open HttpCerver.Exchange
open HttpCerver.ForkServer
open HttpCerver.Framed
open HttpCerver.Http
open HttpCerver.Reference
open HttpCerver.Request
open HttpCerver.Resolution
open HttpCerver.Response
open HttpCerver.Sessions
open HttpCerver.System

/-- The heads of a stream, whoever answers them, and whether what follows the
last of them does not fit the buffer. -/
def requests (config : ServerConfig) (stream : List Byte) :
    List (List Byte) × Bool :=
  exchange headFramer (fun _ => false) config.httpBufferSize stream

/-- How many bytes a client expects behind the header block that answers
`head`. -/
def bodyLength (head block : List Byte) : Option ℕ :=
  (decode block).map fun declared =>
    if declared.status = .ok ∧ isHead head then 0 else declared.length

/-- How a client finds the end of the response to `head`. -/
def responseFramer (head : List Byte) : Framer Byte :=
  declared headFramer (bodyLength head)

theorem responseFramer_find (head buffer : List Byte) :
    (responseFramer head).find buffer =
      findDeclared headFramer (bodyLength head) buffer := rfl

/-- How it does so for each response in turn; behind the last request it knows
of no head. -/
def responseFramers (heads : List (List Byte)) (index : ℕ) : Framer Byte :=
  responseFramer (heads.getD index [])

/-- A response as it goes over the wire, and the head it answers. -/
structure Reply where
  head : List Byte
  answer : Answer
  body : List Byte

def Reply.bytes (reply : Reply) : List Byte :=
  reply.answer.headers ++ reply.body

/-- The header block is built, ends where it seems to end, and is read back;
what it declares is what follows, save for a `HEAD` that succeeds. -/
structure Reply.SelfDelimiting (reply : Reply) : Prop where
  built : httpBuildResponseHeaders httpResponseHeaderMax reply.answer.status
    reply.answer.contentType reply.answer.length (!reply.answer.closes) =
      some reply.answer.headers
  ends : httpFindHeaderEnd reply.answer.headers =
    some reply.answer.headers.length
  decoded : decode reply.answer.headers = some
    { status := reply.answer.status
      contentType := reply.answer.contentType
      length := reply.answer.length
      keepAlive := !reply.answer.closes }
  length_body : reply.body.length =
    if reply.answer.status = .ok ∧ isHead reply.head then 0
    else reply.answer.length
  declares : ∀ file sendBody, reply.answer.content = .file file sendBody →
    reply.answer.length = file.size

theorem selfDelimiting_of_follows {head body : List Byte} {answer : Answer}
    {fileSystem : ℕ → FileSystem} (h : Consistent head answer)
    (hbody : Follows fileSystem body answer.content) :
    Reply.SelfDelimiting { head := head, answer := answer, body := body } where
  built := httpBuildResponseHeaders_eq_some answer.status (!answer.closes)
    h.length_contentType h.length_lt
  ends := by
    have hlines := cr_notMem_builtLines answer.status h.cr_notMem
      answer.length (!answer.closes)
    rw [Answer.headers, headerBlock_eq]
    rw [builtLines, List.forall_mem_cons] at hlines
    exact httpFindHeaderEnd_headerBlockOf hlines.1.2 hlines.2
  decoded := decode_headerBlock h.cr_notMem _ _ _
  length_body := by
    have hcontent := h.content
    cases hanswer : answer.content with
    | page text =>
        rw [hanswer] at hcontent hbody
        rw [if_neg fun hok => hcontent.1 hok.1, hcontent.2.2,
          show body = text from hbody]
    | file file sendBody =>
        rw [hanswer] at hcontent hbody
        obtain ⟨hstatus, hlength, hsendBody⟩ := hcontent
        cases hhead : isHead head with
        | true =>
            rw [hhead] at hsendBody
            subst hsendBody
            rw [if_pos ⟨hstatus, rfl⟩, show body = [] from hbody]
            rfl
        | false =>
            rw [hhead] at hsendBody
            subst hsendBody
            rw [if_neg (by simp), hlength]
            exact hbody.1
  declares := by
    intro file sendBody hanswer
    have hcontent := h.content
    simp only at hanswer
    rw [hanswer] at hcontent
    exact hcontent.2.1

/-- A client finds the end of such a reply. -/
theorem Reply.SelfDelimiting.complete {reply : Reply}
    (h : reply.SelfDelimiting) :
    (responseFramer reply.head).find reply.bytes = some reply.bytes.length := by
  have hends := h.ends
  rw [← headFramer_find] at hends
  have hbody : bodyLength reply.head reply.answer.headers =
      some reply.body.length := by
    rw [bodyLength, h.decoded, Option.map_some, h.length_body]
  rw [responseFramer_find, Reply.bytes, findDeclared_append hends hbody]

/-- The reply to a head that is too long. -/
def overlong : Reply where
  head := []
  answer := Refusal.answer
    { status := .requestHeaderFieldsTooLarge, message := none }
  body := errorText .requestHeaderFieldsTooLarge

theorem bytes_overlong : overlong.bytes = tooLarge := rfl

theorem selfDelimiting_overlong : overlong.SelfDelimiting :=
  @selfDelimiting_of_follows _ _ _ (fun _ => smallFileSystem)
    (consistent_refusal _ [] (by simp)
      (length_errorText_le .requestHeaderFieldsTooLarge)) rfl

/-- The replies of a connection. -/
def transcript (replies : List Reply) (overflow : Bool) : List Reply :=
  replies ++ if overflow then [overlong] else []

/-- The reply is the answer owed to its head at some moment. -/
def Reply.Owed (config : ServerConfig) (fileSystem : ℕ → FileSystem)
    (root : Option Inode) (reply : Reply) : Prop :=
  ∃ clock, reply.answer =
    Answers.answer config (resolveAt fileSystem clock root) false reply.head

/-- The heads that have been taken up. -/
def parsed (trace : List Event) : List (List Byte) :=
  trace.filterMap fun
    | .parse head _ => some head
    | _ => none

@[simp]
theorem parsed_append (events more : List Event) :
    parsed (events ++ more) = parsed events ++ parsed more :=
  List.filterMap_append

@[simp]
theorem parsed_writes (writes : List (List Byte)) :
    parsed (writes.map .write) = [] := by
  simp [parsed]

theorem parsed_of_descriptorEvents {events : List Event}
    (hevents : DescriptorEvents events) : parsed events = [] := by
  rw [parsed, List.filterMap_eq_nil_iff]
  exact hevents.forall_mem (fun _ => rfl) (fun _ => rfl) (fun _ => rfl)

theorem parsed_openingEvents {head : List Byte} {closing : Bool}
    {opening : List Event} {answer : Answer}
    (hopening : DescriptorEvents opening) :
    parsed (openingEvents head closing opening answer) = [head] := by
  have hnil := parsed_of_descriptorEvents hopening
  rw [openingEvents, parsed_append, ← List.singleton_append, parsed_append,
    hnil]
  rfl

theorem parsed_answered {rootFd : Fd} {config : ServerConfig}
    {head : List Byte} {closing : Bool} {answer : Answer}
    {opening closed : List Event} {writes : List (List Byte)} {w w' : World}
    (hanswered : Answered rootFd config head closing w answer opening writes
      closed w') : parsed w'.trace = parsed w.trace ++ [head] := by
  have hclosed := parsed_of_descriptorEvents hanswered.closed
  rw [hanswered.effect.trace, ← List.singleton_append, parsed_append,
    parsed_append, parsed_append, parsed_append,
    parsed_openingEvents hanswered.opening, parsed_writes, hclosed]
  simp [parsed]

theorem parsed_recv {capacity : ℕ} {received : Except Errno (List Byte)}
    {w w' : World} (hrecv : recv capacity w = (received, w')) :
    parsed w'.trace = parsed w.trace ∧ w'.mallocs = w.mallocs := by
  have hreceipt := recv_spec capacity w
  rw [hrecv] at hreceipt
  cases hreceipt with
  | received => exact ⟨by simp [log, parsed], rfl⟩
  | failed => exact ⟨by simp [log, parsed], rfl⟩

section Window

variable {config : ServerConfig} {pending incoming : List Byte} {length : ℕ}

theorem requests_ready (hready : httpFindHeaderEnd pending = some length)
    (hlimit : pending.length ≤ config.httpBufferSize) :
    requests config (pending ++ incoming) =
      (pending.take length :: (requests config
          (pending.drop length ++ incoming)).1,
        (requests config (pending.drop length ++ incoming)).2) :=
  exchange_continuing headFramer hready hlimit rfl

theorem requests_overflow (hidle : httpFindHeaderEnd pending = none)
    (hfull : pending.length = config.httpBufferSize) :
    requests config (pending ++ incoming) = ([], true) :=
  exchange_overflow headFramer hidle hfull

end Window

/-- What a session has added to the output and to the heads taken up. -/
structure Conversed (config : ServerConfig) (fileSystem : ℕ → FileSystem)
    (root : Option Inode) (stream : List Byte) (w w' : World)
    (replies : List Reply) (overflow : Bool) (unanswered : List (List Byte)) :
    Prop where
  written : written w'.trace = written w.trace ++
    (transcript replies overflow).flatMap Reply.bytes
  sound : ∀ reply ∈ replies, reply.SelfDelimiting ∧
    reply.Owed config fileSystem root
  heads : replies.map (·.head) <+: (requests config stream).1
  overflow : overflow = true →
    requests config stream = (replies.map (·.head), true)
  parsed : parsed w'.trace = parsed w.trace ++
    (replies.map (·.head) ++ unanswered)
  unanswered : unanswered ≠ [] → false ∈ w.mallocs

section Conversed

variable {config : ServerConfig} {fileSystem : ℕ → FileSystem}
variable {root : Option Inode} {stream : List Byte} {w w' w'' : World}

/-- Nothing more has been written. -/
theorem Conversed.silent {unanswered : List (List Byte)}
    (hwritten : Reference.written w'.trace = Reference.written w.trace)
    (hparsed : Replies.parsed w'.trace = Replies.parsed w.trace ++ unanswered)
    (hunanswered : unanswered ≠ [] → false ∈ w.mallocs) :
    Conversed config fileSystem root stream w w' [] false unanswered where
  written := by simp [hwritten, transcript]
  sound := by simp
  heads := List.nil_prefix
  overflow := by simp
  parsed := hparsed
  unanswered := hunanswered

/-- A receive in front of the conversation. -/
theorem Conversed.of_recv {capacity : ℕ}
    {received : Except Errno (List Byte)} {replies : List Reply}
    {overflow : Bool} {unanswered : List (List Byte)}
    (h : Conversed config fileSystem root stream w' w'' replies overflow
      unanswered)
    (hrecv : recv capacity w = (received, w'))
    (hwritten : Reference.written w'.trace = Reference.written w.trace) :
    Conversed config fileSystem root stream w w'' replies overflow
      unanswered := by
  obtain ⟨hparsed, hmallocs⟩ := parsed_recv hrecv
  exact
    { written := by rw [h.written, hwritten]
      sound := h.sound
      heads := h.heads
      overflow := h.overflow
      parsed := by rw [h.parsed, hparsed]
      unanswered := hmallocs ▸ h.unanswered }

/-- One reply in front of the others. -/
theorem Conversed.cons {stream' : List Byte} {reply : Reply}
    {replies : List Reply} {overflow : Bool} {unanswered : List (List Byte)}
    (h : Conversed config fileSystem root stream' w' w'' replies overflow
      unanswered)
    (hwritten : Reference.written w'.trace =
      Reference.written w.trace ++ reply.bytes)
    (hparsed : Replies.parsed w'.trace =
      Replies.parsed w.trace ++ [reply.head])
    (hsound : reply.SelfDelimiting ∧ reply.Owed config fileSystem root)
    (hstream : requests config stream =
      (reply.head :: (requests config stream').1,
        (requests config stream').2))
    (hmallocs : w'.mallocs <:+ w.mallocs) :
    Conversed config fileSystem root stream w w'' (reply :: replies) overflow
      unanswered where
  written := by
    rw [h.written, hwritten, List.append_assoc]
    rfl
  sound := List.forall_mem_cons.mpr ⟨hsound, h.sound⟩
  heads := by
    rw [hstream, List.map_cons]
    exact (List.prefix_cons_inj _).mpr h.heads
  overflow := by
    intro hoverflow
    rw [hstream, h.overflow hoverflow, List.map_cons]
  parsed := by
    rw [h.parsed, hparsed, List.map_cons, List.append_assoc]
    rfl
  unanswered hne := hmallocs.subset (h.unanswered hne)

end Conversed

section Session

variable {rootFd : Fd} {config : ServerConfig} {root : Option Inode}
variable {fileSystem : ℕ → FileSystem} {w w' : World}

/-- The reply that an answered head has received. -/
theorem reply_of_answered {head : List Byte} {answer : Answer}
    {opening closed : List Event} {writes : List (List Byte)}
    (h : Steady fileSystem root rootFd w)
    (hanswered : Answered rootFd config head false w answer opening writes
      closed w') :
    ∃ reply : Reply, reply.head = head ∧
      written w'.trace = written w.trace ++ reply.bytes ∧
      reply.SelfDelimiting ∧ reply.Owed config fileSystem root := by
  obtain ⟨payload, hpayload, hwritten⟩ := written_answered hanswered
  have hanswer := hanswered.answer_eq.trans (h.answerAt config false head)
  have hconsistent : Consistent head answer := by
    rw [hanswer]
    exact consistent_answer config _ false head
  exact ⟨{ head := head, answer := answer, body := payload }, rfl, hwritten,
    selfDelimiting_of_follows hconsistent hpayload, w.clock, hanswer⟩

/-- A full buffer without a head is answered once. -/
theorem conversed_overlong {pending : List Byte}
    (h : Steady fileSystem root rootFd w)
    (hidle : httpFindHeaderEnd pending = none)
    (hfull : pending.length = config.httpBufferSize) :
    Conversed config fileSystem root (pending ++ w.incoming) w
      (httpSendError .requestHeaderFieldsTooLarge false w).2 [] true [] := by
  obtain ⟨writes, hsent⟩ := httpSendError_spec
    HttpStatus.requestHeaderFieldsTooLarge (by decide) false w
  have hsuccess := httpSendError_success
    HttpStatus.requestHeaderFieldsTooLarge (by decide) false h.sends
  have htrace := hsent.effect.trace
  rw [if_pos hsuccess] at htrace
  exact
    { written := by
        rw [htrace, written_append, written_append, written_writes,
          hsent.message hsuccess]
        simp [transcript, bytes_overlong, tooLarge, written, wire]
      sound := by simp
      heads := List.nil_prefix
      overflow := fun _ => requests_overflow hidle hfull
      parsed := by
        rw [htrace, parsed_append, parsed_append, parsed_writes]
        simp [parsed]
      unanswered := by simp }

/-- A session converses: one reply for each head in turn. -/
theorem conversed_session {pending : List Byte}
    {result : ReturnCode × World}
    (hsession : Session rootFd config pending w result)
    (h : Steady fileSystem root rootFd w) (hsizes : SizesKept fileSystem)
    (hlimit : pending.length ≤ config.httpBufferSize) :
    ∃ replies overflow unanswered,
      Conversed config fileSystem root (pending ++ w.incoming) w result.2
        replies overflow unanswered := by
  induction hsession with
  | interrupted hidle hspace hrecv hrest ih =>
      obtain ⟨hsteady, hwritten⟩ := h.of_recv hrecv
      obtain ⟨replies, overflow, unanswered, hrest⟩ := ih hsteady hlimit
      rw [(recv_error hrecv).1] at hrest
      exact ⟨replies, overflow, unanswered, hrest.of_recv hrecv hwritten⟩
  | received hidle hspace hrecv hbytes hrest ih =>
      obtain ⟨hsteady, hwritten⟩ := h.of_recv hrecv
      obtain ⟨hincoming, hcapacity, -⟩ := recv_ok hrecv
      rw [window] at hcapacity
      obtain ⟨replies, overflow, unanswered, hrest⟩ := ih hsteady (by
        rw [List.length_append]
        omega)
      rw [List.append_assoc, ← hincoming] at hrest
      exact ⟨replies, overflow, unanswered, hrest.of_recv hrecv hwritten⟩
  | ended hidle hspace hrecv =>
      exact ⟨[], false, [], .silent (h.of_recv hrecv).2
        (by simp [(parsed_recv hrecv).1]) (by simp)⟩
  | broken hidle hspace hrecv herrno =>
      exact ⟨[], false, [], .silent (h.of_recv hrecv).2
        (by simp [(parsed_recv hrecv).1]) (by simp)⟩
  | overflowed hidle hfull =>
      refine ⟨[], true, [], ?_⟩
      dsimp only
      exact conversed_overlong h hidle hfull
  | @aborted pending length w w' hready haborted =>
      cases haborted with
      | @starved opening w' heffect hopening hdescriptors hledger hmallocs =>
          refine ⟨[], false, [pending.take length], .silent ?_ ?_
            fun _ => hmallocs⟩
          · have hnil := written_of_descriptorEvents hopening
            rw [heffect.trace, written_append, ← List.singleton_append,
              written_append, hnil]
            simp [written, wire]
          · have hnil := parsed_of_descriptorEvents hopening
            rw [heffect.trace, parsed_append, ← List.singleton_append,
              parsed_append, hnil]
            rfl
      | unsent hanswer heffect hopening hdescriptors hledger hfails =>
          rw [h.answerAt] at hanswer
          rw [hanswer, h.fileSystem] at hfails
          exact absurd ⟨h.sends, hsizes.servable config _ root false _⟩ hfails
  | @closed pending length w w' _ _ _ _ hready hanswered hcloses =>
      obtain ⟨reply, hhead, hwritten, hsound⟩ := reply_of_answered h hanswered
      have hdone : Conversed config fileSystem root
          (pending.drop length ++ w.incoming) w' w' [] false [] :=
        .silent rfl (by simp) (by simp)
      refine ⟨[reply], false, [], hdone.cons hwritten
        (by rw [parsed_answered hanswered, hhead]) hsound ?_
        hanswered.effect.mallocs⟩
      rw [hhead]
      exact requests_ready hready hlimit
  | answered hready hanswered hcloses hrest ih =>
      obtain ⟨reply, hhead, hwritten, hsound⟩ := reply_of_answered h hanswered
      obtain ⟨replies, overflow, unanswered, hrest⟩ := ih
        (h.of_effect hanswered.effect hanswered.descriptors)
        (by rw [List.length_drop]; omega)
      rw [hanswered.effect.incoming] at hrest
      refine ⟨reply :: replies, overflow, unanswered, hrest.cons hwritten
        (by rw [parsed_answered hanswered, hhead]) hsound ?_
        hanswered.effect.mallocs⟩
      rw [hhead]
      exact requests_ready hready hlimit

end Session

/-- A client that knows its requests finds the end of every reply. -/
theorem complete_transcript {heads : List (List Byte)} {replies : List Reply}
    {overflow : Bool} (hsound : ∀ reply ∈ replies, reply.SelfDelimiting)
    (hheads : replies.map (·.head) <+: heads)
    (hoverflow : overflow = true → heads = replies.map (·.head)) :
    Complete (responseFramers heads)
      ((transcript replies overflow).map Reply.bytes) := by
  obtain ⟨rest, rfl⟩ := hheads
  intro index message hmessage
  rw [List.getElem?_map, Option.map_eq_some_iff] at hmessage
  obtain ⟨reply, hreply, rfl⟩ := hmessage
  have hdelimits : reply.SelfDelimiting ∧
      (replies.map (·.head) ++ rest).getD index [] = reply.head := by
    rw [transcript, List.getElem?_append] at hreply
    split_ifs at hreply with hinside hfull
    · refine ⟨hsound reply (List.mem_of_getElem? hreply), ?_⟩
      rw [List.getD_eq_getElem?_getD, List.getElem?_append_left (by simpa),
        List.getElem?_map, hreply]
      rfl
    · have hsingle := List.mem_of_getElem? hreply
      rw [List.mem_singleton] at hsingle
      subst hsingle
      refine ⟨selfDelimiting_overlong, ?_⟩
      rw [hoverflow hfull, List.getD_eq_getElem?_getD,
        List.getElem?_eq_none (by simpa using hinside)]
      rfl
    · simp at hreply
  rw [responseFramers, hdelimits.2]
  exact hdelimits.1.complete

/-- The trace that the handler leaves. -/
def record (rootFd : Fd) (config : ServerConfig) (environment : Environment)
    (inherited : List (Fd × Inode)) : List Event :=
  (forkServerHandleConnection rootFd config
    (start environment inherited)).2.trace

theorem conversed_handler {config : ServerConfig}
    (hconfig : httpConfigValid config = true) {environment : Environment}
    (hsizes : SizesKept environment.fileSystem)
    (hsends : ∀ outcome ∈ environment.sends, outcome.Succeeds) (rootFd : Fd)
    (inherited : List (Fd × Inode)) :
    ∃ replies overflow unanswered,
      Conversed config environment.fileSystem
        (inheritedRoot rootFd inherited) environment.incoming
        (start environment inherited)
        (forkServerHandleConnection rootFd config
          (start environment inherited)).2 replies overflow unanswered := by
  obtain ⟨mallocs, hsuffix, hsession | ⟨hfails, hresult⟩⟩ :=
    forkServerHandleConnection_session hconfig rootFd
      (start environment inherited)
  · obtain ⟨replies, overflow, unanswered, h⟩ :=
      conversed_session hsession ⟨rfl, inodeOf_start rootFd environment
        inherited, hsends⟩ hsizes (Nat.zero_le _)
    exact ⟨replies, overflow, unanswered, h.written, h.sound, h.heads,
      h.overflow, h.parsed, fun hne => hsuffix.subset (h.unanswered hne)⟩
  · rw [hresult]
    exact ⟨[], false, [], .silent rfl (by simp) (by simp)⟩

/-- The stream of responses delimits itself and is read back: where no send
fails and files keep their sizes, the output is one response for each head
that is taken up, in order, and at most one for a head that is too long.  A
client that knows its requests takes back exactly these responses, and there
is no other way to cut the output into complete ones.  Only where memory runs
out does a head stay unanswered. -/
theorem response_stream_decodes {config : ServerConfig}
    (hconfig : httpConfigValid config = true) {environment : Environment}
    (hsizes : SizesKept environment.fileSystem)
    (hsends : ∀ outcome ∈ environment.sends, outcome.Succeeds) (rootFd : Fd)
    (inherited : List (Fd × Inode)) :
    ∃ replies overflow unanswered,
      output rootFd config environment inherited =
          (transcript replies overflow).flatMap Reply.bytes ∧
        (∀ reply ∈ transcript replies overflow, reply.SelfDelimiting) ∧
        (∀ reply ∈ replies, reply.Owed config environment.fileSystem
          (inheritedRoot rootFd inherited)) ∧
        replies.map (·.head) <+: (requests config environment.incoming).1 ∧
        (overflow = true → requests config environment.incoming =
          (replies.map (·.head), true)) ∧
        parsed (record rootFd config environment inherited) =
          replies.map (·.head) ++ unanswered ∧
        (false ∉ environment.mallocs → unanswered = []) ∧
        receive (responseFramers (requests config environment.incoming).1)
            (output rootFd config environment inherited) =
          (transcript replies overflow).map Reply.bytes ∧
        ∀ parts,
          Complete (responseFramers
            (requests config environment.incoming).1) parts →
          parts.flatten = output rootFd config environment inherited →
            parts = (transcript replies overflow).map Reply.bytes := by
  obtain ⟨replies, overflow, unanswered, h⟩ :=
    conversed_handler hconfig hsizes hsends rootFd inherited
  have hwritten : output rootFd config environment inherited =
      (transcript replies overflow).flatMap Reply.bytes := h.written
  have hflatten : output rootFd config environment inherited =
      ((transcript replies overflow).map Reply.bytes).flatten := hwritten
  have hdelimits : ∀ reply ∈ replies, reply.SelfDelimiting :=
    fun reply hmem => (h.sound reply hmem).1
  have hcomplete := complete_transcript hdelimits h.heads
    fun hoverflow => congrArg Prod.fst (h.overflow hoverflow)
  refine ⟨replies, overflow, unanswered, hwritten, ?_,
    fun reply hmem => (h.sound reply hmem).2, h.heads, h.overflow, h.parsed,
    ?_, ?_, ?_⟩
  · intro reply hmem
    rcases List.mem_append.mp hmem with hreply | hoverlong
    · exact hdelimits reply hreply
    · split_ifs at hoverlong
      · rw [List.mem_singleton.mp hoverlong]
        exact selfDelimiting_overlong
      · cases hoverlong
  · intro hmemory
    by_contra hne
    exact hmemory (h.unanswered hne)
  · rw [hflatten, receive_flatten hcomplete]
  · intro parts hparts hsame
    exact eq_of_flatten_eq hparts hcomplete (hsame.trans hflatten)

theorem response_stream_decodes_pipelined :
    ∃ replies overflow,
      output 3 configInit pipelined [(3, 0)] =
          (transcript replies overflow).flatMap Reply.bytes ∧
        ∀ reply ∈ transcript replies overflow, reply.SelfDelimiting := by
  have hconfig : httpConfigValid configInit = true := by decide
  obtain ⟨replies, overflow, _, hwritten, hdelimits, _⟩ :=
    response_stream_decodes hconfig (sizesKept_tree smallTree)
      undisturbed_pipelined.sends 3 [(3, 0)]
  exact ⟨replies, overflow, hwritten, hdelimits⟩

end HttpCerver.Replies
