import HttpCerver.Core.Delimited
import HttpCerver.Server.Sessions

/-!
# The handler and the whole stream

`reference` answers a stream that is there all at once: it takes up one head
after the other, each of them within the first `http_buffer_size` bytes of
what is left, until an answer closes, a head does not fit, or the stream is
used up.  The handler writes the same bytes however the stream arrives.
-/

namespace HttpCerver.Reference

open HttpCerver.Answers
open HttpCerver.Bytes
open HttpCerver.Config
open HttpCerver.Delimited
open HttpCerver.Delivery
open HttpCerver.Exchange
open HttpCerver.File
open HttpCerver.ForkServer
open HttpCerver.Http
open HttpCerver.Request
open HttpCerver.Resolution
open HttpCerver.Response
open HttpCerver.Sessions
open HttpCerver.System

/-- A document tree that does not change; a regular file has the size that
`fstat` reports. -/
structure Tree where
  fileSystem : FileSystem
  length_content : ∀ inode st, fileSystem.fstat inode = .ok st →
    st.fileType = .regular → (fileSystem.content inode).length = st.size

/-- Request heads end with an empty line. -/
def headFramer : Framer Byte :=
  delimited crlfCrlf (by decide)

theorem headFramer_find (buffer : List Byte) :
    headFramer.find buffer = httpFindHeaderEnd buffer := rfl

/-- The bytes of an answer in an unchanging tree. -/
def rendered (tree : Tree) (answer : Answer) : List Byte :=
  answer.headers ++
    match answer.content with
    | .page text => text
    | .file file true => tree.fileSystem.content file.inode |>.take file.size
    | .file _ false => []

section Reference

variable (config : ServerConfig) (tree : Tree) (root : Option Inode)

/-- The answer to a head. -/
def answerTo (head : List Byte) : Answer :=
  answer config (resolveAt (fun _ => tree.fileSystem) 0 root) false head

/-- The heads of a stream that are answered, and whether the next one is too
long. -/
def conversation (stream : List Byte) : List (List Byte) × Bool :=
  exchange headFramer (fun head => (answerTo config tree root head).closes)
    config.httpBufferSize stream

/-- The answer to a head that does not fit the buffer. -/
def tooLarge : List Byte :=
  errorHeaders .requestHeaderFieldsTooLarge false ++
    errorText .requestHeaderFieldsTooLarge

def reference (stream : List Byte) : List Byte :=
  let (heads, overflow) := conversation config tree root stream
  heads.flatMap (fun head => rendered tree (answerTo config tree root head)) ++
    if overflow then tooLarge else []

end Reference

section Window

variable {config : ServerConfig} {tree : Tree} {root : Option Inode}
variable {pending incoming : List Byte} {length : ℕ}

theorem reference_closing (hready : httpFindHeaderEnd pending = some length)
    (hlimit : pending.length ≤ config.httpBufferSize)
    (hcloses : (answerTo config tree root (pending.take length)).closes =
      true) :
    reference config tree root (pending ++ incoming) =
      rendered tree (answerTo config tree root (pending.take length)) := by
  rw [reference, conversation,
    exchange_closing headFramer hready hlimit hcloses]
  simp

theorem reference_continuing
    (hready : httpFindHeaderEnd pending = some length)
    (hlimit : pending.length ≤ config.httpBufferSize)
    (hcloses : (answerTo config tree root (pending.take length)).closes =
      false) :
    reference config tree root (pending ++ incoming) =
      rendered tree (answerTo config tree root (pending.take length)) ++
        reference config tree root (pending.drop length ++ incoming) := by
  rw [reference, conversation,
    exchange_continuing headFramer hready hlimit hcloses]
  dsimp only
  rw [List.flatMap_cons, List.append_assoc]
  rfl

/-- A complete head decides about the first answer. -/
theorem reference_ready (hready : httpFindHeaderEnd pending = some length)
    (hlimit : pending.length ≤ config.httpBufferSize) :
    reference config tree root (pending ++ incoming) =
      rendered tree (answerTo config tree root (pending.take length)) ++
        if (answerTo config tree root (pending.take length)).closes then []
        else reference config tree root (pending.drop length ++ incoming) := by
  cases hcloses :
    (answerTo config tree root (pending.take length)).closes with
  | true =>
      rw [if_pos rfl, List.append_nil,
        reference_closing hready hlimit hcloses]
  | false =>
      rw [if_neg Bool.false_ne_true,
        reference_continuing hready hlimit hcloses]

theorem reference_overflow (hidle : httpFindHeaderEnd pending = none)
    (hfull : pending.length = config.httpBufferSize) :
    reference config tree root (pending ++ incoming) = tooLarge := by
  rw [reference, conversation,
    exchange_overflow headFramer hidle hfull]
  simp

theorem reference_end (hidle : httpFindHeaderEnd pending = none)
    (hspace : pending.length < config.httpBufferSize) :
    reference config tree root pending = [] := by
  rw [reference, conversation, exchange_end headFramer hidle hspace]
  simp

end Window

/-- The bytes an event puts on the wire. -/
def wire : Event → List Byte
  | .write bytes => bytes
  | _ => []

/-- Everything written so far. -/
def written (trace : List Event) : List Byte :=
  trace.flatMap wire

@[simp]
theorem written_append (events more : List Event) :
    written (events ++ more) = written events ++ written more :=
  List.flatMap_append

@[simp]
theorem written_writes (writes : List (List Byte)) :
    written (writes.map .write) = writes.flatten := by
  simp [written, List.flatMap_map, wire, List.flatMap_id']

theorem written_eq_nil {events : List Event}
    (hevents : ∀ event ∈ events, wire event = []) : written events = [] :=
  List.flatMap_eq_nil_iff.mpr hevents

theorem written_of_descriptorEvents {events : List Event}
    (hevents : DescriptorEvents events) : written events = [] := by
  apply written_eq_nil
  exact hevents.forall_mem (fun _ => rfl) (fun _ => rfl) (fun _ => rfl)

theorem written_openingEvents {head : List Byte} {closing : Bool}
    {opening : List Event} {answer : Answer}
    (hopening : DescriptorEvents opening) :
    written (openingEvents head closing opening answer) = [] := by
  have hnil := written_of_descriptorEvents hopening
  rw [openingEvents, written_append, ← List.singleton_append, written_append,
    hnil]
  rfl

/-- Regular files keep the size that `fstat` reports for them. -/
def SizesKept (fileSystem : ℕ → FileSystem) : Prop :=
  ∀ clock inode st, (fileSystem clock).fstat inode = .ok st →
    st.fileType = .regular →
      ∀ later, ((fileSystem later).content inode).length = st.size

theorem sizesKept_tree (tree : Tree) :
    SizesKept fun _ => tree.fileSystem :=
  fun _ inode st hstat hregular _ =>
    tree.length_content inode st hstat hregular

/-- Where sizes are kept, answers send files that can be read. -/
theorem SizesKept.servable {fileSystem : ℕ → FileSystem}
    (h : SizesKept fileSystem) (config : ServerConfig) (clock : ℕ)
    (root : Option Inode) (closing : Bool) (head : List Byte) :
    Servable fileSystem
      (answer config (resolveAt fileSystem clock root) closing head) := by
  intro file sendBody hcontent later
  rw [answer] at hcontent
  split at hcontent
  · cases hcontent
  · next request hjudge =>
      split at hcontent
      · cases hcontent
      · next resolved hresolved =>
          cases hcontent
          obtain ⟨moment, st, hstat, hregular, hsize⟩ :=
            resolveAt_regular hresolved
          rw [← hsize, h moment _ st hstat hregular later]

/-- The world of a session in which no sending call fails. -/
structure Steady (fileSystem : ℕ → FileSystem) (root : Option Inode)
    (rootFd : Fd) (w : World) : Prop where
  fileSystem : w.fileSystem = fileSystem
  inodeOf : inodeOf w rootFd = root
  sends : ∀ outcome ∈ w.sends, outcome.Succeeds

section Steady

variable {fileSystem : ℕ → FileSystem} {root : Option Inode} {rootFd : Fd}
variable {w w' : World}

theorem Steady.answerAt (h : Steady fileSystem root rootFd w)
    (config : ServerConfig) (closing : Bool) (head : List Byte) :
    answerAt rootFd config w closing head =
      answer config (resolveAt fileSystem w.clock root) closing head := by
  rw [Exchange.answerAt, h.fileSystem, h.inodeOf]

theorem Steady.of_effect {events : List Event}
    (h : Steady fileSystem root rootFd w) (heffect : Effect w events w')
    (hdescriptors : w'.descriptors = w.descriptors) :
    Steady fileSystem root rootFd w' where
  fileSystem := heffect.fileSystem.trans h.fileSystem
  inodeOf := by
    have hinode := h.inodeOf
    rw [Resolution.inodeOf, fileOf] at hinode ⊢
    rwa [hdescriptors]
  sends outcome hmem := h.sends outcome (heffect.sends.subset hmem)

theorem Steady.of_recv {capacity : ℕ} {received : Except Errno (List Byte)}
    (h : Steady fileSystem root rootFd w)
    (hrecv : recv capacity w = (received, w')) :
    Steady fileSystem root rootFd w' ∧ written w'.trace = written w.trace := by
  have hreceipt := recv_spec capacity w
  rw [hrecv] at hreceipt
  cases hreceipt with
  | received hincoming hcapacity hempty hrecvs =>
      exact ⟨⟨h.fileSystem, h.inodeOf, h.sends⟩, by simp [log, written, wire]⟩
  | failed hrecvs =>
      exact ⟨⟨h.fileSystem, h.inodeOf, h.sends⟩, by simp [log, written, wire]⟩

/-- An answered head has put its headers and its content on the wire. -/
theorem written_answered {config : ServerConfig} {head : List Byte}
    {closing : Bool} {answer : Answer} {opening closed : List Event}
    {writes : List (List Byte)}
    (hanswered : Answered rootFd config head closing w answer opening writes
      closed w') :
    ∃ payload, Follows w.fileSystem payload answer.content ∧
      written w'.trace = written w.trace ++ (answer.headers ++ payload) := by
  obtain ⟨payload, hwrites, hpayload⟩ := hanswered.wire
  refine ⟨payload, hpayload, ?_⟩
  have hclosed := written_of_descriptorEvents hanswered.closed
  rw [hanswered.effect.trace, ← List.singleton_append, written_append,
    written_append, written_append, written_append,
    written_openingEvents hanswered.opening, written_writes, hclosed, hwrites]
  simp [written, wire]

end Steady

/-- The world of a session in an unchanging tree where no call fails. -/
structure Calm (tree : Tree) (root : Option Inode) (rootFd : Fd) (w : World) :
    Prop extends Steady (fun _ => tree.fileSystem) root rootFd w where
  recvs : ∀ errno, .fail errno ∈ w.recvs → errno = .eintr

section Calm

variable {config : ServerConfig} {tree : Tree} {root : Option Inode}
variable {rootFd : Fd} {w w' : World}

theorem Calm.answerAt (h : Calm tree root rootFd w) (head : List Byte) :
    answerAt rootFd config w false head = answerTo config tree root head := by
  rw [h.toSteady.answerAt]
  rfl

theorem Calm.of_effect {events : List Event} (h : Calm tree root rootFd w)
    (heffect : Effect w events w')
    (hdescriptors : w'.descriptors = w.descriptors) :
    Calm tree root rootFd w' where
  toSteady := h.toSteady.of_effect heffect hdescriptors
  recvs errno hmem := h.recvs errno (heffect.recvs ▸ hmem)

theorem Calm.of_recv {capacity : ℕ} {received : Except Errno (List Byte)}
    (h : Calm tree root rootFd w)
    (hrecv : recv capacity w = (received, w')) :
    Calm tree root rootFd w' ∧ written w'.trace = written w.trace ∧
      w'.mallocs = w.mallocs := by
  obtain ⟨hsteady, hwritten⟩ := h.toSteady.of_recv hrecv
  have hreceipt := recv_spec capacity w
  rw [hrecv] at hreceipt
  cases hreceipt with
  | received hincoming hcapacity hempty hrecvs =>
      exact ⟨⟨hsteady, fun errno hmem => h.recvs errno (hrecvs.subset hmem)⟩,
        hwritten, rfl⟩
  | failed hrecvs =>
      refine ⟨⟨hsteady, fun errno hmem => h.recvs errno ?_⟩, hwritten, rfl⟩
      rw [hrecvs]
      exact List.mem_cons_of_mem _ hmem

/-- An answered head has put its answer on the wire. -/
theorem Calm.written_answered {head : List Byte} {answer : Answer}
    {opening closed : List Event} {writes : List (List Byte)}
    (h : Calm tree root rootFd w)
    (hanswered : Answered rootFd config head false w answer opening writes
      closed w') :
    written w'.trace = written w.trace ++ rendered tree answer := by
  obtain ⟨payload, hpayload, hwritten⟩ := Reference.written_answered hanswered
  rw [h.fileSystem] at hpayload
  rw [hwritten, rendered]
  cases hcontent : answer.content with
  | page text =>
      rw [hcontent] at hpayload
      rw [show payload = text from hpayload]
  | file file sendBody =>
      rw [hcontent] at hpayload
      cases sendBody with
      | false => rw [show payload = [] from hpayload]
      | true => rw [hpayload.2 _ fun _ => rfl]

/-- A session writes the reference of what is pending and still to come; only
a lack of memory cuts it short. -/
theorem written_session {pending : List Byte} {result : ReturnCode × World}
    (hsession : Session rootFd config pending w result)
    (h : Calm tree root rootFd w)
    (hlimit : pending.length ≤ config.httpBufferSize) :
    ∃ output, written result.2.trace = written w.trace ++ output ∧
      output <+: reference config tree root (pending ++ w.incoming) ∧
      (false ∉ w.mallocs →
        output = reference config tree root (pending ++ w.incoming)) := by
  induction hsession with
  | interrupted hidle hspace hrecv hrest ih =>
      obtain ⟨hcalm, hwritten, hmallocs⟩ := h.of_recv hrecv
      have hincoming := (recv_error hrecv).1
      rw [← hwritten, ← hmallocs, ← hincoming]
      exact ih hcalm hlimit
  | received hidle hspace hrecv hbytes hrest ih =>
      obtain ⟨hcalm, hwritten, hmallocs⟩ := h.of_recv hrecv
      obtain ⟨hincoming, hcapacity, _⟩ := recv_ok hrecv
      rw [← hwritten, ← hmallocs, hincoming, ← List.append_assoc]
      apply ih hcalm
      rw [window] at hcapacity
      rw [List.length_append]
      omega
  | @ended pending w w' hidle hspace hrecv =>
      obtain ⟨hcalm, hwritten, hmallocs⟩ := h.of_recv hrecv
      obtain ⟨hincoming, _, hempty⟩ := recv_ok hrecv
      have hend : w.incoming = [] := by
        apply (hempty rfl).resolve_left
        rw [window, receiveBufferSize]
        omega
      refine ⟨[], by simp [hwritten], List.nil_prefix, fun _ => ?_⟩
      rw [hend, List.append_nil, reference_end hidle hspace]
  | broken hidle hspace hrecv herrno =>
      exact absurd (h.recvs _ (recv_error hrecv).2) herrno
  | overflowed hidle hfull =>
      rw [reference_overflow hidle hfull]
      obtain ⟨writes, hsent⟩ := httpSendError_spec
        HttpStatus.requestHeaderFieldsTooLarge (by decide) false _
      have hsuccess := httpSendError_success
        HttpStatus.requestHeaderFieldsTooLarge (by decide) false h.sends
      refine ⟨tooLarge, ?_, List.prefix_refl _, fun _ => rfl⟩
      rw [hsent.effect.trace, hsuccess, written_append, written_append,
        written_writes, hsent.message hsuccess]
      simp [tooLarge, written, wire]
  | aborted hready haborted =>
      cases haborted with
      | @starved opening w' heffect hopening hdescriptors hledger hmallocs =>
          refine ⟨[], ?_, List.nil_prefix, fun hnever => absurd hmallocs hnever⟩
          have hnil := written_of_descriptorEvents hopening
          rw [heffect.trace, written_append, ← List.singleton_append,
            written_append, hnil]
          rfl
      | unsent hanswer heffect hopening hdescriptors hledger hfails =>
          rw [h.answerAt, h.fileSystem] at *
          exact absurd ⟨h.sends, hanswer ▸
            (sizesKept_tree tree).servable config 0 root false _⟩ hfails
  | closed hready hanswered hcloses =>
      have hanswer := hanswered.answer_eq.trans (h.answerAt _)
      rw [hanswer] at hcloses
      refine ⟨_, h.written_answered hanswered, ?_, fun _ => ?_⟩
      · rw [reference_closing hready hlimit hcloses, hanswer]
      · rw [reference_closing hready hlimit hcloses, hanswer]
  | answered hready hanswered hcloses hrest ih =>
      have hanswer := hanswered.answer_eq.trans (h.answerAt _)
      rw [hanswer] at hcloses
      obtain ⟨output, hwritten, hbegins, hall⟩ := ih
        (h.of_effect hanswered.effect hanswered.descriptors)
        (by rw [List.length_drop]; omega)
      rw [hanswered.effect.incoming] at hbegins hall
      rw [reference_continuing hready hlimit hcloses]
      refine ⟨_, by rw [hwritten, h.written_answered hanswered,
        List.append_assoc], ?_, ?_⟩
      · rw [hanswer]
        exact (List.prefix_append_right_inj _).mpr hbegins
      · intro hnever
        rw [hanswer, hall fun hmem =>
          hnever (hanswered.effect.mallocs.subset hmem)]

end Calm

/-- A connection over an unchanging tree on which calls may be short or
interrupted, but none fails. -/
structure Undisturbed (tree : Tree) (environment : Environment) : Prop where
  fileSystem : environment.fileSystem = fun _ => tree.fileSystem
  sends : ∀ outcome ∈ environment.sends, outcome.Succeeds
  recvs : ∀ errno, .fail errno ∈ environment.recvs → errno = .eintr

/-- What the handler writes on a connection. -/
def output (rootFd : Fd) (config : ServerConfig) (environment : Environment)
    (inherited : List (Fd × Inode)) : List Byte :=
  written (forkServerHandleConnection rootFd config
    (start environment inherited)).2.trace

/-- The inode that a descriptor stands for at the start. -/
def inheritedRoot (rootFd : Fd) (inherited : List (Fd × Inode)) :
    Option Inode :=
  (inherited.find? fun entry => entry.1 = rootFd).map (·.2)

theorem inodeOf_start (rootFd : Fd) (environment : Environment)
    (inherited : List (Fd × Inode)) :
    inodeOf (start environment inherited) rootFd =
      inheritedRoot rootFd inherited := by
  simp only [inodeOf, fileOf, start, inheritedRoot, List.find?_map,
    Option.map_map, Function.comp_def]

section Handler

variable {config : ServerConfig} {tree : Tree} {environment : Environment}

theorem output_eq (hconfig : httpConfigValid config = true)
    (h : Undisturbed tree environment) (rootFd : Fd)
    (inherited : List (Fd × Inode)) :
    output rootFd config environment inherited <+:
        reference config tree (inheritedRoot rootFd inherited)
          environment.incoming ∧
      (false ∉ environment.mallocs →
        output rootFd config environment inherited =
          reference config tree (inheritedRoot rootFd inherited)
            environment.incoming) := by
  obtain ⟨mallocs, hsuffix, hsession | ⟨hfails, hresult⟩⟩ :=
    forkServerHandleConnection_session hconfig rootFd
      (start environment inherited)
  · have hcalm : Calm tree (inheritedRoot rootFd inherited) rootFd
        { start environment inherited with mallocs := mallocs } :=
      ⟨⟨h.fileSystem, inodeOf_start rootFd environment inherited, h.sends⟩,
        h.recvs⟩
    obtain ⟨output, hwritten, hbegins, hall⟩ :=
      written_session hsession hcalm (Nat.zero_le _)
    have hstart : written (start environment inherited).trace = [] := rfl
    rw [hstart, List.nil_append] at hwritten
    rw [Reference.output, hwritten]
    exact ⟨hbegins, fun hnever => hall fun hmem =>
      hnever (hsuffix.subset hmem)⟩
  · rw [Reference.output, hresult]
    exact ⟨List.nil_prefix, fun hnever => absurd hfails hnever⟩

/-- Segmentation independence: the output is the reference of the stream, so
two ways of cutting one stream give the same output.  Only where memory runs
out does the output stop short of the reference. -/
theorem segmentation_independence (hconfig : httpConfigValid config = true)
    (h : Undisturbed tree environment) (rootFd : Fd)
    (inherited : List (Fd × Inode)) :
    output rootFd config environment inherited <+:
        reference config tree (inheritedRoot rootFd inherited)
          environment.incoming ∧
      (false ∉ environment.mallocs →
        output rootFd config environment inherited =
            reference config tree (inheritedRoot rootFd inherited)
              environment.incoming ∧
          ∀ other, Undisturbed tree other → false ∉ other.mallocs →
            other.incoming = environment.incoming →
            output rootFd config other inherited =
              output rootFd config environment inherited) := by
  obtain ⟨hbegins, hall⟩ := output_eq hconfig h rootFd inherited
  refine ⟨hbegins, fun hmallocs => ⟨hall hmallocs, ?_⟩⟩
  intro other hother hothers hsame
  rw [(output_eq hconfig hother rootFd inherited).2 hothers, hall hmallocs,
    hsame]

end Handler

/-- A root directory with one document in it. -/
def smallFileSystem : FileSystem where
  openat2 _ path _ :=
    if path = ascii "." then .ok 0
    else if path = ascii "index.html" then .ok 1
    else .error .enoent
  fstat inode :=
    if inode = 0 then
      .ok { fileType := .directory, size := 0, size_lt := by decide }
    else if inode = 1 then
      .ok { fileType := .regular, size := 5, size_lt := by decide }
    else .error .ebadf
  content inode := if inode = 1 then ascii "hello" else []

def smallTree : Tree where
  fileSystem := smallFileSystem
  length_content := by
    intro inode st hstat hregular
    simp only [smallFileSystem] at hstat ⊢
    split_ifs at hstat with hroot hindex
    · cases hstat
      cases hregular
    · cases hstat
      rw [if_pos hindex]
      decide

/-- A pipelined pair of requests, cut inside the first delimiter, with an
interrupted receive and short sends. -/
def pipelined : Environment where
  incoming := ascii "GET / HTTP/1.1\r\nHost: a\r\n\r\nHEAD / HTTP/1.0\r\n\r\n"
  recvs := [.arrive 25, .fail .eintr, .arrive 1, .arrive 100]
  sends := [.accept 0, .fail .eintr, .accept 7]
  mallocs := []
  fileSystem _ := smallFileSystem

theorem undisturbed_pipelined : Undisturbed smallTree pipelined where
  fileSystem := rfl
  sends := by decide
  recvs := by simp [pipelined]

theorem segmentation_independence_pipelined :
    output 3 configInit pipelined [(3, 0)] =
      reference configInit smallTree (some 0) pipelined.incoming :=
  have hconfig : httpConfigValid configInit = true := by decide
  ((segmentation_independence hconfig undisturbed_pipelined 3 [(3, 0)]).2
    (by decide)).1

end HttpCerver.Reference
