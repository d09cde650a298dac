import HttpCerver.Stream.ErrorPaths
import HttpCerver.Stream.Resumption

/-!
# What is sent when calls fail

A receive, a send or an allocation can fail at any point of a session.  None
of this makes the handler write a byte that does not belong where it stands:
the output breaks off, and up to there it is the reference.
-/

namespace HttpCerver.Truncation

open HttpCerver.Answers
open HttpCerver.Bytes
open HttpCerver.Config
open HttpCerver.Connection
open HttpCerver.Delivery
open HttpCerver.ErrorPaths
open HttpCerver.Exchange
open HttpCerver.File
open HttpCerver.ForkServer
open HttpCerver.Http
open HttpCerver.Iteration
open HttpCerver.Reference
open HttpCerver.Request
open HttpCerver.Resolution
open HttpCerver.Response
open HttpCerver.Resumption
open HttpCerver.Resuming
open HttpCerver.Sessions
open HttpCerver.System

/-- A world with the document tree at hand, whatever its calls will do. -/
structure Standing (tree : Tree) (root : Option Inode) (rootFd : Fd)
    (w : World) : Prop where
  fileSystem : w.fileSystem = fun _ => tree.fileSystem
  inodeOf : inodeOf w rootFd = root

/-- From `w` to `w'`, the beginning of `message` has been written. -/
def Begun (message : List Byte) (w w' : World) : Prop :=
  ∃ part, written w'.trace = written w.trace ++ part ∧ part <+: message

section Begun

variable {message : List Byte} {w w' w'' : World}

theorem Begun.of_written_eq (h : written w'.trace = written w.trace) :
    Begun message w w' :=
  ⟨[], by rw [h, List.append_nil], List.nil_prefix⟩

theorem Begun.extend (h : Begun message w w') (more : List Byte) :
    Begun (message ++ more) w w' := by
  obtain ⟨part, hwritten, hpart⟩ := h
  exact ⟨part, hwritten, hpart.trans (List.prefix_append _ _)⟩

/-- The first part of a message is out and the second has been begun. -/
theorem Begun.after {part : List Byte}
    (hfirst : written w'.trace = written w.trace ++ part)
    (h : Begun message w' w'') : Begun (part ++ message) w w'' := by
  obtain ⟨more, hwritten, hmore⟩ := h
  refine ⟨part ++ more, ?_, (List.prefix_append_right_inj part).mpr hmore⟩
  rw [hwritten, hfirst, List.append_assoc]

end Begun

section Standing

variable {tree : Tree} {root : Option Inode} {rootFd : Fd} {w w' : World}

theorem Standing.of_effect {events : List Event}
    (h : Standing tree root rootFd w) (heffect : Effect w events w')
    (hdescriptors : w'.descriptors = w.descriptors) :
    Standing tree root rootFd w' where
  fileSystem := heffect.fileSystem.trans h.fileSystem
  inodeOf := by
    have hinode := h.inodeOf
    rw [Resolution.inodeOf, fileOf] at hinode ⊢
    rwa [hdescriptors]

theorem Standing.answerAt (h : Standing tree root rootFd w)
    (config : ServerConfig) (head : List Byte) :
    answerAt rootFd config w false head = answerTo config tree root head := by
  rw [Exchange.answerAt, h.fileSystem, h.inodeOf]
  rfl

/-- What the file of an answer holds. -/
def contentOf (tree : Tree) : Content → List Byte
  | .page _ => []
  | .file file _ => tree.fileSystem.content file.inode

/-- A prepared response stands for the bytes of its answer. -/
theorem messageOf_prepared {response : HttpResponse} {answer : Answer}
    (hheaders : response.headers = answer.headers)
    (hcontent : Holds w response w' answer.content) :
    messageOf response (contentOf tree answer.content) =
      rendered tree answer := by
  rw [messageOf, rendered, hheaders, restOf, filePart]
  cases hanswer : answer.content with
  | page text =>
      rw [hanswer] at hcontent
      obtain ⟨hbody, hfileFd, hsendBody, -⟩ := hcontent
      simp [hbody, hfileFd, hsendBody]
  | file file sendBody =>
      rw [hanswer] at hcontent
      obtain ⟨fd, serial, hbody, hfileFd, hsize, hsendBody, -, -⟩ := hcontent
      cases sendBody with
      | false => simp [hsendBody]
      | true => simp [hbody, hfileFd, hsize, hsendBody, contentOf]

/-- Its file is open and stays as it is. -/
theorem unchanged_prepared {response : HttpResponse} {answer : Answer}
    (hcontent : Holds w response w' answer.content)
    (hsystem : w'.fileSystem = fun _ => tree.fileSystem)
    (hservable : Servable (fun _ => tree.fileSystem) answer) :
    Unchanged response (contentOf tree answer.content) w' := by
  intro fd hfd
  cases hanswer : answer.content with
  | page text =>
      rw [hanswer] at hcontent
      rw [hcontent.2.1] at hfd
      cases hfd
  | file file sendBody =>
      rw [hanswer] at hcontent
      obtain ⟨opened, serial, -, hfileFd, hsize, -, -, htable⟩ := hcontent
      have hsame : opened = fd := by
        rw [hfileFd] at hfd
        exact Option.some.inj hfd
      refine ⟨?_, { inode := file.inode, serial := some serial }, ?_, ?_⟩
      · rw [hsize]
        exact hservable file sendBody hanswer 0
      · rw [fileOf, htable, hsame]
        simp
      · intro clock
        rw [hsystem]
        rfl

end Standing

section Request

variable {config : ServerConfig} {tree : Tree} {root : Option Inode}
variable {rootFd : Fd} {connection : HttpConnection} {w : World} {length : ℕ}

/-- A response of which nothing has been sent is begun, whether or not sending
it succeeds. -/
theorem httpResponseSendBlocking_begun {response : HttpResponse}
    {content : List Byte} (hunsent : Unsent response)
    (hheaders : response.headers ≠ [])
    (hunchanged : Unchanged response content w) :
    Begun (messageOf response content) w
      (httpResponseSendBlocking response w).2.2 := by
  have hstart : sentCount response = 0 := by
    rw [sentCount, hunsent.headersSent, hunsent.bodySent, hunsent.fileOffset]
  obtain ⟨writes, code, response', w', hcall, hmoved, -, -⟩ :=
    httpResponseSendBlocking_moved
      (resumable_of_unsent hunsent hheaders content) hunsent.complete
      hunchanged
  have hadvance := hmoved.advance
  rw [hstart] at hadvance
  refine ⟨writes.flatten, ?_, ?_⟩
  · rw [hcall, hmoved.effect.trace, written_append, written_codeEvents]
  · rw [hadvance.eq_take]
    exact List.take_prefix _ _

/-- Whatever becomes of a head, its answer has been begun. -/
theorem sentAt_begun (hconfig : httpConfigValid config = true)
    (hw : Standing tree root rootFd w)
    (hopen : connection.closeConnection = false)
    (hcode : (preparedAt rootFd config connection w length).code = .success) :
    Begun (rendered tree (answerTo config tree root
        (connection.pending.take length))) w
      (sentAt rootFd config connection w length).2.2 := by
  have hprepared := preparedAt_spec hconfig rootFd connection w length
  rw [hopen, hw.answerAt] at hprepared
  unfold sentAt
  generalize preparedAt rootFd config connection w length = prepared
    at hprepared hcode
  have hservable := (sizesKept_tree tree).servable config 0 root false
    (connection.pending.take length)
  change Servable (fun _ => tree.fileSystem)
    (answerTo config tree root (connection.pending.take length)) at hservable
  generalize answerTo config tree root (connection.pending.take length) =
    answer at hprepared hservable
  generalize connection.pending.take length = head at *
  cases hprepared with
  | starved hfailed _ _ _ _ _ =>
      rw [hcode] at hfailed
      cases hfailed
  | @ready opening _ heffect hevents hledger hunsent hheaders hclose
      hcontent =>
      have hopening := ((effect_log (.parse head false) w).trans heffect).trans
        (effect_log (.sending prepared.response.fileFd.isSome) prepared.world)
      have hquiet : written (log (.sending prepared.response.fileFd.isSome)
          prepared.world).trace = written w.trace := by
        have hnil := written_of_descriptorEvents hevents
        rw [hopening.trace, written_append, written_append, written_append,
          hnil]
        exact List.append_nil _
      have hsystem := hopening.fileSystem.trans hw.fileSystem
      have hunchanged := unchanged_prepared hcontent hsystem hservable
      have hbegun := httpResponseSendBlocking_begun hunsent
        (by rw [hheaders]; exact headerBlock_ne_nil _ _ _ _)
        (w := log (.sending prepared.response.fileFd.isSome) prepared.world)
        hunchanged
      rw [messageOf_prepared hheaders hcontent] at hbegun
      obtain ⟨part, hwritten, hpart⟩ := hbegun
      exact ⟨part, by rw [hwritten, hquiet], hpart⟩

/-- A head that is answered has had its whole answer written. -/
theorem Standing.written_answered {w' : World} {head : List Byte}
    {answer : Answer} {opening closed : List Event}
    {writes : List (List Byte)} (hw : Standing tree root rootFd w)
    (hanswered : Answered rootFd config head false w answer opening writes
      closed w') :
    answer = answerTo config tree root head ∧
      written w'.trace = written w.trace ++ rendered tree answer := by
  obtain ⟨payload, hpayload, hwritten⟩ := Reference.written_answered hanswered
  rw [hw.fileSystem] at hpayload
  refine ⟨hanswered.answer_eq.trans (hw.answerAt config head), ?_⟩
  rw [hwritten, rendered]
  cases hcontent : answer.content with
  | page text =>
      rw [hcontent] at hpayload
      rw [show payload = text from hpayload]
  | file file sendBody =>
      rw [hcontent] at hpayload
      cases sendBody with
      | false => rw [show payload = [] from hpayload]
      | true => rw [hpayload.2 _ fun _ => rfl]

end Request

section Loop

variable (config : ServerConfig) (tree : Tree) (root : Option Inode)
variable (rootFd : Fd)

/-- What the request loop has written of the reference of the bytes that are
pending and still to come. -/
inductive Progressed (connection : HttpConnection) (w : World) :
    ReturnCode × HttpConnection × World → Prop
  | stopped {code : ReturnCode} {connection' : HttpConnection} {w' : World}
      (hend : code = .failure ∨ connection'.closeConnection = true)
      (hbegun : Begun (reference config tree root
        (connection.pending ++ w.incoming)) w w') :
      Progressed connection w (code, connection', w')
  | waiting {part : List Byte} {connection' : HttpConnection} {w' : World}
      (hopen : connection'.closeConnection = false)
      (hcapacity : connection'.bufferCapacity = connection.bufferCapacity)
      (hidle : httpFindHeaderEnd connection'.pending = none)
      (hstanding : Standing tree root rootFd w')
      (hwritten : written w'.trace = written w.trace ++ part)
      (hincoming : w'.incoming = w.incoming)
      (hreference : reference config tree root
          (connection.pending ++ w.incoming) =
        part ++ reference config tree root
          (connection'.pending ++ w.incoming)) :
      Progressed connection w (.success, connection', w')

variable {config tree root rootFd} {connection : HttpConnection} {w : World}

/-- An answered head in front of what the loop has written later. -/
theorem Progressed.answered {connection' : HttpConnection} {w' : World}
    {part : List Byte} {result : ReturnCode × HttpConnection × World}
    (hwritten : written w'.trace = written w.trace ++ part)
    (hincoming : w'.incoming = w.incoming)
    (hcapacity : connection'.bufferCapacity = connection.bufferCapacity)
    (hreference : reference config tree root
        (connection.pending ++ w.incoming) =
      part ++ reference config tree root (connection'.pending ++ w.incoming))
    (hrest : Progressed config tree root rootFd connection' w' result) :
    Progressed config tree root rootFd connection w result := by
  cases hrest with
  | stopped hend hbegun =>
      refine .stopped hend ?_
      rw [hreference]
      rw [hincoming] at hbegun
      exact hbegun.after hwritten
  | @waiting more _ _ hopen hsame hidle hstanding hlater hsecond hrest =>
      have hboth := hlater
      rw [hwritten, List.append_assoc] at hboth
      refine .waiting hopen (hsame.trans hcapacity) hidle hstanding hboth
        (hsecond.trans hincoming) ?_
      rw [hincoming] at hrest
      rw [hreference, hrest, List.append_assoc]

theorem httpProcessLoop_progressed (hconfig : httpConfigValid config = true)
    (state : HttpConnection × World) :
    state.1.closeConnection = false →
      state.1.bufferCapacity ≤ config.httpBufferSize →
      Standing tree root rootFd state.2 →
        Progressed config tree root rootFd state.1 state.2
          ((httpProcessLoop rootFd config).run state) := by
  refine (httpProcessLoop rootFd config).run_induction
    (motive := fun state result => state.1.closeConnection = false →
      state.1.bufferCapacity ≤ config.httpBufferSize →
      Standing tree root rootFd state.2 →
        Progressed config tree root rootFd state.1 state.2 result) ?_ ?_ state
  · rintro ⟨connection, w⟩ result hbody hopen hlimit hw
    dsimp only at hopen hlimit hw
    have hpending := length_pending connection
    have hused := connection.bufferUsed_le
    have hround := httpProcessRequest_spec rootFd config connection w
    rw [show httpProcessRequest rootFd config (connection, w) = .inr result from
      hbody] at hround
    cases hround with
    | idle hidle =>
        exact .waiting hopen rfl hidle hw (List.append_nil _).symm rfl rfl
    | @unprepared length _ hready hcode =>
        refine .stopped (.inl rfl) ?_
        have hprepared := preparedAt_spec hconfig rootFd connection w length
        generalize preparedAt rootFd config connection w length = prepared
          at hprepared hcode
        cases hprepared with
        | ready hsuccess =>
            rw [hcode] at hsuccess
            cases hsuccess
        | starved _ heffect hevents hdescriptors hledger hmallocs =>
            apply Begun.of_written_eq
            have hnil := written_of_descriptorEvents hevents
            rw [heffect.trace, written_append, hnil, List.append_nil]
            exact ((effect_log _ w).trace ▸ written_append _ _).trans
              (List.append_nil _)
    | unsent hready hcode hsent =>
        refine .stopped (.inl rfl) ?_
        rw [reference_ready hready (by omega)]
        exact (sentAt_begun hconfig hw hopen hcode).extend _
    | closing hready hcode hsent hclose =>
        refine .stopped (.inr (by simpa [consumedAt] using hclose)) ?_
        obtain ⟨answer, opening, writes, closed, hanswered, hcloses⟩ :=
          (sentAt_spec hconfig _ _ _ _ hcode).2 hsent
        rw [hopen] at hanswered
        obtain ⟨hanswer, hwritten⟩ := hw.written_answered hanswered
        rw [reference_ready hready (by omega), ← hanswer]
        exact Begun.extend ⟨_, hwritten, List.prefix_refl _⟩ _
  · rintro ⟨connection, w⟩ next result hbody hnext hopen hlimit hw
    dsimp only at hopen hlimit hw
    have hpending := length_pending connection
    have hused := connection.bufferUsed_le
    have hround := httpProcessRequest_spec rootFd config connection w
    rw [show httpProcessRequest rootFd config (connection, w) = .inl next from
      hbody] at hround
    cases hround with
    | @continuing length hready hcode hsent hclose =>
        obtain ⟨answer, opening, writes, closed, hanswered, hcloses⟩ :=
          (sentAt_spec hconfig _ _ _ _ hcode).2 hsent
        rw [hopen] at hanswered
        obtain ⟨hanswer, hwritten⟩ := hw.written_answered hanswered
        have hsame : (consumedAt rootFd config connection w length).bufferCapacity =
            connection.bufferCapacity := by
          simp [consumedAt]
        have hlater := hnext (by simpa [consumedAt] using hclose)
          (hsame.le.trans hlimit)
          (hw.of_effect hanswered.effect hanswered.descriptors)
        refine hlater.answered hwritten hanswered.effect.incoming hsame ?_
        rw [reference_ready hready (by omega), ← hanswer,
          if_neg (by simp [← hcloses, hclose]), consumedAt_pending hready]

end Loop

theorem sendPrepared_world (response : HttpResponse) (w : World) :
    (sendPrepared response w).2 = (httpResponseSendBlocking response w).2.2 :=
  rfl

/-- An error that is sent at once has been begun. -/
theorem httpSendError_begun {status : HttpStatus} (hstatus : status ≠ .ok)
    (w : World) :
    Begun (errorHeaders status false ++ errorText status) w
      (httpSendError status false w).2 := by
  have hunsent : Unsent (errorResponse status) := ⟨rfl, rfl, rfl, rfl⟩
  have hresumable := resumable_of_unsent hunsent
    (headerBlock_ne_nil _ _ _ _) []
  have hunchanged : Unchanged (errorResponse status) [] w := by
    intro fd hfd
    cases hfd
  have hmessage : messageOf (errorResponse status) [] =
      errorHeaders status false ++ errorText status :=
    congrArg (_ ++ ·) (List.append_nil _)
  have hpart := (callSpec hresumable hunchanged).advance.eq_take
  rw [hmessage] at hpart
  -- both ways of sending the error write the same bytes
  have halong : Alongside w w w w := alongside_mallocs w w.mallocs
  have hbytes := (sameSending_errors hstatus halong).bytes
  obtain ⟨writes, hsent⟩ := httpSendError_spec _ hstatus false w
  rw [hsent.effect.trace, List.drop_left] at hbytes
  refine ⟨callBytes (errorResponse status) w, ?_, ?_⟩
  · rw [hsent.effect.trace, written_append, hbytes, sendPrepared_world,
      callBytes]
  · rw [hpart]
    exact List.take_prefix _ _

section Handler

variable {config : ServerConfig} {tree : Tree} {root : Option Inode}
variable {rootFd : Fd}

theorem Standing.of_recv {w w' : World} {capacity : ℕ}
    {received : Except Errno (List Byte)} (hw : Standing tree root rootFd w)
    (hrecv : recv capacity w = (received, w')) :
    Standing tree root rootFd w' ∧ written w'.trace = written w.trace := by
  have hreceipt := recv_spec capacity w
  rw [hrecv] at hreceipt
  cases hreceipt with
  | received hincoming hcapacity hempty hrecvs =>
      exact ⟨⟨hw.fileSystem, hw.inodeOf⟩, by simp [log, written, wire]⟩
  | failed hrecvs =>
      exact ⟨⟨hw.fileSystem, hw.inodeOf⟩, by simp [log, written, wire]⟩

/-- The state of the handler between two receives. -/
structure Waiting (config : ServerConfig) (tree : Tree) (root : Option Inode)
    (rootFd : Fd) (state : HttpConnection × World) : Prop where
  isOpen : state.1.closeConnection = false
  capacity : state.1.bufferCapacity = config.httpBufferSize
  idle : httpFindHeaderEnd state.1.pending = none
  standing : Standing tree root rootFd state.2

/-- What is left to say in a state of the handler. -/
def ahead (config : ServerConfig) (tree : Tree) (root : Option Inode)
    (state : HttpConnection × World) : List Byte :=
  reference config tree root (state.1.pending ++ state.2.incoming)

theorem Begun.result {said : List Byte} {w w' : World} (h : Begun said w w')
    (code : ReturnCode) : Begun said w (code, w').2 := h

/-- A round of the handler ends it, or closes the connection, or puts the first
part of what is left to say on the wire. -/
theorem forkServerReceive_begun (hconfig : httpConfigValid config = true)
    {state : HttpConnection × World}
    (h : Waiting config tree root rootFd state) :
    match forkServerReceive rootFd config state with
    | .inr result => Begun (ahead config tree root state) state.2 result.2
    | .inl next =>
      (next.1.closeConnection = true ∧
        Begun (ahead config tree root state) state.2 next.2) ∨
      (Waiting config tree root rootFd next ∧ ∃ part,
        written next.2.trace = written state.2.trace ++ part ∧
          ahead config tree root state =
            part ++ ahead config tree root next) := by
  obtain ⟨connection, w⟩ := state
  obtain ⟨hopen, hcapacity, hidle, hw⟩ := h
  dsimp only at hopen hcapacity hidle hw
  have hwindow := receiveCapacity_eq hcapacity
  have hlength := length_pending connection
  have hused := connection.bufferUsed_le
  unfold forkServerReceive
  simp only [hopen, hwindow, ahead]
  by_cases hfull : window config connection.pending = 0
  · have hsize : connection.pending.length = config.httpBufferSize := by
      rw [window, receiveBufferSize] at hfull
      omega
    have hoverflow : reference config tree root
        (connection.pending ++ w.incoming) = tooLarge :=
      reference_overflow hidle hsize
    rw [if_neg Bool.false_ne_true, if_pos hfull, hoverflow]
    have hsent := @httpSendError_begun .requestHeaderFieldsTooLarge (by decide) w
    exact hsent.result .failure
  · simp only [hfull, if_false]
    have hreceipt := recv_spec (window config connection.pending) w
    generalize hrecv : recv (window config connection.pending) w = received
      at hreceipt
    cases hreceipt with
    | @failed errno recvs hrecvs =>
        obtain ⟨hstanding, hquiet⟩ := hw.of_recv hrecv
        dsimp only
        by_cases herrno : errno = .eintr
        · rw [if_pos herrno]
          exact .inr ⟨⟨hopen, hcapacity, hidle, hstanding⟩, [], by
            rw [hquiet, List.append_nil], rfl⟩
        · rw [if_neg herrno]
          exact Begun.of_written_eq hquiet
    | @received bytes rest recvs hincoming hbound hempty hrecvs =>
        obtain ⟨hstanding, hquiet⟩ := hw.of_recv hrecv
        dsimp only
        by_cases hbytes : bytes = []
        · rw [if_pos hbytes]
          exact Begun.of_written_eq hquiet
        · rw [if_neg hbytes]
          have hfits : bytes.length ≤
              connection.bufferCapacity - connection.pending.length := by
            rw [hcapacity]
            exact hbound.trans (Nat.min_le_left _ _)
          obtain ⟨fed, hfed, hpending, hfedCapacity, hfedClose⟩ :=
            httpConnectionFeed_eq_some hfits
          have hprogressed := httpProcessLoop_progressed hconfig
            (fed, { log .recv w with incoming := rest, recvs := recvs })
            (hfedClose.trans hopen) (hfedCapacity.trans hcapacity).le hstanding
          simp only [hfed, httpProcessConnection, hconfig, not_true, if_false]
          generalize (httpProcessLoop rootFd config).run (fed,
            { log .recv w with incoming := rest, recvs := recvs }) = processed
            at hprogressed
          rw [hincoming, ← List.append_assoc, ← hpending]
          cases hprogressed with
          | @stopped code connection' w' hend hbegun =>
              obtain ⟨part, hwritten, hpart⟩ := hbegun
              rw [hquiet] at hwritten
              cases code with
              | failure => exact ⟨part, hwritten, hpart⟩
              | success =>
                  refine .inl ⟨hend.resolve_left (by decide), part, hwritten,
                    hpart⟩
          | waiting hclose hsame hnone hlater hwritten hinput hreference =>
              rw [hquiet] at hwritten
              refine .inr ⟨⟨hclose, (hsame.trans hfedCapacity).trans hcapacity,
                hnone, hlater⟩, _, hwritten, ?_⟩
              rw [hinput]
              exact hreference

/-- The loop of the handler, entered with no complete head pending. -/
theorem forkServerLoop_begun (hconfig : httpConfigValid config = true)
    (state : HttpConnection × World) :
    (state.1.closeConnection = true →
      ((forkServerLoop rootFd config).run state).2 = state.2) ∧
    (Waiting config tree root rootFd state →
      Begun (ahead config tree root state) state.2
        ((forkServerLoop rootFd config).run state).2) := by
  refine (forkServerLoop rootFd config).run_induction
    (motive := fun state result =>
      (state.1.closeConnection = true → result.2 = state.2) ∧
      (Waiting config tree root rootFd state →
        Begun (ahead config tree root state) state.2 result.2)) ?_ ?_ state
  · rintro ⟨connection, w⟩ result hbody
    change forkServerReceive rootFd config (connection, w) = .inr result
      at hbody
    constructor
    · intro hclose
      rw [forkServerReceive_of_closed hclose] at hbody
      rw [← Sum.inr.inj hbody]
    · intro hwaiting
      have hround := forkServerReceive_begun hconfig hwaiting
      rw [hbody] at hround
      exact hround
  · rintro ⟨connection, w⟩ next result hbody ⟨hclosed, hgoes⟩
    change forkServerReceive rootFd config (connection, w) = .inl next
      at hbody
    constructor
    · intro hclose
      rw [forkServerReceive_of_closed hclose] at hbody
      cases hbody
    · intro hwaiting
      have hround := forkServerReceive_begun hconfig hwaiting
      rw [hbody] at hround
      obtain ⟨hclose, hbegun⟩ | ⟨hlater, part, hwritten, hahead⟩ := hround
      · rw [hclosed hclose]
        exact hbegun
      · rw [hahead]
        exact (hgoes hlater).after hwritten

/-- Whatever fails, the handler writes the beginning of the reference of the
whole stream and nothing else. -/
theorem output_begins (hconfig : httpConfigValid config = true)
    {environment : Environment}
    (hsystem : environment.fileSystem = fun _ => tree.fileSystem)
    (rootFd : Fd) (inherited : List (Fd × Inode)) :
    output rootFd config environment inherited <+:
      reference config tree (inheritedRoot rootFd inherited)
        environment.incoming := by
  have hsize : config.httpBufferSize ≠ 0 := by
    intro hzero
    simp [httpConfigValid, hzero] at hconfig
  rw [output, forkServerHandleConnection]
  obtain ⟨mallocs, -, ⟨connection, hinit, hpending, hcapacity, hopen⟩ |
    ⟨-, hinit⟩⟩ := httpConnectionInit_spec hsize (start environment inherited)
  · have hstanding : Standing tree (inheritedRoot rootFd inherited) rootFd
        { start environment inherited with mallocs := mallocs } :=
      ⟨hsystem, inodeOf_start rootFd environment inherited⟩
    have hwaiting : Waiting config tree (inheritedRoot rootFd inherited) rootFd
        (connection, { start environment inherited with mallocs := mallocs }) :=
      ⟨hopen, hcapacity, by rw [hpending]; decide, hstanding⟩
    obtain ⟨part, hwritten, hpart⟩ :=
      (forkServerLoop_begun hconfig _).2 hwaiting
    rw [ahead, hpending, List.nil_append] at hpart
    rw [hinit]
    dsimp only
    rw [hwritten]
    exact hpart
  · rw [hinit]
    exact List.nil_prefix

end Handler

end HttpCerver.Truncation
