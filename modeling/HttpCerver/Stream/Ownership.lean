import HttpCerver.Stream.Startup
import HttpCerver.Stream.Fate

/-!
# Who closes a file

A file is opened for a response and closed with it.  Between two requests none
is open, and none outlives its connection, unless a call fails while a
response that holds a file is being sent: the request loop then returns
without destroying the response.
-/

namespace HttpCerver.Ownership

open HttpCerver.Answers
open HttpCerver.Bytes
open HttpCerver.Config
open HttpCerver.Delivery
open HttpCerver.Descriptors
open HttpCerver.Exchange
open HttpCerver.Fate
open HttpCerver.ForkServer
open HttpCerver.Http
open HttpCerver.Reference
open HttpCerver.Replies
open HttpCerver.Response
open HttpCerver.Sessions
open HttpCerver.Startup
open HttpCerver.System
open HttpCerver.Traces

/-- Whether a response that holds a file is being sent. -/
def holdsFile (held : Bool) : Event → Bool
  | .sending ownsFile => ownsFile
  | .respond _ _ => false
  | _ => held

/-- No sending call fails while a response that holds a file is being sent. -/
def FilesSent (trace : List Event) : Prop :=
  Everywhere (fun before event _ => event = .sendFailed →
    before.foldl holdsFile false = false) trace

/-- A connection that leaves no file open. -/
structure Tidy (rootFd : Fd) (config : ServerConfig)
    (environment : Environment) (inherited : List (Fd × Inode)) : Prop where
  table : (forkServerHandleConnection rootFd config
    (start environment inherited)).2.descriptors =
      (start environment inherited).descriptors
  closed : AllClosed (record rootFd config environment inherited)
  clean : ∀ fd, .badClose fd ∉ record rootFd config environment inherited
  between : Everywhere (fun before event _ => continues event = true →
    AllClosed before) (record rootFd config environment inherited)

/-- What the handler takes up, it takes up with every file closed. -/
def ClosedBetween (w : World) (events : List Event) : Prop :=
  Everywhere (fun before event _ => continues event = true →
    AllClosed (w.trace ++ before)) events

/-- The files of a session: the ledger is kept, and unless a file could not be
sent none stays open. -/
structure Settled (w w' : World) (events : List Event) : Prop where
  trace : w'.trace = w.trace ++ events
  ledger : Ledger w'
  between : ClosedBetween w events
  table : FilesSent events ∧ w'.descriptors = w.descriptors ∨
    ¬ FilesSent events ∧ ∃ entry, w'.descriptors = entry :: w.descriptors

theorem foldl_holdsFile_of_descriptorEvents {events : List Event}
    (hevents : DescriptorEvents events) (held : Bool) :
    events.foldl holdsFile held = held := by
  have hkept : ∀ event ∈ events, ∀ held, holdsFile held event = held :=
    hevents.forall_mem (fun _ _ => rfl) (fun _ _ => rfl) (fun _ _ => rfl)
  induction events generalizing held with
  | nil => rfl
  | cons event events ih =>
      rw [List.forall_mem_cons] at hkept
      rw [List.foldl_cons, hkept.1]
      exact ih (fun event hmem => hevents event (List.mem_cons_of_mem _ hmem))
        held hkept.2

@[simp]
theorem foldl_holdsFile_writes (writes : List (List Byte)) (held : Bool) :
    (writes.map Event.write).foldl holdsFile held = held := by
  induction writes with
  | nil => rfl
  | cons chunk writes ih => exact ih

theorem foldl_holdsFile_openingEvents {head : List Byte} {closing : Bool}
    {opening : List Event} {answer : Answer} (held : Bool) :
    (openingEvents head closing opening answer).foldl holdsFile held =
      OwnsFile answer.content := by
  simp [openingEvents, holdsFile]

theorem filesSent_of_notMem {events : List Event}
    (hevents : .sendFailed ∉ events) : FilesSent events := by
  refine everywhere_of_forall_mem fun event hmem before after hfailed => ?_
  rw [hfailed] at hmem
  exact absurd hmem hevents

/-- Behind events that leave nothing held only the rest matters. -/
theorem filesSent_append_iff {events rest : List Event}
    (hevents : .sendFailed ∉ events)
    (hheld : events.foldl holdsFile false = false) :
    FilesSent (events ++ rest) ↔ FilesSent rest := by
  have hfirst : Everywhere (fun before event _ => event = .sendFailed →
      before.foldl holdsFile false = false) events :=
    filesSent_of_notMem hevents
  simp only [FilesSent, everywhere_append_iff, List.foldl_append, hheld]
  exact and_iff_right hfirst

/-- A failed call at the end. -/
theorem filesSent_sendFailed_iff {events : List Event}
    (hevents : .sendFailed ∉ events) :
    FilesSent (events ++ [.sendFailed]) ↔
      events.foldl holdsFile false = false := by
  have hfirst : Everywhere (fun before event _ => event = .sendFailed →
      before.foldl holdsFile false = false) events :=
    filesSent_of_notMem hevents
  simp only [FilesSent, everywhere_append_iff, everywhere_cons_iff,
    everywhere_nil, and_true, List.append_nil, forall_const]
  exact and_iff_right hfirst

theorem sendFailed_notMem_of_descriptorEvents {events : List Event}
    (hevents : DescriptorEvents events) : .sendFailed ∉ events := by
  intro hmem
  exact Bool.false_ne_true (hevents _ hmem)

theorem sendFailed_notMem_writes (writes : List (List Byte)) :
    .sendFailed ∉ writes.map Event.write := by
  simp

theorem sendFailed_notMem_openingEvents {head : List Byte} {closing : Bool}
    {opening : List Event} {answer : Answer}
    (hopening : DescriptorEvents opening) :
    .sendFailed ∉ openingEvents head closing opening answer := by
  have hnot := sendFailed_notMem_of_descriptorEvents hopening
  simp [openingEvents, hnot]

/-- No call fails while a head is being answered. -/
theorem sendFailed_notMem_answered {rootFd : Fd} {config : ServerConfig}
    {head : List Byte} {closing : Bool} {w w' : World} {answer : Answer}
    {opening closed : List Event} {writes : List (List Byte)}
    (hanswered : Answered rootFd config head closing w answer opening writes
      closed w') :
    .sendFailed ∉ openingEvents head closing opening answer ++
      writes.map .write ++ .respond answer.headers answer.closes :: closed := by
  rw [List.mem_append, List.mem_append, not_or, not_or]
  refine ⟨⟨sendFailed_notMem_openingEvents hanswered.opening,
    sendFailed_notMem_writes writes⟩, ?_⟩
  simpa using sendFailed_notMem_of_descriptorEvents hanswered.closed

theorem continues_of_descriptorEvents {events : List Event}
    (hevents : DescriptorEvents events) :
    ∀ event ∈ events, continues event = false :=
  hevents.forall_mem (fun _ => rfl) (fun _ => rfl) (fun _ => rfl)

section Settled

variable {w w' w'' : World} {events rest : List Event}

/-- Behind a first event that finds every file closed, nothing is taken up. -/
theorem closedBetween_cons {event : Event} (hclosed : AllClosed w.trace)
    (hrest : ∀ event ∈ rest, continues event = false) :
    ClosedBetween w (event :: rest) := by
  refine everywhere_cons_iff.mpr ⟨fun _ => ?_, ?_⟩
  · rw [List.append_nil]
    exact hclosed
  · refine everywhere_of_forall_mem fun event hmem before after hgoesOn => ?_
    rw [hrest event hmem] at hgoesOn
    cases hgoesOn

theorem closedBetween_append (hfirst : ClosedBetween w events)
    (htrace : w'.trace = w.trace ++ events) (hrest : ClosedBetween w' rest) :
    ClosedBetween w (events ++ rest) := by
  refine everywhere_append_iff.mpr ⟨hfirst, ?_⟩
  refine Everywhere.mono hrest fun before event after hclosed hgoesOn => ?_
  rw [← List.append_assoc, ← htrace]
  exact hclosed hgoesOn

/-- A part that leaves every file closed in front of the rest. -/
theorem Settled.prepend (htrace : w'.trace = w.trace ++ events)
    (hbetween : ClosedBetween w events)
    (htable : w'.descriptors = w.descriptors)
    (hfailed : .sendFailed ∉ events)
    (hheld : events.foldl holdsFile false = false)
    (hrest : Settled w' w'' rest) : Settled w w'' (events ++ rest) where
  trace := by rw [hrest.trace, htrace, List.append_assoc]
  ledger := hrest.ledger
  between := closedBetween_append hbetween htrace hrest.between
  table := by
    rw [filesSent_append_iff hfailed hheld, ← htable]
    exact hrest.table

/-- A last part in which no call fails. -/
theorem Settled.of_notMem (htrace : w'.trace = w.trace ++ events)
    (hledger : Ledger w') (hbetween : ClosedBetween w events)
    (htable : w'.descriptors = w.descriptors)
    (hfailed : .sendFailed ∉ events) : Settled w w' events where
  trace := htrace
  ledger := hledger
  between := hbetween
  table := .inl ⟨filesSent_of_notMem hfailed, htable⟩

end Settled

theorem recv_keeps {capacity : ℕ} {received : Except Errno (List Byte)}
    {w w' : World} (hrecv : recv capacity w = (received, w'))
    (hledger : Ledger w) :
    Ledger w' ∧ w'.descriptors = w.descriptors := by
  have hreceipt := recv_spec capacity w
  rw [hrecv] at hreceipt
  have hlogged : Ledger (log .recv w) := hledger.log rfl
  cases hreceipt with
  | received hincoming hcapacity hempty hrecvs =>
      exact ⟨⟨hlogged.balance, hlogged.once, hlogged.fresh, hlogged.nodup,
        hlogged.closes⟩, rfl⟩
  | failed hrecvs =>
      exact ⟨⟨hlogged.balance, hlogged.once, hlogged.fresh, hlogged.nodup,
        hlogged.closes⟩, rfl⟩

/-- Every file in the table was open before the connection. -/
def Inherited (w : World) : Prop :=
  ∀ entry ∈ w.descriptors, entry.2.serial = none

section Session

variable {rootFd : Fd} {config : ServerConfig} {w w' : World}

/-- A receive, and what comes behind it. -/
theorem settled_recv {capacity : ℕ} {received : Except Errno (List Byte)}
    {events : List Event} (hledger : Ledger w) (hinherited : Inherited w)
    (hrecv : recv capacity w = (received, w')) {w'' : World}
    (hrest : Settled w' w'' events) : Settled w w'' (.recv :: events) := by
  have hbetween : ClosedBetween w [.recv] :=
    closedBetween_cons (hledger.allClosed hinherited) (by simp)
  exact Settled.prepend (trace_of_recv hrecv) hbetween
    (recv_keeps hrecv hledger).2 (by simp) rfl hrest

theorem settled_refl (hledger : Ledger w) : Settled w w [] :=
  .of_notMem (by simp) hledger everywhere_nil rfl (by simp)

/-- An answered head is a part that leaves every file closed. -/
theorem settled_answered {head : List Byte} {answer : Answer}
    {opening closed rest : List Event} {writes : List (List Byte)}
    {w'' : World} (hledger : Ledger w) (hinherited : Inherited w)
    (hanswered : Answered rootFd config head false w answer opening writes
      closed w') (hrest : Settled w' w'' rest) :
    ∃ events, Settled w w'' events := by
  have hopening := hanswered.opening
  have hclosed := hanswered.closed
  refine ⟨_, Settled.prepend hanswered.effect.trace ?_ hanswered.descriptors
    ?_ ?_ hrest⟩
  · rw [openingEvents, List.cons_append, List.cons_append, List.cons_append]
    apply closedBetween_cons (hledger.allClosed hinherited)
    intro event hmem
    simp only [List.mem_append, List.mem_cons, List.mem_map,
      List.not_mem_nil, or_false] at hmem
    obtain ((hmem | rfl) | ⟨chunk, -, rfl⟩) | rfl | hmem := hmem
    · exact continues_of_descriptorEvents hopening event hmem
    · rfl
    · rfl
    · rfl
    · exact continues_of_descriptorEvents hclosed event hmem
  · exact sendFailed_notMem_answered hanswered
  · rw [List.foldl_append, List.foldl_append,
      foldl_holdsFile_openingEvents, foldl_holdsFile_writes, List.foldl_cons,
      foldl_holdsFile_of_descriptorEvents hclosed]
    rfl

/-- A head that is given up on leaves a file open just when it was being
sent. -/
theorem settled_aborted {head : List Byte} (hledger : Ledger w)
    (hinherited : Inherited w)
    (haborted : Aborted rootFd config head false w w') :
    ∃ events, Settled w w' events := by
  have hallClosed := hledger.allClosed hinherited
  cases haborted with
  | @starved opening _ heffect hopening hdescriptors hkept hmallocs =>
      refine ⟨_, .of_notMem heffect.trace (hkept hledger) ?_ hdescriptors ?_⟩
      · exact closedBetween_cons hallClosed
          (continues_of_descriptorEvents hopening)
      · simpa using sendFailed_notMem_of_descriptorEvents hopening
  | @unsent answer opening writes _ hanswer heffect hopening hleft hkept
      hfails =>
      refine ⟨_, heffect.trace, hkept hledger, ?_, ?_⟩
      · rw [openingEvents, List.cons_append, List.cons_append,
          List.cons_append]
        apply closedBetween_cons hallClosed
        intro event hmem
        simp only [List.mem_append, List.mem_cons, List.mem_map,
          List.not_mem_nil, or_false] at hmem
        obtain ((hmem | rfl) | ⟨chunk, -, rfl⟩) | rfl := hmem
        · exact continues_of_descriptorEvents hopening event hmem
        · rfl
        · rfl
        · rfl
      · have hnot : .sendFailed ∉ openingEvents head false opening answer ++
            writes.map .write := by
          rw [List.mem_append, not_or]
          exact ⟨sendFailed_notMem_openingEvents hopening,
            sendFailed_notMem_writes writes⟩
        rw [filesSent_sendFailed_iff hnot, List.foldl_append,
          foldl_holdsFile_openingEvents, foldl_holdsFile_writes]
        cases hcontent : answer.content with
        | page text =>
            rw [hcontent] at hleft
            exact .inl ⟨rfl, hleft⟩
        | file file sendBody =>
            rw [hcontent] at hleft
            exact .inr ⟨by simp [OwnsFile], hleft⟩

/-- The answer to an overlong head holds no file. -/
theorem settled_overflowed (hledger : Ledger w) :
    ∃ events, Settled w
      (httpSendError .requestHeaderFieldsTooLarge false w).2 events := by
  obtain ⟨writes, hsent⟩ := httpSendError_spec
    HttpStatus.requestHeaderFieldsTooLarge (by decide) false w
  have hquiet : ∀ event ∈ writes.map Event.write ++
      (if (httpSendError .requestHeaderFieldsTooLarge false w).1 = .success
        then [.respond (errorHeaders .requestHeaderFieldsTooLarge false)
          (!false)]
        else [.sendFailed]),
      continues event = false ∧ event.isDescriptor = false := by
    intro event hmem
    rw [List.mem_append, List.mem_map] at hmem
    obtain ⟨chunk, -, rfl⟩ | hmem := hmem
    · exact ⟨rfl, rfl⟩
    · split_ifs at hmem <;> rw [List.mem_singleton.mp hmem] <;>
        exact ⟨rfl, rfl⟩
  refine ⟨_, hsent.effect.trace, hledger.of_effect hsent.effect
    hsent.descriptors fun event hmem => (hquiet event hmem).2, ?_,
    .inl ⟨?_, hsent.descriptors⟩⟩
  · refine everywhere_of_forall_mem fun event hmem before after hgoesOn => ?_
    rw [(hquiet event hmem).1] at hgoesOn
    cases hgoesOn
  · have hnot := sendFailed_notMem_writes writes
    split_ifs
    · exact filesSent_of_notMem (by simp)
    · exact (filesSent_sendFailed_iff hnot).mpr (by simp)

theorem settled_session {pending : List Byte} {result : ReturnCode × World}
    (hsession : Session rootFd config pending w result) (hledger : Ledger w)
    (hinherited : Inherited w) : ∃ events, Settled w result.2 events := by
  induction hsession with
  | interrupted hidle hspace hrecv hrest ih =>
      obtain ⟨hkept, htable⟩ := recv_keeps hrecv hledger
      obtain ⟨events, h⟩ := ih hkept (by rwa [Inherited, htable])
      exact ⟨_, settled_recv hledger hinherited hrecv h⟩
  | received hidle hspace hrecv hbytes hrest ih =>
      obtain ⟨hkept, htable⟩ := recv_keeps hrecv hledger
      obtain ⟨events, h⟩ := ih hkept (by rwa [Inherited, htable])
      exact ⟨_, settled_recv hledger hinherited hrecv h⟩
  | ended hidle hspace hrecv =>
      obtain ⟨hkept, -⟩ := recv_keeps hrecv hledger
      exact ⟨_, settled_recv hledger hinherited hrecv (settled_refl hkept)⟩
  | broken hidle hspace hrecv herrno =>
      obtain ⟨hkept, -⟩ := recv_keeps hrecv hledger
      exact ⟨_, settled_recv hledger hinherited hrecv (settled_refl hkept)⟩
  | overflowed hidle hfull =>
      dsimp only
      exact settled_overflowed hledger
  | aborted hready haborted =>
      exact settled_aborted hledger hinherited haborted
  | closed hready hanswered hcloses =>
      exact settled_answered hledger hinherited hanswered
        (settled_refl (hanswered.ledger hledger))
  | @answered pending length w w' result _ _ _ _ hready hanswered hcloses
      hrest ih =>
      have hkept : Inherited w' := by
        rw [Inherited, hanswered.descriptors]
        exact hinherited
      obtain ⟨events, h⟩ := ih (hanswered.ledger hledger) hkept
      exact settled_answered hledger hinherited hanswered h

end Session

theorem inherited_start (environment : Environment)
    (inherited : List (Fd × Inode)) :
    Inherited (start environment inherited) := by
  intro entry hmem
  obtain ⟨_, -, rfl⟩ := List.mem_map.mp hmem
  rfl

/-- Receives alone settle the files. -/
theorem settled_receives {w w' : World} {count : ℕ} (hledger : Ledger w)
    (hstart : w.trace = []) (htrace : w'.trace = List.replicate count .recv)
    (htable : w'.descriptors = w.descriptors) :
    Settled w w' (List.replicate count .recv) := by
  have hrecv : ∀ event ∈ List.replicate count Event.recv, event = .recv :=
    fun event hmem => List.eq_of_mem_replicate hmem
  have hopened : ∀ serial, .opened serial ∉ List.replicate count Event.recv :=
    fun serial hmem => by cases hrecv _ hmem
  have hclosed : ∀ serial, .closed serial ∉ List.replicate count Event.recv :=
    fun serial hmem => by cases hrecv _ hmem
  refine .of_notMem (by rw [hstart, htrace, List.nil_append]) ?_ ?_ htable
    (fun hmem => by cases hrecv _ hmem)
  · constructor
    · intro serial
      have hbalance := hledger.balance serial
      rw [hstart] at hbalance
      rw [htrace, htable, List.count_eq_zero_of_not_mem (hopened serial),
        List.count_eq_zero_of_not_mem (hclosed serial)]
      exact hbalance
    · intro serial
      rw [htrace, List.count_eq_zero_of_not_mem (hopened serial)]
      exact Nat.zero_le _
    · intro serial hmem
      rw [htrace] at hmem
      exact absurd hmem (hopened serial)
    · rw [htable]
      exact hledger.nodup
    · intro fd hmem
      rw [htrace] at hmem
      cases hrecv _ hmem
  · intro before event after hsplit hgoesOn serial hmem
    rw [hstart, List.nil_append] at hmem
    refine absurd ?_ (hopened serial)
    rw [hsplit]
    exact List.mem_append_left _ hmem

/-- Every run of the handler settles its files. -/
theorem settled_handler (rootFd : Fd) (config : ServerConfig)
    (environment : Environment) {inherited : List (Fd × Inode)}
    (hnodup : (inherited.map (·.1)).Nodup) :
    Settled (start environment inherited)
      (forkServerHandleConnection rootFd config
        (start environment inherited)).2
      (record rootFd config environment inherited) := by
  have hledger := ledger_start environment hnodup
  have hinherited := inherited_start environment inherited
  by_cases hconfig : httpConfigValid config = true
  · obtain ⟨mallocs, -, hsession | ⟨-, hresult⟩⟩ :=
      forkServerHandleConnection_session hconfig rootFd
        (start environment inherited)
    · obtain ⟨events, h⟩ := settled_session hsession (hledger.malloc mallocs)
        hinherited
      have hrecord : record rootFd config environment inherited = events :=
        h.trace
      rw [hrecord]
      exact ⟨h.trace, h.ledger, h.between, h.table⟩
    · have hrecord : record rootFd config environment inherited = [] := by
        rw [record, hresult]
        rfl
      rw [hrecord, hresult]
      exact .of_notMem rfl (hledger.malloc mallocs) everywhere_nil rfl
        (by simp)
  · rw [Bool.not_eq_true] at hconfig
    obtain ⟨count, htrace, htable⟩ := forkServerHandleConnection_of_invalid
      hconfig rootFd environment inherited
    have hrecord : record rootFd config environment inherited =
        List.replicate count .recv := htrace
    rw [hrecord]
    exact settled_receives hledger rfl htrace htable

/-- No descriptor outlives its connection, and between two requests no file is
open, just when every file that is being sent is sent in full. -/
theorem tidy_iff (rootFd : Fd) (config : ServerConfig)
    (environment : Environment) {inherited : List (Fd × Inode)}
    (hnodup : (inherited.map (·.1)).Nodup) :
    Tidy rootFd config environment inherited ↔
      FilesSent (record rootFd config environment inherited) := by
  have h := settled_handler rootFd config environment hnodup
  constructor
  · intro htidy
    obtain ⟨hsent, -⟩ | ⟨-, entry, hleft⟩ := h.table
    · exact hsent
    · rw [htidy.table] at hleft
      exact absurd hleft (List.cons_ne_self entry _).symm
  · intro hsent
    obtain ⟨-, htable⟩ | ⟨hunsent, -⟩ := h.table
    · refine ⟨htable, h.ledger.allClosed ?_, h.ledger.closes, h.between⟩
      rw [htable]
      exact inherited_start environment inherited
    · exact absurd hsent hunsent

theorem tidy_iff_pipelined :
    Tidy 3 configInit pipelined [(3, 0)] ↔
      FilesSent (record 3 configInit pipelined [(3, 0)]) :=
  tidy_iff 3 configInit pipelined (by decide)

/-- The client asks for a file and resets the connection when it is sent. -/
def resetting : Environment where
  incoming := ascii "GET / HTTP/1.1\r\nHost: a\r\n\r\n"
  recvs := []
  sends := [.accept 0, .fail (.other 104)]
  mallocs := []
  fileSystem _ := smallFileSystem

theorem descriptor_outlives_connection :
    ¬ ∀ (rootFd : Fd) (config : ServerConfig) (environment : Environment)
      (inherited : List (Fd × Inode)), (inherited.map (·.1)).Nodup →
        Tidy rootFd config environment inherited := by
  intro hall
  have htidy := hall 3 configInit resetting [(3, 0)] (by decide)
  have htable := htidy.table
  revert htable
  decide +kernel

end HttpCerver.Ownership
