import HttpCerver.Core.Traces
import HttpCerver.Stream.Replies

/-!
# Keep-alive and close

Each response announces what becomes of the connection.  Behind one that says
`close` nothing is written, parsed or received any more; behind one that says
`keep-alive` the handler goes on to the next head or to the next receive.
-/

namespace HttpCerver.Fate

open HttpCerver.Answers
open HttpCerver.Bytes
open HttpCerver.Client
open HttpCerver.Config
open HttpCerver.Delivery
open HttpCerver.Exchange
open HttpCerver.ForkServer
open HttpCerver.Http
open HttpCerver.Reference
open HttpCerver.Replies
open HttpCerver.Request
open HttpCerver.Response
open HttpCerver.Sessions
open HttpCerver.System
open HttpCerver.Traces

/-- The handler takes up a head or receives. -/
def continues : Event → Bool
  | .parse _ _ => true
  | .recv => true
  | _ => false

/-- The handler does so or writes. -/
def acts : Event → Bool
  | .write _ => true
  | event => continues event

/-- What a response announces is what becomes of the connection. -/
structure Fated (before : List Event) (headers : List Byte) (closes : Bool)
    (after : List Event) : Prop where
  sent : ∃ (earlier : List Event) (writes : List (List Byte)),
    before = earlier ++ writes.map .write ∧ headers <+: writes.flatten
  announced : ∃ declared, decode headers = some declared ∧
    declared.keepAlive = !closes ∧
    (declared.status ≠ .ok → declared.keepAlive = false)
  closed : closes = true → ∀ event ∈ after, acts event = false
  keptAlive : closes = false → ∃ released next rest,
    after = released ++ next :: rest ∧ DescriptorEvents released ∧
      continues next = true

/-- Every response of a trace is true to its word. -/
def TrueToWord (trace : List Event) : Prop :=
  Everywhere (fun before event after => ∀ headers closes,
    event = .respond headers closes → Fated before headers closes after) trace

/-- What `close_connection` is where heads are taken up and where responses
are complete. -/
def flags (trace : List Event) : List Bool :=
  trace.filterMap fun
    | .parse _ closing => some closing
    | .respond _ closes => some closes
    | _ => none

@[simp]
theorem flags_append (events more : List Event) :
    flags (events ++ more) = flags events ++ flags more :=
  List.filterMap_append

theorem Fated.after {before : List Event} {headers : List Byte}
    {closes : Bool} {after : List Event}
    (h : Fated before headers closes after) (past : List Event) :
    Fated (past ++ before) headers closes after where
  sent := by
    obtain ⟨earlier, writes, rfl, hheaders⟩ := h.sent
    exact ⟨past ++ earlier, writes, (List.append_assoc ..).symm, hheaders⟩
  announced := h.announced
  closed := h.closed
  keptAlive := h.keptAlive

/-- Only the marks of responses matter. -/
theorem trueToWord_append {trace more : List Event}
    (htrace : ∀ event ∈ trace, ∀ headers closes,
      event ≠ .respond headers closes) (hmore : TrueToWord more) :
    TrueToWord (trace ++ more) := by
  refine everywhere_append_iff.mpr ⟨?_, ?_⟩
  · exact everywhere_of_forall_mem fun event hevent _ _ headers closes hsame =>
      absurd hsame (htrace event hevent headers closes)
  · exact Everywhere.mono hmore fun before event after h headers closes hsame =>
      (h headers closes hsame).after trace

theorem trueToWord_of_forall {trace : List Event}
    (htrace : ∀ event ∈ trace, ∀ headers closes,
      event ≠ .respond headers closes) : TrueToWord trace := by
  simpa using trueToWord_append htrace everywhere_nil

theorem ne_respond_of_descriptorEvents {events : List Event}
    (hevents : DescriptorEvents events) :
    ∀ event ∈ events, ∀ headers closes, event ≠ .respond headers closes := by
  rintro event hevent headers closes rfl
  exact Bool.false_ne_true (hevents _ hevent)

theorem ne_respond_writes (writes : List (List Byte)) :
    ∀ event ∈ writes.map Event.write, ∀ headers closes,
      event ≠ .respond headers closes := by
  rintro event hevent headers closes rfl
  simp at hevent

theorem ne_respond_openingEvents {head : List Byte} {closing : Bool}
    {opening : List Event} {answer : Answer}
    (hopening : DescriptorEvents opening) :
    ∀ event ∈ openingEvents head closing opening answer, ∀ headers closes,
      event ≠ .respond headers closes := by
  rintro event hevent headers closes rfl
  simp only [openingEvents, List.mem_append, List.mem_cons, reduceCtorEq,
    List.not_mem_nil, or_false, false_or] at hevent
  exact ne_respond_of_descriptorEvents hopening _ hevent headers closes rfl

theorem not_acts_of_descriptorEvents {events : List Event}
    (hevents : DescriptorEvents events) :
    ∀ event ∈ events, acts event = false :=
  hevents.forall_mem (fun _ => rfl) (fun _ => rfl) (fun _ => rfl)

/-- A response and what becomes of the connection behind it. -/
theorem trueToWord_respond {earlier released rest : List Event}
    {writes : List (List Byte)} {headers : List Byte} {closes : Bool}
    (hearlier : ∀ event ∈ earlier, ∀ headers closes,
      event ≠ .respond headers closes)
    (hheaders : headers <+: writes.flatten)
    (hannounced : ∃ declared, decode headers = some declared ∧
      declared.keepAlive = !closes ∧
      (declared.status ≠ .ok → declared.keepAlive = false))
    (hreleased : DescriptorEvents released)
    (hcloses : closes = true → rest = [])
    (hgoesOn : closes = false → ∃ next later, rest = next :: later ∧
      continues next = true)
    (hrest : TrueToWord rest) :
    TrueToWord (earlier ++ writes.map .write ++
      .respond headers closes :: (released ++ rest)) := by
  have hpast : ∀ event ∈ earlier ++ writes.map .write, ∀ headers closes,
      event ≠ .respond headers closes := by
    intro event hevent
    rcases List.mem_append.mp hevent with hearly | hwrite
    · exact hearlier event hearly
    · exact ne_respond_writes writes event hwrite
  refine everywhere_append_iff.mpr ⟨?_, everywhere_cons_iff.mpr ⟨?_, ?_⟩⟩
  · exact everywhere_of_forall_mem fun event hevent _ _ headers closes hsame =>
      absurd hsame (hpast event hevent headers closes)
  · intro headers' closes' hsame
    obtain ⟨rfl, rfl⟩ := Event.respond.inj hsame
    refine ⟨⟨earlier, writes, by simp, hheaders⟩, hannounced, ?_, ?_⟩
    · intro hclose event hevent
      rw [hcloses hclose, List.append_nil] at hevent
      exact not_acts_of_descriptorEvents hreleased event hevent
    · intro hopen
      obtain ⟨next, later, rfl, hnext⟩ := hgoesOn hopen
      exact ⟨released, next, later, rfl, hreleased, hnext⟩
  · have hlater := trueToWord_append
      (ne_respond_of_descriptorEvents hreleased) hrest
    refine Everywhere.mono hlater fun before event after h => ?_
    intro headers' closes' hsame
    have hafter := (h headers' closes' hsame).after
      ((earlier ++ writes.map .write) ++ [.respond headers closes])
    simpa using hafter

theorem flags_of_descriptorEvents {events : List Event}
    (hevents : DescriptorEvents events) : flags events = [] := by
  rw [flags, List.filterMap_eq_nil_iff]
  exact hevents.forall_mem (fun _ => rfl) (fun _ => rfl) (fun _ => rfl)

theorem flags_openingEvents {head : List Byte} {closing : Bool}
    {opening : List Event} {answer : Answer}
    (hopening : DescriptorEvents opening) :
    flags (openingEvents head closing opening answer) = [closing] := by
  have hnil := flags_of_descriptorEvents hopening
  rw [openingEvents, flags_append, ← List.singleton_append, flags_append,
    hnil]
  rfl

@[simp]
theorem flags_writes (writes : List (List Byte)) :
    flags (writes.map .write) = [] := by
  simp [flags]

/-- What holds of the events of a session on `pending`. -/
structure Faithful (config : ServerConfig) (pending : List Byte)
    (events : List Event) : Prop where
  word : TrueToWord events
  flags : (flags events).Pairwise (· ≤ ·)
  starts : pending.length < config.httpBufferSize →
    ∃ next rest, events = next :: rest ∧ continues next = true

/-- A receive in front. -/
theorem Faithful.of_recv {config : ServerConfig} {pending pending' : List Byte}
    {events : List Event} (h : Faithful config pending' events) :
    Faithful config pending (.recv :: events) where
  word := by
    have hrecv : ∀ event ∈ [Event.recv], ∀ headers closes,
        event ≠ .respond headers closes := by simp
    exact trueToWord_append hrecv h.word
  flags := h.flags
  starts _ := ⟨.recv, events, rfl, rfl⟩

theorem faithful_recv (config : ServerConfig) (pending : List Byte) :
    Faithful config pending [.recv] where
  word := trueToWord_of_forall (by simp)
  flags := List.Pairwise.nil
  starts _ := ⟨.recv, [], rfl, rfl⟩

theorem trace_of_recv {capacity : ℕ} {received : Except Errno (List Byte)}
    {w w' : World} (hrecv : recv capacity w = (received, w')) :
    w'.trace = w.trace ++ [.recv] := by
  have hreceipt := recv_spec capacity w
  rw [hrecv] at hreceipt
  cases hreceipt with
  | received => rfl
  | failed => rfl

/-- The header block of an answer announces whether it closes. -/
theorem announced_of_consistent {head : List Byte} {answer : Answer}
    (h : Consistent head answer) :
    ∃ declared, decode answer.headers = some declared ∧
      declared.keepAlive = !answer.closes ∧
      (declared.status ≠ .ok → declared.keepAlive = false) := by
  refine ⟨_, decode_headerBlock h.cr_notMem _ _ _, rfl, ?_⟩
  intro hstatus
  have hcontent := h.content
  cases hanswer : answer.content with
  | page text =>
      rw [hanswer] at hcontent
      simp [hcontent.2.1]
  | file file sendBody =>
      rw [hanswer] at hcontent
      exact absurd hcontent.1 hstatus

section Session

variable {rootFd : Fd} {config : ServerConfig} {w w' : World}

/-- An answered head and what comes behind it. -/
theorem faithful_answered {pending head : List Byte} {answer : Answer}
    {opening closed rest : List Event} {writes : List (List Byte)}
    (hanswered : Answered rootFd config head false w answer opening writes
      closed w')
    (hcloses : answer.closes = true → rest = [])
    (hgoesOn : answer.closes = false → ∃ next later, rest = next :: later ∧
      continues next = true)
    (hword : TrueToWord rest) (hflags : (flags rest).Pairwise (· ≤ ·)) :
    Faithful config pending (openingEvents head false opening answer ++
      writes.map .write ++
        .respond answer.headers answer.closes :: (closed ++ rest)) where
  word := by
    have hconsistent : Consistent head answer := by
      rw [hanswered.answer_eq]
      exact consistent_answer config _ false head
    obtain ⟨payload, hwrites, -⟩ := hanswered.wire
    exact trueToWord_respond (ne_respond_openingEvents hanswered.opening)
      ⟨payload, hwrites.symm⟩ (announced_of_consistent hconsistent)
      hanswered.closed hcloses hgoesOn hword
  flags := by
    have hclosed := flags_of_descriptorEvents hanswered.closed
    have hmarks : flags (openingEvents head false opening answer ++
        writes.map .write ++
          .respond answer.headers answer.closes :: (closed ++ rest)) =
        false :: answer.closes :: flags rest := by
      rw [← List.singleton_append, flags_append, flags_append, flags_append,
        flags_append, flags_openingEvents hanswered.opening, flags_writes,
        hclosed]
      rfl
    rw [hmarks]
    cases hanswer : answer.closes with
    | true =>
        rw [hcloses hanswer]
        decide
    | false => simpa using hflags
  starts _ := ⟨.parse head false, _, rfl, rfl⟩

/-- An overlong head is answered with a response that closes. -/
theorem faithful_overlong {pending : List Byte}
    (hfull : pending.length = config.httpBufferSize) :
    ∃ events, (httpSendError .requestHeaderFieldsTooLarge false w).2.trace =
      w.trace ++ events ∧ Faithful config pending events := by
  obtain ⟨writes, hsent⟩ := httpSendError_spec
    HttpStatus.requestHeaderFieldsTooLarge (by decide) false w
  refine ⟨_, hsent.effect.trace, ?_, ?_, fun hspace =>
    absurd hfull (Nat.ne_of_lt hspace)⟩
  · split_ifs with hsuccess
    · have hannounced : ∃ declared,
          decode (errorHeaders .requestHeaderFieldsTooLarge false) =
            some declared ∧ declared.keepAlive = !true ∧
          (declared.status ≠ .ok → declared.keepAlive = false) :=
        ⟨_, decode_headerBlock (by decide) _ _ _, rfl, fun _ => rfl⟩
      have hword : TrueToWord ([] ++ writes.map .write ++ .respond
          (errorHeaders .requestHeaderFieldsTooLarge false) true ::
            ([] ++ [])) :=
        trueToWord_respond (by simp) ⟨_, (hsent.message hsuccess).symm⟩
          hannounced descriptorEvents_nil (fun _ => rfl) (by simp)
          everywhere_nil
      simpa using hword
    · exact trueToWord_append (ne_respond_writes writes)
        (trueToWord_of_forall (by simp))
  · rw [flags_append, flags_writes]
    split_ifs <;> simp [flags]

theorem faithful_session {pending : List Byte} {result : ReturnCode × World}
    (hsession : Session rootFd config pending w result)
    (hlimit : pending.length ≤ config.httpBufferSize) :
    ∃ events, result.2.trace = w.trace ++ events ∧
      Faithful config pending events := by
  induction hsession with
  | interrupted hidle hspace hrecv hrest ih =>
      obtain ⟨events, htrace, h⟩ := ih hlimit
      exact ⟨_, by rw [htrace, trace_of_recv hrecv, List.append_assoc]; rfl,
        h.of_recv⟩
  | received hidle hspace hrecv hbytes hrest ih =>
      obtain ⟨-, hcapacity, -⟩ := recv_ok hrecv
      rw [window] at hcapacity
      obtain ⟨events, htrace, h⟩ := ih (by
        rw [List.length_append]
        omega)
      exact ⟨_, by rw [htrace, trace_of_recv hrecv, List.append_assoc]; rfl,
        h.of_recv⟩
  | ended hidle hspace hrecv =>
      exact ⟨_, trace_of_recv hrecv, faithful_recv config _⟩
  | broken hidle hspace hrecv herrno =>
      exact ⟨_, trace_of_recv hrecv, faithful_recv config _⟩
  | overflowed hidle hfull =>
      dsimp only
      exact faithful_overlong hfull
  | @aborted pending length w w' hready haborted =>
      cases haborted with
      | @starved opening w' heffect hopening hdescriptors hledger hmallocs =>
          refine ⟨_, heffect.trace, ?_, ?_, fun _ => ⟨_, _, rfl, rfl⟩⟩
          · refine trueToWord_of_forall (List.forall_mem_cons.mpr ⟨by simp, ?_⟩)
            exact ne_respond_of_descriptorEvents hopening
          · have hnil := flags_of_descriptorEvents hopening
            rw [← List.singleton_append, flags_append, hnil]
            simp [flags]
      | unsent hanswer heffect hopening hdescriptors hledger hfails =>
          refine ⟨_, heffect.trace, ?_, ?_, fun _ => ⟨_, _, rfl, rfl⟩⟩
          · rw [List.append_assoc]
            exact trueToWord_append (ne_respond_openingEvents hopening)
              (trueToWord_append (ne_respond_writes _)
                (trueToWord_of_forall (by simp)))
          · rw [flags_append, flags_append, flags_openingEvents hopening,
              flags_writes]
            simp [flags]
  | closed hready hanswered hcloses =>
      have hword : TrueToWord [] := everywhere_nil
      refine ⟨_, ?_, faithful_answered hanswered (fun _ => rfl) ?_ hword
        List.Pairwise.nil⟩
      · simpa using hanswered.effect.trace
      · simp [hcloses]
  | @answered pending length w w' result _ _ _ _ hready hanswered hcloses
      hrest ih =>
      have hbounds := httpFindHeaderEnd_bounds hready
      have hshorter : (pending.drop length).length < config.httpBufferSize := by
        rw [List.length_drop]
        omega
      obtain ⟨events, htrace, h⟩ := ih (Nat.le_of_lt hshorter)
      refine ⟨_, ?_, faithful_answered hanswered (by simp [hcloses])
        (fun _ => h.starts hshorter) h.word h.flags⟩
      rw [htrace, hanswered.effect.trace]
      simp

end Session

/-- Nothing that `http_prepare_response` does takes a decision to close
back. -/
theorem httpPrepareResponse_keeps_closing (buffer : List Byte) (length : ℕ)
    (response : HttpResponse) (rootFd : Fd) (config : ServerConfig)
    (w : World) :
    (httpPrepareResponse buffer length response true rootFd config
      w).closeConnection = true := by
  have hfile : ∀ request response w, (httpPrepareFile rootFd request response
      true w).closeConnection = true := by
    intro request response w
    rw [httpPrepareFile]
    split
    · rfl
    · dsimp only
      split <;> rfl
  rw [httpPrepareResponse]
  by_cases hconfig : ¬ httpConfigValid config
  · rw [if_pos hconfig]
  · rw [if_neg hconfig]
    dsimp only
    split
    · rfl
    · split
      · rfl
      · rfl
      · split_ifs
        · rfl
        · split
          · rfl
          · exact hfile _ _ _
        · rfl

/-- The announced fate of the connection is the real one: in every run each
complete response is true to its word and only a success stays open, and
`close_connection`, once set, stays set. -/
theorem announced_fate {config : ServerConfig}
    (hconfig : httpConfigValid config = true) (rootFd : Fd)
    (environment : Environment) (inherited : List (Fd × Inode)) :
    (∀ before headers closes after,
      record rootFd config environment inherited =
          before ++ .respond headers closes :: after →
        Fated before headers closes after) ∧
      (flags (record rootFd config environment inherited)).Pairwise (· ≤ ·) ∧
      ∀ buffer length response w, (httpPrepareResponse buffer length response
        true rootFd config w).closeConnection = true := by
  have hfaithful : TrueToWord (record rootFd config environment inherited) ∧
      (flags (record rootFd config environment inherited)).Pairwise
        (· ≤ ·) := by
    obtain ⟨mallocs, -, hsession | ⟨-, hresult⟩⟩ :=
      forkServerHandleConnection_session hconfig rootFd
        (start environment inherited)
    · obtain ⟨events, htrace, h⟩ := faithful_session hsession (Nat.zero_le _)
      rw [record, htrace]
      exact ⟨h.word, h.flags⟩
    · rw [record, hresult]
      exact ⟨everywhere_nil, List.Pairwise.nil⟩
  refine ⟨?_, hfaithful.2, fun buffer length response w =>
    httpPrepareResponse_keeps_closing buffer length response rootFd config w⟩
  intro before headers closes after hsplit
  exact hfaithful.1 before _ after hsplit headers closes rfl

theorem announced_fate_pipelined :
    (flags (record 3 configInit pipelined [(3, 0)])).Pairwise (· ≤ ·) :=
  have hconfig : httpConfigValid configInit = true := by decide
  (announced_fate hconfig 3 pipelined [(3, 0)]).2.1

end HttpCerver.Fate
