import HttpCerver.Server.Answers

/-!
# One request and its answer

A round of the request loop finds no complete head, answers the head it finds,
or gives up on it.  An answered head leaves exactly its answer on the wire and
the descriptor table as it was; a head that is given up on can leave a file
open, and this happens just when a call fails while a file is being sent.
-/

namespace HttpCerver.Exchange

open HttpCerver.Answers
open HttpCerver.Bytes
open HttpCerver.Config
open HttpCerver.Connection
open HttpCerver.Delivery
open HttpCerver.Descriptors
open HttpCerver.Http
open HttpCerver.Request
open HttpCerver.Resolution
open HttpCerver.Response
open HttpCerver.System

/-- The answer that the program owes to a head at this moment. -/
def answerAt (rootFd : Fd) (config : ServerConfig) (w : World)
    (closing : Bool) (head : List Byte) : Answer :=
  answer config (resolveAt w.fileSystem w.clock (inodeOf w rootFd)) closing head

/-- The trace of a head up to the first byte of its answer. -/
def openingEvents (head : List Byte) (closing : Bool) (opening : List Event)
    (answer : Answer) : List Event :=
  .parse head closing :: opening ++ [.sending (OwnsFile answer.content)]

/-- A head has been answered in full. -/
structure Answered (rootFd : Fd) (config : ServerConfig) (head : List Byte)
    (closing : Bool) (w : World) (answer : Answer)
    (opening : List Event) (writes : List (List Byte)) (closed : List Event)
    (w' : World) : Prop where
  answer_eq : answer = answerAt rootFd config w closing head
  effect : Effect w (openingEvents head closing opening answer ++
    writes.map .write ++ .respond answer.headers answer.closes :: closed) w'
  opening : DescriptorEvents opening
  closed : DescriptorEvents closed
  descriptors : w'.descriptors = w.descriptors
  ledger : Ledger w → Ledger w'
  wire : ∃ payload, writes.flatten = answer.headers ++ payload ∧
    Follows w.fileSystem payload answer.content

/-- Every file that an answer sends can be read up to its size. -/
def Servable (fileSystem : ℕ → FileSystem) (answer : Answer) : Prop :=
  ∀ file sendBody, answer.content = .file file sendBody →
    ∀ clock, file.size ≤ ((fileSystem clock).content file.inode).length

/-- A head has been given up on. -/
inductive Aborted (rootFd : Fd) (config : ServerConfig) (head : List Byte)
    (closing : Bool) (w : World) : World → Prop
  | starved {opening : List Event} {w' : World}
      (heffect : Effect w (.parse head closing :: opening) w')
      (hopening : DescriptorEvents opening)
      (hdescriptors : w'.descriptors = w.descriptors)
      (hledger : Ledger w → Ledger w') (hmallocs : false ∈ w.mallocs) :
      Aborted rootFd config head closing w w'
  | unsent {answer : Answer} {opening : List Event}
      {writes : List (List Byte)} {w' : World}
      (hanswer : answer = answerAt rootFd config w closing head)
      (heffect : Effect w (openingEvents head closing opening answer ++
        writes.map .write ++ [.sendFailed]) w')
      (hopening : DescriptorEvents opening)
      (hdescriptors : LeftOpen w w' answer.content)
      (hledger : Ledger w → Ledger w')
      (hfails : ¬ ((∀ outcome ∈ w.sends, outcome.Succeeds) ∧
        Servable w.fileSystem answer)) :
      Aborted rootFd config head closing w w'

/-- What a round of the request loop does to the connection and the world. -/
inductive Round (rootFd : Fd) (config : ServerConfig)
    (connection : HttpConnection) (w : World) :
    (HttpConnection × World) ⊕ (ReturnCode × HttpConnection × World) → Prop
  | idle (hidle : httpFindHeaderEnd connection.pending = none) :
      Round rootFd config connection w (.inr (.success, connection, w))
  | aborted {length : ℕ} {connection' : HttpConnection} {w' : World}
      (hready : httpFindHeaderEnd connection.pending = some length)
      (haborted : Aborted rootFd config (connection.pending.take length)
        connection.closeConnection w w') :
      Round rootFd config connection w (.inr (.failure, connection', w'))
  | closing {length : ℕ} {answer : Answer} {opening closed : List Event}
      {writes : List (List Byte)} {connection' : HttpConnection} {w' : World}
      (hready : httpFindHeaderEnd connection.pending = some length)
      (hanswered : Answered rootFd config (connection.pending.take length)
        connection.closeConnection w answer opening writes closed w')
      (hcloses : answer.closes = true)
      (hclose : connection'.closeConnection = true) :
      Round rootFd config connection w (.inr (.success, connection', w'))
  | continuing {length : ℕ} {answer : Answer} {opening closed : List Event}
      {writes : List (List Byte)} {connection' : HttpConnection} {w' : World}
      (hready : httpFindHeaderEnd connection.pending = some length)
      (hanswered : Answered rootFd config (connection.pending.take length)
        connection.closeConnection w answer opening writes closed w')
      (hcloses : answer.closes = false)
      (hclose : connection'.closeConnection = false)
      (hpending : connection'.pending = connection.pending.drop length)
      (hcapacity : connection'.bufferCapacity = connection.bufferCapacity) :
      Round rootFd config connection w (.inl (connection', w'))

section Round

variable {config : ServerConfig} (hconfig : httpConfigValid config = true)
variable (rootFd : Fd) (connection : HttpConnection) (w : World) (length : ℕ)

include hconfig

/-- The preparation of the response to a head, seen from before the mark. -/
theorem preparedAt_spec :
    Preparation (log (.parse (connection.pending.take length)
        connection.closeConnection) w)
      (answerAt rootFd config w connection.closeConnection
        (connection.pending.take length))
      (preparedAt rootFd config connection w length) :=
  httpPrepareResponse_spec hconfig connection.pending length _ _ rootFd _

/-- A prepared response is sent in full or given up on. -/
theorem sentAt_spec
    (hcode : (preparedAt rootFd config connection w length).code =
      .success) :
    ((sentAt rootFd config connection w length).1 = .failure →
      Aborted rootFd config (connection.pending.take length)
        connection.closeConnection w
        (sentAt rootFd config connection w length).2.2) ∧
    ((sentAt rootFd config connection w length).1 = .success →
      ∃ answer opening writes closed,
        Answered rootFd config (connection.pending.take length)
          connection.closeConnection w answer opening writes closed
          (releasedAt rootFd config connection w length) ∧
        (preparedAt rootFd config connection w length).closeConnection =
          answer.closes) := by
  have hprepared := preparedAt_spec hconfig rootFd connection w length
  unfold releasedAt sentAt
  generalize preparedAt rootFd config connection w length = prepared
    at hprepared hcode
  generalize hanswer : answerAt rootFd config w connection.closeConnection
    (connection.pending.take length) = answer at hprepared
  generalize connection.pending.take length = head at *
  cases hprepared with
  | starved hfailed _ _ _ _ _ =>
      rw [hcode] at hfailed
      cases hfailed
  | @ready opening _ heffect hevents hledger hunsent hheaders hclose
      hcontent =>
      have hopening := ((effect_log (.parse head connection.closeConnection)
        w).trans heffect).trans (effect_log (.sending
          prepared.response.fileFd.isSome) prepared.world)
      rw [hcontent.isSome_fileFd] at hopening
      have hkept : Ledger w → Ledger (log (.sending (OwnsFile answer.content))
          prepared.world) := fun h => (hledger (h.log rfl)).log rfl
      have hsystem := hopening.fileSystem
      obtain ⟨writes, hsent⟩ := httpResponseSendBlocking_spec hunsent
        (log (.sending (OwnsFile answer.content)) prepared.world)
      have hfails : (httpResponseSendBlocking prepared.response
          (log (.sending (OwnsFile answer.content)) prepared.world)).1 =
            .failure → ¬ ((∀ outcome ∈ w.sends, outcome.Succeeds) ∧
              Servable w.fileSystem answer) := by
        rintro hfailure ⟨hsends, hservable⟩
        rw [httpResponseSendBlocking_success hunsent
          (fun outcome hmem => hsends outcome (hopening.sends.subset hmem))
          (hcontent.readable _ rfl hsystem hservable)] at hfailure
        cases hfailure
      simp only [hcontent.isSome_fileFd]
      generalize httpResponseSendBlocking prepared.response
        (log (.sending (OwnsFile answer.content)) prepared.world) = sent
        at hsent hfails
      obtain ⟨code, response, w'⟩ := sent
      have hwritten := hopening.trans hsent.effect
      have hsettled : Ledger w → Ledger w' := fun h =>
        (hkept h).of_effect hsent.effect hsent.descriptors
          (isDescriptor_codeEvents writes code)
      constructor
      · rintro rfl
        have hunfinished : Effect w
            (openingEvents head connection.closeConnection opening answer ++
              writes.map .write ++ [.sendFailed]) w' := by
          simpa [openingEvents, codeEvents] using hwritten
        exact .unsent hanswer.symm hunfinished hevents
          (hcontent.leftOpen _ hsent.descriptors) hsettled (hfails rfl)
      · rintro rfl
        obtain ⟨closed, hdestroyed, hclosed, htable, hreleased⟩ :=
          hcontent.destroy (log (.respond response.headers
            prepared.closeConnection) w') hsent.descriptors hsent.fileFd
        refine ⟨answer, opening, writes, closed, ⟨hanswer.symm, ?_, hevents,
          hclosed, htable, fun h => hreleased ((hsettled h).log rfl), ?_⟩,
          hclose⟩
        · have hfinal := (hwritten.trans (effect_log (.respond response.headers
            prepared.closeConnection) w')).trans hdestroyed
          rw [← hclose, ← hheaders, show prepared.response.headers =
            response.headers from hsent.headers.symm]
          simpa [openingEvents, codeEvents] using hfinal
        · obtain ⟨payload, hbytes, hpayload⟩ := hsent.message rfl
          exact ⟨payload, by rw [hbytes, hheaders],
            hcontent.follows (log (.sending (OwnsFile answer.content))
              prepared.world) rfl hsystem hpayload⟩

theorem httpProcessRequest_round :
    Round rootFd config connection w
      (httpProcessRequest rootFd config (connection, w)) := by
  have hspec := httpProcessRequest_spec rootFd config connection w
  generalize httpProcessRequest rootFd config (connection, w) = result at hspec
  cases hspec with
  | idle hidle => exact .idle hidle
  | @unprepared length _ hready hcode =>
      have hprepared := preparedAt_spec hconfig rootFd connection w length
      generalize preparedAt rootFd config connection w length = prepared
        at hprepared hcode
      cases hprepared with
      | starved _ heffect hevents hdescriptors hledger hmallocs =>
          exact .aborted hready (.starved ((effect_log _ w).trans heffect)
            hevents hdescriptors (fun h => hledger (h.log rfl)) hmallocs)
      | ready hsuccess =>
          rw [hcode] at hsuccess
          cases hsuccess
  | unsent hready hcode hsent =>
      exact .aborted hready ((sentAt_spec hconfig _ _ _ _ hcode).1 hsent)
  | closing hready hcode hsent hclose =>
      obtain ⟨answer, opening, writes, closed, hanswered, hcloses⟩ :=
        (sentAt_spec hconfig _ _ _ _ hcode).2 hsent
      exact .closing hready hanswered (hcloses.symm.trans hclose)
        (by simpa [consumedAt] using hclose)
  | continuing hready hcode hsent hclose =>
      obtain ⟨answer, opening, writes, closed, hanswered, hcloses⟩ :=
        (sentAt_spec hconfig _ _ _ _ hcode).2 hsent
      exact .continuing hready hanswered (hcloses.symm.trans hclose)
        (by simpa [consumedAt] using hclose) (consumedAt_pending hready)
        (by simp [consumedAt])

/-- The same, from the outcome of a round. -/
theorem round_of_body {rootFd : Fd} {connection : HttpConnection} {w : World}
    {result :
      (HttpConnection × World) ⊕ (ReturnCode × HttpConnection × World)}
    (hbody : (httpProcessLoop rootFd config).body (connection, w) = result) :
    Round rootFd config connection w result := by
  rw [← hbody]
  exact httpProcessRequest_round hconfig rootFd connection w

end Round

end HttpCerver.Exchange
