import HttpCerver.Server.Response

/-!
# What sending a response does

A response that has been sent in full has put its header block on the wire and
behind it exactly its payload; one that has not has recorded a failed call.  In
both cases the descriptor table is left alone.
-/

namespace HttpCerver.Delivery

open HttpCerver.Bytes
open HttpCerver.Numerals
open HttpCerver.Response
open HttpCerver.Sending
open HttpCerver.System

/-- The record of a function that sends: its chunks and, when it reports a
failure, the failed call. -/
def codeEvents (writes : List (List Byte)) (code : ReturnCode) : List Event :=
  writes.map .write ++ if code = .success then [] else [.sendFailed]

theorem isDescriptor_codeEvents (writes : List (List Byte))
    (code : ReturnCode) :
    ∀ event ∈ codeEvents writes code, event.isDescriptor = false := by
  intro event hevent
  rcases List.mem_append.mp hevent with hwrite | hfailed
  · obtain ⟨chunk, _, rfl⟩ := List.mem_map.mp hwrite
    rfl
  · split_ifs at hfailed
    · cases hfailed
    · rw [List.mem_singleton.mp hfailed]
      rfl

/-- What sending the rest of a response has done when it returns; a success
has put a message on the wire. -/
structure Sent (response : HttpResponse) (w : World)
    (writes : List (List Byte)) (message : List Byte → Prop)
    (result : ReturnCode × HttpResponse × World) : Prop where
  effect : Effect w (codeEvents writes result.1) result.2.2
  descriptors : result.2.2.descriptors = w.descriptors
  fileFd : result.2.1.fileFd = response.fileFd
  headers : result.2.1.headers = response.headers
  message : result.1 = .success → message writes.flatten

section Sent

variable {response response' : HttpResponse} {w w' : World}
variable {message : List Byte → Prop}

/-- Nothing is left to send. -/
theorem Sent.of_done (hmessage : message [])
    (hfileFd : response'.fileFd = response.fileFd)
    (hheaders : response'.headers = response.headers) :
    Sent response w [] message (.success, response', w) where
  effect := Effect.refl w
  descriptors := rfl
  fileFd := hfileFd
  headers := hheaders
  message _ := hmessage

variable {offer : Offer} {length sent sent' : ℕ}
variable {writes writes' : List (List Byte)} {stop : SendStop}

/-- The current loop has not come to its end. -/
theorem Sent.of_stopped
    (hrun : SendRun offer length sent w writes stop sent' w')
    (hstop : stop ≠ .complete) (hfileFd : response'.fileFd = response.fileFd)
    (hheaders : response'.headers = response.headers) :
    Sent response w writes message (.failure, response', w') where
  effect := by simpa [sendEvents, codeEvents, hstop] using hrun.effect
  descriptors := hrun.descriptors
  fileFd := hfileFd
  headers := hheaders
  message hsuccess := by cases hsuccess

/-- The current loop has come to its end and the rest follows. -/
theorem Sent.of_complete {rest : List Byte → Prop}
    {result : ReturnCode × HttpResponse × World}
    (hrun : SendRun offer length sent w writes .complete sent' w')
    (hrest : Sent response' w' writes' rest result)
    (hfileFd : response'.fileFd = response.fileFd)
    (hheaders : response'.headers = response.headers)
    (hmessage : ∀ bytes, rest bytes → message (writes.flatten ++ bytes)) :
    Sent response w (writes ++ writes') message result where
  effect := by
    simpa [sendEvents, codeEvents] using hrun.effect.trans hrest.effect
  descriptors := hrest.descriptors.trans hrun.descriptors
  fileFd := hrest.fileFd.trans hfileFd
  headers := hrest.headers.trans hheaders
  message hsuccess := by
    rw [List.flatten_append]
    exact hmessage _ (hrest.message hsuccess)

end Sent

/-- What has come out of a file of `size` bytes: that many bytes, and its
beginning where the file does not change. -/
structure FilePart (fd : Fd) (size : ℕ) (w : World) (bytes : List Byte) :
    Prop where
  length : bytes.length = size
  content : ∀ content, Offers (sendfileOffer fd size) content w →
    bytes = content.take size

theorem filePart_of_complete {fd : Fd} {size sent' : ℕ} {w w' : World}
    {writes : List (List Byte)}
    (hrun : SendRun (sendfileOffer fd size) size 0 w writes .complete sent'
      w') : FilePart fd size w writes.flatten := by
  have hend := hrun.complete rfl
  have hwithin := hrun.within (bounded_sendfileOffer fd size) (Nat.zero_le _)
  have hsent := hrun.sent_eq
  have hlength : writes.flatten.length = size := by omega
  refine ⟨hlength, ?_⟩
  intro content hoffers
  have hmessage := hrun.message content hoffers
  rw [List.drop_zero] at hmessage
  rw [hmessage, ← hlength, List.take_left]

/-- The file part of a response, if it has a file. -/
def FileOf (fileFd : Option Fd) (size : ℕ) (w : World) (part : List Byte) :
    Prop :=
  match fileFd with
  | none => part = []
  | some fd => FilePart fd size w part

/-- A file part stays one when time has passed. -/
theorem FileOf.of_effect {fileFd : Option Fd} {size : ℕ} {w w' : World}
    {part : List Byte} {events : List Event}
    (hpart : FileOf fileFd size w' part) (heffect : Effect w events w')
    (hdescriptors : w'.descriptors = w.descriptors) :
    FileOf fileFd size w part := by
  cases fileFd with
  | none => exact hpart
  | some fd =>
      refine ⟨hpart.length, fun content hoffers => hpart.content content ?_⟩
      intro sent w'' htable hsystem
      exact hoffers sent w'' (htable.trans hdescriptors)
        (hsystem.trans heffect.fileSystem)

/-- What follows the header block of a response that has been sent. -/
def Payload (response : HttpResponse) (w : World) (bytes : List Byte) :
    Prop :=
  if response.sendBody then
    ∃ part, bytes = response.body ++ part ∧
      FileOf response.fileFd response.fileSize w part
  else
    bytes = []

theorem Payload.of_effect {response : HttpResponse} {w w' : World}
    {bytes : List Byte} {events : List Event}
    (hpayload : Payload response w' bytes) (heffect : Effect w events w')
    (hdescriptors : w'.descriptors = w.descriptors) :
    Payload response w bytes := by
  rw [Payload] at hpayload ⊢
  split_ifs at hpayload ⊢
  · obtain ⟨part, hbytes, hpart⟩ := hpayload
    exact ⟨part, hbytes, hpart.of_effect heffect hdescriptors⟩
  · exact hpayload

/-- A response nothing of which has been sent. -/
structure Unsent (response : HttpResponse) : Prop where
  headersSent : response.headersSent = 0
  bodySent : response.bodySent = 0
  fileOffset : response.fileOffset = 0
  complete : response.complete = false

theorem httpResponseSendFile_spec (response : HttpResponse)
    (hoffset : response.fileOffset = 0) (w : World) :
    ∃ writes, Sent response w writes
      (FileOf response.fileFd response.fileSize w)
      (httpResponseSendFile response w) := by
  rw [httpResponseSendFile]
  split
  · next hfd => exact ⟨[], .of_done (by rw [hfd]; rfl) rfl rfl⟩
  · next fd hfd =>
      obtain ⟨writes, hrun⟩ := sendLoop_spec
        (sendfileOffer fd response.fileSize) response.fileSize (0, w)
      rw [hoffset]
      generalize (sendLoop (sendfileOffer fd response.fileSize)
        response.fileSize).run (0, w) = result at hrun
      obtain ⟨stop, sent, w'⟩ := result
      refine ⟨writes, ?_⟩
      cases stop with
      | complete =>
          have hdone : Sent response w' [] (· = []) (.success,
              { response with fileOffset := sent, complete := true }, w') :=
            .of_done rfl rfl rfl
          rw [← List.append_nil writes]
          refine .of_complete hrun hdone rfl rfl ?_
          rintro _ rfl
          rw [List.append_nil, hfd]
          exact filePart_of_complete hrun
      | zero => exact .of_stopped hrun (by simp) rfl rfl
      | failed => exact .of_stopped hrun (by simp) rfl rfl

theorem httpResponseSendBody_spec (response : HttpResponse)
    (hbody : response.bodySent = 0) (hoffset : response.fileOffset = 0)
    (hsendBody : response.sendBody = true) (w : World) :
    ∃ writes, Sent response w writes (Payload response w)
      (httpResponseSendBody response w) := by
  rw [httpResponseSendBody]
  obtain ⟨writes, hrun⟩ := sendLoop_spec (sendOffer response.body)
    response.body.length (0, w)
  rw [hbody]
  generalize (sendLoop (sendOffer response.body) response.body.length).run
    (0, w) = result at hrun
  obtain ⟨stop, sent, w'⟩ := result
  cases stop with
  | complete =>
      obtain ⟨writes', hrest⟩ := httpResponseSendFile_spec
        { response with bodySent := sent } hoffset w'
      refine ⟨writes ++ writes', .of_complete hrun hrest rfl rfl ?_⟩
      intro bytes hbytes
      rw [Payload, if_pos hsendBody]
      exact ⟨bytes, by rw [hrun.flatten_eq], hbytes.of_effect hrun.effect
        hrun.descriptors⟩
  | zero => exact ⟨writes, .of_stopped hrun (by simp) rfl rfl⟩
  | failed => exact ⟨writes, .of_stopped hrun (by simp) rfl rfl⟩

/-- Sending a whole response. -/
theorem httpResponseSendBlocking_spec {response : HttpResponse}
    (hunsent : Unsent response) (w : World) :
    ∃ writes, Sent response w writes
      (fun bytes => ∃ payload, bytes = response.headers ++ payload ∧
        Payload response w payload)
      (httpResponseSendBlocking response w) := by
  rw [httpResponseSendBlocking]
  obtain ⟨writes, hrun⟩ := sendLoop_spec (sendOffer response.headers)
    response.headers.length (0, w)
  rw [if_neg (by simp [hunsent.complete]), hunsent.headersSent]
  generalize (sendLoop (sendOffer response.headers)
    response.headers.length).run (0, w) = result at hrun
  obtain ⟨stop, sent, w'⟩ := result
  cases stop with
  | complete =>
      dsimp only
      split_ifs with hsendBody
      · have hsendBody : response.sendBody = false := by
          simpa using hsendBody
        have hdone : Sent response w' [] (· = []) (.success,
            { response with headersSent := sent, complete := true }, w') :=
          .of_done rfl rfl rfl
        refine ⟨writes ++ [], .of_complete hrun hdone rfl rfl ?_⟩
        rintro _ rfl
        exact ⟨[], by rw [hrun.flatten_eq], by simp [Payload, hsendBody]⟩
      · obtain ⟨writes', hrest⟩ := httpResponseSendBody_spec
          { response with headersSent := sent } hunsent.bodySent
          hunsent.fileOffset (by simpa using hsendBody) w'
        refine ⟨writes ++ writes', .of_complete hrun hrest rfl rfl ?_⟩
        intro bytes hbytes
        exact ⟨bytes, by rw [hrun.flatten_eq], hbytes.of_effect hrun.effect
          hrun.descriptors⟩
  | zero => exact ⟨writes, .of_stopped hrun (by simp) rfl rfl⟩
  | failed => exact ⟨writes, .of_stopped hrun (by simp) rfl rfl⟩

/-- The file behind a descriptor can be read up to `size` at any moment. -/
def Readable (fd : Fd) (size : ℕ) (w : World) : Prop :=
  ∃ file, fileOf w fd = some file ∧
    ∀ clock, size ≤ ((w.fileSystem clock).content file.inode).length

theorem sendfileOffer_ne_nil {fd : Fd} {size sent : ℕ} {w w' : World}
    (hreadable : Readable fd size w) (hmore : sent < size)
    (hdescriptors : w'.descriptors = w.descriptors)
    (hsystem : w'.fileSystem = w.fileSystem) :
    ∃ bytes, sendfileOffer fd size sent w' = some bytes ∧ bytes ≠ [] := by
  obtain ⟨file, hfile, hlength⟩ := hreadable
  have hfile' : fileOf w' fd = some file := by
    rw [fileOf, hdescriptors]
    exact hfile
  refine ⟨_, by rw [sendfileOffer, hfile', Option.map_some], ?_⟩
  intro hnil
  have hempty := congrArg List.length hnil
  have hlong := hlength w'.clock
  rw [hsystem] at hempty
  simp only [List.length_take, List.length_drop, List.length_nil] at hempty
  omega

theorem Readable.of_effect {fd : Fd} {size : ℕ} {w w' : World}
    {events : List Event} (hreadable : Readable fd size w)
    (heffect : Effect w events w')
    (hdescriptors : w'.descriptors = w.descriptors) : Readable fd size w' := by
  obtain ⟨file, hfile, hlength⟩ := hreadable
  refine ⟨file, ?_, ?_⟩
  · rw [fileOf, hdescriptors]
    exact hfile
  · rwa [heffect.fileSystem]

theorem httpResponseSendFile_success {response : HttpResponse} {w : World}
    (hsends : ∀ outcome ∈ w.sends, outcome.Succeeds)
    (hreadable : ∀ fd, response.fileFd = some fd →
      Readable fd response.fileSize w) :
    (httpResponseSendFile response w).1 = .success := by
  rw [httpResponseSendFile]
  split
  · rfl
  · next fd hfd =>
      have hdone := sendLoop_complete (sendfileOffer fd response.fileSize)
        response.fileSize response.fileOffset hsends
        (fun sent w' hmore hdescriptors hsystem =>
          sendfileOffer_ne_nil (hreadable fd hfd) hmore hdescriptors hsystem)
      generalize (sendLoop (sendfileOffer fd response.fileSize)
        response.fileSize).run (response.fileOffset, w) = result at hdone
      obtain ⟨stop, offset, w'⟩ := result
      dsimp only at hdone
      rw [hdone]

theorem httpResponseSendBody_success {response : HttpResponse} {w : World}
    (hsends : ∀ outcome ∈ w.sends, outcome.Succeeds)
    (hreadable : ∀ fd, response.fileFd = some fd →
      Readable fd response.fileSize w) :
    (httpResponseSendBody response w).1 = .success := by
  rw [httpResponseSendBody]
  have hdone := sendLoop_complete (sendOffer response.body)
    response.body.length response.bodySent hsends
    (fun sent w' hmore _ _ => sendOffer_ne_nil hmore)
  obtain ⟨writes, hrun⟩ := sendLoop_spec (sendOffer response.body)
    response.body.length (response.bodySent, w)
  generalize (sendLoop (sendOffer response.body) response.body.length).run
    (response.bodySent, w) = result at hdone hrun
  obtain ⟨stop, sent, w'⟩ := result
  dsimp only at hdone
  subst hdone
  exact httpResponseSendFile_success
    (fun outcome hmem => hsends outcome (hrun.effect.sends.subset hmem))
    (fun fd hfd => (hreadable fd hfd).of_effect hrun.effect hrun.descriptors)

/-- Where no call fails and the file stays readable, sending succeeds. -/
theorem httpResponseSendBlocking_success {response : HttpResponse} {w : World}
    (hunsent : Unsent response)
    (hsends : ∀ outcome ∈ w.sends, outcome.Succeeds)
    (hreadable : ∀ fd, response.fileFd = some fd →
      Readable fd response.fileSize w) :
    (httpResponseSendBlocking response w).1 = .success := by
  rw [httpResponseSendBlocking]
  have hdone := sendLoop_complete (sendOffer response.headers)
    response.headers.length response.headersSent hsends (fun sent w' hmore _ _ => sendOffer_ne_nil hmore)
  obtain ⟨writes, hrun⟩ := sendLoop_spec (sendOffer response.headers)
    response.headers.length (response.headersSent, w)
  rw [if_neg (by simp [hunsent.complete])]
  generalize (sendLoop (sendOffer response.headers)
    response.headers.length).run (response.headersSent, w) = result
    at hdone hrun
  obtain ⟨stop, sent, w'⟩ := result
  dsimp only at hdone
  subst hdone
  dsimp only
  split_ifs
  · rfl
  · exact httpResponseSendBody_success
      (fun outcome hmem => hsends outcome (hrun.effect.sends.subset hmem))
      (fun fd hfd => (hreadable fd hfd).of_effect hrun.effect hrun.descriptors)

/-- The page of an error. -/
def errorText (status : HttpStatus) : List Byte :=
  (httpSendErrorBody status).getD []

/-- The header block of an error that is sent at once. -/
def errorHeaders (status : HttpStatus) (keepAlive : Bool) : List Byte :=
  headerBlock status (ascii "text/html") (errorText status).length keepAlive

theorem length_errorText_le (status : HttpStatus) :
    (errorText status).length ≤ 74 := by
  cases status <;> decide

/-- Sending an error at once. -/
structure ErrorSent (status : HttpStatus) (keepAlive : Bool) (w : World)
    (writes : List (List Byte)) (result : ReturnCode × World) : Prop where
  effect : Effect w (writes.map .write ++ if result.1 = .success then
    [.respond (errorHeaders status keepAlive) (!keepAlive)]
    else [.sendFailed]) result.2
  descriptors : result.2.descriptors = w.descriptors
  message : result.1 = .success →
    writes.flatten = errorHeaders status keepAlive ++ errorText status

theorem ErrorSent.of_failed {status : HttpStatus} {keepAlive : Bool}
    {w w' : World} {writes : List (List Byte)}
    (heffect : Effect w (writes.map .write ++ [.sendFailed]) w')
    (hdescriptors : w'.descriptors = w.descriptors) :
    ErrorSent status keepAlive w writes (.failure, w') where
  effect := heffect
  descriptors := hdescriptors
  message hsuccess := by cases hsuccess

/-- Both parts of an error can be built. -/
theorem error_parts {status : HttpStatus} (hstatus : status ≠ .ok)
    (keepAlive : Bool) :
    httpSendErrorBody status = some (errorText status) ∧
      httpBuildResponseHeaders httpResponseHeaderMax status
        (ascii "text/html") (errorText status).length keepAlive =
          some (errorHeaders status keepAlive) := by
  constructor
  · cases status with
    | ok => exact absurd rfl hstatus
    | _ => rfl
  · have hlength := length_errorText_le status
    exact httpBuildResponseHeaders_eq_some status keepAlive (by decide)
      (by omega)

theorem httpSendError_spec (status : HttpStatus) (hstatus : status ≠ .ok)
    (keepAlive : Bool) (w : World) :
    ∃ writes, ErrorSent status keepAlive w writes
      (httpSendError status keepAlive w) := by
  obtain ⟨hbody, hheaders⟩ := error_parts hstatus keepAlive
  simp only [httpSendError, hbody, httpSendResponse, hheaders]
  obtain ⟨writes, ⟨w', hsent, hflatten, heffect, hdescriptors⟩ |
    ⟨result, w', hsent, hne, heffect, hdescriptors⟩⟩ :=
    ioSendAll_spec (errorHeaders status keepAlive) w
  · obtain ⟨writes', ⟨w'', hsent', hflatten', heffect', hdescriptors'⟩ |
      ⟨result, w'', hsent', hne, heffect', hdescriptors'⟩⟩ :=
      ioSendAll_spec (errorText status) w'
    · simp only [hsent, hsent', ne_eq, not_true, if_false]
      refine ⟨writes ++ writes', ?_, hdescriptors'.trans hdescriptors, ?_⟩
      · have hlogged := (heffect.trans heffect').trans (effect_log
          (.respond (errorHeaders status keepAlive) (!keepAlive)) w'')
        simpa [errorHeaders] using hlogged
      · intro _
        rw [List.flatten_append, hflatten, hflatten']
    · refine ⟨writes ++ writes', ?_⟩
      simp only [hsent, hsent', ne_eq, not_true, if_false]
      have hfailed := heffect.trans heffect'
      rw [← List.append_assoc, ← List.map_append] at hfailed
      cases result with
      | none => exact .of_failed hfailed (hdescriptors'.trans hdescriptors)
      | some total =>
          have htotal : ¬ total = (errorText status).length := by
            simpa using hne
          dsimp only
          rw [if_pos htotal]
          exact .of_failed hfailed (hdescriptors'.trans hdescriptors)
  · refine ⟨writes, ?_⟩
    simp only [hsent]
    cases result with
    | none => exact .of_failed heffect hdescriptors
    | some total =>
        have htotal : total ≠ (errorHeaders status keepAlive).length := by
          simpa using hne
        dsimp only
        rw [if_pos htotal]
        exact .of_failed heffect hdescriptors

theorem httpSendError_success (status : HttpStatus) (hstatus : status ≠ .ok)
    (keepAlive : Bool) {w : World}
    (hsends : ∀ outcome ∈ w.sends, outcome.Succeeds) :
    (httpSendError status keepAlive w).1 = .success := by
  obtain ⟨hbody, hheaders⟩ := error_parts hstatus keepAlive
  obtain ⟨w', hsent, hsuffix⟩ :=
    ioSendAll_success (errorHeaders status keepAlive) hsends
  obtain ⟨w'', hsent', _⟩ :=
    ioSendAll_success (errorText status)
      fun outcome hmem => hsends outcome (hsuffix.subset hmem)
  simp only [httpSendError, hbody, httpSendResponse, hheaders, hsent, hsent',
    ne_eq, not_true, if_false]

end HttpCerver.Delivery
