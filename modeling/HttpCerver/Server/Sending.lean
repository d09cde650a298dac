import HttpCerver.Core.Iteration
import HttpCerver.Runtime.System

/-!
# Sending loops

`io_send_all` and the three loops of `http_response_send_blocking` share one
shape: while some of the message is left, offer the rest, count what was
taken, try again after `EINTR`, and stop at any other error or when nothing
was taken.  `sendLoop` is that shape; what is offered is its parameter.
-/

namespace HttpCerver.Sending

open HttpCerver.Bytes
open HttpCerver.Iteration
open HttpCerver.System

/-- How a sending loop ends: everything sent, a call that sent nothing, or an
error other than `EINTR`. -/
inductive SendStop
  | complete
  | zero
  | failed
  deriving DecidableEq

/-- One round of a sending loop: as long as fewer than `length` bytes are out,
offer what follows the bytes sent so far. -/
def sendStep (offer : Offer) (length : ℕ) (state : ℕ × World) :
    (ℕ × World) ⊕ (SendStop × ℕ × World) :=
  let sent := state.1
  if length ≤ sent then .inr (.complete, sent, state.2)
  else
    match transmit (offer sent state.2) state.2 with
    | (.error errno, w) =>
      if errno = .eintr then .inl (sent, w) else .inr (.failed, sent, w)
    | (.ok count, w) =>
      if count = 0 then .inr (.zero, sent, w) else .inl (sent + count, w)

/-- What one round of a sending loop can do. -/
inductive SendRound (offer : Offer) (length sent : ℕ) (w : World) :
    (ℕ × World) ⊕ (SendStop × ℕ × World) → Prop
  | complete (hdone : length ≤ sent) :
      SendRound offer length sent w (.inr (.complete, sent, w))
  | accepted {bytes : List Byte} {count : ℕ} {sends : List SendOutcome}
      (hmore : sent < length) (hoffer : offer sent w = some bytes)
      (hpos : 0 < count) (hcount : count ≤ bytes.length)
      (hsends : sends <:+ w.sends) :
      SendRound offer length sent w (.inl (sent + count,
        log (.write (bytes.take count)) { tick w with sends := sends }))
  | interrupted {sends : List SendOutcome} (hmore : sent < length)
      (hsends : w.sends = .fail .eintr :: sends) :
      SendRound offer length sent w
        (.inl (sent, { tick w with sends := sends }))
  | failed {stop : SendStop} {sends : List SendOutcome}
      (hmore : sent < length) (hstop : stop ≠ .complete)
      (hsends : sends <:+ w.sends)
      (hcause : offer sent w = none ∨ offer sent w = some [] ∨
        ∃ outcome ∈ w.sends, ¬ outcome.Succeeds) :
      SendRound offer length sent w (.inr (stop, sent,
        log .sendFailed { tick w with sends := sends }))

theorem sendStep_spec (offer : Offer) (length sent : ℕ) (w : World) :
    SendRound offer length sent w (sendStep offer length (sent, w)) := by
  simp only [sendStep]
  split_ifs with hdone
  · exact .complete hdone
  · have hmore : sent < length := Nat.lt_of_not_le hdone
    have hspec := transmit_spec (offer sent w) w
    generalize transmit (offer sent w) w = outcome at hspec
    cases hspec with
    | accepted hoffered hpos hcount hsends =>
        simp only [Nat.ne_of_gt hpos, if_false]
        exact .accepted hmore hoffered hpos hcount hsends
    | interrupted hsends =>
        exact .interrupted hmore hsends
    | failed hresult hsends hcause =>
        obtain rfl | ⟨errno, herrno, rfl⟩ := hresult
        · exact .failed hmore (by decide) hsends hcause
        · simp only [herrno, if_false]
          exact .failed hmore (by decide) hsends hcause

/-- A round that goes on uses up an entry of the send script or some of the
message. -/
theorem sendStep_rank_lt {offer : Offer} {length : ℕ}
    {state next : ℕ × World}
    (hbody : sendStep offer length state = .inl next) :
    next.2.sends.length + (length - next.1) <
      state.2.sends.length + (length - state.1) := by
  obtain ⟨sent, w⟩ := state
  have hspec := sendStep_spec offer length sent w
  rw [hbody] at hspec
  cases hspec with
  | accepted hmore hoffer hpos hcount hsends =>
      have hle := hsends.length_le
      simp only [log]
      omega
  | interrupted hmore hsends =>
      simp [hsends]

/-- The loop around `send` or `sendfile`. -/
def sendLoop (offer : Offer) (length : ℕ) :
    Loop (ℕ × World) (SendStop × ℕ × World) where
  body := sendStep offer length
  rank state := state.2.sends.length + (length - state.1)
  rank_lt := sendStep_rank_lt

/-- The record of a sending loop: the chunks it wrote and, if it did not get
to the end, the failed call. -/
def sendEvents (writes : List (List Byte)) (stop : SendStop) : List Event :=
  writes.map .write ++ if stop = .complete then [] else [.sendFailed]

/-- As long as descriptors and file system are those of `w`, the loop is only
offered pieces of `message` that continue what has been sent. -/
def Offers (offer : Offer) (message : List Byte) (w : World) : Prop :=
  ∀ sent w', w'.descriptors = w.descriptors →
    w'.fileSystem = w.fileSystem →
    ∀ bytes, offer sent w' = some bytes → bytes <+: message.drop sent

/-- The offer never goes beyond the first `length` bytes. -/
def Bounded (offer : Offer) (length : ℕ) : Prop :=
  ∀ sent w bytes, offer sent w = some bytes → bytes.length ≤ length - sent

/-- What a sending loop has done when it leaves. -/
structure SendRun (offer : Offer) (length sent : ℕ) (w : World)
    (writes : List (List Byte)) (stop : SendStop) (sent' : ℕ) (w' : World) :
    Prop where
  effect : Effect w (sendEvents writes stop) w'
  descriptors : w'.descriptors = w.descriptors
  sent_eq : sent' = sent + writes.flatten.length
  complete : stop = .complete → length ≤ sent'
  short : stop ≠ .complete → sent' < length
  within : Bounded offer length → sent ≤ length → sent' ≤ length
  message : ∀ message, Offers offer message w →
    message.drop sent = writes.flatten ++ message.drop sent'

theorem SendRun.of_complete {offer : Offer} {length sent : ℕ} {w : World}
    (hdone : length ≤ sent) :
    SendRun offer length sent w [] .complete sent w where
  effect := Effect.refl w
  descriptors := rfl
  sent_eq := by simp
  complete _ := hdone
  short hstop := absurd rfl hstop
  within _ hsent := hsent
  message _ _ := by simp

theorem SendRun.of_failed {offer : Offer} {length sent : ℕ} {w : World}
    {stop : SendStop} {sends : List SendOutcome} (hstop : stop ≠ .complete)
    (hmore : sent < length) (hsends : sends <:+ w.sends) :
    SendRun offer length sent w [] stop sent
      (log .sendFailed { tick w with sends := sends }) where
  effect := by
    simpa [sendEvents, hstop] using
      (effect_tick hsends).trans (effect_log .sendFailed _)
  descriptors := rfl
  sent_eq := by simp
  complete hcomplete := absurd hcomplete hstop
  short _ := hmore
  within _ hsent := hsent
  message _ _ := by simp

/-- An interrupted call leaves the rest of the run as it is. -/
theorem SendRun.interrupted {offer : Offer} {length sent sent' : ℕ}
    {w w' : World} {writes : List (List Byte)} {stop : SendStop}
    {sends : List SendOutcome} (hsends : sends <:+ w.sends)
    (hrest : SendRun offer length sent { tick w with sends := sends } writes
      stop sent' w') :
    SendRun offer length sent w writes stop sent' w' where
  effect := by simpa using (effect_tick hsends).trans hrest.effect
  descriptors := hrest.descriptors
  sent_eq := hrest.sent_eq
  complete := hrest.complete
  short := hrest.short
  within := hrest.within
  message message hoffers := hrest.message message hoffers

/-- A successful call puts its chunk in front of the rest of the run. -/
theorem SendRun.accepted {offer : Offer} {length sent sent' count : ℕ}
    {w w' : World} {bytes : List Byte} {writes : List (List Byte)}
    {stop : SendStop} {sends : List SendOutcome}
    (hoffer : offer sent w = some bytes) (hcount : count ≤ bytes.length)
    (hsends : sends <:+ w.sends)
    (hrest : SendRun offer length (sent + count)
      (log (.write (bytes.take count)) { tick w with sends := sends }) writes
      stop sent' w') :
    SendRun offer length sent w (bytes.take count :: writes) stop sent'
      w' where
  effect := by
    simpa [sendEvents] using
      ((effect_tick hsends).trans (effect_log _ _)).trans hrest.effect
  descriptors := hrest.descriptors
  sent_eq := by
    rw [hrest.sent_eq, List.flatten_cons, List.length_append,
      List.length_take, Nat.min_eq_left hcount, Nat.add_assoc]
  complete := hrest.complete
  short := hrest.short
  within hbounded hsent := by
    have hbytes := hbounded sent w bytes hoffer
    exact hrest.within hbounded (by omega)
  message message hoffers := by
    have hbegins := hoffers sent w rfl rfl bytes hoffer
    have htake : (message.drop sent).take count = bytes.take count := by
      obtain ⟨after, hafter⟩ := hbegins
      rw [← hafter, List.take_append_of_le_length hcount]
    rw [List.flatten_cons, List.append_assoc,
      ← hrest.message message hoffers, ← htake, ← List.drop_drop,
      List.take_append_drop]

theorem sendLoop_spec (offer : Offer) (length : ℕ) (state : ℕ × World) :
    ∃ writes, SendRun offer length state.1 state.2 writes
      ((sendLoop offer length).run state).1
      ((sendLoop offer length).run state).2.1
      ((sendLoop offer length).run state).2.2 := by
  refine (sendLoop offer length).run_induction
    (motive := fun state result => ∃ writes, SendRun offer length state.1
      state.2 writes result.1 result.2.1 result.2.2) ?_ ?_ state
  · rintro ⟨sent, w⟩ result hbody
    have hround := sendStep_spec offer length sent w
    rw [show sendStep offer length (sent, w) = .inr result from hbody]
      at hround
    cases hround with
    | complete hdone => exact ⟨[], .of_complete hdone⟩
    | failed hmore hstop hsends hcause =>
        exact ⟨[], .of_failed hstop hmore hsends⟩
  · rintro ⟨sent, w⟩ next result hbody ⟨writes, hrest⟩
    have hround := sendStep_spec offer length sent w
    rw [show sendStep offer length (sent, w) = .inl next from hbody]
      at hround
    cases hround with
    | accepted hmore hoffer hpos hcount hsends =>
        exact ⟨_, hrest.accepted hoffer hcount hsends⟩
    | interrupted hmore hsends =>
        refine ⟨_, hrest.interrupted ?_⟩
        rw [hsends]
        exact List.suffix_cons _ _

/-- Sends that do not fail carry the loop to its end, provided that there is
something to offer up to the end. -/
theorem sendLoop_complete (offer : Offer) (length start : ℕ) {w : World}
    (hsends : ∀ outcome ∈ w.sends, outcome.Succeeds)
    (hoffer : ∀ sent w', sent < length → w'.descriptors = w.descriptors →
      w'.fileSystem = w.fileSystem →
      ∃ bytes, offer sent w' = some bytes ∧ bytes ≠ []) :
    ((sendLoop offer length).run (start, w)).1 = .complete := by
  refine (sendLoop offer length).run_invariant
    (fun state => state.2.sends <:+ w.sends ∧
      state.2.descriptors = w.descriptors ∧
      state.2.fileSystem = w.fileSystem)
    (fun result => result.1 = .complete) ?_ ?_ (start, w)
    ⟨List.suffix_refl _, rfl, rfl⟩
  · rintro ⟨sent, w⟩ next ⟨hsuffix, hdescriptors, hsystem⟩ hbody
    have hround := sendStep_spec offer length sent w
    rw [show sendStep offer length (sent, w) = .inl next from hbody]
      at hround
    cases hround with
    | accepted hmore hoffer hpos hcount hmoved =>
        exact ⟨hmoved.trans hsuffix, hdescriptors, hsystem⟩
    | interrupted hmore hmoved =>
        refine ⟨List.IsSuffix.trans ?_ hsuffix, hdescriptors, hsystem⟩
        rw [hmoved]
        exact List.suffix_cons _ _
  · rintro ⟨sent, w⟩ result ⟨hsuffix, hdescriptors, hsystem⟩ hbody
    have hround := sendStep_spec offer length sent w
    rw [show sendStep offer length (sent, w) = .inr result from hbody]
      at hround
    cases hround with
    | complete hdone => rfl
    | failed hmore hstop hmoved hcause =>
        exfalso
        obtain ⟨bytes, hbytes, hne⟩ := hoffer sent w hmore hdescriptors hsystem
        obtain hnone | hempty | ⟨outcome, hmem, hfails⟩ := hcause
        · simp [hbytes] at hnone
        · simp [hbytes, hne] at hempty
        · exact hfails (hsends outcome (hsuffix.subset hmem))

theorem offers_sendOffer (data : List Byte) (w : World) :
    Offers (sendOffer data) data w := by
  intro sent w' _ _ bytes hbytes
  simp only [sendOffer, Option.some.injEq] at hbytes
  rw [hbytes]

theorem sendOffer_ne_nil {data : List Byte} {sent : ℕ} {w : World}
    (hmore : sent < data.length) :
    ∃ bytes, sendOffer data sent w = some bytes ∧ bytes ≠ [] := by
  refine ⟨data.drop sent, rfl, ?_⟩
  intro hnil
  have hle := List.drop_eq_nil_iff.mp hnil
  omega

theorem bounded_sendOffer (data : List Byte) :
    Bounded (sendOffer data) data.length := by
  intro sent w bytes hbytes
  simp only [sendOffer, Option.some.injEq] at hbytes
  rw [← hbytes, List.length_drop]

theorem bounded_sendfileOffer (fd : Fd) (size : ℕ) :
    Bounded (sendfileOffer fd size) size := by
  intro sent w bytes hbytes
  obtain ⟨file, _, rfl⟩ := Option.map_eq_some_iff.mp hbytes
  exact List.length_take_le _ _

/-- A loop over a buffer that gets to its end has written the buffer. -/
theorem SendRun.flatten_eq {data : List Byte} {w w' : World}
    {writes : List (List Byte)} {sent' : ℕ}
    (hrun : SendRun (sendOffer data) data.length 0 w writes .complete sent'
      w') : writes.flatten = data := by
  have hmessage := hrun.message data (offers_sendOffer data w)
  rw [List.drop_zero, List.drop_eq_nil_of_le (hrun.complete rfl),
    List.append_nil] at hmessage
  exact hmessage.symm

/-- `io_send_all`: the number of bytes sent, `none` for `-1`. -/
def ioSendAll (buffer : List Byte) (w : World) : Option ℕ × World :=
  match (sendLoop (sendOffer buffer) buffer.length).run (0, w) with
  | (.failed, _, w) => (none, w)
  | (.complete, total, w) => (some total, w)
  | (.zero, total, w) => (some total, w)

/-- What `io_send_all` reports is the length of the buffer just when all of
it is out. -/
theorem ioSendAll_spec (buffer : List Byte) (w : World) :
    ∃ writes : List (List Byte), (∃ w', ioSendAll buffer w = (some buffer.length, w') ∧
        writes.flatten = buffer ∧ Effect w (writes.map .write) w' ∧
        w'.descriptors = w.descriptors) ∨
      (∃ result w', ioSendAll buffer w = (result, w') ∧
        result ≠ some buffer.length ∧
        Effect w (writes.map .write ++ [.sendFailed]) w' ∧
        w'.descriptors = w.descriptors) := by
  obtain ⟨writes, hrun⟩ := sendLoop_spec (sendOffer buffer) buffer.length (0, w)
  rw [ioSendAll]
  generalize (sendLoop (sendOffer buffer) buffer.length).run (0, w) = result
    at hrun
  obtain ⟨stop, total, w'⟩ := result
  have heffect := hrun.effect
  have hshort := hrun.short
  refine ⟨writes, ?_⟩
  cases stop with
  | complete =>
      have hend := hrun.complete rfl
      have hwithin := hrun.within (bounded_sendOffer buffer) (Nat.zero_le _)
      have htotal : total = buffer.length := Nat.le_antisymm hwithin hend
      subst htotal
      refine .inl ⟨w', rfl, hrun.flatten_eq, ?_, hrun.descriptors⟩
      simpa [sendEvents] using heffect
  | zero =>
      have hless : total < buffer.length := hshort (by simp)
      refine .inr ⟨some total, w', rfl, ?_, ?_, hrun.descriptors⟩
      · simp [Nat.ne_of_lt hless]
      · simpa [sendEvents] using heffect
  | failed =>
      refine .inr ⟨none, w', rfl, by simp, ?_, hrun.descriptors⟩
      simpa [sendEvents] using heffect

theorem ioSendAll_success (buffer : List Byte) {w : World}
    (hsends : ∀ outcome ∈ w.sends, outcome.Succeeds) :
    ∃ w', ioSendAll buffer w = (some buffer.length, w') ∧
      w'.sends <:+ w.sends := by
  have hdone := sendLoop_complete (sendOffer buffer) buffer.length 0 hsends
    (fun sent w' hmore _ _ => sendOffer_ne_nil hmore)
  obtain ⟨writes, hrun⟩ := sendLoop_spec (sendOffer buffer) buffer.length (0, w)
  rw [ioSendAll]
  generalize (sendLoop (sendOffer buffer) buffer.length).run (0, w) = result
    at hdone hrun
  obtain ⟨stop, total, w'⟩ := result
  dsimp only at hdone
  subst hdone
  have hend := hrun.complete rfl
  have hwithin := hrun.within (bounded_sendOffer buffer) (Nat.zero_le _)
  have htotal : total = buffer.length := Nat.le_antisymm hwithin hend
  exact ⟨w', by rw [htotal], hrun.effect.sends⟩

end HttpCerver.Sending
