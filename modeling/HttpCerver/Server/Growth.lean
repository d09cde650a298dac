import HttpCerver.Server.ForkServer

/-!
# What has happened stays

The handler only ever adds to the trace, so what a client has been sent at some
moment is the beginning of all that it is sent.
-/

namespace HttpCerver.Growth

open HttpCerver.Config
open HttpCerver.Connection
open HttpCerver.Delivery
open HttpCerver.Exchange
open HttpCerver.ForkServer
open HttpCerver.Http
open HttpCerver.Iteration
open HttpCerver.Bytes
open HttpCerver.Response
open HttpCerver.System

variable {config : ServerConfig} {rootFd : Fd}
variable {w w' : World} {head : List Byte} {closing : Bool}

theorem trace_extends_of_effect {events : List Event}
    (heffect : Effect w events w') : w.trace <+: w'.trace :=
  ⟨events, heffect.trace.symm⟩

theorem Aborted.trace_extends
    (haborted : Aborted rootFd config head closing w w') :
    w.trace <+: w'.trace := by
  cases haborted with
  | starved heffect => exact trace_extends_of_effect heffect
  | unsent _ heffect => exact trace_extends_of_effect heffect

theorem recv_trace_extends (capacity : ℕ) (w : World) :
    w.trace <+: (recv capacity w).2.trace := by
  have hreceipt := recv_spec capacity w
  generalize recv capacity w = received at hreceipt
  cases hreceipt <;> exact List.prefix_append _ _

theorem httpSendError_trace_extends {status : HttpStatus}
    (hstatus : status ≠ .ok) (w : World) :
    w.trace <+: (httpSendError status false w).2.trace := by
  obtain ⟨writes, hsent⟩ := httpSendError_spec status hstatus false w
  exact trace_extends_of_effect hsent.effect

theorem httpProcessConnection_trace_extends (rootFd : Fd)
    (config : ServerConfig) (connection : HttpConnection) (w : World) :
    w.trace <+:
      (httpProcessConnection rootFd config connection w).2.2.trace := by
  rw [httpProcessConnection]
  split_ifs with hvalid
  swap
  · exact List.prefix_refl _
  · refine (httpProcessLoop rootFd config).run_induction
      (motive := fun state result => state.2.trace <+: result.2.2.trace)
      ?_ ?_ (connection, w)
    · rintro ⟨connection, w⟩ result hbody
      cases round_of_body hvalid hbody with
      | idle => exact List.prefix_refl _
      | aborted _ haborted => exact Aborted.trace_extends haborted
      | closing _ hanswered => exact trace_extends_of_effect hanswered.effect
    · rintro ⟨connection, w⟩ next result hbody hrest
      cases round_of_body hvalid hbody with
      | continuing _ hanswered =>
          exact (trace_extends_of_effect hanswered.effect).trans hrest

/-- A round that ends the handler in a later world. -/
theorem trace_extends_of_inr {code : ReturnCode}
    (hlater : w.trace <+: w'.trace) :
    match (.inr (code, w') :
      (HttpConnection × World) ⊕ (ReturnCode × World)) with
    | .inl next => w.trace <+: next.2.trace
    | .inr result => w.trace <+: result.2.trace :=
  hlater

/-- What a round of the handler leaves behind extends what was there. -/
theorem forkServerReceive_trace_extends (rootFd : Fd) (config : ServerConfig)
    (connection : HttpConnection) (w : World) :
    match forkServerReceive rootFd config (connection, w) with
    | .inl next => w.trace <+: next.2.trace
    | .inr result => w.trace <+: result.2.trace := by
  unfold forkServerReceive
  dsimp only
  split_ifs with hclose hfull
  · exact List.prefix_refl _
  · exact trace_extends_of_inr (httpSendError_trace_extends (by decide) w)
  · have hreceived := recv_trace_extends (receiveCapacity connection) w
    generalize recv (receiveCapacity connection) w = received at hreceived
    obtain ⟨received, w'⟩ := received
    cases received with
    | error errno =>
        dsimp only
        split_ifs
        · exact hreceived
        · exact hreceived
    | ok bytes =>
        dsimp only
        split_ifs
        · exact hreceived
        · cases httpConnectionFeed connection bytes with
          | none =>
              exact trace_extends_of_inr (hreceived.trans
                (httpSendError_trace_extends (by decide) w'))
          | some fed =>
              have hprocessed := httpProcessConnection_trace_extends rootFd
                config fed w'
              dsimp only
              generalize httpProcessConnection rootFd config fed w' = processed
                at hprocessed
              obtain ⟨code, next, w''⟩ := processed
              cases code <;> exact hreceived.trans hprocessed

theorem forkServerLoop_trace_extends (rootFd : Fd) (config : ServerConfig)
    (state : HttpConnection × World) :
    state.2.trace <+: ((forkServerLoop rootFd config).run state).2.trace := by
  refine (forkServerLoop rootFd config).run_induction
    (motive := fun state result => state.2.trace <+: result.2.trace)
    ?_ ?_ state
  · rintro ⟨connection, w⟩ result hbody
    have hround := forkServerReceive_trace_extends rootFd config connection w
    change forkServerReceive rootFd config (connection, w) = _ at hbody
    rw [hbody] at hround
    exact hround
  · rintro ⟨connection, w⟩ next result hbody hrest
    have hround := forkServerReceive_trace_extends rootFd config connection w
    change forkServerReceive rootFd config (connection, w) = _ at hbody
    rw [hbody] at hround
    exact hround.trans hrest

end HttpCerver.Growth
