import HttpCerver.Parse.Limits
import HttpCerver.Stream.Reference

/-!
# Servers with higher limits

The size of the buffer and the three limits on headers decide which requests
are refused as too large.  A server with higher limits answers like one with
lower limits, up to the place where the other one gives up on its client.
-/

namespace HttpCerver.Raising

open HttpCerver.Answers
open HttpCerver.Bytes
open HttpCerver.Config
open HttpCerver.Delimited
open HttpCerver.Delivery
open HttpCerver.Http
open HttpCerver.Limits
open HttpCerver.Reference
open HttpCerver.Request
open HttpCerver.Resolution
open HttpCerver.Response
open HttpCerver.System

/-- The second configuration has no limit below one of the first. -/
structure Widened (config raised : ServerConfig) : Prop
    extends Raised config raised where
  bufferSize : config.httpBufferSize ≤ raised.httpBufferSize

/-- The shorter output is the longer one, or a refusal stands in it where the
longer one goes on. -/
def CutOff (short long : List Byte) : Prop :=
  long = short ∨ ∃ answered, short = answered ++ tooLarge ∧ answered <+: long

theorem CutOff.append (part : List Byte) {short long : List Byte}
    (h : CutOff short long) : CutOff (part ++ short) (part ++ long) := by
  obtain hsame | ⟨answered, hshort, hbegins⟩ := h
  · exact .inl (by rw [hsame])
  · refine .inr ⟨part ++ answered, ?_,
      (List.prefix_append_right_inj part).mpr hbegins⟩
    rw [hshort, List.append_assoc]

variable {config raised : ServerConfig} {tree : Tree} {root : Option Inode}

/-- A stream without a first head is refused or left alone. -/
theorem reference_of_none {stream : List Byte}
    (hnone : httpFindHeaderEnd (stream.take config.httpBufferSize) = none) :
    reference config tree root stream =
      if config.httpBufferSize ≤ stream.length then tooLarge else [] := by
  split_ifs with hfull
  · have hlength := List.length_take_of_le hfull
    have hoverflow := @reference_overflow config tree root _
      (stream.drop config.httpBufferSize) hnone hlength
    rwa [List.take_append_drop] at hoverflow
  · have hshort : stream.length < config.httpBufferSize := by omega
    rw [List.take_of_length_le hshort.le] at hnone
    exact reference_end hnone hshort

/-- The first head of a stream and what follows it. -/
theorem reference_of_some {stream : List Byte} {length : ℕ}
    (hsome : httpFindHeaderEnd (stream.take config.httpBufferSize) =
      some length) :
    reference config tree root stream =
      rendered tree (answerTo config tree root (stream.take length)) ++
        if (answerTo config tree root (stream.take length)).closes then []
        else reference config tree root (stream.drop length) := by
  have hinside := (httpFindHeaderEnd_bounds hsome).2
  have hready := @reference_ready config tree root _
    (stream.drop config.httpBufferSize) _ hsome (List.length_take_le _ _)
  have hdrop : (stream.take config.httpBufferSize).drop length ++
      stream.drop config.httpBufferSize = stream.drop length := by
    conv_rhs => rw [← List.take_append_drop config.httpBufferSize stream]
    rw [List.drop_append_of_le_length hinside]
  rw [List.length_take] at hinside
  rwa [List.take_append_drop, hdrop, List.take_take,
    Nat.min_eq_left (by omega)] at hready

/-- Raised limits do not change an answer but a refusal for size. -/
theorem answerTo_raised (hraised : Raised config raised) (head : List Byte) :
    answerTo raised tree root head = answerTo config tree root head ∨
      answerTo config tree root head = Refusal.answer
        { status := .requestHeaderFieldsTooLarge, message := none } := by
  by_cases hlarge : httpParseRequest (cstring head) config = .headersTooLarge
  · right
    rw [answerTo, answer, judge, hlarge]
  · left
    rw [answerTo, answerTo, answer, answer, judge, judge,
      httpParseRequest_raised hraised hlarge]

theorem rendered_refusal (tree : Tree) (status : HttpStatus) :
    rendered tree (Refusal.answer { status := status, message := none }) =
      errorHeaders status false ++ errorText status := rfl

theorem reference_raised (hwidened : Widened config raised)
    (stream : List Byte) :
    CutOff (reference config tree root stream)
      (reference raised tree root stream) := by
  induction hlength : stream.length using Nat.strongRecOn
    generalizing stream with
  | ind count ih =>
      cases hfind : httpFindHeaderEnd (stream.take config.httpBufferSize) with
      | none =>
          rw [reference_of_none hfind]
          split_ifs with hfull
          · exact .inr ⟨[], rfl, List.nil_prefix⟩
          · have hshort : stream.length < config.httpBufferSize := by omega
            have hraised := hwidened.bufferSize
            rw [List.take_of_length_le hshort.le] at hfind
            left
            exact reference_end hfind (hshort.trans_le hraised)
      | some length =>
          have hpos := (httpFindHeaderEnd_bounds hfind).1
          have hinside := (httpFindHeaderEnd_bounds hfind).2
          rw [List.length_take] at hinside
          have hlater : httpFindHeaderEnd (stream.take raised.httpBufferSize) =
              some length := by
            have hmore := headFramer.extend hfind
              ((stream.take raised.httpBufferSize).drop config.httpBufferSize)
            rw [headFramer_find] at hmore
            have hcut : (stream.take raised.httpBufferSize).take
                config.httpBufferSize = stream.take config.httpBufferSize := by
              rw [List.take_take, Nat.min_eq_left hwidened.bufferSize]
            rwa [← hcut, List.take_append_drop] at hmore
          rw [reference_of_some hfind, reference_of_some hlater]
          obtain hsame | hrefused :=
            @answerTo_raised config raised tree root hwidened.toRaised
              (stream.take length)
          · rw [hsame]
            apply CutOff.append
            split_ifs with hcloses
            · exact .inl rfl
            · exact ih _ (by rw [List.length_drop]; omega) _ rfl
          · have hcloses : (Refusal.answer
                { status := .requestHeaderFieldsTooLarge
                  message := none }).closes = true := rfl
            right
            refine ⟨[], ?_, List.nil_prefix⟩
            rw [hrefused, rendered_refusal, if_pos hcloses, List.append_nil,
              List.nil_append, tooLarge]

/-- Raising limits can only turn a final refusal for size into answers: what a
server with lower limits writes is what one with higher limits writes, or it is
the beginning of that with the refusal behind it. -/
theorem limits_only_cut_off (hconfig : httpConfigValid config = true)
    (hraised : httpConfigValid raised = true)
    (hwidened : Widened config raised) {environment environment' : Environment}
    (h : Undisturbed tree environment) (h' : Undisturbed tree environment')
    (hmallocs : false ∉ environment.mallocs)
    (hmallocs' : false ∉ environment'.mallocs)
    (hincoming : environment'.incoming = environment.incoming) (rootFd : Fd)
    (inherited : List (Fd × Inode)) :
    CutOff (output rootFd config environment inherited)
      (output rootFd raised environment' inherited) := by
  rw [(output_eq hconfig h rootFd inherited).2 hmallocs,
    (output_eq hraised h' rootFd inherited).2 hmallocs', hincoming]
  exact reference_raised hwidened environment.incoming

/-- A server that takes header values only when they are empty. -/
def strictConfig : ServerConfig :=
  { configInit with httpHeaderValueMax := 1, httpBufferSize := 30 }

theorem limits_only_cut_off_strict :
    CutOff (output 3 strictConfig pipelined [(3, 0)])
      (output 3 configInit pipelined [(3, 0)]) := by
  have hwidened : Widened strictConfig configInit :=
    { maxHeaders := by decide
      nameMax := by decide
      valueMax := by decide
      bufferSize := by decide }
  exact limits_only_cut_off (by decide) (by decide) hwidened
    undisturbed_pipelined undisturbed_pipelined (by decide) (by decide) rfl 3
    [(3, 0)]

end HttpCerver.Raising
