import HttpCerver.Stream.Startup

/-!
# Pipelined requests

Requests that share a connection are answered as if each of them had a
connection of its own.  The server keeps nothing about a client from one
request to the next but whether the connection is to be closed.
-/

namespace HttpCerver.Pipelining

open HttpCerver.Answers
open HttpCerver.Bytes
open HttpCerver.Config
open HttpCerver.Delimited
open HttpCerver.Http
open HttpCerver.Reference
open HttpCerver.Request
open HttpCerver.Startup
open HttpCerver.System

/-- A whole head that fits the buffer. -/
structure Fitting (config : ServerConfig) (head : List Byte) : Prop where
  whole : httpFindHeaderEnd head = some head.length
  length_le : head.length ≤ config.httpBufferSize

section Reference

variable {config : ServerConfig} {tree : Tree} {root : Option Inode}

/-- The first head of a stream decides about its first answer. -/
theorem reference_fitting {head : List Byte} (h : Fitting config head)
    (rest : List Byte) :
    reference config tree root (head ++ rest) =
      rendered tree (answerTo config tree root head) ++
        if (answerTo config tree root head).closes then []
        else reference config tree root rest := by
  have hready := @reference_ready config tree root head rest head.length
    h.whole h.length_le
  rwa [List.take_length, List.drop_length, List.nil_append] at hready

/-- On a connection of its own a head gets its answer and no more. -/
theorem reference_alone (hsize : config.httpBufferSize ≠ 0)
    {head : List Byte} (h : Fitting config head) :
    reference config tree root head =
      rendered tree (answerTo config tree root head) := by
  have hnothing : reference config tree root [] = [] :=
    reference_end (by decide) (Nat.pos_of_ne_zero hsize)
  have hhead := @reference_fitting config tree root head h []
  rw [List.append_nil, hnothing, ite_self, List.append_nil] at hhead
  exact hhead

/-- The heads of a connection up to the first one that closes it. -/
def served (config : ServerConfig) (tree : Tree) (root : Option Inode)
    (heads : List (List Byte)) : List (List Byte) :=
  upToClosing (fun head => (answerTo config tree root head).closes) heads

theorem served_cons (head : List Byte) (heads : List (List Byte)) :
    served config tree root (head :: heads) =
      if (answerTo config tree root head).closes then [head]
      else head :: served config tree root heads := rfl

/-- Heads that share a connection. -/
theorem reference_flatten (hsize : config.httpBufferSize ≠ 0)
    {heads : List (List Byte)}
    (hheads : ∀ head ∈ heads, Fitting config head) :
    reference config tree root heads.flatten =
      (served config tree root heads).flatMap
        (reference config tree root) := by
  induction heads with
  | nil => exact reference_end (by decide) (Nat.pos_of_ne_zero hsize)
  | cons head heads ih =>
      rw [List.forall_mem_cons] at hheads
      obtain ⟨hhead, hothers⟩ := hheads
      rw [List.flatten_cons, reference_fitting hhead, ih hothers,
        served_cons]
      by_cases hcloses : (answerTo config tree root head).closes = true
      · rw [if_pos hcloses, if_pos hcloses, List.flatMap_singleton,
          reference_alone hsize hhead, List.append_nil]
      · rw [if_neg hcloses, if_neg hcloses, List.flatMap_cons,
          reference_alone hsize hhead]

end Reference

/-- A persistent connection is as good as a new one for each request: what is
written on it is what the requests up to the first one that closes it are
answered on connections of their own. -/
theorem requests_independent {config : ServerConfig} {tree : Tree}
    {heads : List (List Byte)}
    (hheads : ∀ head ∈ heads, Fitting config head)
    {environment : Environment} (h : Undisturbed tree environment)
    (hmallocs : false ∉ environment.mallocs)
    (hincoming : environment.incoming = heads.flatten)
    {alone : List Byte → Environment}
    (halone : ∀ head ∈ heads, Undisturbed tree (alone head) ∧
      false ∉ (alone head).mallocs ∧ (alone head).incoming = head)
    (rootFd : Fd) (inherited : List (Fd × Inode)) :
    output rootFd config environment inherited =
      (served config tree (inheritedRoot rootFd inherited) heads).flatMap
        fun head => output rootFd config (alone head) inherited := by
  by_cases hconfig : httpConfigValid config = true
  swap
  · rw [Bool.not_eq_true] at hconfig
    rw [output_of_invalid hconfig]
    exact (List.flatMap_eq_nil_iff.mpr fun head _ =>
      output_of_invalid hconfig rootFd (alone head) inherited).symm
  have hsize : config.httpBufferSize ≠ 0 := by
    intro hzero
    simp [httpConfigValid, hzero] at hconfig
  rw [(output_eq hconfig h rootFd inherited).2 hmallocs, hincoming,
    reference_flatten hsize hheads]
  apply List.flatMap_congr
  intro head hserved
  have hhead : head ∈ heads := (upToClosing_begins heads).subset hserved
  obtain ⟨hundisturbed, hmemory, hsame⟩ := halone head hhead
  rw [(output_eq hconfig hundisturbed rootFd inherited).2 hmemory, hsame]

/-- The two requests of the pipelined pair. -/
def pipelinedHeads : List (List Byte) :=
  [ascii "GET / HTTP/1.1\r\nHost: a\r\n\r\n",
    ascii "HEAD / HTTP/1.0\r\n\r\n"]

/-- A connection for a single head, received at once. -/
def single (head : List Byte) : Environment where
  incoming := head
  recvs := []
  sends := []
  mallocs := []
  fileSystem _ := smallFileSystem

theorem requests_independent_pipelined :
    output 3 configInit pipelined [(3, 0)] =
      pipelinedHeads.flatMap fun head =>
        output 3 configInit (single head) [(3, 0)] := by
  have hheads : ∀ head ∈ pipelinedHeads, Fitting configInit head := by
    intro head hhead
    simp only [pipelinedHeads, List.mem_cons, List.not_mem_nil, or_false]
      at hhead
    obtain rfl | rfl := hhead
    · exact ⟨by decide +kernel, by decide +kernel⟩
    · exact ⟨by decide +kernel, by decide +kernel⟩
  have hserved : served configInit smallTree (some 0) pipelinedHeads =
      pipelinedHeads := by decide +kernel
  have halone : ∀ head ∈ pipelinedHeads,
      Undisturbed smallTree (single head) ∧
        false ∉ (single head).mallocs ∧ (single head).incoming = head :=
    fun head _ => ⟨⟨rfl, by simp [single], by simp [single]⟩,
      List.not_mem_nil, rfl⟩
  have hincoming : pipelined.incoming = pipelinedHeads.flatten := by
    decide +kernel
  have hindependent := requests_independent hheads undisturbed_pipelined
    (by decide) hincoming halone 3 [(3, 0)]
  rw [show inheritedRoot 3 [(3, 0)] = some 0 from rfl, hserved]
    at hindependent
  exact hindependent

end HttpCerver.Pipelining
