import HttpCerver.Stream.Replies
import HttpCerver.Stream.Truncation

/-!
# What a client has received so far

A client reads responses by the lengths they declare.  In the middle of a
session, and when the session has been broken off, it has received the first
replies of the reference and the beginning of the next one; it never takes one
reply for another or a part of one for the whole.
-/

namespace HttpCerver.Reading

open HttpCerver.Answers
open HttpCerver.Bytes
open HttpCerver.Client
open HttpCerver.Config
open HttpCerver.Delimited
open HttpCerver.Exchange
open HttpCerver.File
open HttpCerver.Framed
open HttpCerver.Http
open HttpCerver.Reference
open HttpCerver.Replies
open HttpCerver.Response
open HttpCerver.System

/-- What stands behind the header block of an answer in an unchanging tree. -/
def bodyOf (tree : Tree) : Content → List Byte
  | .page text => text
  | .file file true => (tree.fileSystem.content file.inode).take file.size
  | .file _ false => []

variable (config : ServerConfig) (tree : Tree) (root : Option Inode)

/-- The reply to a head. -/
def replyTo (head : List Byte) : Reply where
  head := head
  answer := answerTo config tree root head
  body := bodyOf tree (answerTo config tree root head).content

/-- The replies to a stream, with the one for a head that is too long. -/
def repliesTo (stream : List Byte) : List Reply :=
  let (heads, overflow) := conversation config tree root stream
  transcript (heads.map (replyTo config tree root)) overflow

variable {config tree root}

theorem bytes_replyTo (head : List Byte) :
    (replyTo config tree root head).bytes =
      rendered tree (answerTo config tree root head) := by
  rw [Reply.bytes, rendered, replyTo]
  cases (answerTo config tree root head).content with
  | page text => rfl
  | file file sendBody => cases sendBody <;> rfl

theorem reference_eq_flatten (stream : List Byte) :
    reference config tree root stream =
      ((repliesTo config tree root stream).map Reply.bytes).flatten := by
  rw [reference, repliesTo]
  generalize conversation config tree root stream = exchanged
  obtain ⟨heads, overflow⟩ := exchanged
  simp only [transcript, List.map_append, List.map_map, List.flatten_append,
    List.flatMap_def]
  have hreplies : Reply.bytes ∘ replyTo config tree root =
      fun head => rendered tree (answerTo config tree root head) :=
    funext bytes_replyTo
  rw [hreplies]
  cases overflow with
  | false => rfl
  | true => exact congrArg _ (List.append_nil _).symm

theorem follows_bodyOf {answer : Answer}
    (hservable : Servable (fun _ => tree.fileSystem) answer) :
    Follows (fun _ => tree.fileSystem) (bodyOf tree answer.content)
      answer.content := by
  cases hcontent : answer.content with
  | page text => rfl
  | file file sendBody =>
      cases sendBody with
      | false => rfl
      | true =>
          refine ⟨?_, fun content hsame => ?_⟩
          · have hsize := hservable file true hcontent 0
            exact List.length_take_of_le hsize
          · exact congrArg _ (hsame 0)

/-- Each reply delimits itself. -/
theorem selfDelimiting_replyTo (head : List Byte) :
    (replyTo config tree root head).SelfDelimiting := by
  have hconsistent : Consistent head (answerTo config tree root head) :=
    consistent_answer config _ false head
  have hservable : Servable (fun _ => tree.fileSystem)
      (answerTo config tree root head) :=
    (sizesKept_tree tree).servable config 0 root false head
  exact selfDelimiting_of_follows hconsistent (follows_bodyOf hservable)

/-- A client that knows its requests finds the ends of the replies. -/
theorem complete_repliesTo (stream : List Byte) :
    Complete (responseFramers (requests config stream).1)
      ((repliesTo config tree root stream).map Reply.bytes) := by
  obtain ⟨hheads, hoverflow⟩ := exchange_upToClosing headFramer
    (fun head => (answerTo config tree root head).closes)
    config.httpBufferSize stream
  have hsame : ∀ heads : List (List Byte),
      (heads.map (replyTo config tree root)).map (·.head) = heads := by
    intro heads
    rw [List.map_map]
    exact List.map_id heads
  rw [repliesTo]
  apply complete_transcript
  · intro reply hreply
    obtain ⟨head, -, rfl⟩ := List.mem_map.mp hreply
    exact selfDelimiting_replyTo head
  · rw [hsame]
    exact hheads ▸ upToClosing_begins _
  · intro hfull
    rw [hsame]
    exact (congrArg Prod.fst (hoverflow hfull)).symm

/-- From the beginning of the reference a client takes the first replies, and
what is left is the beginning of the next one. -/
theorem receive_reference {stream sent : List Byte}
    (hbegins : sent <+: reference config tree root stream) :
    ∃ count rest,
      receive (responseFramers (requests config stream).1) sent =
        ((repliesTo config tree root stream).map Reply.bytes).take count ∧
      sent = (((repliesTo config tree root stream).map Reply.bytes).take
        count).flatten ++ rest ∧
      rest <+: ((repliesTo config tree root stream).map Reply.bytes).getD
        count [] := by
  rw [reference_eq_flatten] at hbegins
  exact receive_of_begins (complete_repliesTo stream) hbegins

end HttpCerver.Reading
