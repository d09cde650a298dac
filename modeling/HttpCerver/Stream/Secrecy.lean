import HttpCerver.Stream.Containment
import HttpCerver.Stream.Reference

/-!
# Secrecy of what is outside of the root

Two document trees that look the same from the root downwards, with the same
files in them, are the same to every client: the answers do not depend on
anything else in the file system.
-/

namespace HttpCerver.Secrecy

open HttpCerver.Answers
open HttpCerver.Bytes
open HttpCerver.Config
open HttpCerver.Containment
open HttpCerver.File
open HttpCerver.Paths
open HttpCerver.Reference
open HttpCerver.Request
open HttpCerver.Resolution
open HttpCerver.System
open HttpCerver.Walk

/-- Two file systems that are the same beneath the document root. -/
structure SameSite (tree tree' : DocumentTree) (site site' : Tree)
    (root : Inode) : Prop where
  mounted : Mounted tree site.fileSystem
  mounted' : Mounted tree' site'.fileSystem
  beneath : SameBeneath tree tree' root
  fstat : ∀ {names node}, Beneath tree root names node →
    site'.fileSystem.fstat node = site.fileSystem.fstat node
  content : ∀ {names node}, Beneath tree root names node →
    site'.fileSystem.content node = site.fileSystem.content node

section Secrecy

variable {tree tree' : DocumentTree} {site site' : Tree} {root : Inode}
variable {config : ServerConfig}

theorem SameSite.same_index {names : List (List Byte)} {directory : Inode}
    (h : SameSite tree tree' site site' root)
    (hbeneath : Beneath tree root names directory) (clock : ℕ) :
    resolveIndex (fun _ => site'.fileSystem) clock directory =
      resolveIndex (fun _ => site.fileSystem) clock directory := by
  have hindex : indexOf tree' directory = indexOf tree directory :=
    (h.beneath.descend hbeneath).reach _
  rw [resolveIndex, resolveIndex, h.mounted'.openat2_index,
    h.mounted.openat2_index, hindex]
  cases hfound : indexOf tree directory with
  | error failure => rfl
  | ok node =>
      obtain ⟨more, -, hnode⟩ := follow_beneath .start (follow_of_reach hfound)
      dsimp only [Except.mapError]
      rw [h.fstat (hbeneath.append hnode)]

theorem SameSite.same_file (h : SameSite tree tree' site site' root)
    (clock : ℕ) (path : List Byte) :
    resolveAt (fun _ => site'.fileSystem) clock (some root) path =
      resolveAt (fun _ => site.fileSystem) clock (some root) path := by
  have hwalk : walkOf tree' root path = walkOf tree root path :=
    h.beneath.reach _
  rw [resolveAt, resolveAt, h.mounted'.openat2_relativePath,
    h.mounted.openat2_relativePath, hwalk]
  congr 1
  cases hfound : walkOf tree root path with
  | error failure => rfl
  | ok node =>
      obtain ⟨names, -, hnode⟩ := named_of_walk hfound
      dsimp only [Except.mapError]
      rw [h.fstat hnode]
      cases site.fileSystem.fstat node with
      | error errno => rfl
      | ok st =>
          dsimp only
          cases st.fileType with
          | regular | special => rfl
          | directory => exact h.same_index hnode (clock + 2)

theorem SameSite.same_answer (h : SameSite tree tree' site site' root)
    (config : ServerConfig) (head : List Byte) :
    answerTo config site' (some root) head =
      answerTo config site (some root) head := by
  have hresolve : resolveAt (fun _ => site'.fileSystem) 0 (some root) =
      resolveAt (fun _ => site.fileSystem) 0 (some root) :=
    funext (h.same_file 0)
  rw [answerTo, answerTo, hresolve]

/-- A file that is served is beneath the root. -/
theorem SameSite.beneath_of_content (h : SameSite tree tree' site site' root)
    {config : ServerConfig} {head : List Byte} {file : OpenedFile}
    {sendBody : Bool}
    (hcontent : (answerTo config site (some root) head).content =
      .file file sendBody) :
    ∃ names, Beneath tree root names file.inode := by
  rw [answerTo, answer] at hcontent
  cases hjudge : judge config head with
  | error refusal =>
      rw [hjudge] at hcontent
      cases hcontent
  | ok request =>
      have hresolves := resolveAt_resolves (fun _ => h.mounted) 0 root
        (head?_path (judge_eq_ok_iff.mp hjudge).1)
      rw [hjudge] at hcontent
      dsimp only at hcontent
      generalize resolveAt (fun _ => site.fileSystem) 0 (some root)
        request.path = resolved at hresolves hcontent
      cases resolved with
      | error errno => cases hcontent
      | ok served =>
          cases hcontent
          exact (serves_of_resolves hresolves).beneath

theorem SameSite.same_rendered (h : SameSite tree tree' site site' root)
    (config : ServerConfig) (head : List Byte) :
    rendered site' (answerTo config site (some root) head) =
      rendered site (answerTo config site (some root) head) := by
  rw [rendered, rendered]
  cases hcontent : (answerTo config site (some root) head).content with
  | page text => rfl
  | file file sendBody =>
      obtain ⟨names, hbeneath⟩ := h.beneath_of_content hcontent
      cases sendBody with
      | false => rfl
      | true =>
          dsimp only
          rw [h.content hbeneath]

theorem SameSite.same_reference (h : SameSite tree tree' site site' root)
    (config : ServerConfig) (stream : List Byte) :
    reference config site' (some root) stream =
      reference config site (some root) stream := by
  have hanswers : answerTo config site' (some root) =
      answerTo config site (some root) := funext (h.same_answer config)
  have hrendered : (fun head => rendered site'
      (answerTo config site (some root) head)) =
      fun head => rendered site (answerTo config site (some root) head) :=
    funext (h.same_rendered config)
  rw [reference, reference, conversation, conversation, hanswers, hrendered]

end Secrecy

/-- A tree of documents with their contents. -/
def siteOf (tree : DocumentTree) (content : Inode → List Byte)
    (hcontent : ∀ inode, (content inode).length < 2 ^ 63) : Tree where
  fileSystem := fileSystemOf tree content hcontent
  length_content inode st hstat hregular := by
    cases hstat
    rfl

/-- The site with another directory next to its root. -/
def neighbouredTree : DocumentTree where
  kind inode := if inode = 0 ∨ inode = 7 then .directory else .regular
  entry directory name :=
    if directory = 0 ∧ name = defaultIndexFile then some 1
    else if directory = 7 ∧ name = ascii "key" then some 8
    else none
  parent inode := if inode = 8 then 7 else 0
  searchable _ := true
  readable _ := true
  nameFits name := name.length ≤ 255
  directory_of_entry {directory node name} hentry := by
    split_ifs at hentry with hindex hkey
    · rw [if_pos (.inl hindex.1)]
    · rw [if_pos (.inr hkey.1)]
  parent_of_entry {directory node name} hentry := by
    split_ifs at hentry with hindex hkey
    · cases hentry
      exact hindex.1.symm
    · cases hentry
      exact hkey.1.symm

def siteContent (secret : List Byte) (inode : Inode) : List Byte :=
  if inode = 1 then ascii "hello" else if inode = 8 then secret else []

theorem beneath_siteTree {names : List (List Byte)} {node : Inode}
    (hbeneath : Beneath siteTree 0 names node) : node = 0 ∨ node = 1 := by
  cases hbeneath with
  | start => exact .inl rfl
  | entry _ hentry _ =>
      simp only [siteTree] at hentry
      split_ifs at hentry
      cases hentry
      exact .inr rfl

theorem sameBeneath_neighbouredTree :
    SameBeneath siteTree neighbouredTree 0 where
  kind hbeneath := by
    obtain rfl | rfl := beneath_siteTree hbeneath <;> rfl
  searchable _ := rfl
  readable _ := rfl
  entry hbeneath := by
    obtain rfl | rfl := beneath_siteTree hbeneath <;> funext name <;>
      simp [siteTree, neighbouredTree]
  entryKind hbeneath hentry := by
    simp only [siteTree] at hentry
    split_ifs at hentry
    cases hentry
    rfl
  nameFits := rfl

/-- The site with nothing next to it, and with a file next to it. -/
def publicSite : Tree :=
  siteOf siteTree (siteContent []) (by
    intro inode
    rw [siteContent]
    split_ifs <;> decide)

def guardedSite : Tree :=
  siteOf neighbouredTree (siteContent (ascii "secret")) (by
    intro inode
    rw [siteContent]
    split_ifs <;> decide)

theorem sameSite_guardedSite :
    SameSite siteTree neighbouredTree publicSite guardedSite 0 where
  mounted := mounted_fileSystemOf _ _ _
  mounted' := mounted_fileSystemOf _ _ _
  beneath := sameBeneath_neighbouredTree
  fstat hbeneath := by
    obtain rfl | rfl := beneath_siteTree hbeneath <;> rfl
  content hbeneath := by
    obtain rfl | rfl := beneath_siteTree hbeneath <;> rfl

end HttpCerver.Secrecy
