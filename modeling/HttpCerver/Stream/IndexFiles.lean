import HttpCerver.Stream.ContentType
import HttpCerver.Stream.Pipelining
import HttpCerver.Stream.Secrecy

/-!
# Directories and their index files

A request for a directory is answered from its index file by a second lookup,
which starts at the directory.  The client gets what it would get by asking
for the index file, unless that is a directory itself; only the content type
follows the path of the request, so that it is right for the index file.
-/

namespace HttpCerver.IndexFiles

open HttpCerver.Answers
open HttpCerver.Bytes
open HttpCerver.Config
open HttpCerver.ContentType
open HttpCerver.File
open HttpCerver.Http
open HttpCerver.Paths
open HttpCerver.Pipelining
open HttpCerver.Reference
open HttpCerver.Request
open HttpCerver.Resolution
open HttpCerver.Secrecy
open HttpCerver.System
open HttpCerver.Walk

/-- The path of the index file of a directory. -/
def indexPath (path : List Byte) : List Byte :=
  path ++ slash :: defaultIndexFile

/-- The path of a directory that can be looked at and whose index file is not a
directory. -/
structure Indexed (tree : DocumentTree) (fileSystem : FileSystem)
    (root : Inode) (path : List Byte) : Prop where
  absolute : path.head? = some slash
  directory : ∃ directory st, walkOf tree root path = .ok directory ∧
    fileSystem.fstat directory = .ok st ∧ st.fileType = .directory ∧
    ∀ node, indexOf tree directory = .ok node →
      tree.kind node ≠ .directory

theorem mimeType_indexPath (path : List Byte) :
    mimeType (indexPath path) = ascii "text/html" := by
  rw [indexPath, mimeType_append_slash]
  decide +kernel

section Lookup

variable {tree : DocumentTree} {fileSystem : FileSystem} {root : Inode}
variable {path : List Byte}

/-- The walk to the index file passes through the directory. -/
theorem walkOf_indexPath {directory : Inode}
    (hwalk : walkOf tree root path = .ok directory) :
    walkOf tree root (indexPath path) = indexOf tree directory := by
  have hindex : componentsOf defaultIndexFile = [.down defaultIndexFile] := by
    decide +kernel
  have hcomponents : componentsOf (indexPath path) =
      componentsOf path ++ [.down defaultIndexFile] := by
    rw [componentsOf, indexPath, List.splitOn_append_cons_self, List.map_append,
      ← componentsOf, ← componentsOf, hindex]
  rw [walkOf, hcomponents, indexOf]
  exact reach_snoc hwalk defaultIndexFile

/-- The two lookups of a directory find what the one of its index file does. -/
theorem resolveAt_indexPath (hmounted : Mounted tree fileSystem)
    (h : Indexed tree fileSystem root path) (clock : ℕ) :
    resolveAt (fun _ => fileSystem) clock (some root) (indexPath path) =
      resolveAt (fun _ => fileSystem) clock (some root) path := by
  obtain ⟨habsolute, directory, st, hwalk, hstat, htype, hindex⟩ := h
  have habsolute' : (indexPath path).head? = some slash := by
    rw [indexPath, List.head?_append, habsolute]
    rfl
  unfold resolveAt
  rw [if_neg (not_not.mpr habsolute), if_neg (not_not.mpr habsolute')]
  simp only [hmounted.openat2_relativePath, walkOf_indexPath hwalk, hwalk,
    Except.mapError, hstat, htype, resolveIndex, hmounted.openat2_index]
  cases hfound : indexOf tree directory with
  | error failure => rfl
  | ok node =>
      dsimp only
      cases hlater : fileSystem.fstat node with
      | error errno => rfl
      | ok st' =>
          have hkind := hmounted.fstat node st' hlater
          have hnot := hindex node hfound
          rw [ne_eq, ← fileTypeOf_eq_directory_iff, ← hkind] at hnot
          dsimp only
          cases hst : st'.fileType with
          | regular => rfl
          | special => rfl
          | directory => exact absurd hst hnot

end Lookup

/-- The answers differ in the content type at most, which is that of a page for
the index file. -/
theorem answerTo_indexPath {config : ServerConfig} {tree : DocumentTree}
    {site : Tree} {root : Inode} {head head' : List Byte}
    {request : HttpRequest} (hmounted : Mounted tree site.fileSystem)
    (hjudge : judge config head = .ok request)
    (hjudge' : judge config head' =
      .ok { request with path := indexPath request.path })
    (h : Indexed tree site.fileSystem root request.path) :
    answerTo config site (some root) head' =
      { answerTo config site (some root) head with
        contentType := ascii "text/html" } := by
  have hresolved := resolveAt_indexPath hmounted h 0
  rw [answerTo, answerTo, answer, answer, hjudge, hjudge']
  dsimp only
  rw [hresolved]
  cases resolveAt (fun _ => site.fileSystem) 0 (some root) request.path with
  | error errno => rfl
  | ok file =>
      dsimp only
      rw [fileAnswer, fileAnswer, mimeType_indexPath]
      rfl

/-- A directory and its index file are the same to a client: the status, the
length, the fate of the connection and the content agree, and only the content
type can differ. -/
theorem directory_is_index {config : ServerConfig} {tree : DocumentTree}
    {site : Tree} {root : Inode} {head head' : List Byte}
    {request : HttpRequest} (hconfig : httpConfigValid config = true)
    (hmounted : Mounted tree site.fileSystem)
    (hhead : Fitting config head) (hhead' : Fitting config head')
    (hjudge : judge config head = .ok request)
    (hjudge' : judge config head' =
      .ok { request with path := indexPath request.path })
    (hindexed : Indexed tree site.fileSystem root request.path)
    {environment environment' : Environment}
    (h : Undisturbed site environment) (h' : Undisturbed site environment')
    (hmallocs : false ∉ environment.mallocs)
    (hmallocs' : false ∉ environment'.mallocs)
    (hincoming : environment.incoming = head)
    (hincoming' : environment'.incoming = head') {rootFd : Fd}
    {inherited : List (Fd × Inode)}
    (hroot : inheritedRoot rootFd inherited = some root) :
    output rootFd config environment inherited =
        rendered site (answerTo config site (some root) head) ∧
      output rootFd config environment' inherited =
        rendered site
          { answerTo config site (some root) head with
            contentType := ascii "text/html" } := by
  have hsize : config.httpBufferSize ≠ 0 := by
    intro hzero
    simp [httpConfigValid, hzero] at hconfig
  have hanswer := answerTo_indexPath hmounted hjudge hjudge' hindexed
  constructor
  · rw [(output_eq hconfig h rootFd inherited).2 hmallocs, hroot, hincoming,
      reference_alone hsize hhead]
  · rw [(output_eq hconfig h' rootFd inherited).2 hmallocs', hroot,
      hincoming', reference_alone hsize hhead', hanswer]

/-- A connection to the small site for a single head. -/
def asking (head : List Byte) : Environment where
  incoming := head
  recvs := []
  sends := []
  mallocs := []
  fileSystem _ := publicSite.fileSystem

def directoryHead : List Byte := ascii "GET / HTTP/1.0\r\n\r\n"

def indexHead : List Byte := ascii "GET //index.html HTTP/1.0\r\n\r\n"

theorem directory_is_index_root :
    output 3 configInit (asking directoryHead) [(3, 0)] =
        rendered publicSite
          (answerTo configInit publicSite (some 0) directoryHead) ∧
      output 3 configInit (asking indexHead) [(3, 0)] =
        rendered publicSite
          { answerTo configInit publicSite (some 0) directoryHead with
            contentType := ascii "text/html" } := by
  have hindexed : Indexed siteTree publicSite.fileSystem 0 (ascii "/") := by
    refine ⟨rfl, 0, _, by decide +kernel, rfl, rfl, ?_⟩
    intro node hnode
    rw [show indexOf siteTree 0 = .ok 1 by decide +kernel] at hnode
    cases hnode
    decide
  have hundisturbed (head : List Byte) :
      Undisturbed publicSite (asking head) :=
    ⟨rfl, by simp [asking], by simp [asking]⟩
  have hjudge : judge configInit directoryHead =
      .ok { method := ascii "GET", path := ascii "/", query := [],
            version := ascii "HTTP/1.0", headers := [] } := by
    decide +kernel
  have hjudge' : judge configInit indexHead =
      .ok { method := ascii "GET", path := indexPath (ascii "/"), query := [],
            version := ascii "HTTP/1.0", headers := [] } := by
    decide +kernel
  exact directory_is_index (by decide) sameSite_guardedSite.mounted
    ⟨by decide +kernel, by decide +kernel⟩
    ⟨by decide +kernel, by decide +kernel⟩ hjudge hjudge' hindexed
    (hundisturbed _) (hundisturbed _) (by simp [asking]) (by simp [asking])
    rfl rfl rfl

end HttpCerver.IndexFiles
