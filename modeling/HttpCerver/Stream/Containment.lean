import HttpCerver.Server.Paths

/-!
# Containment in the document root

Whatever a request head says and however its path is encoded, a file that is
served is a regular file beneath the document root, found without passing a
symbolic link.  A path whose walk would leave the root or pass a link is
forbidden.
-/

namespace HttpCerver.Containment

open HttpCerver.Answers
open HttpCerver.Bytes
open HttpCerver.Config
open HttpCerver.Delivery
open HttpCerver.File
open HttpCerver.Http
open HttpCerver.Numerals
open HttpCerver.Paths
open HttpCerver.Request
open HttpCerver.Resolution
open HttpCerver.Response
open HttpCerver.System
open HttpCerver.Walk

/-- The regular file that is served for a path: the object the path names or
the index file directly inside it. -/
inductive Serves (tree : DocumentTree) (root : Inode) (path : List Byte) :
    Inode → Prop
  | named {names : List (List Byte)} {node : Inode}
      (hnames : normalise [] (componentsOf path) = some names)
      (hbeneath : Beneath tree root names node)
      (hregular : tree.kind node = .regular) :
      Serves tree root path node
  | index {names : List (List Byte)} {directory node : Inode}
      (hnames : normalise [] (componentsOf path) = some names)
      (hbeneath : Beneath tree root names directory)
      (hdirectory : tree.kind directory = .directory)
      (hentry : tree.entry directory defaultIndexFile = some node)
      (hregular : tree.kind node = .regular) :
      Serves tree root path node

/-- A walk for a path ends where its names lead. -/
theorem named_of_walk {tree : DocumentTree} {root node : Inode}
    {path : List Byte} (hwalk : walkOf tree root path = .ok node) :
    ∃ names, normalise [] (componentsOf path) = some names ∧
      Beneath tree root names node :=
  follow_beneath .start (follow_of_reach hwalk)

theorem serves_of_resolves {tree : DocumentTree}
    {fileSystem : ℕ → FileSystem} {root : Inode} {path : List Byte}
    {file : OpenedFile}
    (hresolves : Resolves tree fileSystem root path (.ok file)) :
    Serves tree root path file.inode := by
  cases hresolves with
  | file hwalk hregular =>
      obtain ⟨names, hnames, hbeneath⟩ := named_of_walk hwalk
      exact .named hnames hbeneath hregular
  | index hwalk hdirectory hindex hregular =>
      obtain ⟨names, hnames, hbeneath⟩ := named_of_walk hwalk
      exact .index hnames hbeneath hdirectory
        (entry_of_follow (follow_of_reach hindex)) hregular

/-- The first bad step of the walk for the path, or else of the walk for the
index file of the directory found, is an escape or a link. -/
inductive Trespasses (tree : DocumentTree) (fileSystem : ℕ → FileSystem)
    (root : Inode) (path : List Byte) : Prop
  | path {failure : Failure} (hfailure : failure = .escape ∨ failure = .link)
      (hfails : FailsAt tree root root (componentsOf path) failure)
  | index {directory : Inode} {failure : Failure}
      (hwalk : walkOf tree root path = .ok directory)
      (hdirectory : tree.kind directory = .directory)
      (hstat : ∀ moment errno,
        (fileSystem moment).fstat directory ≠ .error errno)
      (hfailure : failure = .escape ∨ failure = .link)
      (hfails : FailsAt tree directory directory [.down defaultIndexFile]
        failure)

/-- A file that is served lies beneath the document root. -/
theorem Serves.beneath {tree : DocumentTree} {root node : Inode}
    {path : List Byte} (h : Serves tree root path node) :
    ∃ names, Beneath tree root names node := by
  cases h with
  | named _ hbeneath _ => exact ⟨_, hbeneath⟩
  | index _ hbeneath _ hentry hregular =>
      exact ⟨_, hbeneath.entry hentry (by simp [hregular])⟩

theorem refusedErrno_of_trespass {failure : Failure}
    (hfailure : failure = .escape ∨ failure = .link) :
    refusedErrno (errnoOf failure) = .eacces := by
  rcases hfailure with rfl | rfl <;> rfl

/-- Trespassing is reported as a lack of permission. -/
theorem resolves_of_trespasses {tree : DocumentTree}
    {fileSystem : ℕ → FileSystem} {root : Inode} {path : List Byte}
    {resolved : Except Errno OpenedFile}
    (htrespasses : Trespasses tree fileSystem root path)
    (hresolves : Resolves tree fileSystem root path resolved) :
    resolved = .error .eacces := by
  cases htrespasses with
  | path hfailure hfails =>
      have hwalk : walkOf tree root path = _ := reach_of_failsAt hfails
      cases hresolves with
      | stopped hstopped =>
          cases hwalk.symm.trans hstopped
          rw [refusedErrno_of_trespass hfailure]
      | unstated hother | special hother | file hother | noIndex hother
        | unstatedIndex hother | badIndex hother | index hother =>
          cases hwalk.symm.trans hother
  | index hwalk hdirectory hstat hfailure hfails =>
      have hindex : indexOf tree _ = _ := reach_of_failsAt hfails
      cases hresolves with
      | stopped hother =>
          cases hwalk.symm.trans hother
      | unstated hother hfailed =>
          cases hwalk.symm.trans hother
          exact absurd hfailed (hstat _ _)
      | special hother hregular hspecial =>
          cases hwalk.symm.trans hother
          exact absurd hdirectory hspecial
      | file hother hregular =>
          cases hwalk.symm.trans hother
          rw [hdirectory] at hregular
          cases hregular
      | noIndex hother _ hfailed =>
          cases hwalk.symm.trans hother
          cases hindex.symm.trans hfailed
          rw [refusedErrno_of_trespass hfailure]
      | unstatedIndex hother _ hfound | badIndex hother _ hfound
        | index hother _ hfound =>
          cases hwalk.symm.trans hother
          cases hindex.symm.trans hfound

/-- A 200 carries a file beneath the document root, and trespassing is
forbidden. -/
theorem document_root_containment {tree : DocumentTree} {root : Inode}
    {rootFd : Fd} {w : World}
    (hmounted : ∀ clock, Mounted tree (w.fileSystem clock))
    (hroot : inodeOf w rootFd = some root) (config : ServerConfig)
    (buffer : List Byte) (length : ℕ) (response : HttpResponse)
    (closing : Bool) :
    let prepared := httpPrepareResponse buffer length response closing rootFd
      config w
    prepared.code = .success →
      (HasStatus prepared.response.headers .ok →
        ∃ request fd node,
          httpParseRequest (cstring (buffer.take length)) config =
            .ok request ∧
          prepared.response.fileFd = some fd ∧
          inodeOf prepared.world fd = some node ∧
          Serves tree root request.path node) ∧
      ∀ request, judge config (buffer.take length) = .ok request →
        Trespasses tree w.fileSystem root request.path →
          HasStatus prepared.response.headers .forbidden ∧
            prepared.response.fileFd = none ∧
            prepared.response.body = errorText .forbidden := by
  intro prepared hcode
  constructor
  · intro hstatus
    obtain ⟨request, file, fd, hjudge, hresolves, hfd, hinode, -⟩ :=
      served_of_ok hmounted hroot hcode hstatus
    exact ⟨request, fd, file.inode, (judge_eq_ok_iff.mp hjudge).1, hfd,
      hinode, serves_of_resolves hresolves⟩
  · intro request hjudge htrespasses
    have hready := ready_of_success hcode
    have hparse := (judge_eq_ok_iff.mp hjudge).1
    have hresolved := resolves_of_trespasses htrespasses
      (resolveAt_resolves hmounted w.clock root (head?_path hparse))
    have hcontent := hready.content
    rw [hready.headers, hasStatus_headers_iff]
    rw [answer] at hcontent ⊢
    rw [hjudge, hroot] at hcontent ⊢
    dsimp only at hcontent ⊢
    rw [hresolved] at hcontent ⊢
    exact ⟨rfl, hcontent.2.1, hcontent.1⟩

/-- The document root, with its dot and its last slash encoded. -/
def encodedRootHead : List Byte :=
  ascii "GET /%2e%2F HTTP/1.0\r\n\r\n"

/-- A path that leaves the document root, with its dots encoded. -/
def encodedEscapeHead : List Byte :=
  ascii "GET /%2e%2e/x HTTP/1.0\r\n\r\n"

def encodedEscapeRequest : HttpRequest where
  method := ascii "GET"
  path := ascii "/../x"
  query := []
  version := ascii "HTTP/1.0"
  headers := []

theorem trespasses_encodedEscapeRequest :
    Trespasses siteTree siteWorld.fileSystem 0 encodedEscapeRequest.path :=
  .path (.inl rfl) ⟨[.stay], .up, [.down (ascii "x")], 0,
    by decide +kernel, rfl, rfl⟩

theorem judge_encodedEscapeHead :
    judge configInit (encodedEscapeHead.take encodedEscapeHead.length) =
      .ok encodedEscapeRequest :=
  judge_eq_ok_iff.mpr ⟨by decide +kernel, by decide +kernel,
    by decide +kernel, by decide +kernel⟩

theorem document_root_containment_encoded :
    (∃ request fd node,
      httpParseRequest (cstring (encodedRootHead.take
        encodedRootHead.length)) configInit = .ok request ∧
      (preparedInSite encodedRootHead).response.fileFd = some fd ∧
      inodeOf (preparedInSite encodedRootHead).world fd = some node ∧
      Serves siteTree 0 request.path node) ∧
    HasStatus (preparedInSite encodedEscapeHead).response.headers
      .forbidden := by
  have hcode : (preparedInSite encodedRootHead).code = .success ∧
      (preparedInSite encodedEscapeHead).code = .success := by
    decide +kernel
  have hheaders : (ascii "HTTP/1.1 " ++ decimal HttpStatus.ok.code).isPrefixOf
      (preparedInSite encodedRootHead).response.headers = true := by
    decide +kernel
  have hstatus : HasStatus (preparedInSite encodedRootHead).response.headers
      .ok := List.isPrefixOf_iff_prefix.mp hheaders
  rw [preparedInSite, preparedInSite] at hcode
  rw [preparedInSite] at hstatus
  rw [preparedInSite, preparedInSite]
  have hcontained (head : List Byte) :=
    document_root_containment (fun _ => mounted_siteFileSystem)
      inodeOf_siteWorld configInit head head.length httpResponseInit false
  exact ⟨(hcontained encodedRootHead hcode.1).1 hstatus,
    ((hcontained encodedEscapeHead hcode.2).2 _ judge_encodedEscapeHead
      trespasses_encodedEscapeRequest).1⟩

end HttpCerver.Containment
