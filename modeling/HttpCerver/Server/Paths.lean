import HttpCerver.Core.Walk
import HttpCerver.Parse.Grammar
import HttpCerver.Server.Answers

/-!
# Paths in a document tree

The file system as a tree of directories in which `openat2` walks.  What
`file_open_path` makes of a request path is then given by two walks: one from
the document root and, when that ends at a directory, one to its index file.
-/

namespace HttpCerver.Paths

open HttpCerver.Answers
open HttpCerver.Bytes
open HttpCerver.Config
open HttpCerver.File
open HttpCerver.Grammar
open HttpCerver.Http
open HttpCerver.Request
open HttpCerver.Resolution
open HttpCerver.Response
open HttpCerver.System
open HttpCerver.Walk

abbrev DocumentTree := Hierarchy Inode (List Byte)

/-- A component of a path between two slashes. -/
def componentOf (name : List Byte) : Component (List Byte) :=
  if name = [] ∨ name = ascii "." then .stay
  else if name = ascii ".." then .up
  else .down name

def componentsOf (path : List Byte) : List (Component (List Byte)) :=
  (path.splitOn slash).map componentOf

/-- The error of the kernel for a bad step. -/
def errnoOf : Failure → Errno
  | .escape => .exdev
  | .link => .eloop
  | .missing => .enoent
  | .notDirectory => .enotdir
  | .nameTooLong => .enametoolong
  | .denied => .eacces

def fileTypeOf : Kind → FileType
  | .directory => .directory
  | .regular => .regular
  | .link => .special
  | .special => .special

/-- `openat2` with the flags of the server walks in the tree, and `fstat`
tells the kinds of its objects. -/
structure Mounted (tree : DocumentTree) (fileSystem : FileSystem) : Prop where
  absolute : ∀ directory path, path.head? = some slash →
    fileSystem.openat2 directory path openHow = .error .exdev
  relative : ∀ directory path, path ≠ [] → path.head? ≠ some slash →
    fileSystem.openat2 directory path openHow =
      (reach tree directory (componentsOf path)).mapError errnoOf
  fstat : ∀ inode st, fileSystem.fstat inode = .ok st →
    st.fileType = fileTypeOf (tree.kind inode)

/-- The walk for a request path. -/
def walkOf (tree : DocumentTree) (root : Inode) (path : List Byte) :
    Except Failure Inode :=
  reach tree root (componentsOf path)

/-- The walk for the index file of a directory. -/
def indexOf (tree : DocumentTree) (directory : Inode) :
    Except Failure Inode :=
  reach tree directory [.down defaultIndexFile]

theorem relativePath_ne_nil (path : List Byte) : relativePath path ≠ [] := by
  rw [relativePath]
  split_ifs with hstripped
  · decide
  · exact hstripped

/-- A path handed to `openat2` is never absolute. -/
theorem head?_relativePath (path : List Byte) :
    (relativePath path).head? ≠ some slash := by
  rw [relativePath]
  split_ifs with hstripped
  · decide
  · intro hhead
    have hkept := List.head?_dropWhile_not (fun c => decide (c = slash)) path
    rw [hhead] at hkept
    simp at hkept

theorem componentsOf_ne_nil (path : List Byte) : componentsOf path ≠ [] := by
  simp [componentsOf]

theorem componentsOf_slash (path : List Byte) :
    componentsOf (slash :: path) = .stay :: componentsOf path := by
  rw [componentsOf, List.splitOn_cons_eq_if_modifyHead, if_pos (by simp),
    List.map_cons]
  rfl

/-- Leading slashes do not change where a path leads. -/
theorem follow_dropWhile_slash (tree : DocumentTree) (start : Inode)
    (path : List Byte) :
    follow tree start start (componentsOf (path.dropWhile (· = slash))) =
      follow tree start start (componentsOf path) := by
  induction path with
  | nil => rfl
  | cons c rest ih =>
      by_cases hc : c = slash
      · rw [List.dropWhile_cons_of_pos (by simpa using hc), ih, hc,
          componentsOf_slash, follow_stay (componentsOf_ne_nil rest)]
      · rw [List.dropWhile_cons_of_neg (by simpa using hc)]

/-- Nor does the form in which `openat2` gets it. -/
theorem reach_relativePath (tree : DocumentTree) (root : Inode)
    (path : List Byte) :
    reach tree root (componentsOf (relativePath path)) =
      walkOf tree root path := by
  have hfollow : follow tree root root (componentsOf (relativePath path)) =
      follow tree root root (componentsOf path) := by
    rw [relativePath, ← follow_dropWhile_slash tree root path]
    split_ifs with hstripped
    · rw [hstripped]
      rfl
    · rfl
  rw [walkOf, reach, hfollow, reach]

theorem Mounted.openat2_relativePath {tree : DocumentTree}
    {fileSystem : FileSystem} (h : Mounted tree fileSystem) (root : Inode)
    (path : List Byte) :
    fileSystem.openat2 root (relativePath path) openHow =
      (walkOf tree root path).mapError errnoOf := by
  rw [← reach_relativePath]
  exact h.relative root _ (relativePath_ne_nil path) (head?_relativePath path)

theorem Mounted.openat2_index {tree : DocumentTree}
    {fileSystem : FileSystem} (h : Mounted tree fileSystem)
    (directory : Inode) :
    fileSystem.openat2 directory defaultIndexFile openHow =
      (indexOf tree directory).mapError errnoOf := by
  have hcomponents : componentsOf defaultIndexFile =
      [.down defaultIndexFile] := by decide +kernel
  rw [indexOf, ← hcomponents]
  exact h.relative directory _ (by decide) (by decide)

/-- The path of an accepted request begins with a slash. -/
theorem head?_path {buffer : CString} {config : ServerConfig}
    {request : HttpRequest}
    (hparse : httpParseRequest buffer config = .ok request) :
    request.path.head? = some slash := by
  obtain ⟨target, lines, after, ⟨-, -, -, -, htarget, -⟩, -⟩ :=
    httpParseRequest_sound hparse
  generalize request.path = path at htarget ⊢
  generalize request.query = query at htarget
  have hpath : ∃ encoded, EncodedPath encoded path := by
    cases htarget with
    | path hpath => exact ⟨_, hpath⟩
    | query hpath => exact ⟨_, hpath⟩
  obtain ⟨encoded, hslash, -, hdecodes, -⟩ := hpath
  cases hdecodes with
  | nil => cases hslash
  | literal hc hrest => exact hslash
  | escape hhigh hlow hrest =>
      rw [List.head?_cons, Option.some.injEq] at hslash
      exact absurd hslash (by decide)

/-- Everything a request path can resolve to. -/
inductive Resolves (tree : DocumentTree) (fileSystem : ℕ → FileSystem)
    (root : Inode) (path : List Byte) : Except Errno OpenedFile → Prop
  | stopped {failure : Failure}
      (hwalk : walkOf tree root path = .error failure) :
      Resolves tree fileSystem root path
        (.error (refusedErrno (errnoOf failure)))
  | unstated {moment : ℕ} {node : Inode} {errno : Errno}
      (hwalk : walkOf tree root path = .ok node)
      (hstat : (fileSystem moment).fstat node = .error errno) :
      Resolves tree fileSystem root path (.error errno)
  | special {node : Inode} (hwalk : walkOf tree root path = .ok node)
      (hregular : tree.kind node ≠ .regular)
      (hdirectory : tree.kind node ≠ .directory) :
      Resolves tree fileSystem root path (.error .eacces)
  | file {file : OpenedFile} (hwalk : walkOf tree root path = .ok file.inode)
      (hregular : tree.kind file.inode = .regular) :
      Resolves tree fileSystem root path (.ok file)
  | noIndex {directory : Inode} {failure : Failure}
      (hwalk : walkOf tree root path = .ok directory)
      (hdirectory : tree.kind directory = .directory)
      (hindex : indexOf tree directory = .error failure) :
      Resolves tree fileSystem root path
        (.error (refusedErrno (errnoOf failure)))
  | unstatedIndex {directory node : Inode} {moment : ℕ} {errno : Errno}
      (hwalk : walkOf tree root path = .ok directory)
      (hdirectory : tree.kind directory = .directory)
      (hindex : indexOf tree directory = .ok node)
      (hstat : (fileSystem moment).fstat node = .error errno) :
      Resolves tree fileSystem root path (.error errno)
  | badIndex {directory node : Inode}
      (hwalk : walkOf tree root path = .ok directory)
      (hdirectory : tree.kind directory = .directory)
      (hindex : indexOf tree directory = .ok node)
      (hregular : tree.kind node ≠ .regular) :
      Resolves tree fileSystem root path (.error .eacces)
  | index {directory : Inode} {file : OpenedFile}
      (hwalk : walkOf tree root path = .ok directory)
      (hdirectory : tree.kind directory = .directory)
      (hindex : indexOf tree directory = .ok file.inode)
      (hregular : tree.kind file.inode = .regular) :
      Resolves tree fileSystem root path (.ok file)

theorem fileTypeOf_eq_regular_iff {kind : Kind} :
    fileTypeOf kind = .regular ↔ kind = .regular := by
  cases kind <;> decide

theorem fileTypeOf_eq_directory_iff {kind : Kind} :
    fileTypeOf kind = .directory ↔ kind = .directory := by
  cases kind <;> decide

theorem resolveAt_resolves {tree : DocumentTree} {fileSystem : ℕ → FileSystem}
    (hmounted : ∀ clock, Mounted tree (fileSystem clock)) (clock : ℕ)
    (root : Inode) {path : List Byte} (hslash : path.head? = some slash) :
    Resolves tree fileSystem root path
      (resolveAt fileSystem clock (some root) path) := by
  unfold resolveAt
  rw [if_neg (not_not.mpr hslash)]
  dsimp only
  rw [(hmounted clock).openat2_relativePath]
  cases hwalk : walkOf tree root path with
  | error failure => exact .stopped hwalk
  | ok node =>
      dsimp only [Except.mapError]
      cases hstat : (fileSystem (clock + 1)).fstat node with
      | error errno => exact .unstated hwalk hstat
      | ok st =>
          have htype := (hmounted (clock + 1)).fstat node st hstat
          dsimp only
          cases hkind : st.fileType with
          | regular =>
              rw [hkind, eq_comm, fileTypeOf_eq_regular_iff] at htype
              exact .file hwalk htype
          | special =>
              rw [hkind] at htype
              refine .special hwalk ?_ ?_
              · rw [ne_eq, ← fileTypeOf_eq_regular_iff, ← htype]
                decide
              · rw [ne_eq, ← fileTypeOf_eq_directory_iff, ← htype]
                decide
          | directory =>
              rw [hkind, eq_comm, fileTypeOf_eq_directory_iff] at htype
              dsimp only
              rw [resolveIndex, (hmounted (clock + 2)).openat2_index]
              cases hindex : indexOf tree node with
              | error failure => exact .noIndex hwalk htype hindex
              | ok index =>
                  dsimp only [Except.mapError]
                  cases hlater : (fileSystem (clock + 2 + 1)).fstat index with
                  | error errno => exact .unstatedIndex hwalk htype hindex hlater
                  | ok st' =>
                      have htype' :=
                        (hmounted (clock + 2 + 1)).fstat index st' hlater
                      dsimp only
                      by_cases hregular : st'.fileType ≠ .regular
                      · rw [if_pos hregular]
                        rw [htype', ne_eq, fileTypeOf_eq_regular_iff]
                          at hregular
                        exact .badIndex hwalk htype hindex hregular
                      · rw [if_neg hregular]
                        rw [not_not, htype', fileTypeOf_eq_regular_iff]
                          at hregular
                        exact .index hwalk htype hindex hregular

/-- A response with status 200 serves the file that its request's path resolves
to. -/
theorem served_of_ok {tree : DocumentTree} {root : Inode} {rootFd : Fd}
    {w : World} (hmounted : ∀ clock, Mounted tree (w.fileSystem clock))
    (hroot : inodeOf w rootFd = some root) {config : ServerConfig}
    {buffer : List Byte} {length : ℕ} {response : HttpResponse}
    {closing : Bool}
    (hcode : (httpPrepareResponse buffer length response closing rootFd config
      w).code = .success)
    (hstatus : HasStatus (httpPrepareResponse buffer length response closing
      rootFd config w).response.headers .ok) :
    let prepared := httpPrepareResponse buffer length response closing rootFd
      config w
    ∃ request file fd, judge config (buffer.take length) = .ok request ∧
      Resolves tree w.fileSystem root request.path (.ok file) ∧
      prepared.response.fileFd = some fd ∧
      inodeOf prepared.world fd = some file.inode ∧
      prepared.response.headers =
        (fileAnswer request file closing).headers := by
  intro prepared
  have hready := ready_of_success hcode
  have hheaders := hready.headers
  have hcontent := hready.content
  rw [hheaders, hasStatus_headers_iff] at hstatus
  rw [answer] at hstatus hheaders hcontent
  cases hjudge : judge config (buffer.take length) with
  | error refusal =>
      rw [hjudge] at hstatus
      exact absurd hstatus (judge_eq_error hjudge).1
  | ok request =>
      have hresolves := resolveAt_resolves hmounted w.clock root
        (head?_path (judge_eq_ok_iff.mp hjudge).1)
      rw [hjudge, hroot] at hstatus hheaders hcontent
      dsimp only at hstatus hheaders hcontent
      generalize resolveAt w.fileSystem w.clock (some root) request.path =
        resolved at hresolves hstatus hheaders hcontent
      cases resolved with
      | error errno => exact absurd hstatus (errnoStatus_ne_ok errno)
      | ok file =>
          obtain ⟨fd, serial, -, hfd, -, -, -, hdescriptors⟩ := hcontent
          refine ⟨request, file, fd, rfl, hresolves, hfd, ?_, hheaders⟩
          simp [prepared, inodeOf, fileOf, hdescriptors]

/-- A file system that behaves as `Mounted` says. -/
def fileSystemOf (tree : DocumentTree) (content : Inode → List Byte)
    (hcontent : ∀ inode, (content inode).length < 2 ^ 63) : FileSystem where
  openat2 directory path _ :=
    if path = [] then .error .enoent
    else if path.head? = some slash then .error .exdev
    else (reach tree directory (componentsOf path)).mapError errnoOf
  fstat inode :=
    .ok { fileType := fileTypeOf (tree.kind inode)
          size := (content inode).length
          size_lt := hcontent inode }
  content := content

theorem mounted_fileSystemOf (tree : DocumentTree)
    (content : Inode → List Byte)
    (hcontent : ∀ inode, (content inode).length < 2 ^ 63) :
    Mounted tree (fileSystemOf tree content hcontent) where
  absolute directory path hslash := by
    have hne : path ≠ [] := by
      rintro rfl
      cases hslash
    simp only [fileSystemOf, if_neg hne, if_pos hslash]
  relative directory path hne hslash := by
    simp only [fileSystemOf, if_neg hne, if_neg hslash]
  fstat inode st hstat := by
    cases hstat
    rfl

/-- A document root that holds an index file. -/
def siteTree : DocumentTree where
  kind inode := if inode = 0 then .directory else .regular
  entry directory name :=
    if directory = 0 ∧ name = defaultIndexFile then some 1 else none
  parent _ := 0
  searchable _ := true
  readable _ := true
  nameFits name := name.length ≤ 255
  directory_of_entry {directory node name} hentry := by
    split_ifs at hentry with hname
    rw [if_pos hname.1]
  parent_of_entry {directory node name} hentry := by
    split_ifs at hentry with hname
    exact hname.1.symm

def siteFileSystem : FileSystem :=
  fileSystemOf siteTree (fun inode => if inode = 1 then ascii "hello" else [])
    fun inode => by split_ifs <;> decide

/-- A session at whose start descriptor `3` is the document root. -/
def siteWorld : World :=
  start { incoming := [], recvs := [], sends := [], mallocs := [],
          fileSystem := fun _ => siteFileSystem } [(3, 0)]

theorem inodeOf_siteWorld : inodeOf siteWorld 3 = some 0 := rfl

theorem mounted_siteFileSystem : Mounted siteTree siteFileSystem :=
  mounted_fileSystemOf _ _ _

/-- What is prepared for a head in that session. -/
def preparedInSite (head : List Byte) : Prepared :=
  httpPrepareResponse head head.length httpResponseInit false 3 configInit
    siteWorld

end HttpCerver.Paths
