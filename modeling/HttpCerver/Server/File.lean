import HttpCerver.Runtime.System

/-!
# Opening files and naming their type

The model of `file_open_path` and of `mime.c`.  Every exit of `file_open_path`
closes what it opened, except for the descriptor it hands to its caller.
-/

namespace HttpCerver.File

open HttpCerver.Bytes
open HttpCerver.System

/-- `file_t`; the size comes from `fstat` and fits `off_t`. -/
structure FileT where
  fd : Fd
  size : ℕ
  size_lt : size < 2 ^ 63

def defaultIndexFile : List Byte := ascii "index.html"

/-- The resolve flags of every `openat2` call of the server. -/
def openHow : OpenHow where
  beneath := true
  noSymlinks := true

/-- An escape and a symbolic link are both reported as forbidden. -/
def refusedErrno (errno : Errno) : Errno :=
  if errno = .exdev ∨ errno = .eloop then .eacces else errno

/-- The path relative to the document root: leading slashes are stripped and
the empty path is the root itself. -/
def relativePath (requestPath : List Byte) : List Byte :=
  let stripped := requestPath.dropWhile (· = slash)
  if stripped = [] then ascii "." else stripped

/-- The open file, or `errno` when the result is `-1`. -/
def fileOpenPath (rootFd : Fd) (requestPath : List Byte) (w : World) :
    Except Errno FileT × World :=
  if requestPath.head? ≠ some slash then
    (.error .einval, w)
  else
    match openat2 rootFd (relativePath requestPath) openHow w with
    | (.error errno, w) => (.error (refusedErrno errno), w)
    | (.ok fd, w) =>
      match fstat fd w with
      | (.error errno, w) => (.error errno, close fd w)
      | (.ok st, w) =>
        match st.fileType with
        | .regular => (.ok { fd := fd, size := st.size, size_lt := st.size_lt }, w)
        | .directory =>
          match openat2 fd defaultIndexFile openHow w with
          | (.error errno, w) => (.error (refusedErrno errno), close fd w)
          | (.ok indexFd, w) =>
            let w := close fd w
            match fstat indexFd w with
            | (.error errno, w) => (.error errno, close indexFd w)
            | (.ok st, w) =>
              if st.fileType ≠ .regular then
                (.error .eacces, close indexFd w)
              else
                (.ok { fd := indexFd, size := st.size, size_lt := st.size_lt }, w)
        | .special => (.error .eacces, close fd w)

def mimeType (path : List Byte) : List Byte :=
  match strrchr dot path with
  | none => ascii "application/octet-stream"
  | some extension =>
    if extension = ascii ".html" ∨ extension = ascii ".htm" then
      ascii "text/html"
    else if extension = ascii ".css" then
      ascii "text/css"
    else if extension = ascii ".js" then
      ascii "application/javascript"
    else if extension = ascii ".json" then
      ascii "application/json"
    else if extension = ascii ".png" then
      ascii "image/png"
    else if extension = ascii ".jpg" ∨ extension = ascii ".jpeg" then
      ascii "image/jpeg"
    else if extension = ascii ".gif" then
      ascii "image/gif"
    else if extension = ascii ".svg" then
      ascii "image/svg+xml"
    else if extension = ascii ".txt" then
      ascii "text/plain"
    else
      ascii "application/octet-stream"

/-- Every type that `mimeType` can return. -/
def mimeTypes : List (List Byte) :=
  [ascii "text/html", ascii "text/css", ascii "application/javascript",
    ascii "application/json", ascii "image/png", ascii "image/jpeg",
    ascii "image/gif", ascii "image/svg+xml", ascii "text/plain",
    ascii "application/octet-stream"]

theorem mimeType_mem (path : List Byte) : mimeType path ∈ mimeTypes := by
  rw [mimeType, mimeTypes]
  cases strrchr dot path with
  | none => simp only [List.mem_cons, true_or, or_true]
  | some extension =>
      simp only [ite_mem]
      simp only [List.mem_cons, true_or, or_true, implies_true, and_self]

end HttpCerver.File
