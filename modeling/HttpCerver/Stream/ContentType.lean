import HttpCerver.Core.Search
import HttpCerver.Server.Paths

/-!
# Content types

The type in a header block is computed from the request path, the file may be
an index file that the path does not mention.  For a path that names a file
nothing but its last component matters; for a directory the type is that of
the index file just when the path itself ends like the name of one.
-/

namespace HttpCerver.ContentType

open HttpCerver.Answers
open HttpCerver.Bytes
open HttpCerver.Config
open HttpCerver.File
open HttpCerver.Http
open HttpCerver.Numerals
open HttpCerver.Paths
open HttpCerver.Request
open HttpCerver.Resolution
open HttpCerver.Response
open HttpCerver.Search
open HttpCerver.System
open HttpCerver.Walk

theorem strrchr_eq_none_iff {byte : Byte} {text : List Byte} :
    strrchr byte text = none ↔ byte ∉ text := by
  induction text with
  | nil => simp [strrchr]
  | cons head tail ih =>
      rw [strrchr, List.mem_cons, not_or]
      cases hfound : strrchr byte tail with
      | some found =>
          rw [hfound] at ih
          simp only [reduceCtorEq, false_iff, not_and]
          exact fun _ => ih.not.mp (by simp)
      | none =>
          rw [hfound] at ih
          have hnotMem : byte ∉ tail := ih.mp rfl
          dsimp only
          by_cases hhead : head = byte
          · simp [hhead]
          · simp [hhead, hnotMem, Ne.symm hhead]

/-- What stands in front of a text only matters where the text has none of
the bytes looked for. -/
theorem strrchr_append (byte : Byte) (front back : List Byte) :
    strrchr byte (front ++ back) =
      match strrchr byte back with
      | some found => some found
      | none => (strrchr byte front).map (· ++ back) := by
  induction front with
  | nil =>
      rw [List.nil_append]
      cases strrchr byte back <;> rfl
  | cons head tail ih =>
      rw [List.cons_append, strrchr, ih]
      cases strrchr byte back with
      | some found => rfl
      | none =>
          rw [strrchr]
          cases strrchr byte tail with
          | some found => rfl
          | none =>
              dsimp only [Option.map]
              split_ifs <;> rfl

theorem strrchr_eq_some {byte : Byte} {text found : List Byte}
    (hfound : strrchr byte text = some found) :
    ∃ before after, text = before ++ byte :: after ∧ byte ∉ after ∧
      found = byte :: after := by
  induction text with
  | nil => cases hfound
  | cons head tail ih =>
      rw [strrchr] at hfound
      cases hlater : strrchr byte tail with
      | some later =>
          rw [hlater] at hfound
          cases hfound
          obtain ⟨before, after, htail, hlast, hsame⟩ := ih hlater
          exact ⟨head :: before, after, by rw [htail, List.cons_append],
            hlast, hsame⟩
      | none =>
          rw [hlater] at hfound
          dsimp only at hfound
          split_ifs at hfound with hhead
          cases hfound
          refine ⟨[], tail, ?_, strrchr_eq_none_iff.mp hlater, ?_⟩
          · rw [hhead, List.nil_append]
          · rw [hhead]

/-- No type belongs to an extension with a slash in it. -/
theorem mimeType_of_slash_mem {path extension : List Byte}
    (hdot : strrchr dot path = some extension) (hslash : slash ∈ extension) :
    mimeType path = ascii "application/octet-stream" := by
  have hne : ∀ known : List Byte, slash ∉ known → extension ≠ known := by
    rintro known hnone rfl
    exact hnone hslash
  rw [mimeType, hdot]
  simp only [hne (ascii ".html") (by decide), hne (ascii ".htm") (by decide),
    hne (ascii ".css") (by decide), hne (ascii ".js") (by decide),
    hne (ascii ".json") (by decide), hne (ascii ".png") (by decide),
    hne (ascii ".jpg") (by decide), hne (ascii ".jpeg") (by decide),
    hne (ascii ".gif") (by decide), hne (ascii ".svg") (by decide),
    hne (ascii ".txt") (by decide), or_self, if_false]

/-- Of a path only the last component matters. -/
theorem mimeType_append_slash (front name : List Byte) :
    mimeType (front ++ slash :: name) = mimeType name := by
  have hsplit : front ++ slash :: name = (front ++ [slash]) ++ name := by simp
  have happend := strrchr_append dot (front ++ [slash]) name
  rw [← hsplit] at happend
  cases hname : strrchr dot name with
  | some extension =>
      rw [hname] at happend
      rw [mimeType, happend, mimeType, hname]
  | none =>
      rw [hname] at happend
      have hplain : mimeType name = ascii "application/octet-stream" := by
        rw [mimeType, hname]
      rw [hplain]
      cases hfront : strrchr dot (front ++ [slash]) with
      | none =>
          rw [hfront] at happend
          rw [mimeType, happend]
          rfl
      | some extension =>
          rw [hfront] at happend
          apply mimeType_of_slash_mem happend
          obtain ⟨before, after, htext, -, rfl⟩ := strrchr_eq_some hfront
          have hlast : (dot :: after).getLast? = some slash := by
            rw [← List.getLast?_append_of_ne_nil before (List.cons_ne_nil _ _),
              ← htext, List.getLast?_append_of_ne_nil front (by simp)]
            rfl
          exact List.mem_append_left name (List.mem_of_getLast? hlast)

/-- The last name among the components is what stands behind the last
slash. -/
theorem mimeType_of_last_component {path name : List Byte}
    {before : List (Component (List Byte))}
    (hcomponents : componentsOf path = before ++ [.down name]) :
    mimeType path = mimeType name := by
  have hpiece : ∀ piece, componentOf piece = .down name → piece = name := by
    intro piece hdown
    rw [componentOf] at hdown
    split_ifs at hdown
    cases hdown
    rfl
  cases hlast : strrchr slash path with
  | none =>
      have hslash := strrchr_eq_none_iff.mp hlast
      rw [componentsOf, List.splitOn_eq_singleton hslash, List.map_singleton]
        at hcomponents
      rw [← List.nil_append [componentOf path]] at hcomponents
      have hdown := (List.append_inj' hcomponents rfl).2
      rw [List.cons.injEq] at hdown
      rw [hpiece path hdown.1]
  | some found =>
      obtain ⟨front, tail, rfl, htail, -⟩ := strrchr_eq_some hlast
      rw [componentsOf, List.splitOn_append_cons_of_beq _ _ (by simp),
        List.splitOn_eq_singleton htail, List.map_append, List.map_singleton]
        at hcomponents
      have hdown := (List.append_inj' hcomponents rfl).2
      rw [List.cons.injEq] at hdown
      rw [mimeType_append_slash, hpiece tail hdown.1]

/-- Two extensions have the type of an index file. -/
theorem mimeType_eq_html_iff {path : List Byte} :
    mimeType path = ascii "text/html" ↔
      strrchr dot path = some (ascii ".html") ∨
        strrchr dot path = some (ascii ".htm") := by
  rw [mimeType]
  cases strrchr dot path with
  | none =>
      simp only [reduceCtorEq, or_self, iff_false]
      decide
  | some extension =>
      dsimp only
      rw [Option.some.injEq, Option.some.injEq]
      by_cases hhtml : extension = ascii ".html" ∨ extension = ascii ".htm"
      · exact iff_of_true (if_pos hhtml) hhtml
      · rw [if_neg hhtml]
        apply iff_of_false _ hhtml
        intro hsame
        have hother : ascii "text/html" ∈ mimeTypes.tail := by
          rw [← hsame]
          simp only [ite_mem]
          simp only [mimeTypes, List.tail_cons, List.mem_cons, true_or, or_true,
            implies_true, and_self]
        exact absurd hother (by decide)

/-- The name of the regular file that is served for a path, and the file. -/
inductive ServedAs (tree : DocumentTree) (root : Inode) (path : List Byte) :
    List Byte → Inode → Prop
  | file {before : List (Component (List Byte))} {name : List Byte}
      {node : Inode} (hwalk : walkOf tree root path = .ok node)
      (hregular : tree.kind node = .regular)
      (hlast : componentsOf path = before ++ [.down name]) :
      ServedAs tree root path name node
  | index {directory node : Inode}
      (hwalk : walkOf tree root path = .ok directory)
      (hdirectory : tree.kind directory = .directory)
      (hentry : tree.entry directory defaultIndexFile = some node) :
      ServedAs tree root path defaultIndexFile node

/-- The path names a regular file. -/
def NamesFile (tree : DocumentTree) (root : Inode) (path : List Byte) :
    Prop :=
  ∃ node, walkOf tree root path = .ok node ∧ tree.kind node = .regular

/-- The header block of a success announces a content of this type. -/
def AnnouncesType (headers type : List Byte) : Prop :=
  ascii "HTTP/1.1 200 OK\r\nContent-Type: " ++ type ++ crlf <+: headers

/-- The type that is announced is that of the file put in the response, by the
name it is served under. -/
def DescribesFile (tree : DocumentTree) (root : Inode) (path : List Byte)
    (prepared : Prepared) : Prop :=
  ∃ name fd node, prepared.response.fileFd = some fd ∧
    inodeOf prepared.world fd = some node ∧
    ServedAs tree root path name node ∧
    AnnouncesType prepared.response.headers (mimeType name)

/-- Texts without a symbol that are followed by it are the same. -/
theorem eq_of_append_cons {symbol : Byte} {left right after more : List Byte}
    (hleft : symbol ∉ left) (hright : symbol ∉ right)
    (hsame : left ++ symbol :: after = right ++ symbol :: more) :
    left = right := by
  have hfirst := firstOccurrence_singleton_append hleft after
  rw [hsame, firstOccurrence_singleton_append hright more,
    Option.some.injEq] at hfirst
  exact (List.append_inj hsame hfirst.symm).1

theorem announcesType_headerBlock_iff {type other : List Byte}
    (htype : cr ∉ type) (hother : cr ∉ other) (length : ℕ)
    (keepAlive : Bool) :
    AnnouncesType (headerBlock .ok type length keepAlive) other ↔
      other = type := by
  have hstart : ascii "HTTP/1.1 200 OK\r\nContent-Type: " =
      ascii "HTTP/1.1 " ++ decimal HttpStatus.ok.code ++ ascii " " ++
        httpStatusReason .ok ++ crlf ++ ascii "Content-Type: " := by decide
  rw [AnnouncesType, headerBlock, hstart]
  simp only [List.append_assoc, List.prefix_append_right_inj]
  constructor
  · rintro ⟨rest, hrest⟩
    rw [List.append_assoc] at hrest
    exact eq_of_append_cons hother htype hrest
  · rintro rfl
    rw [← List.append_assoc]
    exact List.prefix_append _ _

/-- The announced type describes the file just when the path names one or has
itself the extension of an index file. -/
theorem content_type_iff {tree : DocumentTree} {root : Inode} {rootFd : Fd}
    {w : World} (hmounted : ∀ clock, Mounted tree (w.fileSystem clock))
    (hroot : inodeOf w rootFd = some root) {config : ServerConfig}
    {buffer : List Byte} {length : ℕ} {request : HttpRequest}
    (hparse : httpParseRequest (cstring (buffer.take length)) config =
      .ok request)
    {response : HttpResponse} {closing : Bool} {prepared : Prepared}
    (hprepared : httpPrepareResponse buffer length response closing rootFd
      config w = prepared)
    (hcode : prepared.code = .success)
    (hstatus : HasStatus prepared.response.headers .ok) :
    DescribesFile tree root request.path prepared ↔
      NamesFile tree root request.path ∨
        strrchr dot request.path = some (ascii ".html") ∨
        strrchr dot request.path = some (ascii ".htm") := by
  subst hprepared
  obtain ⟨found, file, fd, hjudge, hresolves, hfd, hinode, hheaders⟩ :=
    served_of_ok hmounted hroot hcode hstatus
  have hsame := (judge_eq_ok_iff.mp hjudge).1
  rw [hparse] at hsame
  cases hsame
  have hannounced (name : List Byte) :
      AnnouncesType (httpPrepareResponse buffer length response closing rootFd
          config w).response.headers (mimeType name) ↔
        mimeType name = mimeType request.path := by
    rw [hheaders]
    exact announcesType_headerBlock_iff (cr_notMem_mimeType _)
      (cr_notMem_mimeType _) _ _
  have hindexType : mimeType defaultIndexFile = ascii "text/html" := by
    decide +kernel
  constructor
  · rintro ⟨name, _, node, -, -, hserved, htype⟩
    cases hserved with
    | file hwalk hregular hlast => exact .inl ⟨node, hwalk, hregular⟩
    | index hwalk hdirectory hentry =>
        rw [hannounced, hindexType, eq_comm, mimeType_eq_html_iff] at htype
        exact .inr htype
  · intro hpath
    cases hresolves with
    | file hwalk hregular =>
        obtain ⟨before, name, directory, hlast, -, -⟩ := follow_last
          (componentsOf_ne_nil request.path) (by simp [hregular])
          (follow_of_reach hwalk)
        refine ⟨name, fd, file.inode, hfd, hinode,
          .file hwalk hregular hlast, ?_⟩
        rw [hannounced, mimeType_of_last_component hlast]
    | index hwalk hdirectory hindex hregular =>
        refine ⟨defaultIndexFile, fd, file.inode, hfd, hinode,
          .index hwalk hdirectory (entry_of_follow (follow_of_reach hindex)),
          ?_⟩
        rw [hannounced, hindexType, eq_comm, mimeType_eq_html_iff]
        apply hpath.resolve_left
        rintro ⟨node, hother, hfile⟩
        cases hwalk.symm.trans hother
        rw [hdirectory] at hfile
        cases hfile

/-- The document root. -/
def rootHead : List Byte :=
  ascii "GET / HTTP/1.0\r\n\r\n"

def rootRequest : HttpRequest where
  method := ascii "GET"
  path := ascii "/"
  query := []
  version := ascii "HTTP/1.0"
  headers := []

theorem httpParseRequest_rootHead :
    httpParseRequest (cstring (rootHead.take rootHead.length)) configInit =
      .ok rootRequest := by
  decide +kernel

theorem code_rootHead : (preparedInSite rootHead).code = .success := by
  decide +kernel

theorem hasStatus_rootHead :
    HasStatus (preparedInSite rootHead).response.headers .ok := by
  have hheaders : (ascii "HTTP/1.1 " ++ decimal HttpStatus.ok.code).isPrefixOf
      (preparedInSite rootHead).response.headers = true := by decide +kernel
  exact List.isPrefixOf_iff_prefix.mp hheaders

theorem content_type_iff_rootHead :
    DescribesFile siteTree 0 rootRequest.path (preparedInSite rootHead) ↔
      NamesFile siteTree 0 rootRequest.path ∨
        strrchr dot rootRequest.path = some (ascii ".html") ∨
        strrchr dot rootRequest.path = some (ascii ".htm") := by
  have hprepared : httpPrepareResponse rootHead rootHead.length
      httpResponseInit false 3 configInit siteWorld =
        preparedInSite rootHead := by rw [preparedInSite]
  exact content_type_iff (fun _ => mounted_siteFileSystem) inodeOf_siteWorld
    httpParseRequest_rootHead hprepared code_rootHead hasStatus_rootHead

theorem index_type_unannounced :
    ¬ ∀ (tree : DocumentTree) (root : Inode) (rootFd : Fd) (w : World)
      (config : ServerConfig) (buffer : List Byte) (length : ℕ)
      (request : HttpRequest) (response : HttpResponse) (closing : Bool),
      (∀ clock, Mounted tree (w.fileSystem clock)) →
      inodeOf w rootFd = some root →
      httpParseRequest (cstring (buffer.take length)) config = .ok request →
      let prepared := httpPrepareResponse buffer length response closing
        rootFd config w
      prepared.code = .success →
      HasStatus prepared.response.headers .ok →
      DescribesFile tree root request.path prepared := by
  intro hall
  have hcode := code_rootHead
  have hstatus := hasStatus_rootHead
  have hother : (ascii "HTTP/1.1 200 OK\r\nContent-Type: " ++
      mimeType defaultIndexFile ++ crlf).isPrefixOf
        (preparedInSite rootHead).response.headers = false := by
    decide +kernel
  have hwalk : walkOf siteTree 0 rootRequest.path = .ok 0 := by rfl
  rw [preparedInSite] at hcode hstatus hother
  obtain ⟨name, fd, node, -, -, hserved, htype⟩ := hall siteTree 0 3 siteWorld
    configInit rootHead rootHead.length rootRequest httpResponseInit false
    (fun _ => mounted_siteFileSystem) inodeOf_siteWorld
    httpParseRequest_rootHead hcode hstatus
  cases hserved with
  | file hfound hregular _ =>
      cases hwalk.symm.trans hfound
      cases hregular
  | index hfound hdirectory hentry =>
      rw [AnnouncesType, ← List.isPrefixOf_iff_prefix, hother] at htype
      cases htype

end HttpCerver.ContentType
