import HttpCerver.Server.Paths

/-!
# Paths that name nothing

In a tree of readable files and directories a missing component is answered
with 404.  A component behind a regular file and one with too long a name have
error numbers of their own, which nobody maps: there the answer is 500.
-/

namespace HttpCerver.NotFound

open HttpCerver.Answers
open HttpCerver.Bytes
open HttpCerver.Config
open HttpCerver.File
open HttpCerver.Http
open HttpCerver.Numerals
open HttpCerver.Paths
open HttpCerver.Request
open HttpCerver.Resolution
open HttpCerver.Response
open HttpCerver.System
open HttpCerver.Walk

/-- Everything beneath the root is a readable regular file or a readable
directory, and names have at most 255 bytes. -/
structure Plain (tree : DocumentTree) (root : Inode) : Prop where
  kind : ∀ names node, Beneath tree root names node →
    tree.kind node = .directory ∨ tree.kind node = .regular
  searchable : ∀ names node, Beneath tree root names node →
    tree.searchable node = true
  readable : ∀ names node, Beneath tree root names node →
    tree.readable node = true
  linkless : ∀ names node, Beneath tree root names node →
    ∀ name child, tree.entry node name = some child →
      tree.kind child ≠ .link
  nameFits : ∀ name, tree.nameFits name = true ↔ name.length ≤ 255

/-- The walk does not leave the root, but there is no object of that name, or
it is a directory without an index file. -/
inductive NamesNothing (tree : DocumentTree) (root : Inode)
    (path : List Byte) : Prop
  | failed {failure : Failure} (hwalk : walkOf tree root path = .error failure)
      (hbeneath : failure ≠ .escape)
  | noIndex {directory : Inode} (hwalk : walkOf tree root path = .ok directory)
      (hdirectory : tree.kind directory = .directory)
      (hentry : tree.entry directory defaultIndexFile = none)

/-- The walk comes to a component behind a regular file or to one with too
long a name. -/
def Obstructed (tree : DocumentTree) (root : Inode) (path : List Byte) :
    Prop :=
  ∃ before component after node,
    componentsOf path = before ++ component :: after ∧
    follow tree root root before = .ok node ∧
    (tree.kind node = .regular ∨
      ∃ name, component = .down name ∧ 255 < name.length)

theorem namesNothing_iff_of_error {tree : DocumentTree} {root : Inode}
    {path : List Byte} {failure : Failure}
    (hwalk : walkOf tree root path = .error failure) :
    NamesNothing tree root path ↔ failure ≠ .escape := by
  constructor
  · intro hnothing
    cases hnothing with
    | failed hother hbeneath =>
        cases hwalk.symm.trans hother
        exact hbeneath
    | noIndex hother => cases hwalk.symm.trans hother
  · exact fun hbeneath => .failed hwalk hbeneath

theorem namesNothing_iff_of_ok {tree : DocumentTree} {root node : Inode}
    {path : List Byte} (hwalk : walkOf tree root path = .ok node) :
    NamesNothing tree root path ↔
      tree.kind node = .directory ∧
        tree.entry node defaultIndexFile = none := by
  constructor
  · intro hnothing
    cases hnothing with
    | failed hother => cases hwalk.symm.trans hother
    | noIndex hother hdirectory hentry =>
        cases hwalk.symm.trans hother
        exact ⟨hdirectory, hentry⟩
  · exact fun ⟨hdirectory, hentry⟩ => .noIndex hwalk hdirectory hentry

section Plain

variable {tree : DocumentTree} {root : Inode} (hplain : Plain tree root)

include hplain

/-- What can go wrong in a plain tree. -/
theorem Plain.step_error {start node : Inode} {failure : Failure}
    {names : List (List Byte)} {component : Component (List Byte)}
    (hbeneath : Beneath tree root names node)
    (hstep : step tree start node component = .error failure) :
    (failure = .notDirectory ∧ tree.kind node = .regular) ∨
    (failure = .nameTooLong ∧
      ∃ name, component = .down name ∧ 255 < name.length) ∨
    (failure = .escape ∧ component = .up) ∨
    (failure = .missing ∧
      ∃ name, component = .down name ∧ tree.entry node name = none) := by
  have houtcome := step_spec tree start node component
  rw [hstep] at houtcome
  cases houtcome with
  | notDirectory hkind =>
      exact .inl ⟨rfl, (hplain.kind names node hbeneath).resolve_left hkind⟩
  | unsearchable hsearch =>
      rw [hplain.searchable names node hbeneath] at hsearch
      cases hsearch
  | escape hstart => exact .inr (.inr (.inl ⟨rfl, rfl⟩))
  | nameTooLong hkind hfits =>
      refine .inr (.inl ⟨rfl, _, rfl, ?_⟩)
      by_contra hshort
      rw [(hplain.nameFits _).mpr (Nat.le_of_not_lt hshort)] at hfits
      cases hfits
  | missing hentry => exact .inr (.inr (.inr ⟨rfl, _, rfl, hentry⟩))
  | link hentry hkind =>
      exact absurd hkind (hplain.linkless names node hbeneath _ _ hentry)

/-- A walk in a plain tree fails at a step. -/
theorem Plain.failsAt {path : List Byte} {failure : Failure}
    (hwalk : walkOf tree root path = .error failure) :
    FailsAt tree root root (componentsOf path) failure := by
  rcases failsAt_of_reach hwalk with hfails | ⟨node, hfollow, hreadable⟩
  · exact hfails
  · obtain ⟨names, -, hbeneath⟩ := follow_beneath .start hfollow
    rw [hplain.readable names node hbeneath] at hreadable
    cases hreadable

/-- The walk is obstructed when it fails in one of two ways. -/
theorem Plain.obstructed_iff {path : List Byte} :
    Obstructed tree root path ↔
      walkOf tree root path = .error .notDirectory ∨
        walkOf tree root path = .error .nameTooLong := by
  constructor
  · rintro ⟨before, component, after, node, hsplit, hbefore, hcause⟩
    obtain ⟨names, -, hbeneath⟩ := follow_beneath .start hbefore
    by_cases hkind : tree.kind node ≠ .directory
    · left
      refine reach_of_failsAt ⟨before, component, after, node, hsplit,
        hbefore, ?_⟩
      unfold step
      rw [if_pos hkind]
    · right
      rcases hcause with hregular | ⟨name, rfl, hlong⟩
      · rw [hregular] at hkind
        exact absurd (by decide) hkind
      refine reach_of_failsAt ⟨before, .down name, after, node, hsplit,
        hbefore, ?_⟩
      have hfits : ¬ tree.nameFits name := by
        rw [hplain.nameFits]
        exact Nat.not_le_of_lt hlong
      have hsearch := hplain.searchable names node hbeneath
      unfold step
      rw [if_neg hkind, if_neg (not_not.mpr hsearch)]
      dsimp only
      rw [if_pos hfits]
  · rintro (hwalk | hwalk)
    · obtain ⟨before, component, after, node, hsplit, hbefore, hstep⟩ :=
        hplain.failsAt hwalk
      obtain ⟨names, -, hbeneath⟩ := follow_beneath .start hbefore
      refine ⟨before, component, after, node, hsplit, hbefore, .inl ?_⟩
      simpa using hplain.step_error hbeneath hstep
    · obtain ⟨before, component, after, node, hsplit, hbefore, hstep⟩ :=
        hplain.failsAt hwalk
      obtain ⟨names, -, hbeneath⟩ := follow_beneath .start hbefore
      refine ⟨before, component, after, node, hsplit, hbefore, .inr ?_⟩
      simpa using hplain.step_error hbeneath hstep

/-- Apart from that, a walk can leave the root or miss a name. -/
theorem Plain.walkOf_error {path : List Byte} {failure : Failure}
    (hwalk : walkOf tree root path = .error failure) :
    failure = .notDirectory ∨ failure = .nameTooLong ∨ failure = .escape ∨
      failure = .missing := by
  obtain ⟨before, component, after, node, -, hbefore, hstep⟩ :=
    hplain.failsAt hwalk
  obtain ⟨names, -, hbeneath⟩ := follow_beneath .start hbefore
  exact (hplain.step_error hbeneath hstep).imp And.left
    (Or.imp And.left (Or.imp And.left And.left))

/-- A directory that is reached has an index file that can be opened, or
none. -/
theorem Plain.indexOf_error {path : List Byte} {directory : Inode}
    {failure : Failure} (hwalk : walkOf tree root path = .ok directory)
    (hdirectory : tree.kind directory = .directory)
    (hindex : indexOf tree directory = .error failure) :
    failure = .missing ∧ tree.entry directory defaultIndexFile = none := by
  obtain ⟨names, -, hbeneath⟩ :=
    follow_beneath .start (follow_of_reach hwalk)
  rcases failsAt_of_reach hindex with hfails | ⟨node, hfollow, hreadable⟩
  · rcases hplain.step_error hbeneath (step_of_failsAt hfails) with
      ⟨-, hregular⟩ | ⟨-, name, hname, hlong⟩ | ⟨-, hup⟩ |
        ⟨hmissing, name, hname, hentry⟩
    · rw [hdirectory] at hregular
      cases hregular
    · cases hname
      exact absurd hlong (by decide)
    · cases hup
    · cases hname
      exact ⟨hmissing, hentry⟩
  · have hentry := entry_of_follow hfollow
    have hchild := hbeneath.entry hentry
      (hplain.linkless names directory hbeneath _ _ hentry)
    rw [hplain.readable _ node hchild] at hreadable
    cases hreadable

end Plain

theorem errnoStatus_errnoOf (failure : Failure) :
    errnoStatus (refusedErrno (errnoOf failure)) =
      match failure with
      | .escape => .forbidden
      | .link => .forbidden
      | .missing => .notFound
      | .notDirectory => .internalServerError
      | .nameTooLong => .internalServerError
      | .denied => .forbidden := by
  cases failure <;> rfl

/-- A path that names nothing is answered with 404, and no path with 500. -/
def NotFoundKept (tree : DocumentTree) (root : Inode) (path : List Byte)
    (headers : List Byte) : Prop :=
  (NamesNothing tree root path → HasStatus headers .notFound) ∧
    ¬ HasStatus headers .internalServerError

/-- In a plain tree, where `fstat` does not fail, it is the obstructed paths
that are answered wrongly. -/
theorem not_found_iff {tree : DocumentTree} {root : Inode} {rootFd : Fd}
    {w : World} (hmounted : ∀ clock, Mounted tree (w.fileSystem clock))
    (hplain : Plain tree root)
    (hstat : ∀ clock inode errno,
      (w.fileSystem clock).fstat inode ≠ .error errno)
    (hroot : inodeOf w rootFd = some root) {config : ServerConfig}
    {buffer : List Byte} {length : ℕ} {request : HttpRequest}
    (hjudge : judge config (buffer.take length) = .ok request)
    {response : HttpResponse} {closing : Bool}
    (hcode : (httpPrepareResponse buffer length response closing rootFd config
      w).code = .success) :
    NotFoundKept tree root request.path
        (httpPrepareResponse buffer length response closing rootFd config
          w).response.headers ↔
      ¬ Obstructed tree root request.path := by
  have hready := ready_of_success hcode
  have hparse := (judge_eq_ok_iff.mp hjudge).1
  have hresolves := resolveAt_resolves hmounted w.clock root (head?_path hparse)
  rw [NotFoundKept, hready.headers, hasStatus_headers_iff,
    hasStatus_headers_iff, hplain.obstructed_iff, hroot]
  rw [answer]
  rw [hjudge]
  dsimp only
  generalize resolveAt w.fileSystem w.clock (some root) request.path =
    resolved at hresolves
  cases hresolves with
  | stopped hwalk =>
      rw [namesNothing_iff_of_error hwalk]
      dsimp only [Refusal.answer]
      rw [errnoStatus_errnoOf, hwalk]
      rcases hplain.walkOf_error hwalk with rfl | rfl | rfl | rfl <;> simp
  | unstated hwalk hfailed => exact absurd hfailed (hstat _ _ _)
  | unstatedIndex _ _ _ hfailed => exact absurd hfailed (hstat _ _ _)
  | special hwalk hregular hdirectory =>
      obtain ⟨names, -, hbeneath⟩ :=
        follow_beneath .start (follow_of_reach hwalk)
      exact absurd ((hplain.kind names _ hbeneath).resolve_left hdirectory)
        hregular
  | file hwalk hregular =>
      rw [namesNothing_iff_of_ok hwalk, hregular, hwalk]
      simp [fileAnswer]
  | noIndex hwalk hdirectory hindex =>
      obtain ⟨rfl, hentry⟩ := hplain.indexOf_error hwalk hdirectory hindex
      dsimp only [Refusal.answer]
      rw [errnoStatus_errnoOf, hwalk]
      simp
  | badIndex hwalk hdirectory hindex hregular =>
      rw [namesNothing_iff_of_ok hwalk,
        entry_of_follow (follow_of_reach hindex), hwalk]
      simp [Refusal.answer, errnoStatus]
  | index hwalk hdirectory hindex hregular =>
      rw [namesNothing_iff_of_ok hwalk,
        entry_of_follow (follow_of_reach hindex), hwalk]
      simp [fileAnswer]

theorem plain_siteTree : Plain siteTree 0 where
  kind names node _ := by
    dsimp only [siteTree]
    split_ifs
    · exact .inl rfl
    · exact .inr rfl
  searchable _ _ _ := rfl
  readable _ _ _ := rfl
  linkless names node _ name child _ := by
    dsimp only [siteTree]
    split_ifs <;> decide
  nameFits name := by simp [siteTree]

/-- A name behind the index file. -/
def obstructedHead : List Byte :=
  ascii "GET /index.html/x HTTP/1.0\r\n\r\n"

def obstructedRequest : HttpRequest where
  method := ascii "GET"
  path := ascii "/index.html/x"
  query := []
  version := ascii "HTTP/1.0"
  headers := []

theorem judge_obstructedHead :
    judge configInit (obstructedHead.take obstructedHead.length) =
      .ok obstructedRequest :=
  judge_eq_ok_iff.mpr ⟨by decide +kernel, by decide +kernel,
    by decide +kernel, by decide +kernel⟩

theorem fstat_siteWorld (clock : ℕ) (inode : Inode) (errno : Errno) :
    (siteWorld.fileSystem clock).fstat inode ≠ .error errno := by
  intro hfailed
  cases hfailed

theorem code_obstructedHead :
    (preparedInSite obstructedHead).code = .success := by
  decide +kernel

theorem not_found_iff_obstructed :
    NotFoundKept siteTree 0 obstructedRequest.path
        (preparedInSite obstructedHead).response.headers ↔
      ¬ Obstructed siteTree 0 obstructedRequest.path := by
  have hcode := code_obstructedHead
  rw [preparedInSite] at hcode ⊢
  exact not_found_iff (fun _ => mounted_siteFileSystem) plain_siteTree
    fstat_siteWorld inodeOf_siteWorld judge_obstructedHead hcode

theorem obstructed_path_is_server_error :
    ¬ ∀ (tree : DocumentTree) (root : Inode) (rootFd : Fd) (w : World)
      (config : ServerConfig) (buffer : List Byte) (length : ℕ)
      (request : HttpRequest) (response : HttpResponse) (closing : Bool),
      (∀ clock, Mounted tree (w.fileSystem clock)) → Plain tree root →
      (∀ clock inode errno,
        (w.fileSystem clock).fstat inode ≠ .error errno) →
      inodeOf w rootFd = some root →
      judge config (buffer.take length) = .ok request →
      (httpPrepareResponse buffer length response closing rootFd config
        w).code = .success →
      NotFoundKept tree root request.path
        (httpPrepareResponse buffer length response closing rootFd config
          w).response.headers := by
  intro hall
  have hcode := code_obstructedHead
  have hheaders : (ascii "HTTP/1.1 " ++
      decimal HttpStatus.internalServerError.code).isPrefixOf
        (preparedInSite obstructedHead).response.headers = true := by
    decide +kernel
  have hstatus : HasStatus (preparedInSite obstructedHead).response.headers
      .internalServerError := List.isPrefixOf_iff_prefix.mp hheaders
  rw [preparedInSite] at hcode hstatus
  exact (hall siteTree 0 3 siteWorld configInit obstructedHead
    obstructedHead.length obstructedRequest httpResponseInit false
    (fun _ => mounted_siteFileSystem) plain_siteTree fstat_siteWorld
    inodeOf_siteWorld judge_obstructedHead hcode).2 hstatus

end HttpCerver.NotFound
