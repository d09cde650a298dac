import HttpCerver.Config
import HttpCerver.Core.Programs
import HttpCerver.Runtime.Numerals
import HttpCerver.Runtime.System

/-!
# The calls of the server process

What `server.c` and `main.c` ask of the operating system, and what each call
answers and does to the descriptors of the process that makes it.  An `int`
that holds a descriptor is an option, with `none` for `-1`.  Sockets and
directories have the inode numbers that the host gives them.
-/

namespace HttpCerver.Calls

open HttpCerver.Bytes
open HttpCerver.Config
open HttpCerver.Numerals
open HttpCerver.Programs
open HttpCerver.System

/-- `struct sockaddr_in`, with the port as the network sees it. -/
structure SocketAddress where
  address : List Byte
  port : ℕ
  deriving DecidableEq

/-- One number of a dotted address: without leading zeros, below 256. -/
def inetOctet (digits : List Byte) : Option Byte :=
  if digits = [] ∨ ¬ digits.all isdigit ∨
      (digits.head? = some 48 ∧ digits.length ≠ 1) ∨
      255 < decimalValue digits then none
  else some (UInt8.ofNat (decimalValue digits))

/-- `inet_pton(AF_INET, ...)`. -/
def inetPton (text : List Byte) : Option (List Byte) :=
  let parts := text.splitOn dot
  if parts.length = 4 then parts.mapM inetOctet else none

/-- `ntohs(htons(port))`: the conversion to 16 bits. -/
def htons (port : ℕ) : ℕ :=
  port % 2 ^ 16

/-- What a descriptor of the server refers to. -/
inductive Object
  | inherited
  | listener (address : Option SocketAddress) (backlog : Option ℕ)
  | documentRoot (path : List Byte)
  | connection (id : ℕ) (timeout : Option ℕ)
  deriving DecidableEq

structure Description where
  object : Object
  inode : Inode
  deriving DecidableEq

/-- The descriptor table of a process, latest entry first. -/
abbrev Table := List (Fd × Description)

/-- The table as a connection handler finds it. -/
def inodes (table : Table) : List (Fd × Inode) :=
  table.map fun entry => (entry.1, entry.2.inode)

/-- The descriptor that the next successful call gets. -/
def nextFd (table : Table) : Fd :=
  lowestFree ((inodes table).map fun entry =>
    (entry.1, { inode := entry.2, serial := none }))

def lookup (fd : Option Fd) (table : Table) : Option Description :=
  fd.bind fun fd => (table.find? fun entry => entry.1 = fd).map (·.2)

def install (description : Description) (table : Table) : Table :=
  (nextFd table, description) :: table

/-- Changes the object behind a descriptor. -/
def replace (fd : Option Fd) (object : Object) (table : Table) : Table :=
  table.map fun entry =>
    if some entry.1 = fd then (entry.1, { entry.2 with object := object })
    else entry

def release (fd : Option Fd) (table : Table) : Table :=
  table.filter fun entry => some entry.1 ≠ fd

section Table

variable {fd : Fd} {description : Description} {object : Object}
variable {entry : Fd × Description} {table : Table}

theorem nextFd_notMem (table : Table) : nextFd table ∉ table.map (·.1) := by
  have hfree := lowestFree_notMem ((inodes table).map fun entry =>
    (entry.1, { inode := entry.2, serial := none }))
  simpa [nextFd, inodes, Function.comp_def] using hfree

@[simp]
theorem lookup_cons_self :
    lookup (some fd) ((fd, description) :: table) = some description := by
  simp [lookup]

theorem lookup_cons_of_ne (hne : entry.1 ≠ fd) :
    lookup (some fd) (entry :: table) = lookup (some fd) table := by
  simp [lookup, hne]

theorem release_of_notMem (hfree : fd ∉ table.map (·.1)) :
    release (some fd) table = table := by
  rw [release, List.filter_eq_self]
  intro entry hentry
  rw [decide_eq_true_eq]
  intro hsame
  cases hsame
  exact hfree (List.mem_map_of_mem hentry)

theorem release_cons_self (hfree : fd ∉ table.map (·.1)) :
    release (some fd) ((fd, description) :: table) = table := by
  rw [release, List.filter_cons_of_neg (by simp)]
  exact release_of_notMem hfree

theorem release_cons_of_ne (hne : entry.1 ≠ fd) :
    release (some fd) (entry :: table) = entry :: release (some fd) table := by
  rw [release, List.filter_cons_of_pos (by simpa using hne)]
  rfl

theorem replace_of_notMem (hfree : fd ∉ table.map (·.1)) :
    replace (some fd) object table = table := by
  have hkept : ∀ entry ∈ table, (if some entry.1 = some fd then
      (entry.1, { entry.2 with object := object }) else entry) = entry := by
    intro entry hentry
    rw [if_neg]
    intro hsame
    cases hsame
    exact hfree (List.mem_map_of_mem hentry)
  rw [replace, List.map_congr_left hkept, List.map_id']

theorem replace_cons_self (hfree : fd ∉ table.map (·.1)) :
    replace (some fd) object ((fd, description) :: table) =
      (fd, { description with object := object }) :: table := by
  have hrest : replace (some fd) object table = table :=
    replace_of_notMem hfree
  rw [replace] at hrest ⊢
  rw [List.map_cons, if_pos rfl, hrest]

theorem replace_cons_of_ne (hne : entry.1 ≠ fd) :
    replace (some fd) object (entry :: table) =
      entry :: replace (some fd) object table := by
  rw [replace, List.map_cons, if_neg (by simpa using hne)]
  rfl

end Table

/-- What `fork` returns: `-1`, `0` in the child, the child's number in the
parent. -/
inductive Forked
  | failed
  | child
  | parent
  deriving DecidableEq

inductive Call
  | sigaction
  | socket
  | openDirectory (path : List Byte)
  | bind (fd : Option Fd) (address : SocketAddress)
  | listen (fd : Option Fd) (backlog : ℕ)
  | accept (fd : Option Fd)
  | setReceiveTimeout (fd : Option Fd) (seconds : ℕ)
  | fork
  | close (fd : Option Fd)
  | handleConnection (clientFd rootFd : Option Fd) (config : ServerConfig)

def Call.Answer : Call → Type
  | .socket | .openDirectory _ | .accept _ => Option Fd
  | .fork => Forked
  | .close _ => Unit
  | .sigaction | .bind _ _ | .listen _ _ | .setReceiveTimeout _ _
  | .handleConnection _ _ _ => ReturnCode

/-- A program of the server. -/
abbrev Code (Result : Type) := Program Call Call.Answer Result

def ask (call : Call) : Code call.Answer :=
  Program.request call

/-- What the server finds when it is started, and the inodes it can get. -/
structure Host where
  inherited : List (Fd × Inode)
  socketInode : Inode
  directoryInode : List Byte → Inode

/-- The calls that concern nothing but the caller's descriptors; each of them
can fail, and those on a descriptor of the wrong kind do. -/
def perform (host : Host) (succeeds : Bool) (table : Table) :
    (call : Call) → Option (call.Answer × Table)
  | .sigaction =>
    some (if succeeds then .success else .failure, table)
  | .socket =>
    some <| if succeeds then
      (some (nextFd table),
        install ⟨.listener none none, host.socketInode⟩ table)
    else (none, table)
  | .openDirectory path =>
    some <| if succeeds then
      (some (nextFd table),
        install ⟨.documentRoot path, host.directoryInode path⟩ table)
    else (none, table)
  | .bind fd address =>
    some <| match succeeds, lookup fd table with
    | true, some { object := .listener none backlog, .. } =>
      (.success, replace fd (.listener (some address) backlog) table)
    | _, _ => (.failure, table)
  | .listen fd backlog =>
    some <| match succeeds, lookup fd table with
    | true, some { object := .listener address _, .. } =>
      (.success, replace fd (.listener address (some backlog)) table)
    | _, _ => (.failure, table)
  | .setReceiveTimeout fd seconds =>
    some <| match succeeds, lookup fd table with
    | true, some { object := .connection id _, .. } =>
      (.success, replace fd (.connection id (some seconds)) table)
    | _, _ => (.failure, table)
  | .close fd => some ((), release fd table)
  | .accept _ | .fork | .handleConnection _ _ _ => none

section Perform

variable {host : Host} {table : Table} {fd : Option Fd} {inode : Inode}

theorem perform_bind {backlog : Option ℕ} (succeeds : Bool)
    (address : SocketAddress)
    (hlookup : lookup fd table = some ⟨.listener none backlog, inode⟩) :
    perform host succeeds table (.bind fd address) =
      some (if succeeds then
        (.success, replace fd (.listener (some address) backlog) table)
      else (.failure, table)) := by
  cases succeeds with
  | false => rfl
  | true => simp only [perform, hlookup, if_true]

theorem perform_listen {address : Option SocketAddress}
    {previous : Option ℕ} (succeeds : Bool) (backlog : ℕ)
    (hlookup : lookup fd table = some ⟨.listener address previous, inode⟩) :
    perform host succeeds table (.listen fd backlog) =
      some (if succeeds then
        (.success, replace fd (.listener address (some backlog)) table)
      else (.failure, table)) := by
  cases succeeds with
  | false => rfl
  | true => simp only [perform, hlookup, if_true]

theorem perform_setReceiveTimeout {id : ℕ} {previous : Option ℕ}
    (succeeds : Bool) (seconds : ℕ)
    (hlookup : lookup fd table = some ⟨.connection id previous, inode⟩) :
    perform host succeeds table (.setReceiveTimeout fd seconds) =
      some (if succeeds then
        (.success, replace fd (.connection id (some seconds)) table)
      else (.failure, table)) := by
  cases succeeds with
  | false => rfl
  | true => simp only [perform, hlookup, if_true]

end Perform

end HttpCerver.Calls
