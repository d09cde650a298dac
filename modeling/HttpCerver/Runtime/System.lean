import HttpCerver.Runtime.Bytes
import Mathlib.Data.List.Nodup
import Mathlib.Data.List.Count
import Mathlib.Data.Finset.Card
import Mathlib.Algebra.Order.Ring.Nat

/-!
# System calls

What the kernel and the allocator do is given by an environment: the bytes the
client sends and how they arrive, the outcome of every send and allocation, and
the state of the file system at each moment.  A world adds the descriptor table
and a trace of what has happened.  The outcome lists are consumed one entry a
call; a call beyond the end of its list succeeds in full.

The trace is for the statements only.  It records the system calls that matter
to them and three marks that the program sets: `parse` when a request head is
taken up, `sending` when its response is about to go out and `respond` when a
response has been sent in full.
-/

namespace HttpCerver.System

open HttpCerver.Bytes

abbrev Fd := ℕ
abbrev Inode := ℕ

/-- The `errno` values the program tells apart, and all others. -/
inductive Errno
  | eintr
  | eagain
  | enoent
  | eacces
  | eperm
  | exdev
  | eloop
  | enotdir
  | enametoolong
  | einval
  | ebadf
  | other (code : ℕ)
  deriving DecidableEq

/-- The file types `S_ISREG` and `S_ISDIR` tell apart. -/
inductive FileType
  | regular
  | directory
  | special
  deriving DecidableEq

/-- `st_mode` and `st_size`.  A size fits `off_t`. -/
structure Stat where
  fileType : FileType
  size : ℕ
  size_lt : size < 2 ^ 63

/-- The resolve flags of `struct open_how`. -/
structure OpenHow where
  beneath : Bool
  noSymlinks : Bool
  deriving DecidableEq

/-- What the file system answers at one moment.  A relative path is resolved
from the directory it is given. -/
structure FileSystem where
  openat2 : Inode → List Byte → OpenHow → Except Errno Inode
  fstat : Inode → Except Errno Stat
  content : Inode → List Byte

/-- One `recv`: up to `extra + 1` bytes have arrived, or an error. -/
inductive RecvOutcome
  | arrive (extra : ℕ)
  | fail (errno : Errno)
  deriving DecidableEq

/-- One `send` or `sendfile`: up to `extra + 1` bytes are accepted, none are,
or an error. -/
inductive SendOutcome
  | accept (extra : ℕ)
  | zero
  | fail (errno : Errno)
  deriving DecidableEq

/-- An entry of the descriptor table.  Files opened during the run carry the
serial number of the call that opened them. -/
structure OpenFile where
  inode : Inode
  serial : Option ℕ
  deriving DecidableEq

inductive Event
  | recv
  | parse (head : List Byte) (closeConnection : Bool)
  | opened (serial : ℕ)
  | closed (serial : ℕ)
  | badClose (fd : Fd)
  | write (bytes : List Byte)
  | sending (ownsFile : Bool)
  | sendFailed
  | respond (headers : List Byte) (closeConnection : Bool)
  deriving DecidableEq

/-- Everything outside the program. -/
structure Environment where
  incoming : List Byte
  recvs : List RecvOutcome
  sends : List SendOutcome
  mallocs : List Bool
  fileSystem : ℕ → FileSystem

/-- The state of the outside world while the program runs. -/
structure World extends Environment where
  descriptors : List (Fd × OpenFile)
  clock : ℕ
  trace : List Event

/-- The world in which a connection is taken up, with the descriptors that are
open already. -/
def start (environment : Environment) (inherited : List (Fd × Inode)) : World where
  toEnvironment := environment
  descriptors := inherited.map fun entry =>
    (entry.1, { inode := entry.2, serial := none })
  clock := 0
  trace := []

def log (event : Event) (w : World) : World :=
  { w with trace := w.trace ++ [event] }

def tick (w : World) : World :=
  { w with clock := w.clock + 1 }

/-- The open file behind a descriptor. -/
def fileOf (w : World) (fd : Fd) : Option OpenFile :=
  (w.descriptors.find? fun entry => entry.1 = fd).map (·.2)

/-- The lowest descriptor that is not open. -/
def lowestFree (descriptors : List (Fd × OpenFile)) : Fd :=
  ((List.range (descriptors.length + 1)).find? fun fd =>
    fd ∉ descriptors.map (·.1)).getD 0

/-- `malloc`: whether the allocation succeeds. -/
def malloc (w : World) : Bool × World :=
  match w.mallocs with
  | [] => (true, w)
  | succeeds :: mallocs => (succeeds, { w with mallocs := mallocs })

/-- `recv`: the bytes received, none of them at the end of the stream. -/
def recv (capacity : ℕ) (w : World) : Except Errno (List Byte) × World :=
  let w := log .recv w
  match w.recvs with
  | [] =>
    (.ok (w.incoming.take capacity),
      { w with incoming := w.incoming.drop capacity })
  | .arrive extra :: recvs =>
    let count := min capacity (extra + 1)
    (.ok (w.incoming.take count),
      { w with incoming := w.incoming.drop count, recvs := recvs })
  | .fail errno :: recvs => (.error errno, { w with recvs := recvs })

/-- The kernel accepts the first `count` of the bytes it is offered. -/
def accept (bytes : List Byte) (count : ℕ) (w : World) :
    Except Errno ℕ × World :=
  if count = 0 then (.ok 0, log .sendFailed w)
  else (.ok count, log (.write (bytes.take count)) w)

/-- What a sending call offers to the socket, given how much of its message
has been sent: `none` when the file it reads from is not open. -/
abbrev Offer := ℕ → World → Option (List Byte)

/-- `send(client_fd, data + sent, length - sent, 0)`. -/
def sendOffer (data : List Byte) : Offer :=
  fun sent _ => some (data.drop sent)

/-- `sendfile(client_fd, fd, &offset, size - offset)` reads the file as it is
at that moment. -/
def sendfileOffer (fd : Fd) (size : ℕ) : Offer :=
  fun offset w => (fileOf w fd).map fun file =>
    (((w.fileSystem w.clock).content file.inode).drop offset).take
      (size - offset)

/-- The outcome of offering bytes to the socket: how many were taken. -/
def transmit (offered : Option (List Byte)) (w : World) :
    Except Errno ℕ × World :=
  let w := tick w
  match offered with
  | none => (.error .ebadf, log .sendFailed w)
  | some bytes =>
    match w.sends with
    | [] => accept bytes bytes.length w
    | .accept extra :: sends =>
      accept bytes (min bytes.length (extra + 1)) { w with sends := sends }
    | .zero :: sends => accept bytes 0 { w with sends := sends }
    | .fail errno :: sends =>
      let w := { w with sends := sends }
      (.error errno, if errno = .eintr then w else log .sendFailed w)

/-- The world after a successful `openat2`. -/
def install (inode : Inode) (w : World) : World :=
  let file : OpenFile := { inode := inode, serial := some w.clock }
  log (.opened w.clock) { tick w with
    descriptors := (lowestFree w.descriptors, file) :: w.descriptors }

/-- `openat2`: the new descriptor is the lowest one that is free. -/
def openat2 (dirfd : Fd) (path : List Byte) (how : OpenHow) (w : World) :
    Except Errno Fd × World :=
  match fileOf w dirfd with
  | none => (.error .ebadf, w)
  | some directory =>
    match (w.fileSystem w.clock).openat2 directory.inode path how with
    | .error errno => (.error errno, tick w)
    | .ok inode => (.ok (lowestFree w.descriptors), install inode w)

/-- `fstat`. -/
def fstat (fd : Fd) (w : World) : Except Errno Stat × World :=
  match fileOf w fd with
  | none => (.error .ebadf, w)
  | some file => ((w.fileSystem w.clock).fstat file.inode, tick w)

/-- `close`. -/
def close (fd : Fd) (w : World) : World :=
  match fileOf w fd with
  | none => log (.badClose fd) w
  | some file =>
    let w := { w with
      descriptors := w.descriptors.filter fun entry => entry.1 ≠ fd }
    match file.serial with
    | none => w
    | some serial => log (.closed serial) w

theorem close_clock (fd : Fd) (w : World) : (close fd w).clock = w.clock := by
  unfold close
  split
  · rfl
  · split <;> rfl

/-- Outcomes after which a sending loop goes on. -/
def SendOutcome.Succeeds : SendOutcome → Prop
  | .accept _ => True
  | .zero => False
  | .fail errno => errno = .eintr

instance : DecidablePred SendOutcome.Succeeds := fun outcome => by
  cases outcome <;> unfold SendOutcome.Succeeds <;> infer_instance

/-- Everything a sending call can do, and why it failed when it did. -/
inductive Transmission (offered : Option (List Byte)) (w : World) :
    Except Errno ℕ × World → Prop
  | accepted {bytes : List Byte} {count : ℕ} {sends : List SendOutcome}
      (hoffered : offered = some bytes) (hpos : 0 < count)
      (hcount : count ≤ bytes.length) (hsends : sends <:+ w.sends) :
      Transmission offered w
        (.ok count,
          log (.write (bytes.take count)) { tick w with sends := sends })
  | interrupted {sends : List SendOutcome}
      (hsends : w.sends = .fail .eintr :: sends) :
      Transmission offered w (.error .eintr, { tick w with sends := sends })
  | failed {result : Except Errno ℕ} {sends : List SendOutcome}
      (hresult : result = .ok 0 ∨ ∃ errno, errno ≠ .eintr ∧
        result = .error errno)
      (hsends : sends <:+ w.sends)
      (hcause : offered = none ∨ offered = some [] ∨
        ∃ outcome ∈ w.sends, ¬ outcome.Succeeds) :
      Transmission offered w
        (result, log .sendFailed { tick w with sends := sends })

theorem transmission_accept {bytes : List Byte} {count : ℕ}
    {sends : List SendOutcome} {w : World} (hcount : count ≤ bytes.length)
    (hsends : sends <:+ w.sends)
    (hzero : count = 0 → bytes = [] ∨ ∃ outcome ∈ w.sends,
      ¬ outcome.Succeeds) :
    Transmission (some bytes) w
      (accept bytes count { tick w with sends := sends }) := by
  rw [accept]
  split_ifs with hcase
  · exact .failed (.inl rfl) hsends
      (.inr ((hzero hcase).imp_left fun hbytes => by rw [hbytes]))
  · exact .accepted rfl (Nat.pos_of_ne_zero hcase) hcount hsends

theorem transmit_spec (offered : Option (List Byte)) (w : World) :
    Transmission offered w (transmit offered w) := by
  unfold transmit
  cases offered with
  | none =>
      exact Transmission.failed (.inr ⟨.ebadf, by simp, rfl⟩)
        (List.suffix_refl _) (.inl rfl)
  | some bytes =>
      cases hsends : w.sends with
      | nil =>
          simp only [tick, hsends]
          exact transmission_accept (Nat.le_refl _)
            (List.suffix_refl _)
            (fun hzero => .inl (List.length_eq_zero_iff.mp hzero))
      | cons outcome sends =>
          have hsuffix : sends <:+ w.sends := by
            rw [hsends]
            exact List.suffix_cons _ _
          have hhead : outcome ∈ w.sends := by simp [hsends]
          simp only [tick, hsends]
          cases outcome with
          | accept extra =>
              refine transmission_accept (Nat.min_le_left _ _) hsuffix
                (fun hzero => .inl ?_)
              exact List.length_eq_zero_iff.mp (by omega)
          | zero =>
              exact transmission_accept (Nat.zero_le _) hsuffix
                (fun _ => .inr ⟨.zero, hhead, id⟩)
          | fail errno =>
              by_cases herrno : errno = .eintr
              · subst herrno
                exact .interrupted hsends
              · simp only [herrno, if_false]
                exact .failed (.inr ⟨errno, herrno, rfl⟩) hsuffix
                  (.inr (.inr ⟨.fail errno, hhead, herrno⟩))

/-- Everything a `recv` can do: hand out the beginning of the input, which is
empty at its end only, or fail. -/
inductive Receipt (capacity : ℕ) (w : World) :
    Except Errno (List Byte) × World → Prop
  | received {bytes rest : List Byte} {recvs : List RecvOutcome}
      (hincoming : w.incoming = bytes ++ rest)
      (hcapacity : bytes.length ≤ capacity)
      (hempty : bytes = [] → capacity = 0 ∨ w.incoming = [])
      (hrecvs : recvs <:+ w.recvs) :
      Receipt capacity w
        (.ok bytes, { log .recv w with incoming := rest, recvs := recvs })
  | failed {errno : Errno} {recvs : List RecvOutcome}
      (hrecvs : w.recvs = .fail errno :: recvs) :
      Receipt capacity w (.error errno, { log .recv w with recvs := recvs })

theorem recv_spec (capacity : ℕ) (w : World) :
    Receipt capacity w (recv capacity w) := by
  rw [recv]
  cases hrecvs : w.recvs with
  | nil =>
      simp only [log, hrecvs]
      have hreceipt : Receipt capacity w
          (.ok (w.incoming.take capacity),
            { log .recv w with
              incoming := w.incoming.drop capacity
              recvs := w.recvs }) :=
        .received (List.take_append_drop capacity w.incoming).symm
          (List.length_take_le _ _)
          (fun hnil => List.take_eq_nil_iff.mp hnil) (List.suffix_refl _)
      rw [hrecvs] at hreceipt
      exact hreceipt
  | cons outcome recvs =>
      simp only [log, hrecvs]
      cases outcome with
      | arrive extra =>
          refine .received
            (List.take_append_drop (min capacity (extra + 1)) w.incoming).symm
            ((List.length_take_le _ _).trans (Nat.min_le_left _ _)) ?_ ?_
          · intro hnil
            exact (List.take_eq_nil_iff.mp hnil).imp_left fun hzero => by omega
          · rw [hrecvs]
            exact List.suffix_cons _ _
      | fail errno => exact .failed hrecvs

theorem recv_ok {capacity : ℕ} {bytes : List Byte} {w w' : World}
    (hrecv : recv capacity w = (.ok bytes, w')) :
    w.incoming = bytes ++ w'.incoming ∧ bytes.length ≤ capacity ∧
      (bytes = [] → capacity = 0 ∨ w.incoming = []) := by
  have hreceipt := recv_spec capacity w
  rw [hrecv] at hreceipt
  cases hreceipt with
  | received hincoming hcapacity hempty hrecvs =>
      exact ⟨hincoming, hcapacity, hempty⟩

theorem recv_error {capacity : ℕ} {errno : Errno} {w w' : World}
    (hrecv : recv capacity w = (.error errno, w')) :
    w'.incoming = w.incoming ∧ .fail errno ∈ w.recvs := by
  have hreceipt := recv_spec capacity w
  rw [hrecv] at hreceipt
  cases hreceipt with
  | failed hrecvs => exact ⟨rfl, by simp [hrecvs]⟩

/-- The effect of program code between two calls of `recv`: input and file
system stay, scripts and clock move on, and `events` are recorded. -/
structure Effect (w : World) (events : List Event) (w' : World) : Prop where
  incoming : w'.incoming = w.incoming
  recvs : w'.recvs = w.recvs
  fileSystem : w'.fileSystem = w.fileSystem
  sends : w'.sends <:+ w.sends
  mallocs : w'.mallocs <:+ w.mallocs
  clock : w.clock ≤ w'.clock
  trace : w'.trace = w.trace ++ events

theorem Effect.refl (w : World) : Effect w [] w where
  incoming := rfl
  recvs := rfl
  fileSystem := rfl
  sends := List.suffix_refl _
  mallocs := List.suffix_refl _
  clock := Nat.le_refl _
  trace := by simp

theorem Effect.trans {w w' w'' : World} {events more : List Event}
    (first : Effect w events w') (second : Effect w' more w'') :
    Effect w (events ++ more) w'' where
  incoming := second.incoming.trans first.incoming
  recvs := second.recvs.trans first.recvs
  fileSystem := second.fileSystem.trans first.fileSystem
  sends := second.sends.trans first.sends
  mallocs := second.mallocs.trans first.mallocs
  clock := first.clock.trans second.clock
  trace := by rw [second.trace, first.trace, List.append_assoc]

theorem effect_log (event : Event) (w : World) :
    Effect w [event] (log event w) where
  incoming := rfl
  recvs := rfl
  fileSystem := rfl
  sends := List.suffix_refl _
  mallocs := List.suffix_refl _
  clock := Nat.le_refl _
  trace := rfl

theorem effect_tick {w : World} {sends : List SendOutcome}
    (hsends : sends <:+ w.sends) :
    Effect w [] { tick w with sends := sends } where
  incoming := rfl
  recvs := rfl
  fileSystem := rfl
  sends := hsends
  mallocs := List.suffix_refl _
  clock := Nat.le_succ _
  trace := by simp [tick]

/-- A memory allocation changes its script only. -/
theorem malloc_spec (w : World) :
    ∃ mallocs, (malloc w).2 = { w with mallocs := mallocs } ∧
      mallocs <:+ w.mallocs ∧ ((malloc w).1 = false → false ∈ w.mallocs) := by
  rw [malloc]
  split
  · exact ⟨w.mallocs, rfl, List.suffix_refl _, by simp⟩
  · next succeeds mallocs hmallocs =>
      rw [hmallocs]
      exact ⟨mallocs, rfl, List.suffix_cons _ _, by simp +contextual⟩

theorem effect_mallocs {w : World} {mallocs : List Bool}
    (hmallocs : mallocs <:+ w.mallocs) :
    Effect w [] { w with mallocs := mallocs } where
  incoming := rfl
  recvs := rfl
  fileSystem := rfl
  sends := List.suffix_refl _
  mallocs := hmallocs
  clock := Nat.le_refl _
  trace := by simp

/-- Events that concern the descriptor table only. -/
def Event.isDescriptor : Event → Bool
  | .opened _ => true
  | .closed _ => true
  | .badClose _ => true
  | _ => false

def DescriptorEvents (events : List Event) : Prop :=
  ∀ event ∈ events, event.isDescriptor = true

theorem descriptorEvents_nil : DescriptorEvents [] := by
  simp [DescriptorEvents]

theorem DescriptorEvents.append {events more : List Event}
    (hevents : DescriptorEvents events) (hmore : DescriptorEvents more) :
    DescriptorEvents (events ++ more) := by
  intro event hmem
  rcases List.mem_append.mp hmem with hmem | hmem
  · exact hevents event hmem
  · exact hmore event hmem

/-- A fact about such events is a fact about three kinds of them. -/
theorem DescriptorEvents.forall_mem {events : List Event}
    (hevents : DescriptorEvents events) {holds : Event → Prop}
    (hopened : ∀ serial, holds (.opened serial))
    (hclosed : ∀ serial, holds (.closed serial))
    (hbadClose : ∀ fd, holds (.badClose fd)) :
    ∀ event ∈ events, holds event := by
  intro event hmem
  have hdescriptor := hevents event hmem
  cases event with
  | opened serial => exact hopened serial
  | closed serial => exact hclosed serial
  | badClose fd => exact hbadClose fd
  | _ => simp [Event.isDescriptor] at hdescriptor

theorem lowestFree_notMem (descriptors : List (Fd × OpenFile)) :
    lowestFree descriptors ∉ descriptors.map (·.1) := by
  have hexists : ∃ fd ∈ List.range (descriptors.length + 1),
      fd ∉ descriptors.map (·.1) := by
    by_contra hall
    push Not at hall
    have hsub : Finset.range (descriptors.length + 1) ⊆
        (descriptors.map (·.1)).toFinset := by
      intro fd hfd
      exact List.mem_toFinset.mpr (hall fd (by simpa using hfd))
    have hcard := Finset.card_le_card hsub
    have hlength := List.toFinset_card_le (descriptors.map (·.1))
    rw [Finset.card_range] at hcard
    rw [List.length_map] at hlength
    omega
  obtain ⟨fd, hrange, hfree⟩ := hexists
  rw [lowestFree]
  cases hfound : (List.range (descriptors.length + 1)).find? fun fd =>
      fd ∉ descriptors.map (·.1) with
  | none =>
      have hnone := List.find?_eq_none.mp hfound fd hrange
      simp [hfree] at hnone
  | some found =>
      simpa using List.find?_some hfound

theorem effect_install (inode : Inode) (w : World) :
    Effect w [.opened w.clock] (install inode w) where
  incoming := rfl
  recvs := rfl
  fileSystem := rfl
  sends := List.suffix_refl _
  mallocs := List.suffix_refl _
  clock := Nat.le_succ _
  trace := rfl

theorem effect_descriptors (w : World) (descriptors : List (Fd × OpenFile)) :
    Effect w [] { w with descriptors := descriptors } where
  incoming := rfl
  recvs := rfl
  fileSystem := rfl
  sends := List.suffix_refl _
  mallocs := List.suffix_refl _
  clock := Nat.le_refl _
  trace := by simp

/-- Closing a descriptor takes its entry out of the table, if no other entry
has its number. -/
theorem close_entry {fd : Fd} {file : OpenFile} {serial : ℕ}
    {before after : List (Fd × OpenFile)} {w : World}
    (hw : w.descriptors = before ++ (fd, file) :: after)
    (hserial : file.serial = some serial)
    (hbefore : fd ∉ before.map (·.1)) (hafter : fd ∉ after.map (·.1)) :
    close fd w =
      log (.closed serial) { w with descriptors := before ++ after } := by
  have hkeep : ∀ entries : List (Fd × OpenFile), fd ∉ entries.map (·.1) →
      (entries.filter fun entry => entry.1 ≠ fd) = entries := by
    intro entries hfree
    rw [List.filter_eq_self]
    intro entry hentry
    simp only [ne_eq, decide_eq_true_eq]
    rintro rfl
    exact hfree (List.mem_map_of_mem hentry)
  have hfind : before.find? (fun entry => entry.1 = fd) = none := by
    rw [List.find?_eq_none]
    intro entry hentry
    simp only [decide_eq_true_eq]
    rintro rfl
    exact hbefore (List.mem_map_of_mem hentry)
  have hfile : fileOf w fd = some file := by
    simp [fileOf, hw, List.find?_append, hfind]
  have htable : (w.descriptors.filter fun entry => entry.1 ≠ fd) =
      before ++ after := by
    rw [hw, List.filter_append, List.filter_cons_of_neg (by simp),
      hkeep before hbefore, hkeep after hafter]
  simp only [close, hfile, hserial, htable]

theorem effect_close_entry {fd : Fd} {file : OpenFile} {serial : ℕ}
    {before after : List (Fd × OpenFile)} {w : World}
    (hw : w.descriptors = before ++ (fd, file) :: after)
    (hserial : file.serial = some serial)
    (hbefore : fd ∉ before.map (·.1)) (hafter : fd ∉ after.map (·.1)) :
    Effect w [.closed serial] (close fd w) ∧
      (close fd w).descriptors = before ++ after := by
  rw [close_entry hw hserial hbefore hafter]
  exact ⟨(effect_descriptors w _).trans (effect_log _ _), rfl⟩

end HttpCerver.System
