import HttpCerver.Runtime.Descriptors
import HttpCerver.Server.File

/-!
# What a path resolves to

`resolveAt` says which file `file_open_path` opens or which error it reports,
without the descriptors it goes through.  The function of the program returns
what `resolveAt` says; besides the descriptor it hands out it leaves the
descriptor table as it was, and it keeps the ledger.
-/

namespace HttpCerver.Resolution

open HttpCerver.Bytes
open HttpCerver.Descriptors
open HttpCerver.File
open HttpCerver.System

/-- A regular file and its size. -/
structure OpenedFile where
  inode : Inode
  size : ℕ
  size_lt : size < 2 ^ 63

/-- The index file of a directory, looked up from moment `clock` on. -/
def resolveIndex (fileSystem : ℕ → FileSystem) (clock : ℕ)
    (directory : Inode) : Except Errno OpenedFile :=
  match (fileSystem clock).openat2 directory defaultIndexFile openHow with
  | .error errno => .error (refusedErrno errno)
  | .ok inode =>
    match (fileSystem (clock + 1)).fstat inode with
    | .error errno => .error errno
    | .ok st =>
      if st.fileType ≠ .regular then .error .eacces
      else .ok { inode := inode, size := st.size, size_lt := st.size_lt }

/-- The file a request path names beneath `root`, or its index file when it
names a directory. -/
def resolveAt (fileSystem : ℕ → FileSystem) (clock : ℕ) (root : Option Inode)
    (path : List Byte) : Except Errno OpenedFile :=
  if path.head? ≠ some slash then .error .einval
  else
    match root with
    | none => .error .ebadf
    | some root =>
      match (fileSystem clock).openat2 root (relativePath path) openHow with
      | .error errno => .error (refusedErrno errno)
      | .ok inode =>
        match (fileSystem (clock + 1)).fstat inode with
        | .error errno => .error errno
        | .ok st =>
          match st.fileType with
          | .regular =>
            .ok { inode := inode, size := st.size, size_lt := st.size_lt }
          | .directory => resolveIndex fileSystem (clock + 2) inode
          | .special => .error .eacces

/-- An index file is regular and has the size that was reported for it. -/
theorem resolveIndex_regular {fileSystem : ℕ → FileSystem} {clock : ℕ}
    {directory : Inode} {file : OpenedFile}
    (hfile : resolveIndex fileSystem clock directory = .ok file) :
    ∃ moment st, (fileSystem moment).fstat file.inode = .ok st ∧
      st.fileType = .regular ∧ st.size = file.size := by
  unfold resolveIndex at hfile
  split at hfile
  · cases hfile
  · next inode hopen =>
      split at hfile
      · cases hfile
      · next st hstat =>
          split_ifs at hfile with hregular
          cases hfile
          exact ⟨_, st, hstat, by simpa using hregular, rfl⟩

/-- So is every file that a path resolves to. -/
theorem resolveAt_regular {fileSystem : ℕ → FileSystem} {clock : ℕ}
    {root : Option Inode} {path : List Byte} {file : OpenedFile}
    (hfile : resolveAt fileSystem clock root path = .ok file) :
    ∃ moment st, (fileSystem moment).fstat file.inode = .ok st ∧
      st.fileType = .regular ∧ st.size = file.size := by
  unfold resolveAt at hfile
  split_ifs at hfile
  split at hfile
  · cases hfile
  · next root =>
      split at hfile
      · cases hfile
      · next inode hopen =>
          split at hfile
          · cases hfile
          · next st hstat =>
              split at hfile
              · next htype =>
                  cases hfile
                  exact ⟨_, st, hstat, htype, rfl⟩
              · exact resolveIndex_regular hfile
              · cases hfile

/-- The file behind a descriptor as an inode. -/
def inodeOf (w : World) (fd : Fd) : Option Inode :=
  (fileOf w fd).map (·.inode)

/-- What opening a file does to the world. -/
inductive Opening (w : World) (resolved : Except Errno OpenedFile) :
    Except Errno FileT × World → Prop
  | failed {errno : Errno} {events : List Event} {w' : World}
      (hresolved : resolved = .error errno)
      (heffect : Effect w events w') (hevents : DescriptorEvents events)
      (hdescriptors : w'.descriptors = w.descriptors)
      (hledger : Ledger w → Ledger w') :
      Opening w resolved (.error errno, w')
  | opened {file : OpenedFile} {fd serial : ℕ} {events : List Event}
      {w' : World} (hresolved : resolved = .ok file)
      (heffect : Effect w events w') (hevents : DescriptorEvents events)
      (hdescriptors : w'.descriptors =
        (fd, { inode := file.inode, serial := some serial }) :: w.descriptors)
      (hfree : fd ∉ w.descriptors.map (·.1))
      (hledger : Ledger w → Ledger w') :
      Opening w resolved
        (.ok { fd := fd, size := file.size, size_lt := file.size_lt }, w')

/-- A world in which one file more is open than in `w`. -/
structure OneOpen (w : World) (inode : Inode) (fd serial : ℕ)
    (events : List Event) (w' : World) : Prop where
  effect : Effect w events w'
  events : DescriptorEvents events
  descriptors : w'.descriptors =
    (fd, { inode := inode, serial := some serial }) :: w.descriptors
  free : fd ∉ w.descriptors.map (·.1)
  ledger : Ledger w → Ledger w'

theorem oneOpen_install (inode : Inode) (w : World) :
    OneOpen w inode (lowestFree w.descriptors) w.clock [.opened w.clock]
      (install inode w) where
  effect := effect_install inode w
  events := by simp [DescriptorEvents, Event.isDescriptor]
  descriptors := rfl
  free := lowestFree_notMem _
  ledger h := h.install inode

section OneOpen

variable {w w' : World} {inode : Inode} {fd serial : ℕ} {events : List Event}

theorem OneOpen.tick (h : OneOpen w inode fd serial events w') :
    OneOpen w inode fd serial events (tick w') where
  effect := by
    have hlater := h.effect.trans (effect_tick (List.suffix_refl w'.sends))
    rwa [List.append_nil] at hlater
  events := h.events
  descriptors := h.descriptors
  free := h.free
  ledger hw := (h.ledger hw).tick w'.sends

theorem OneOpen.fileOf (h : OneOpen w inode fd serial events w') :
    fileOf w' fd = some { inode := inode, serial := some serial } := by
  simp [System.fileOf, h.descriptors]

theorem OneOpen.fstat (h : OneOpen w inode fd serial events w') :
    fstat fd w' = ((w.fileSystem w'.clock).fstat inode, System.tick w') := by
  simp only [System.fstat, h.fileOf, h.effect.fileSystem]

/-- Closing the file on the way out. -/
theorem OneOpen.failed (h : OneOpen w inode fd serial events w')
    {resolved : Except Errno OpenedFile} {errno : Errno}
    (hresolved : resolved = .error errno) :
    Opening w resolved (.error errno, close fd w') := by
  have hentry : w'.descriptors = [] ++
      (fd, { inode := inode, serial := some serial }) :: w.descriptors :=
    h.descriptors
  obtain ⟨heffect, hdescriptors⟩ :=
    effect_close_entry hentry rfl (by simp) h.free
  refine .failed hresolved (h.effect.trans heffect)
    (h.events.append ?_) hdescriptors ?_
  · simp [DescriptorEvents, Event.isDescriptor]
  · exact fun hw => (h.ledger hw).close_entry hentry rfl

/-- Handing the file to the caller. -/
theorem OneOpen.opened (h : OneOpen w inode fd serial events w')
    {resolved : Except Errno OpenedFile} {st : Stat}
    (hresolved : resolved =
      .ok { inode := inode, size := st.size, size_lt := st.size_lt }) :
    Opening w resolved
      (.ok { fd := fd, size := st.size, size_lt := st.size_lt }, w') :=
  .opened hresolved h.effect h.events h.descriptors h.free h.ledger

/-- Opening a second file relative to the first and closing the first. -/
theorem OneOpen.replace (h : OneOpen w inode fd serial events w')
    (index : Inode) :
    OneOpen w index (lowestFree w'.descriptors) w'.clock
      (events ++ [.opened w'.clock, .closed serial])
      (close fd (install index w')) := by
  have hnew : lowestFree w'.descriptors ∉ w'.descriptors.map (·.1) :=
    lowestFree_notMem _
  rw [h.descriptors, List.map_cons, List.mem_cons, not_or, ← h.descriptors]
    at hnew
  have hentry : (install index w').descriptors =
      [(lowestFree w'.descriptors,
        { inode := index, serial := some w'.clock })] ++
      (fd, { inode := inode, serial := some serial }) :: w.descriptors := by
    rw [← h.descriptors]
    rfl
  have hother : fd ≠ lowestFree w'.descriptors := fun heq => hnew.1 heq.symm
  obtain ⟨heffect, hdescriptors⟩ :=
    effect_close_entry hentry rfl (by simpa using hother) h.free
  refine ⟨?_, h.events.append ?_, hdescriptors, hnew.2, ?_⟩
  · exact h.effect.trans ((effect_install index w').trans heffect)
  · simp [DescriptorEvents, Event.isDescriptor]
  · exact fun hw => ((h.ledger hw).install index).close_entry hentry rfl

end OneOpen

theorem fileOpenPath_spec (rootFd : Fd) (path : List Byte) (w : World) :
    Opening w (resolveAt w.fileSystem w.clock (inodeOf w rootFd) path)
      (fileOpenPath rootFd path w) := by
  unfold fileOpenPath resolveAt
  split_ifs with hhead
  · exact .failed rfl (Effect.refl w) descriptorEvents_nil rfl id
  · cases hroot : fileOf w rootFd with
    | none =>
        simp only [openat2, hroot, inodeOf, Option.map_none]
        exact .failed rfl (Effect.refl w) descriptorEvents_nil rfl id
    | some directory =>
        simp only [openat2, hroot, inodeOf, Option.map_some]
        cases hopen : (w.fileSystem w.clock).openat2 directory.inode
            (relativePath path) openHow with
        | error errno =>
            exact .failed rfl (effect_tick (List.suffix_refl w.sends))
              descriptorEvents_nil rfl (fun h => h.tick w.sends)
        | ok inode =>
            have hinstalled := oneOpen_install inode w
            simp only [hinstalled.fstat]
            have hclock : (install inode w).clock = w.clock + 1 := rfl
            rw [hclock]
            cases hstat : (w.fileSystem (w.clock + 1)).fstat inode with
            | error errno => exact hinstalled.tick.failed rfl
            | ok st =>
                cases htype : st.fileType with
                | regular =>
                    simp only [htype]
                    exact hinstalled.tick.opened rfl
                | special =>
                    simp only [htype]
                    exact hinstalled.tick.failed rfl
                | directory =>
                    simp only [htype]
                    have hopened := hinstalled.tick
                    have hlater : (System.tick (install inode w)).clock =
                        w.clock + 2 := rfl
                    simp only [hopened.fileOf, resolveIndex,
                      hopened.effect.fileSystem, hlater]
                    cases hindex : (w.fileSystem (w.clock + 2)).openat2 inode
                        defaultIndexFile openHow with
                    | error errno => exact hopened.tick.failed rfl
                    | ok index =>
                        have hreplaced := hopened.replace index
                        have hinstall : (install index
                            (System.tick (install inode w))).clock =
                              w.clock + 3 := rfl
                        simp only [hreplaced.fstat, close_clock, hinstall]
                        cases hsize : (w.fileSystem (w.clock + 3)).fstat index with
                        | error errno => exact hreplaced.tick.failed rfl
                        | ok st =>
                            dsimp only
                            by_cases hregular : st.fileType ≠ .regular
                            · rw [if_pos hregular, if_pos hregular]
                              exact hreplaced.tick.failed rfl
                            · rw [if_neg hregular, if_neg hregular]
                              exact hreplaced.tick.opened rfl

end HttpCerver.Resolution
