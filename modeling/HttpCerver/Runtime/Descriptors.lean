import HttpCerver.Runtime.System

/-!
# The descriptor ledger

The trace and the descriptor table tell the same story: a file opened during
the run has been closed exactly once or is still in the table.  Each system
call keeps it so, and where the table is back to what it was, everything that
was opened has been closed.
-/

namespace HttpCerver.Descriptors

open HttpCerver.Bytes
open HttpCerver.System

/-- Agreement between the trace and the descriptor table. -/
structure Ledger (w : World) : Prop where
  balance : ∀ serial, w.trace.count (.opened serial) =
    w.trace.count (.closed serial) +
      w.descriptors.countP fun entry => entry.2.serial = some serial
  once : ∀ serial, w.trace.count (.opened serial) ≤ 1
  fresh : ∀ serial, .opened serial ∈ w.trace → serial < w.clock
  nodup : (w.descriptors.map (·.1)).Nodup
  closes : ∀ fd, .badClose fd ∉ w.trace

theorem ledger_start (environment : Environment)
    {inherited : List (Fd × Inode)} (hnodup : (inherited.map (·.1)).Nodup) :
    Ledger (start environment inherited) where
  balance serial := by
    simp [start, List.countP_map, Function.comp_def]
  once serial := by simp [start]
  fresh serial hmem := by simp [start] at hmem
  nodup := by simpa [start, Function.comp_def] using hnodup
  closes fd := by simp [start]

/-- Events that are not about descriptors leave the ledger alone. -/
theorem Ledger.of_effect {w w' : World} {events : List Event} (h : Ledger w)
    (heffect : Effect w events w') (hdescriptors : w'.descriptors = w.descriptors)
    (hevents : ∀ event ∈ events, event.isDescriptor = false) : Ledger w' := by
  have hopened : ∀ serial, .opened serial ∉ events := by
    intro serial hmem
    simpa [Event.isDescriptor] using hevents _ hmem
  have hclosed : ∀ serial, .closed serial ∉ events := by
    intro serial hmem
    simpa [Event.isDescriptor] using hevents _ hmem
  have hbad : ∀ fd, .badClose fd ∉ events := by
    intro fd hmem
    simpa [Event.isDescriptor] using hevents _ hmem
  constructor
  · intro serial
    rw [heffect.trace, hdescriptors, List.count_append, List.count_append,
      List.count_eq_zero_of_not_mem (hopened serial),
      List.count_eq_zero_of_not_mem (hclosed serial)]
    exact h.balance serial
  · intro serial
    rw [heffect.trace, List.count_append,
      List.count_eq_zero_of_not_mem (hopened serial)]
    exact h.once serial
  · intro serial hmem
    rw [heffect.trace, List.mem_append] at hmem
    exact (h.fresh serial (hmem.resolve_right (hopened serial))).trans_le
      heffect.clock
  · rw [hdescriptors]
    exact h.nodup
  · intro fd hmem
    rw [heffect.trace, List.mem_append] at hmem
    exact h.closes fd (hmem.resolve_right (hbad fd))

theorem Ledger.log {w : World} {event : Event} (h : Ledger w)
    (hevent : event.isDescriptor = false) : Ledger (log event w) :=
  h.of_effect (effect_log event w) rfl (by simpa using hevent)

/-- The script of sends and the passing of time do not matter. -/
theorem Ledger.tick {w : World} (h : Ledger w) (sends : List SendOutcome) :
    Ledger { tick w with sends := sends } where
  balance := h.balance
  once := h.once
  fresh serial hmem := Nat.lt_succ_of_lt (h.fresh serial hmem)
  nodup := h.nodup
  closes := h.closes

theorem Ledger.malloc {w : World} (h : Ledger w) (mallocs : List Bool) :
    Ledger { w with mallocs := mallocs } where
  balance := h.balance
  once := h.once
  fresh := h.fresh
  nodup := h.nodup
  closes := h.closes

theorem Ledger.install {w : World} (h : Ledger w) (inode : Inode) :
    Ledger (install inode w) := by
  have hnew : w.trace.count (.opened w.clock) = 0 := by
    rw [List.count_eq_zero]
    exact fun hmem => Nat.lt_irrefl _ (h.fresh _ hmem)
  constructor
  · intro serial
    have hbalance := h.balance serial
    by_cases hserial : w.clock = serial
    · subst hserial
      simp [System.install, System.log, System.tick, List.count_append]
      omega
    · simpa [System.install, System.log, System.tick, List.count_append,
        hserial] using hbalance
  · intro serial
    have honce := h.once serial
    by_cases hserial : w.clock = serial
    · subst hserial
      simp [System.install, System.log, System.tick, List.count_append, hnew]
    · simpa [System.install, System.log, System.tick, List.count_append,
        hserial] using honce
  · intro serial hmem
    simp only [System.install, System.log, System.tick, List.mem_append,
      List.mem_singleton, Event.opened.injEq] at hmem ⊢
    rcases hmem with hmem | rfl
    · exact Nat.lt_succ_of_lt (h.fresh serial hmem)
    · exact Nat.lt_succ_self _
  · simp only [System.install, System.log, System.tick, List.map_cons,
      List.nodup_cons]
    exact ⟨lowestFree_notMem _, h.nodup⟩
  · intro fd hmem
    apply h.closes fd
    simpa [System.install, System.log, System.tick] using hmem

/-- Taking the closed file out of the table balances its `closed` event. -/
theorem Ledger.close_entry {w : World} {fd : Fd} {file : OpenFile}
    {serial : ℕ} {before after : List (Fd × OpenFile)} (h : Ledger w)
    (hw : w.descriptors = before ++ (fd, file) :: after)
    (hserial : file.serial = some serial) : Ledger (close fd w) := by
  have hnodup := h.nodup
  rw [hw, List.map_append, List.map_cons] at hnodup
  obtain ⟨hfree, hrest⟩ := List.nodup_middle.mp hnodup |> List.nodup_cons.mp
  rw [List.mem_append, not_or] at hfree
  rw [System.close_entry hw hserial hfree.1 hfree.2]
  constructor
  · intro other
    have hbalance := h.balance other
    rw [hw, List.countP_append, List.countP_cons] at hbalance
    by_cases hother : serial = other
    · subst hother
      simp only [hserial, decide_true, if_true] at hbalance
      simp [System.log, List.count_append]
      omega
    · simpa [System.log, List.count_append, hserial, hother] using hbalance
  · intro other
    simpa [System.log, List.count_append] using h.once other
  · intro other hmem
    apply h.fresh other
    simpa [System.log] using hmem
  · simpa [System.log] using hrest
  · intro other hmem
    apply h.closes other
    simpa [System.log] using hmem

/-- Every file opened so far has been closed, once. -/
def AllClosed (trace : List Event) : Prop :=
  ∀ serial, .opened serial ∈ trace →
    trace.count (.opened serial) = 1 ∧ trace.count (.closed serial) = 1

/-- When no file of this run is in the table, all have been closed. -/
theorem Ledger.allClosed {w : World} (h : Ledger w)
    (hinherited : ∀ entry ∈ w.descriptors, entry.2.serial = none) :
    AllClosed w.trace := by
  intro serial hmem
  have hopened : w.trace.count (.opened serial) = 1 :=
    Nat.le_antisymm (h.once serial) (List.count_pos_iff.mpr hmem)
  have hbalance := h.balance serial
  have htable : (w.descriptors.countP fun entry =>
      entry.2.serial = some serial) = 0 := by
    rw [List.countP_eq_zero]
    intro entry hentry
    simp [hinherited entry hentry]
  exact ⟨hopened, by omega⟩

end HttpCerver.Descriptors
