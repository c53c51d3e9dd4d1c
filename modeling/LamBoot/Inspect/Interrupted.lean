import LamBoot.Inspect.RoundTrip
import LamBoot.Trust.Flush

/-!
# The log of a boot that stops

A boot may stop between any two calls on its log. The log on the disk then ends with the last flush,
and the inspector reads from it the events that were recorded up to there. A stop inside a flush is
not covered: it may leave a part of a line.
-/

namespace LamBoot.Inspect

open List Text

/-- After any sequence of records and flushes, with no flush having failed, the inspector finds no
error in a log that was empty at its start, and in it exactly the events that do not wait for a
flush. -/
theorem parse_onDisk (py : Python) {driver : FatDriver} {quiet : Bool} {logPath : Text}
    {volume : Option FatVolume} {evs : List TrustEvent} {s : LogState}
    (hrun : LogRun driver ⟨(TrustLog.new.setQuiet quiet).setLogPath logPath, volume⟩ evs false s)
    (hempty : LogState.onDisk driver
      ⟨(TrustLog.new.setQuiet quiet).setLogPath logPath, volume⟩ = [])
    (hframed : ∀ ev ∈ evs, Framed ev) (hfit : evs.length ≤ 2 ^ 64) :
    evs = s.log.committed ++ s.log.events ∧ (parse py (s.onDisk driver)).parseErrors = [] ∧
      (parse py (s.onDisk driver)).events.map ParsedEvent.unplaced = written 0 s.log.committed := by
  have hinv := hrun.inv
  have hevs : evs = s.log.committed ++ s.log.events := hinv.all.symm
  obtain ⟨bytes, hdisk, hbytes⟩ := hinv.onDisk
  rw [if_neg Bool.false_ne_true] at hbytes
  rw [hempty, nil_append, hbytes] at hdisk
  have hcommitted : ∀ ev ∈ s.log.committed, Framed ev := fun ev hev =>
    hframed ev (hevs ▸ mem_append_left _ hev)
  obtain ⟨herrors, hevents⟩ := parse_serializeEvents_of_framed py 0 hcommitted
  have hlength : (0 : UInt64).toNat + s.log.committed.length ≤ 2 ^ 64 := by
    rw [hevs, length_append] at hfit
    exact (Nat.zero_add _).trans_le (Nat.le_of_add_right_le hfit)
  -- the numbers do not wrap, so the sort leaves the events in the order of their lines
  have hsorted : (placedEvents 1 (numbered 0 s.log.committed)).Pairwise
      fun a b => sortsBefore a b = true := by
    rw [placedEvents_numbered 1 hlength]
    exact pairwise_sortsBefore_mapIdx _ _ _
  rw [hdisk]
  exact ⟨hevs, herrors, by rw [hevents, sortEvents_of_pairwise hsorted, map_unplaced_placedEvents]⟩

/-- A boot that stops after its second event was recorded leaves the first one. -/
theorem parse_onDisk_of_one_flush :
    let s := ((LogState.fresh.record bootStart).afterFlush (.failsOnce 99)).record entrySelected
    (parse .minimal (s.onDisk (.failsOnce 99))).events.map ParsedEvent.unplaced =
      written 0 [bootStart] := by
  intro s
  have hflush : (LogState.fresh.record bootStart).flush (.failsOnce 99) = some (.appended, _) :=
    LogState.flush_eq_afterFlush (by decide +kernel)
  have hrun := LogRun.record entrySelected
    (LogRun.flush (LogRun.record bootStart LogRun.start) hflush (by decide))
  exact (parse_onDisk .minimal hrun (by decide +kernel) (by decide) (by decide)).2.2

end LamBoot.Inspect
