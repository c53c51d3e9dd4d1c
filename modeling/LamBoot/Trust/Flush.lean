import LamBoot.Trust.Log
import LamBoot.Fs.Writer

/-!
# Flushing the trust log

`TrustLog::flush` of `trust_log.rs` over the writer of a FAT volume. The events are committed before
they are written, so a write that fails takes its events with it: no later flush tries them again.
-/

namespace LamBoot

open List Text Stateful

/-- How a flush ends, as it reports it. -/
inductive FlushOutcome where
  | nothingPending
  | notFat
  | badPath
  | appended
  | appendFailed (e : FsError)
deriving DecidableEq, Repr

def FlushOutcome.failed : FlushOutcome → Bool
  | .nothingPending | .appended => false
  | .notFat | .badPath | .appendFailed _ => true

/-- The log, and the volume it is written to. No writer is had of a volume that is not FAT. -/
structure LogState where
  log : TrustLog
  volume : Option FatVolume

namespace LogState

def record (s : LogState) (ev : TrustEvent) : LogState :=
  { s with log := s.log.record ev }

def flush (driver : FatDriver) (s : LogState) : Option (FlushOutcome × LogState) :=
  if s.log.events = [] then some (.nothingPending, s)
  else
    let (buf, log) := s.log.serializePending
    match s.volume with
    | none => some (.notFat, ⟨log, none⟩)
    | some volume =>
      match PathBuf.fromStr log.logPath with
      | .error _ => some (.badPath, ⟨log, some volume⟩)
      | .ok path =>
        match EspWriter.trueAppend driver path (utf8 buf) volume with
        | .ok () volume => some (.appended, ⟨log, some volume⟩)
        | .error (.failed e) volume => some (.appendFailed e, ⟨log, some volume⟩)
        | .error .halted _ => none

def onDisk (driver : FatDriver) (s : LogState) : Bytes :=
  match s.volume, PathBuf.fromStr s.log.logPath with
  | some volume, .ok path => (volume.media.disk.content (driver.nameOf path)).getD []
  | _, _ => []

section Flush

variable {driver : FatDriver} {s s' : LogState} {outcome : FlushOutcome}

lemma flush_cases (h : s.flush driver = some (outcome, s')) :
    (s.log.events = [] ∧ s' = s ∧ outcome.failed = false) ∨
      s.log.events ≠ [] ∧ s'.log = s.log.serializePending.2 ∧
        (outcome.failed = false →
          s'.onDisk driver = s.onDisk driver ++ utf8 s.log.serializePending.1) := by
  have hsame : s.log.serializePending.2.logPath = s.log.logPath := by
    rw [TrustLog.serializePending_eq]
  unfold flush at h
  split_ifs at h with hempty
  · cases h
    exact .inl ⟨hempty, rfl, rfl⟩
  refine .inr ⟨hempty, ?_⟩
  dsimp only at h
  cases hvolume : s.volume with
  | none =>
    rw [hvolume] at h
    cases h
    exact ⟨rfl, nofun⟩
  | some volume =>
    rw [hvolume] at h
    dsimp only at h
    cases hpath : PathBuf.fromStr s.log.serializePending.2.logPath with
    | error e =>
      rw [hpath] at h
      cases h
      exact ⟨rfl, nofun⟩
    | ok path =>
      rw [hpath] at h
      dsimp only at h
      cases happend : EspWriter.trueAppend driver path (utf8 s.log.serializePending.1) volume with
      | ok u volume' =>
        rw [happend] at h
        cases h
        refine ⟨rfl, fun _ => ?_⟩
        have hcontent := triple_trueAppend.ok rfl happend
        simp only [onDisk, hvolume, hpath, ← hsame, hcontent, Option.getD_some]
      | error e volume' =>
        rw [happend] at h
        cases e with
        | failed e =>
          cases h
          exact ⟨rfl, nofun⟩
        | halted => cases h

end Flush

end LogState

/-! ### A boot -/

/-- A boot in which events are recorded and flushed, as far as it has come: the events recorded, and
whether some flush has failed. A flush that fails writes nothing. -/
inductive LogRun (driver : FatDriver) (start : LogState) :
    List TrustEvent → Bool → LogState → Prop where
  | start : LogRun driver start [] false start
  | record {evs : List TrustEvent} {failed : Bool} {s : LogState} (ev : TrustEvent) :
    LogRun driver start evs failed s → LogRun driver start (evs ++ [ev]) failed (s.record ev)
  | flush {evs : List TrustEvent} {failed : Bool} {s s' : LogState} {outcome : FlushOutcome} :
    LogRun driver start evs failed s → s.flush driver = some (outcome, s') →
    (outcome.failed = true → s'.onDisk driver = s.onDisk driver) →
    LogRun driver start evs (failed || outcome.failed) s'

lemma utf8_append (s t : Text) : utf8 (s ++ t) = utf8 s ++ utf8 t :=
  flatMap_append

lemma length_serializeEvents_pos {evs : List TrustEvent} (h : evs ≠ []) (seq : UInt64) :
    0 < (utf8 (serializeEvents evs seq)).length := by
  obtain ⟨ev, evs, rfl⟩ := exists_cons_of_ne_nil h
  rw [serializeEvents, mapIdx_cons, flatten_cons, eventLine, cons_append,
    cons_append, utf8, flatMap_cons, length_append]
  exact Nat.add_pos_left (by decide) _

/-- What the log on the volume has to do with the events: it is the serialization of those that were
committed, or it lacks some of it for good. -/
structure LogInv (driver : FatDriver) (start : LogState) (evs : List TrustEvent) (failed : Bool)
    (s : LogState) : Prop where
  all : s.log.all = evs
  bootSeq : s.log.bootSeq = 0
  onDisk : ∃ written, s.onDisk driver = start.onDisk driver ++ written ∧
    if failed then written.length < (utf8 (serializeEvents s.log.committed 0)).length
    else written = utf8 (serializeEvents s.log.committed 0)

section Run

variable {driver : FatDriver} {start s s' : LogState} {evs : List TrustEvent} {failed : Bool}
  {outcome : FlushOutcome}

lemma LogInv.record (h : LogInv driver start evs failed s) (ev : TrustEvent) :
    LogInv driver start (evs ++ [ev]) failed (s.record ev) where
  all := (TrustLog.all_record s.log ev).trans (by rw [h.all])
  bootSeq := h.bootSeq
  onDisk := h.onDisk

lemma LogInv.flush (h : LogInv driver start evs failed s)
    (hflush : s.flush driver = some (outcome, s'))
    (huntouched : outcome.failed = true → s'.onDisk driver = s.onDisk driver) :
    LogInv driver start evs (failed || outcome.failed) s' := by
  rcases LogState.flush_cases hflush with ⟨-, rfl, hfailed⟩ | ⟨hpending, hlog, happended⟩
  · rw [hfailed, Bool.or_false]
    exact h
  have hserialized : utf8 (serializeEvents s'.log.committed 0) =
      utf8 (serializeEvents s.log.committed 0) ++ utf8 s.log.serializePending.1 := by
    have := TrustLog.serialize_committed s.log
    rw [h.bootSeq] at this
    rw [hlog, this, utf8_append]
  have hpos : 0 < (utf8 s.log.serializePending.1).length := by
    rw [TrustLog.serializePending_eq]
    exact length_serializeEvents_pos hpending _
  obtain ⟨written, hdisk, hwritten⟩ := h.onDisk
  refine ⟨?_, ?_, ?_⟩
  · rw [hlog, TrustLog.all_serializePending, h.all]
  · rw [hlog, TrustLog.serializePending_eq]
    exact h.bootSeq
  · cases hfailed : outcome.failed with
    | true =>
      -- What waited is committed but not written, and the bytes on the volume fall behind.
      refine ⟨written, (huntouched hfailed).trans hdisk, ?_⟩
      have hle : written.length ≤ (utf8 (serializeEvents s.log.committed 0)).length := by
        split_ifs at hwritten
        · exact hwritten.le
        · rw [hwritten]
      rw [Bool.or_true, if_pos rfl, hserialized, length_append]
      omega
    | false =>
      refine ⟨written ++ utf8 s.log.serializePending.1, ?_, ?_⟩
      · rw [happended hfailed, hdisk, append_assoc]
      · rw [Bool.or_false, hserialized]
        split_ifs at hwritten ⊢
        · rw [length_append, length_append]
          omega
        · rw [hwritten]

lemma LogRun.inv {quiet : Bool} {logPath : Text} {volume : Option FatVolume}
    (h : LogRun driver ⟨(TrustLog.new.setQuiet quiet).setLogPath logPath, volume⟩ evs failed s) :
    LogInv driver ⟨(TrustLog.new.setQuiet quiet).setLogPath logPath, volume⟩ evs failed s := by
  induction h with
  | start => exact ⟨rfl, rfl, [], (append_nil _).symm, rfl⟩
  | record ev _ ih => exact ih.record ev
  | flush _ hflush huntouched ih => exact ih.flush hflush huntouched

lemma committed_of_flush (hflush : s.flush driver = some (outcome, s')) :
    s'.log.committed = s'.log.all := by
  have hevents : s'.log.events = [] := by
    rcases LogState.flush_cases hflush with ⟨hempty, rfl, -⟩ | ⟨-, hlog, -⟩
    · exact hempty
    · rw [hlog, TrustLog.serializePending_eq]
  rw [TrustLog.all, hevents, append_nil]

/-- After a flush that succeeds, the log on the volume has all events of the boot, once and in their
order, just when no flush before it has failed. -/
theorem flush_complete_iff (quiet : Bool) (logPath : Text) (volume : Option FatVolume)
    (hrun : LogRun driver ⟨(TrustLog.new.setQuiet quiet).setLogPath logPath, volume⟩ evs failed s)
    (hflush : s.flush driver = some (outcome, s')) (hok : outcome.failed = false) :
    s'.onDisk driver =
        LogState.onDisk driver ⟨(TrustLog.new.setQuiet quiet).setLogPath logPath, volume⟩ ++
          utf8 (serializeEvents evs 0) ↔
      failed = false := by
  have hinv := hrun.inv.flush hflush (by simp [hok])
  obtain ⟨written, hdisk, hwritten⟩ := hinv.onDisk
  rw [committed_of_flush hflush, hinv.all, hok, Bool.or_false] at hwritten
  rw [hdisk, append_cancel_left_eq]
  cases failed with
  | false => exact iff_of_true hwritten rfl
  | true =>
    refine iff_of_false (fun heq => ?_) (by decide)
    rw [heq] at hwritten
    exact absurd hwritten (Nat.lt_irrefl _)

end Run

/-! ### One boot with a write that fails -/

namespace LogState

def afterFlush (driver : FatDriver) (s : LogState) : LogState :=
  ((s.flush driver).map Prod.snd).getD s

lemma flush_eq_afterFlush {driver : FatDriver} {s : LogState} {outcome : FlushOutcome}
    (h : (s.flush driver).map Prod.fst = some outcome) :
    s.flush driver = some (outcome, s.afterFlush driver) := by
  obtain ⟨⟨_, s'⟩, hflush, rfl⟩ := Option.map_eq_some_iff.mp h
  rw [afterFlush, hflush]
  rfl

def fresh : LogState :=
  ⟨TrustLog.new, some (.mount ⟨Disk.ofFiles [], 0⟩)⟩

end LogState

def bootStart : TrustEvent := ⟨"boot_start", [], 0, [], [], [], [], []⟩
def entrySelected : TrustEvent := ⟨"entry_selected", [], 0, [], [], [], [], []⟩

/-- Without a failure, two flushes leave both events. -/
theorem flush_complete_twice :
    (((LogState.fresh.record bootStart).afterFlush (.failsOnce 99)).record entrySelected
      |>.afterFlush (.failsOnce 99)).onDisk (.failsOnce 99) =
        LogState.fresh.onDisk (.failsOnce 99) ++
          utf8 (serializeEvents [bootStart, entrySelected] 0) := by
  have hfirst : (LogState.fresh.record bootStart).flush (.failsOnce 99) = some (.appended, _) :=
    LogState.flush_eq_afterFlush (by decide +kernel)
  have hsecond : (((LogState.fresh.record bootStart).afterFlush (.failsOnce 99)).record
      entrySelected).flush (.failsOnce 99) = some (.appended, _) :=
    LogState.flush_eq_afterFlush (by decide +kernel)
  have hrun := LogRun.record entrySelected
    (LogRun.flush (LogRun.record bootStart LogRun.start) hfirst (by decide))
  exact (flush_complete_iff false _ _ hrun hsecond rfl).mpr rfl

/-- When the first write fails, the second flush succeeds and leaves the second event alone. -/
theorem flush_loses_event :
    ∃ s s', LogRun (.failsOnce 5) LogState.fresh [bootStart, entrySelected] true s ∧
      s.flush (.failsOnce 5) = some (.appended, s') ∧
      s'.onDisk (.failsOnce 5) = utf8 (eventLine 1 entrySelected) ∧
      s'.onDisk (.failsOnce 5) ≠
        LogState.fresh.onDisk (.failsOnce 5) ++
          utf8 (serializeEvents [bootStart, entrySelected] 0) := by
  have hfirst : (LogState.fresh.record bootStart).flush (.failsOnce 5) =
      some (.appendFailed (.io .deviceError), _) :=
    LogState.flush_eq_afterFlush (by decide +kernel)
  have hsecond : (((LogState.fresh.record bootStart).afterFlush (.failsOnce 5)).record
      entrySelected).flush (.failsOnce 5) = some (.appended, _) :=
    LogState.flush_eq_afterFlush (by decide +kernel)
  refine ⟨_, _, .record entrySelected
    (LogRun.flush (LogRun.record bootStart LogRun.start) hfirst fun _ => ?_), hsecond, ?_, ?_⟩
  all_goals decide +kernel

end LamBoot
