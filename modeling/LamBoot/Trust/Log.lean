import LamBoot.TrustEvent
import LamBoot.Library.Json

/-!
# The trust log of a boot

`TrustLog` of `trust_log_pure.rs`. Events wait until they are flushed; a flush turns those that wait
into lines of JSON and keeps them, so that the next one goes on with their number.
-/

namespace LamBoot

open List Text

/-! ### Lines -/

/-- A control character, as `\u` and four hex digits. -/
def escapeControl (c : Char) : Text :=
  let digits := Nat.toDigits 16 c.toNat
  '\\' :: 'u' :: List.replicate (4 - digits.length) '0' ++ digits

def escapeChar (c : Char) : Text :=
  if c = '"' then ['\\', '"']
  else if c = '\\' then ['\\', '\\']
  else if c = '\n' then ['\\', 'n']
  else if c = '\r' then ['\\', 'r']
  else if c = '\t' then ['\\', 't']
  else if c.toNat < 0x20 then escapeControl c
  else [c]

def pushKv (key val : Text) (quote : Bool) : Text :=
  '"' :: key ++ ['"', ':'] ++ if quote then '"' :: val.flatMap escapeChar ++ ['"'] else val

/-- The keys and values of an event. The verifier and the note are left out where they are empty. -/
def eventFields (seq : Nat) (ev : TrustEvent) : List Text :=
  [pushKv "seq" (decimal seq) false, pushKv "event" ev.event true, pushKv "path" ev.path true,
    pushKv "size" (decimal ev.size) false, pushKv "sha256" ev.sha256Hex true,
    pushKv "verified_via" ev.verifiedVia true, pushKv "status" ev.status true] ++
  (if ev.verifierTag = [] then [] else [pushKv "verifier_tag" ev.verifierTag true]) ++
  (if ev.note = [] then [] else [pushKv "note" ev.note true])

def eventLine (seq : Nat) (ev : TrustEvent) : Text :=
  '{' :: join [','] (eventFields seq ev) ++ ['}', '\n']

/-- One line for each event, numbered from `bootSeq` on. -/
def serializeEvents (committed : List TrustEvent) (bootSeq : UInt64) : Text :=
  (committed.mapIdx fun i ev => eventLine (UInt64.ofNat i + bootSeq).toNat ev).flatten

@[simp] lemma serializeEvents_nil (bootSeq : UInt64) : serializeEvents [] bootSeq = [] := rfl

lemma serializeEvents_append (evs evs' : List TrustEvent) (bootSeq : UInt64) :
    serializeEvents (evs ++ evs') bootSeq =
      serializeEvents evs bootSeq ++ serializeEvents evs' (UInt64.ofNat evs.length + bootSeq) := by
  simp only [serializeEvents, mapIdx_append, flatten_append, UInt64.ofNat_add, UInt64.add_assoc]

lemma serializeEvents_zero {evs : List TrustEvent} (h : evs.length ≤ 2 ^ 64) :
    serializeEvents evs 0 = (evs.mapIdx eventLine).flatten := by
  rw [serializeEvents]
  congr 1
  refine mapIdx_eq_mapIdx_iff.mpr fun i hi => ?_
  rw [UInt64.add_zero, UInt64.toNat_ofNat_of_lt' (lt_of_lt_of_le hi h)]

/-! ### The accumulator -/

/-- The events of a boot. -/
structure TrustLog where
  /-- Those recorded since the last flush. -/
  events : List TrustEvent := []
  /-- Those that were flushed. -/
  committed : List TrustEvent := []
  bootSeq : UInt64 := 0
  quiet : Bool := false
  logPath : Text := "/loader/boot-trust.log"

namespace TrustLog

def new : TrustLog := {}

def setQuiet (log : TrustLog) (q : Bool) : TrustLog :=
  { log with quiet := q }

def setLogPath (log : TrustLog) (p : Text) : TrustLog :=
  { log with logPath := p }

/-- The message that `record` also prints is no part of the model. -/
def record (log : TrustLog) (ev : TrustEvent) : TrustLog :=
  { log with events := log.events ++ [ev] }

def serializeMerged (log : TrustLog) : Text × TrustLog :=
  let committed := log.committed ++ log.events
  (serializeEvents committed log.bootSeq, { log with events := [], committed })

def serializePending (log : TrustLog) : Text × TrustLog :=
  if log.events = [] then ([], log)
  else
    let startSeq := UInt64.ofNat log.committed.length + log.bootSeq
    (serializeEvents log.events startSeq,
      { log with events := [], committed := log.committed ++ log.events })

lemma serializePending_eq (log : TrustLog) :
    log.serializePending =
      (serializeEvents log.events (UInt64.ofNat log.committed.length + log.bootSeq),
        { log with events := [], committed := log.committed ++ log.events }) := by
  unfold serializePending
  split_ifs with h
  · cases log
    subst h
    simp
  · rfl

def all (log : TrustLog) : List TrustEvent :=
  log.committed ++ log.events

@[simp] lemma all_record (log : TrustLog) (ev : TrustEvent) :
    (log.record ev).all = log.all ++ [ev] := by
  simp [all, record]

@[simp] lemma all_serializePending (log : TrustLog) : log.serializePending.2.all = log.all := by
  simp [all, serializePending_eq]

lemma serializeMerged_eq (log : TrustLog) :
    log.serializeMerged.1 = serializeEvents log.all log.bootSeq := rfl

lemma serialize_committed (log : TrustLog) :
    serializeEvents log.serializePending.2.committed log.bootSeq =
      serializeEvents log.committed log.bootSeq ++ log.serializePending.1 := by
  rw [serializePending_eq, serializeEvents_append]

end TrustLog

/-! ### A boot -/

inductive LogStep where
  | record (ev : TrustEvent)
  | flush
deriving DecidableEq, Repr

def recordedBy (steps : List LogStep) : List TrustEvent :=
  steps.filterMap fun
    | .record ev => some ev
    | .flush => none

def TrustLog.run (log : TrustLog) : List LogStep → List Text × TrustLog
  | [] => ([], log)
  | .record ev :: steps => (log.record ev).run steps
  | .flush :: steps =>
    let (text, log) := log.serializePending
    let (texts, log) := log.run steps
    (text :: texts, log)

namespace TrustLog

lemma run_spec (log : TrustLog) (steps : List LogStep) :
    (log.run steps).2.all = log.all ++ recordedBy steps ∧
      (log.run steps).2.bootSeq = log.bootSeq ∧
      serializeEvents (log.run steps).2.committed log.bootSeq =
        serializeEvents log.committed log.bootSeq ++ (log.run steps).1.flatten := by
  induction steps generalizing log with
  | nil => simp [run, recordedBy]
  | cons step steps ih =>
    cases step with
    | record ev =>
      obtain ⟨hall, hseq, htext⟩ := ih (log.record ev)
      refine ⟨?_, hseq, htext⟩
      rw [run, hall, all_record, append_assoc]
      rfl
    | flush =>
      obtain ⟨hall, hseq, htext⟩ := ih log.serializePending.2
      have hsame : log.serializePending.2.bootSeq = log.bootSeq := by rw [serializePending_eq]
      rw [hsame] at hseq htext
      refine ⟨?_, hseq, ?_⟩
      · rw [all_serializePending] at hall
        exact hall
      · rw [serialize_committed, append_assoc] at htext
        exact htext

end TrustLog

/-- However recording and flushing alternate, what the flushes return is the one serialization of
all events, and so is the merged one. -/
theorem flushes_serialize_all (quiet : Bool) (logPath : Text) (steps : List LogStep) :
    let run := ((TrustLog.new.setQuiet quiet).setLogPath logPath).run steps
    let recorded := recordedBy steps
    run.1.flatten ++ run.2.serializePending.1 = serializeEvents recorded 0 ∧
      run.2.serializeMerged.1 = serializeEvents recorded 0 ∧
      run.2.serializePending.2.serializeMerged.1 = serializeEvents recorded 0 ∧
      (recorded.length ≤ 2 ^ 64 →
        serializeEvents recorded 0 = (recorded.mapIdx eventLine).flatten) := by
  intro run recorded
  obtain ⟨hall, hseq, htext⟩ :=
    TrustLog.run_spec ((TrustLog.new.setQuiet quiet).setLogPath logPath) steps
  change run.2.all = recorded at hall
  change run.2.bootSeq = 0 at hseq
  change serializeEvents run.2.committed 0 = run.1.flatten at htext
  have hmerged : run.2.serializeMerged.1 = serializeEvents recorded 0 := by
    rw [TrustLog.serializeMerged_eq, hall, hseq]
  refine ⟨?_, hmerged, ?_, serializeEvents_zero⟩
  · have hcommitted := TrustLog.serialize_committed run.2
    rw [TrustLog.serializePending_eq, hseq, htext] at hcommitted
    rw [TrustLog.serializePending_eq, hseq, ← hcommitted, ← hall]
    rfl
  · rw [TrustLog.serializeMerged_eq, TrustLog.all_serializePending, hall,
      TrustLog.serializePending_eq, hseq]

end LamBoot
