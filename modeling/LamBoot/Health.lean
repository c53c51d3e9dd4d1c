import LamBoot.Library.Text

/-!
# Boot health

The crash counter of `health.rs`. The boot state and the counter are updated at the start of every
boot and when a boot is marked successful; a new VM generation id starts from a clean state.

`Tally` is how many boots failed in a row. The variables follow it (`Follows`) except after a boot
that sees a new id and fails, because that boot leaves the state `Fresh` behind.
-/

namespace LamBoot

open Bytes Text List

/-! ### NVRAM -/

/-- The variables LamBoot keeps. -/
inductive Var where
  | state
  | crashCounter
  | lastEntry
  | timestamp
  | version
  | loaderInfo
  | loaderEntrySelected
  | loaderBootCountPath
  | vmGenId
deriving DecidableEq, Repr

def Nvram := Var → Option Bytes

def Nvram.blank : Nvram := fun _ => none

def Writable := Var → Bool

def Writable.all : Writable := fun _ => true

/-- `set_variable`: whether it succeeded, and the store after it. -/
def setVariable (w : Writable) (v : Var) (data : Bytes) (nv : Nvram) : Bool × Nvram :=
  if w v then (true, Function.update nv v (some data)) else (false, nv)

/-- Sequencing with `?`: a failed write ends the function, and what was written stays. -/
def andThen (f g : Nvram → Bool × Nvram) (nv : Nvram) : Bool × Nvram :=
  match f nv with
  | (true, nv') => g nv'
  | (false, nv') => (false, nv')

/-- Boot state machine values. -/
inductive BootState where
  | fresh
  | booting
  | bootedOK
  | crashLoop
deriving DecidableEq, Repr

def BootState.toUInt8 : BootState → UInt8
  | .fresh => 0
  | .booting => 1
  | .bootedOK => 2
  | .crashLoop => 3

def BootState.fromU8 (v : UInt8) : BootState :=
  if v = 1 then .booting else if v = 2 then .bootedOK else if v = 3 then .crashLoop else .fresh

def getByte (v : Var) (nv : Nvram) : Option UInt8 :=
  match nv v with
  | some [b] => some b
  | _ => none

def getState (nv : Nvram) : BootState :=
  match getByte .state nv with
  | some b => .fromU8 b
  | none => .fresh

def setState (w : Writable) (state : BootState) : Nvram → Bool × Nvram :=
  setVariable w .state [state.toUInt8]

def getCrashCounter (nv : Nvram) : UInt8 :=
  (getByte .crashCounter nv).getD 0

/-- The time of day the firmware reports. -/
structure EfiTime where
  year : UInt16
  month : UInt8
  day : UInt8
  hour : UInt8
  minute : UInt8
  second : UInt8

def writeTimestamp (w : Writable) (now : Option EfiTime) : Nvram → Bool × Nvram :=
  setVariable w .timestamp <|
    match now with
    | some t =>
      [(t.year &&& 0xFF).toUInt8, (t.year >>> 8).toUInt8, t.month, t.day, t.hour, t.minute,
        t.second, 0]
    | none => replicate 8 0

def loaderInfoUtf16le : Bytes :=
  (utf16 "LamBoot 0.16.5").flatMap le16 ++ [0, 0]

def versionPackedU32 : UInt32 :=
  ((0 : UInt32) <<< 16) ||| ((16 : UInt32) <<< 8) ||| 5

def setLoaderInfo (w : Writable) : Nvram → Bool × Nvram :=
  andThen (setVariable w .loaderInfo loaderInfoUtf16le)
    (setVariable w .version (le32 versionPackedU32))

/-- A VM generation id, `[u8; 16]`. -/
abbrev VmGenId := { b : Bytes // b.length = 16 }

def getVmgenid (nv : Nvram) : Option VmGenId :=
  match nv .vmGenId with
  | some data => if h : data.length = 16 then some ⟨data, h⟩ else none
  | none => none

def setVmgenid (w : Writable) (genid : VmGenId) : Nvram → Bool × Nvram :=
  setVariable w .vmGenId genid.val

/-! ### The functions of the state machine -/

def saturatingAdd (a b : UInt8) : UInt8 :=
  UInt8.ofNat (min 255 (a.toNat + b.toNat))

def nextCounter (nv : Nvram) : UInt8 :=
  match getState nv with
  | .booting => saturatingAdd (getCrashCounter nv) 1
  | .bootedOK | .fresh => 0
  | .crashLoop => getCrashCounter nv

def resetHealth (w : Writable) (now : Option EfiTime) (genid : VmGenId) (nv : Nvram) : Nvram :=
  let nv := (setState w .fresh nv).2
  let nv := (setVariable w .crashCounter [0] nv).2
  let nv := (setVmgenid w genid nv).2
  let nv := (writeTimestamp w now nv).2
  (setLoaderInfo w nv).2

/-- The transition to `Booting`. -/
def recordBooting (w : Writable) (now : Option EfiTime) (counter : UInt8) (nv : Nvram) : Nvram :=
  let nv := (setVariable w .crashCounter [counter] nv).2
  let nv := (setState w .booting nv).2
  let nv := (writeTimestamp w now nv).2
  (setLoaderInfo w nv).2

def assessBootHealth (w : Writable) (now : Option EfiTime) (vmgenid : Option VmGenId)
    (nv : Nvram) : UInt8 × Nvram :=
  match vmgenid with
  | some current =>
    if getVmgenid nv ≠ some current then (0, resetHealth w now current nv)
    else (nextCounter nv, recordBooting w now (nextCounter nv) nv)
  | none => (nextCounter nv, recordBooting w now (nextCounter nv) nv)

def isCrashLoop (threshold : UInt8) (nv : Nvram) : Bool :=
  threshold ≤ getCrashCounter nv

/-- Mark boot as successful: state `BootedOK`, counter 0. -/
def markBootSuccess (w : Writable) (now : Option EfiTime) (nv : Nvram) : Bool × Nvram :=
  andThen (setState w .bootedOK)
    (andThen (setVariable w .crashCounter [0]) fun nv => (true, (writeTimestamp w now nv).2)) nv

/-- Bytes widened to two each, with a terminator, as `LoaderEntrySelected` holds them. -/
def widened (bytes : Bytes) : Bytes :=
  bytes.flatMap (fun b => [b, 0]) ++ [0, 0]

def recordBootEntry (w : Writable) (entryId : Text) (nv : Nvram) : Bool × Nvram :=
  let bytes := (utf8 entryId).take 128
  andThen (setVariable w .lastEntry bytes)
    (fun nv => (true, (setVariable w .loaderEntrySelected (widened bytes) nv).2)) nv

/-- Set `LoaderBootCountPath`. -/
def setBootCountPath (w : Writable) (path : Text) : Nvram → Bool × Nvram :=
  setVariable w .loaderBootCountPath (widened ((utf8 path).take 256))

/-! ### What the functions write -/

/-- Two stores with the same boot state and crash counter. -/
structure SameHealth (nv nv' : Nvram) : Prop where
  state : nv' .state = nv .state
  crashCounter : nv' .crashCounter = nv .crashCounter

lemma SameHealth.refl (nv : Nvram) : SameHealth nv nv :=
  ⟨rfl, rfl⟩

lemma SameHealth.trans {nv₁ nv₂ nv₃ : Nvram} (h : SameHealth nv₁ nv₂) (h' : SameHealth nv₂ nv₃) :
    SameHealth nv₁ nv₃ :=
  ⟨h'.state.trans h.state, h'.crashCounter.trans h.crashCounter⟩

lemma SameHealth.getState_eq {nv nv' : Nvram} (h : SameHealth nv nv') :
    getState nv' = getState nv := by
  simp only [getState, getByte, h.state]

lemma SameHealth.getCrashCounter_eq {nv nv' : Nvram} (h : SameHealth nv nv') :
    getCrashCounter nv' = getCrashCounter nv := by
  simp only [getCrashCounter, getByte, h.crashCounter]

lemma sameHealth_setVariable (w : Writable) {v : Var} (data : Bytes) (nv : Nvram)
    (hs : v ≠ .state) (hc : v ≠ .crashCounter) : SameHealth nv (setVariable w v data nv).2 := by
  unfold setVariable
  split
  · exact ⟨Function.update_of_ne hs.symm _ _, Function.update_of_ne hc.symm _ _⟩
  · exact .refl nv

lemma sameHealth_andThen {f g : Nvram → Bool × Nvram} (hf : ∀ nv, SameHealth nv (f nv).2)
    (hg : ∀ nv, SameHealth nv (g nv).2) (nv : Nvram) : SameHealth nv (andThen f g nv).2 := by
  have hfirst := hf nv
  unfold andThen
  split
  · next heq =>
    rw [heq] at hfirst
    exact hfirst.trans (hg _)
  · next heq =>
    rw [heq] at hfirst
    exact hfirst

lemma sameHealth_recordBootEntry (w : Writable) (entryId : Text) (nv : Nvram) :
    SameHealth nv (recordBootEntry w entryId nv).2 := by
  refine sameHealth_andThen (fun nv => ?_) (fun nv => ?_) nv
  · exact sameHealth_setVariable w _ nv (by decide) (by decide)
  · exact sameHealth_setVariable w _ nv (by decide) (by decide)

lemma sameHealth_setBootCountPath (w : Writable) (path : Text) (nv : Nvram) :
    SameHealth nv (setBootCountPath w path nv).2 :=
  sameHealth_setVariable w _ nv (by decide) (by decide)

section AllWritable

variable (now : Option EfiTime) (nv : Nvram)

@[simp]
lemma getState_resetHealth (genid : VmGenId) :
    getState (resetHealth .all now genid nv) = .fresh := by
  rfl

@[simp]
lemma getCrashCounter_resetHealth (genid : VmGenId) :
    getCrashCounter (resetHealth .all now genid nv) = 0 := by
  rfl

@[simp]
lemma getVmgenid_resetHealth (genid : VmGenId) :
    getVmgenid (resetHealth .all now genid nv) = some genid := by
  simp only [getVmgenid]
  rw [show resetHealth .all now genid nv .vmGenId = some genid.val from rfl]
  simp [genid.property]

@[simp]
lemma getState_recordBooting (n : UInt8) :
    getState (recordBooting .all now n nv) = .booting := by
  rfl

@[simp]
lemma getCrashCounter_recordBooting (n : UInt8) :
    getCrashCounter (recordBooting .all now n nv) = n := by
  rfl

@[simp]
lemma getVmgenid_recordBooting (n : UInt8) :
    getVmgenid (recordBooting .all now n nv) = getVmgenid nv := by
  rfl

@[simp]
lemma getState_markBootSuccess : getState (markBootSuccess .all now nv).2 = .bootedOK := by
  rfl

@[simp]
lemma getVmgenid_markBootSuccess :
    getVmgenid (markBootSuccess .all now nv).2 = getVmgenid nv := by
  rfl

end AllWritable

/-! ### Histories -/

/-- One boot: the generation id the hypervisor shows, if any, the clock, and whether the boot is
marked successful before the next one. -/
structure Boot where
  vmgenid : Option VmGenId
  now : Option EfiTime := none
  marked : Bool

/-- What `assess_boot_health` answers at a boot, and the store it leaves. -/
def Boot.assess (b : Boot) (nv : Nvram) : UInt8 × Nvram :=
  assessBootHealth .all b.now b.vmgenid nv

def Boot.leaves (b : Boot) (nv : Nvram) : Nvram :=
  if b.marked then (markBootSuccess .all b.now (b.assess nv).2).2 else (b.assess nv).2

/-- The answers of `assess_boot_health` along a history, each with the store it leaves. -/
def assessments : Nvram → List Boot → List (UInt8 × Nvram)
  | _, [] => []
  | nv, b :: bs => b.assess nv :: assessments (b.leaves nv) bs

/-- The boots that failed in a row, and the generation they belong to. -/
structure Tally where
  known : Option VmGenId := none
  failures : Nat := 0

def Boot.changed (b : Boot) (known : Option VmGenId) : Bool :=
  b.vmgenid.isSome && b.vmgenid != known

/-- The failed boots before `b` that belong to the generation of `b`. -/
def Tally.before (t : Tally) (b : Boot) : Nat :=
  if b.changed t.known then 0 else t.failures

def Tally.after (t : Tally) (b : Boot) : Tally where
  known := if b.changed t.known then b.vmgenid else t.known
  failures := if b.marked then 0 else t.before b + 1

/-- At each boot of a history, the number of consecutive unsuccessful boots before it since the
later of the last success and the last change of the generation. -/
def consecutiveFailures : Tally → List Boot → List Nat
  | _, [] => []
  | t, b :: bs => t.before b :: consecutiveFailures (t.after b) bs

/-- Some boot shows a new generation id and fails, and the next one shows no new id. The flag says
that the boot before was such a one. -/
def LosesFailure : Bool → Option VmGenId → List Boot → Prop
  | _, _, [] => False
  | lost, known, b :: bs =>
    (lost = true ∧ b.changed known = false) ∨
      LosesFailure (b.changed known && !b.marked)
        (if b.changed known then b.vmgenid else known) bs

/-! ### The stored variables follow the tally -/

/-- The stored variables agree with the tally, unless a failure has just been lost: then they are
those of a fresh machine. -/
structure Follows (lost : Bool) (nv : Nvram) (t : Tally) : Prop where
  known : getVmgenid nv = t.known
  counter : lost = false → (nextCounter nv).toNat = min 255 t.failures
  lost : lost = true → nextCounter nv = 0 ∧ t.failures = 1

lemma Follows.blank : Follows false .blank {} where
  known := rfl
  counter _ := rfl
  lost h := absurd h Bool.false_ne_true

variable {nv : Nvram}

lemma Boot.assess_of_changed {b : Boot} (h : b.changed (getVmgenid nv) = true) :
    ∃ genid, b.vmgenid = some genid ∧ b.assess nv = (0, resetHealth .all b.now genid nv) := by
  obtain ⟨_ | genid, now, marked⟩ := b
  · simp [Boot.changed] at h
  · have hne : getVmgenid nv ≠ some genid := by
      intro heq
      simp [Boot.changed, heq] at h
    exact ⟨genid, rfl, if_pos hne⟩

lemma Boot.assess_of_unchanged {b : Boot} (h : b.changed (getVmgenid nv) = false) :
    b.assess nv = (nextCounter nv, recordBooting .all b.now (nextCounter nv) nv) := by
  obtain ⟨_ | genid, now, marked⟩ := b
  · rfl
  · simp only [Boot.changed, Option.isSome_some, Bool.true_and, bne_eq_false_iff_eq] at h
    exact if_neg (not_not.mpr h.symm)

lemma getCrashCounter_assess (b : Boot) (nv : Nvram) :
    getCrashCounter (b.assess nv).2 = (b.assess nv).1 := by
  cases hc : b.changed (getVmgenid nv) with
  | true =>
    obtain ⟨genid, -, h⟩ := Boot.assess_of_changed hc
    simp [h]
  | false => simp [Boot.assess_of_unchanged hc]

lemma toNat_saturatingAdd_one {n : UInt8} {k : Nat} (h : n.toNat = min 255 k) :
    (saturatingAdd n 1).toNat = min 255 (k + 1) := by
  have hn := n.toNat_lt
  simp only [saturatingAdd, UInt8.toNat_ofNat', UInt8.toNat_one]
  omega

variable {t : Tally}

lemma Follows.step {lost : Bool} (b : Boot) (h : Follows lost nv t)
    (hlost : lost = true → b.changed t.known = true) :
    Follows (b.changed t.known && !b.marked) (b.leaves nv) (t.after b) := by
  cases hc : b.changed t.known with
  | true =>
    obtain ⟨genid, hg, ha⟩ := Boot.assess_of_changed (h.known ▸ hc)
    cases hm : b.marked with
    | true =>
      refine ⟨?_, fun _ => ?_, fun h => absurd h Bool.false_ne_true⟩
      · simp [Boot.leaves, hm, ha, Tally.after, hc, hg]
      · simp [Boot.leaves, hm, ha, Tally.after, hc, nextCounter]
    | false =>
      refine ⟨?_, fun h => absurd h (by decide), fun _ => ?_⟩
      · simp [Boot.leaves, hm, ha, Tally.after, hc, hg]
      · simp [Boot.leaves, hm, ha, Tally.after, hc, Tally.before, nextCounter]
  | false =>
    have ha := Boot.assess_of_unchanged (h.known ▸ hc)
    have hn : lost = false := by
      cases lost with
      | true => exact absurd (hlost rfl) (by simp [hc])
      | false => rfl
    refine ⟨?_, fun _ => ?_, fun h => absurd h Bool.false_ne_true⟩
    · cases hm : b.marked <;> simp [Boot.leaves, hm, ha, Tally.after, hc, h.known]
    · cases hm : b.marked with
      | true => simp [Boot.leaves, hm, Tally.after, nextCounter]
      | false =>
        have := toNat_saturatingAdd_one (h.counter hn)
        simpa [Boot.leaves, hm, ha, Tally.after, hc, Tally.before, nextCounter] using this

lemma Follows.assess {lost : Bool} (b : Boot) (h : Follows lost nv t) :
    (b.assess nv).1.toNat = min 255 (t.before b) ↔
      ¬ (lost = true ∧ b.changed t.known = false) := by
  cases hc : b.changed t.known with
  | true =>
    obtain ⟨genid, hg, ha⟩ := Boot.assess_of_changed (h.known ▸ hc)
    simp [ha, Tally.before, hc]
  | false =>
    have ha := Boot.assess_of_unchanged (h.known ▸ hc)
    cases lost with
    | true =>
      obtain ⟨h0, h1⟩ := h.lost rfl
      simp [ha, Tally.before, hc, h0, h1]
    | false => simp [ha, Tally.before, hc, h.counter rfl]

lemma assessments_eq_iff_of_follows {lost : Bool} (h : Follows lost nv t)
    (history : List Boot) :
    (assessments nv history).map (·.1.toNat) =
        (consecutiveFailures t history).map (min 255) ↔
      ¬ LosesFailure lost t.known history := by
  induction history generalizing lost nv t with
  | nil => simp [assessments, consecutiveFailures, LosesFailure]
  | cons b bs ih =>
    simp only [assessments, consecutiveFailures, map_cons, cons.injEq, LosesFailure,
      not_or, h.assess b]
    refine and_congr_right fun hb => ?_
    exact ih (h.step b fun hl => by simpa [hl] using hb)

lemma crashLoops_of_assessments {history : List Boot}
    (h : (assessments nv history).map (·.1.toNat) =
      (consecutiveFailures t history).map (min 255)) (threshold : UInt8) :
    (assessments nv history).map (isCrashLoop threshold ·.2) =
      (consecutiveFailures t history).map fun n => decide (threshold.toNat ≤ n) := by
  induction history generalizing nv t with
  | nil => rfl
  | cons b bs ih =>
    simp only [assessments, consecutiveFailures, map_cons, cons.injEq] at h ⊢
    refine ⟨?_, ih h.2⟩
    have ht := threshold.toNat_lt
    simp only [isCrashLoop, getCrashCounter_assess, UInt8.le_iff_toNat_le, h.1]
    congr 1
    rw [Nat.le_min, eq_iff_iff]
    omega

/-- Along every history from a blank NVRAM, failures in a row are counted up to 255 and a crash loop
is reported from the threshold on, exactly when no boot shows a new generation id, fails and is
followed by one of the same generation. -/
theorem assessments_eq_iff (history : List Boot) :
    ((assessments .blank history).map (·.1.toNat) =
          (consecutiveFailures {} history).map (min 255) ∧
        ∀ threshold : UInt8, 1 ≤ threshold →
          (assessments .blank history).map (isCrashLoop threshold ·.2) =
            (consecutiveFailures {} history).map fun n => decide (threshold.toNat ≤ n)) ↔
      ¬ LosesFailure false none history := by
  rw [← assessments_eq_iff_of_follows Follows.blank, and_iff_left_iff_imp]
  exact fun h threshold _ => crashLoops_of_assessments h threshold

/-- A machine that keeps one generation id and fails to boot twice: the second boot still sees no
failure. -/
theorem assessments_lose_failure :
    let boot : Boot := { vmgenid := some ⟨replicate 16 7, rfl⟩, marked := false }
    (assessments .blank [boot, boot]).map (·.1) = [0, 0] ∧
      consecutiveFailures {} [boot, boot] = [0, 1] := by
  decide

end LamBoot
