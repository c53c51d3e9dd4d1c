import LamBoot.Uefi

/-!
# The security override

The replacement of the firmware's image checks in `security_override.rs`. A run is any sequence of
attempts to install, calls of the hooks, drops of a guard, and changes that the firmware makes to
its tables while no guard is alive.
-/

namespace LamBoot.SecurityOverride

/-! ### The firmware -/

abbrev Addr := Nat

/-- The function that a table points to: LamBoot's, or one of the firmware. -/
inductive Hook where
  | ours
  | firmware (id : Nat)
deriving DecidableEq, Repr

/-- The file buffer of a request: a null pointer with any size, or the bytes. -/
inductive FileBuffer where
  | null (size : Nat)
  | bytes (b : Bytes)

/-- What `FileAuthentication` is called with. -/
structure Request where
  devicePath : Nat
  fileBuffer : FileBuffer
  bootPolicy : Bool

/-- What the functions of the firmware answer. -/
structure Firmware where
  fileAuthenticationState : Nat → Addr → UInt32 → Nat → Status
  fileAuthentication : Nat → Addr → Request → Status

/-- ShimLock at the time of a call. -/
structure Shim where
  located : Bool
  opened : Bool
  verify : Bytes → Bool

/-- The functions that the firmware has put into its tables, by address. -/
structure Tables where
  security : Addr → Nat
  security2 : Addr → Nat

/-! ### State -/

/-- The diagnostic counters. -/
structure Counters where
  hook2Calls : UInt64 := 0
  shimValidateCalls : UInt64 := 0
  shimValidateTrue : UInt64 := 0
  delegateCalls : UInt64 := 0
  shimlockNotFound : UInt64 := 0

def Counters.called (c : Counters) : Counters :=
  { c with hook2Calls := c.hook2Calls + 1 }

def Counters.delegated (c : Counters) : Counters :=
  { c with delegateCalls := c.delegateCalls + 1 }

/-- The statics, the tables, and the number of guards that are alive. -/
structure World where
  overrideActive : Bool
  security : Option Addr
  security2 : Option Addr
  originalHook : Option Hook
  originalHook2 : Option Hook
  counters : Counters
  tables : Addr → Hook
  tables2 : Addr → Hook
  guards : Nat

def World.start (boot : Tables) : World where
  overrideActive := false
  security := none
  security2 := none
  originalHook := none
  originalHook2 := none
  counters := {}
  tables := fun p => .firmware (boot.security p)
  tables2 := fun p => .firmware (boot.security2 p)
  guards := 0

/-! ### The hooks -/

/-- `shim_validate`: whether shim trusts the image, and the counters after it. -/
def shimValidate (shim : Shim) (buffer : Bytes) (c : Counters) : Bool × Counters :=
  if shim.located then (shim.opened && shim.verify buffer, c)
  else (false, { c with shimlockNotFound := c.shimlockNotFound + 1 })

/-- The part of `hook_security2` that asks shim. -/
def askShim (shim : Shim) (fileBuffer : FileBuffer) (c : Counters) : Bool × Counters :=
  match fileBuffer with
  | .null _ | .bytes [] => (false, c)
  | .bytes (byte :: rest) =>
    let c := { c with shimValidateCalls := c.shimValidateCalls + 1 }
    match shimValidate shim (byte :: rest) c with
    | (true, c) => (true, { c with shimValidateTrue := c.shimValidateTrue + 1 })
    | (false, c) => (false, c)

/-- A call of `FileAuthentication` through a pointer, where LamBoot's hook is `hook_security2`. No
status means that the calls nest deeper than the fuel. -/
def callSecurity2 (firmware : Firmware) (shim : Shim) (this : Addr) (request : Request) :
    Nat → Hook → World → Option Status × World
  | 0, _, w => (none, w)
  | _ + 1, .firmware id, w => (some (firmware.fileAuthentication id this request), w)
  | fuel + 1, .ours, w =>
    match askShim shim request.fileBuffer w.counters.called, w.originalHook2 with
    | (true, c), _ => (some .success, { w with counters := c })
    | (false, c), some original =>
      callSecurity2 firmware shim this request fuel original { w with counters := c.delegated }
    | (false, c), none => (some .securityViolation, { w with counters := c.delegated })

/-- The same for `FileAuthenticationState`, where LamBoot's hook is `hook_security`, which changes
nothing. -/
def callSecurity (firmware : Firmware) (this : Addr) (authStatus : UInt32) (file : Nat)
    (w : World) : Nat → Hook → Option Status
  | 0, _ => none
  | _ + 1, .firmware id => some (firmware.fileAuthenticationState id this authStatus file)
  | fuel + 1, .ours =>
    match w.originalHook with
    | some original => callSecurity firmware this authStatus file w fuel original
    | none => some .securityViolation

/-! ### Install and uninstall -/

def hookTable (located : Option Addr) (saved : Option Hook) (tables : Addr → Hook) :
    Option Hook × (Addr → Hook) :=
  match located with
  | some p => (some (tables p), Function.update tables p .ours)
  | none => (saved, tables)

/-- `install_security_override`, with the tables that are located: whether there is a guard. -/
def installSecurityOverride (located located2 : Option Addr) (w : World) : Bool × World :=
  if w.overrideActive then (false, w)
  else if located2 = none ∧ located = none then (false, { w with overrideActive := false })
  else
    let (originalHook, tables) := hookTable located w.originalHook w.tables
    let (originalHook2, tables2) := hookTable located2 w.originalHook2 w.tables2
    (true, { w with
      overrideActive := true
      security := located
      security2 := located2
      originalHook
      originalHook2
      tables
      tables2
      guards := w.guards + 1 })

def restoreTable (located : Option Addr) (saved : Option Hook) (tables : Addr → Hook) :
    Option Hook × (Addr → Hook) :=
  match located with
  | some p => (none, (saved.map (Function.update tables p)).getD tables)
  | none => (saved, tables)

def uninstallSecurityOverride (w : World) : World :=
  if w.overrideActive then
    let (originalHook2, tables2) := restoreTable w.security2 w.originalHook2 w.tables2
    let (originalHook, tables) := restoreTable w.security w.originalHook w.tables
    { w with
      overrideActive := false
      security := none
      security2 := none
      originalHook
      originalHook2
      tables
      tables2 }
  else w

/-- `drop` of a guard. -/
def dropGuard (w : World) : World :=
  { uninstallSecurityOverride w with guards := w.guards - 1 }

/-! ### Runs -/

def World.replaceTables (t : Tables) (w : World) : World :=
  { w with
    tables := fun p => .firmware (t.security p)
    tables2 := fun p => .firmware (t.security2 p) }

/-- A run of LamBoot up to a state, with what the firmware has put into its tables last. The
firmware changes its tables only while no guard is alive. -/
inductive Run (boot : Tables) : World → Tables → Prop
  | start : Run boot (.start boot) boot
  | install {w : World} {t : Tables} (located located2 : Option Addr) (h : Run boot w t) :
    Run boot (installSecurityOverride located located2 w).2 t
  | call {w : World} {t : Tables} (firmware : Firmware) (shim : Shim) (this : Addr)
    (request : Request) (fuel : Nat) (hook : Hook) (h : Run boot w t) :
    Run boot (callSecurity2 firmware shim this request fuel hook w).2 t
  | drop {w : World} {t : Tables} (h : Run boot w t) (hguard : 0 < w.guards) :
    Run boot (dropGuard w) t
  | replace {w : World} {t : Tables} (t' : Tables) (h : Run boot w t) (hguard : w.guards = 0) :
    Run boot (w.replaceTables t') t'

/-- A table that points to LamBoot's hook where it was located, and elsewhere to the firmware. -/
def hookedAt (located : Option Addr) (table : Addr → Nat) : Addr → Hook := fun p =>
  if located = some p then .ours else .firmware (table p)

def savedOf (located : Option Addr) (table : Addr → Nat) : Option Hook :=
  located.map fun p => .firmware (table p)

section Tables

variable {located : Option Addr} {table : Addr → Nat}

lemma hookedAt_none : hookedAt none table = fun p => .firmware (table p) := by
  funext p
  simp [hookedAt]

lemma hookTable_firmware (located : Option Addr) (table : Addr → Nat) :
    hookTable located none (hookedAt none table) =
      (savedOf located table, hookedAt located table) := by
  cases located with
  | none => rfl
  | some p =>
    refine Prod.ext (by simp [hookTable, hookedAt, savedOf]) (funext fun q => ?_)
    by_cases hq : q = p
    · subst hq
      simp [hookTable, hookedAt]
    · have hne : ¬ p = q := fun h => hq h.symm
      simp [hookTable, hookedAt, Function.update_of_ne hq, hne]

lemma restoreTable_hooked (located : Option Addr) (table : Addr → Nat) :
    restoreTable located (savedOf located table) (hookedAt located table) =
      (none, hookedAt none table) := by
  cases located with
  | none => rfl
  | some p =>
    refine Prod.ext rfl (funext fun q => ?_)
    by_cases hq : q = p
    · subst hq
      simp [restoreTable, hookedAt, savedOf]
    · have hne : ¬ p = q := fun h => hq h.symm
      simp [restoreTable, hookedAt, savedOf, Function.update_of_ne hq, hne]

lemma savedOf_ne_ours : savedOf located table ≠ some .ours := by
  cases located <;> simp [savedOf]

end Tables

/-- The tables are hooked where the statics say, what was saved is the firmware's, and there is a
guard exactly if something is hooked. -/
structure Inv (w : World) (t : Tables) : Prop where
  tables : w.tables = hookedAt w.security t.security
  tables2 : w.tables2 = hookedAt w.security2 t.security2
  originalHook : w.originalHook = savedOf w.security t.security
  originalHook2 : w.originalHook2 = savedOf w.security2 t.security2
  active : w.overrideActive = true ↔ w.guards = 1
  hooked : w.guards = 1 ↔ w.security ≠ none ∨ w.security2 ≠ none
  guards : w.guards ≤ 1

section Steps

variable {w : World} {t : Tables} {located located2 : Option Addr}

lemma inv_start (boot : Tables) : Inv (.start boot) boot where
  tables := hookedAt_none.symm
  tables2 := hookedAt_none.symm
  originalHook := rfl
  originalHook2 := rfl
  active := by simp [World.start]
  hooked := by simp [World.start]
  guards := Nat.zero_le 1

lemma Inv.of_guards_eq_zero (h : Inv w t) (hguards : w.guards = 0) :
    w.overrideActive = false ∧ w.security = none ∧ w.security2 = none := by
  have hactive := h.active
  have hhooked := h.hooked
  rw [hguards] at hactive hhooked
  simpa using And.intro hactive hhooked

lemma Inv.guards_eq_zero (h : Inv w t) (hactive : w.overrideActive = false) : w.guards = 0 := by
  have hne : w.guards ≠ 1 := fun h1 => by simp [h.active.mpr h1] at hactive
  have hle := h.guards
  omega

lemma Inv.install_eq (h : Inv w t) (hactive : w.overrideActive = false)
    (hlocated : ¬ (located2 = none ∧ located = none)) :
    installSecurityOverride located located2 w = (true, { w with
      overrideActive := true
      security := located
      security2 := located2
      originalHook := savedOf located t.security
      originalHook2 := savedOf located2 t.security2
      tables := hookedAt located t.security
      tables2 := hookedAt located2 t.security2
      guards := 1 }) := by
  have hguards := h.guards_eq_zero hactive
  obtain ⟨-, hsecurity, hsecurity2⟩ := h.of_guards_eq_zero hguards
  have hhook := hookTable_firmware located t.security
  have hhook2 := hookTable_firmware located2 t.security2
  rw [installSecurityOverride, if_neg (by simp [hactive]), if_neg hlocated, h.tables, h.tables2,
    h.originalHook, h.originalHook2, hsecurity, hsecurity2, hguards]
  simp only [savedOf, Option.map_none] at hhook hhook2 ⊢
  rw [hhook, hhook2]

lemma Inv.install_fst (h : Inv w t) : (installSecurityOverride located located2 w).1 = true ↔
    w.guards = 0 ∧ (located ≠ none ∨ located2 ≠ none) := by
  cases hactive : w.overrideActive with
  | true =>
    have hguards := h.active.mp hactive
    simp [installSecurityOverride, hactive, hguards]
  | false =>
    have hguards := h.guards_eq_zero hactive
    by_cases hlocated : located2 = none ∧ located = none
    · simp [installSecurityOverride, hactive, hlocated]
    · rw [h.install_eq hactive hlocated]
      simpa [hguards] using (not_and_or.mp hlocated).symm

lemma Inv.install (h : Inv w t) : Inv (installSecurityOverride located located2 w).2 t := by
  cases hactive : w.overrideActive with
  | true =>
    rw [installSecurityOverride, if_pos hactive]
    exact h
  | false =>
    by_cases hlocated : located2 = none ∧ located = none
    · rw [installSecurityOverride, if_neg (by simp [hactive]), if_pos hlocated]
      exact { h with active := by simpa [hactive] using h.active }
    · rw [h.install_eq hactive hlocated]
      refine ⟨rfl, rfl, rfl, rfl, by simp, ?_, le_rfl⟩
      simp only [true_iff]
      exact (not_and_or.mp hlocated).symm

section Calls

variable {firmware : Firmware} {shim : Shim} {this : Addr} {request : Request} {fuel : Nat}
  {c : Counters}

lemma callSecurity2_accepted
    (h : askShim shim request.fileBuffer w.counters.called = (true, c)) :
    callSecurity2 firmware shim this request (fuel + 1) .ours w =
      (some .success, { w with counters := c }) := by
  rw [callSecurity2, h]

lemma callSecurity2_delegated {original : Hook}
    (h : askShim shim request.fileBuffer w.counters.called = (false, c))
    (horiginal : w.originalHook2 = some original) :
    callSecurity2 firmware shim this request (fuel + 1) .ours w =
      callSecurity2 firmware shim this request fuel original
        { w with counters := c.delegated } := by
  rw [callSecurity2, h, horiginal]

lemma callSecurity2_unsaved
    (h : askShim shim request.fileBuffer w.counters.called = (false, c))
    (horiginal : w.originalHook2 = none) :
    callSecurity2 firmware shim this request (fuel + 1) .ours w =
      (some .securityViolation, { w with counters := c.delegated }) := by
  rw [callSecurity2, h, horiginal]

lemma callSecurity2_world (hook : Hook) (w : World) :
    ∃ c, (callSecurity2 firmware shim this request fuel hook w).2 = { w with counters := c } := by
  induction fuel generalizing hook w with
  | zero => exact ⟨w.counters, rfl⟩
  | succ fuel ih =>
    cases hook with
    | firmware id => exact ⟨w.counters, rfl⟩
    | ours =>
      rcases hask : askShim shim request.fileBuffer w.counters.called with ⟨_ | _, c⟩
      · obtain horiginal | ⟨original, horiginal⟩ := w.originalHook2.eq_none_or_eq_some
        · exact ⟨c.delegated, by rw [callSecurity2_unsaved hask horiginal]⟩
        · obtain ⟨c', hc'⟩ := ih original { w with counters := c.delegated }
          exact ⟨c', by rw [callSecurity2_delegated hask horiginal, hc']⟩
      · exact ⟨c, by rw [callSecurity2_accepted hask]⟩

end Calls

lemma Inv.drop (h : Inv w t) (hguard : 0 < w.guards) : Inv (dropGuard w) t := by
  have hone : w.guards = 1 := by
    have hle := h.guards
    omega
  have hrestore := restoreTable_hooked w.security t.security
  have hrestore2 := restoreTable_hooked w.security2 t.security2
  have hdrop : dropGuard w = { w with
      overrideActive := false
      security := none
      security2 := none
      originalHook := none
      originalHook2 := none
      tables := hookedAt none t.security
      tables2 := hookedAt none t.security2
      guards := 0 } := by
    rw [dropGuard, uninstallSecurityOverride, if_pos (h.active.mpr hone), h.tables, h.tables2,
      h.originalHook, h.originalHook2, hrestore, hrestore2, hone]
  rw [hdrop]
  exact ⟨rfl, rfl, rfl, rfl, by simp, by simp, Nat.zero_le 1⟩

lemma Inv.replace (h : Inv w t) (hguards : w.guards = 0) (t' : Tables) :
    Inv (w.replaceTables t') t' := by
  obtain ⟨-, hsecurity, hsecurity2⟩ := h.of_guards_eq_zero hguards
  constructor
  case tables => rw [World.replaceTables, hsecurity, hookedAt_none]
  case tables2 => rw [World.replaceTables, hsecurity2, hookedAt_none]
  case originalHook =>
    rw [World.replaceTables, h.originalHook, hsecurity]
    rfl
  case originalHook2 =>
    rw [World.replaceTables, h.originalHook2, hsecurity2]
    rfl
  case active => exact h.active
  case hooked => exact h.hooked
  case guards => exact h.guards

/-- The invariant holds after every run. -/
theorem Run.inv {boot : Tables} (h : Run boot w t) : Inv w t := by
  induction h with
  | start => exact inv_start boot
  | install located located2 _ ih => exact ih.install
  | call firmware shim this request fuel hook _ ih =>
    obtain ⟨c, hc⟩ := callSecurity2_world hook _
    rw [hc]
    exact { ih with }
  | drop _ hguard ih => exact ih.drop hguard
  | replace t' _ hguard ih => exact ih.replace hguard t'

def Shim.Accepts (shim : Shim) (fileBuffer : FileBuffer) : Prop :=
  ∃ b, fileBuffer = .bytes b ∧ shim.located = true ∧ shim.opened = true ∧ shim.verify b = true

lemma accepts_of_askShim {shim : Shim} {fileBuffer : FileBuffer} {c : Counters}
    (h : (askShim shim fileBuffer c).1 = true) : shim.Accepts fileBuffer := by
  match fileBuffer with
  | .null _ | .bytes [] => cases h
  | .bytes (byte :: rest) =>
    refine ⟨_, rfl, ?_⟩
    unfold askShim shimValidate at h
    cases hlocated : shim.located with
    | false => simp [hlocated] at h
    | true =>
      cases hverify : shim.opened && shim.verify (byte :: rest) with
      | false => simp [hlocated, hverify] at h
      | true => exact ⟨rfl, Bool.and_eq_true_iff.mp hverify⟩

lemma Inv.callSecurity2_ours (h : Inv w t) (firmware : Firmware) (shim : Shim) (this : Addr)
    (request : Request) (fuel : Nat) :
    ∃ status, (callSecurity2 firmware shim this request (fuel + 2) .ours w).1 = some status ∧
      (status = .success → shim.Accepts request.fileBuffer ∨ ∃ p, w.security2 = some p ∧
        firmware.fileAuthentication (t.security2 p) this request = .success) := by
  rcases hask : askShim shim request.fileBuffer w.counters.called with ⟨_ | _, c⟩
  · cases hsecurity2 : w.security2 with
    | none =>
      have horiginal : w.originalHook2 = none := by
        rw [h.originalHook2, hsecurity2, savedOf, Option.map_none]
      rw [callSecurity2_unsaved hask horiginal]
      exact ⟨.securityViolation, rfl, nofun⟩
    | some p =>
      have horiginal : w.originalHook2 = some (.firmware (t.security2 p)) := by
        rw [h.originalHook2, hsecurity2, savedOf, Option.map_some]
      rw [callSecurity2_delegated hask horiginal]
      exact ⟨_, rfl, fun hsuccess => .inr ⟨p, rfl, hsuccess⟩⟩
  · rw [callSecurity2_accepted hask]
    exact ⟨.success, rfl, fun _ => .inl (accepts_of_askShim (congrArg Prod.fst hask))⟩

end Steps

/-- After any run there is at most one guard. The tables have LamBoot's hooks exactly where they
were located for it, and what was saved is the firmware's. The hook returns, and passes a buffer
only if shim or the firmware's function accepts it. -/
theorem override_only_while_guarded (boot : Tables) (w : World) (t : Tables) (h : Run boot w t) :
    w.guards ≤ 1 ∧
      (w.guards = 1 ↔ w.security ≠ none ∨ w.security2 ≠ none) ∧
      w.tables = hookedAt w.security t.security ∧ w.tables2 = hookedAt w.security2 t.security2 ∧
      w.originalHook = savedOf w.security t.security ∧
      w.originalHook2 = savedOf w.security2 t.security2 ∧
      w.originalHook ≠ some .ours ∧ w.originalHook2 ≠ some .ours ∧
      (∀ located located2, (installSecurityOverride located located2 w).1 = true ↔
        w.guards = 0 ∧ (located ≠ none ∨ located2 ≠ none)) ∧
      (∀ located located2, (installSecurityOverride located located2 w).1 = true →
        (installSecurityOverride located located2 w).2.security = located ∧
          (installSecurityOverride located located2 w).2.security2 = located2) ∧
      ∀ firmware shim this request fuel,
        ∃ status, (callSecurity2 firmware shim this request (fuel + 2) .ours w).1 = some status ∧
          (status = .success → shim.Accepts request.fileBuffer ∨ ∃ p, w.security2 = some p ∧
            firmware.fileAuthentication (t.security2 p) this request = .success) := by
  have hinv := h.inv
  refine ⟨hinv.guards, hinv.hooked, hinv.tables, hinv.tables2, hinv.originalHook,
    hinv.originalHook2, ?_, ?_, ?_, ?_, hinv.callSecurity2_ours⟩
  · exact hinv.originalHook ▸ savedOf_ne_ours
  · exact hinv.originalHook2 ▸ savedOf_ne_ours
  · exact fun located located2 => hinv.install_fst
  · intro located located2 hguard
    obtain ⟨hguards, hlocated⟩ := hinv.install_fst.mp hguard
    rw [hinv.install_eq (hinv.of_guards_eq_zero hguards).1 (not_and_or.mpr hlocated.symm)]
    exact ⟨rfl, rfl⟩

def oneFunctionEach : Tables :=
  ⟨fun _ => 1, fun _ => 2⟩

theorem override_after_install :
    let w := (installSecurityOverride none (some 7) (.start oneFunctionEach)).2
    w.guards = 1 ∧ w.tables2 7 = .ours ∧ w.tables2 8 = .firmware 2 := by
  intro w
  have hrun : Run oneFunctionEach w oneFunctionEach := .install none (some 7) .start
  obtain ⟨-, hhooked, -, htables2, -⟩ := override_only_while_guarded _ w oneFunctionEach hrun
  refine ⟨hhooked.mpr (.inr nofun), ?_, ?_⟩
  · rw [htables2]
    rfl
  · rw [htables2]
    rfl

/-- After any run, a call through a table of the older kind is answered as by the firmware alone. -/
theorem callSecurity_eq (boot t : Tables) (w : World) (h : Run boot w t) (firmware : Firmware)
    (p : Addr) (authStatus : UInt32) (file fuel : Nat) :
    callSecurity firmware p authStatus file w (fuel + 2) (w.tables p) =
      some (firmware.fileAuthenticationState (t.security p) p authStatus file) := by
  rw [h.inv.tables, hookedAt]
  split_ifs with hp
  · rw [callSecurity, h.inv.originalHook, hp]
    rfl
  · rfl

theorem callSecurity_after_install :
    let w := (installSecurityOverride (some 7) none (.start oneFunctionEach)).2
    w.tables 7 = .ours ∧ ∀ firmware, callSecurity firmware 7 0 0 w 2 (w.tables 7) =
      some (firmware.fileAuthenticationState 1 7 0 0) :=
  ⟨rfl, fun firmware => callSecurity_eq _ _ _ (.install (some 7) none .start) firmware 7 0 0 0⟩

end LamBoot.SecurityOverride
