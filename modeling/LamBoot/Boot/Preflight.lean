import LamBoot.Boot.OwnVolume
import LamBoot.Boot.Routes
import LamBoot.Discovery.Uki
import LamBoot.Pe.Headers

/-!
# Preflight

The checks of `preflight.rs`, which look at the image of an entry before the menu is shown. They
look for it on every volume, as the boot of a kernel does, while a UKI or a chainloaded image is
read from the ESP alone.
-/

namespace LamBoot

open List Text Bytes Checked Traced

inductive Severity where
  | ok
  | warning
  | error
deriving DecidableEq, Repr

structure CheckResult where
  severity : Severity
  message : Text
deriving DecidableEq, Repr

namespace CheckResult

def ok : CheckResult := ⟨.ok, []⟩

def warning (message : Text) : CheckResult := ⟨.warning, message⟩

def error (message : Text) : CheckResult := ⟨.error, message⟩

end CheckResult

structure PreflightResult where
  status : PreflightStatus
  checks : List CheckResult
deriving DecidableEq, Repr

def PreflightResult.fromChecks (checks : List CheckResult) : PreflightResult where
  status :=
    if checks.any fun c => c.severity = .error then .error
    else if checks.any fun c => c.severity = .warning then .warning
    else .ok
  checks

/-! ### The header -/

def machineName (machine : Nat) : Text :=
  if machine = 0x8664 then "x86_64"
  else if machine = 0xAA64 then "aarch64"
  else "unknown"

def peHeaderIssue (target : Pe.Target) (data : Bytes) : Checked CheckResult Unit := do
  refuseIf (data.length < 64) (.warning "File too small for PE binary")
  refuseIf ((← slice data 0 2) ≠ [0x4D, 0x5A]) (.warning "Invalid PE header (no MZ signature)")
  let peOffset ← readNumLe 4 data 0x3C
  refuseIf (data.length < (← add peOffset 4)) (.warning "PE header offset out of bounds")
  refuseIf ((← slice data peOffset (← add peOffset 4)) ≠ [0x50, 0x45, 0, 0])
    (.warning "Invalid PE signature")
  let machine ← readNumLe 2 data (← add peOffset 4)
  refuseIf (machine ≠ target.expectedMachine)
    (.warning ("Architecture mismatch: found " ++ machineName machine))

def checkPeHeader (target : Pe.Target) (read : Except FsError Bytes) : ProbeM CheckResult :=
  match read with
  | .error _ => pure (.warning "Cannot read file for PE validation")
  | .ok data =>
    match peHeaderIssue target data with
    | .ok () => pure .ok
    | .error (.failed issue) => pure issue
    | .error .trap => .error .trap

/-! ### The command line -/

def checkRootParam (options : Text) : CheckResult :=
  match ((splitWhitespace options).findSome? fun t => t.dropPrefix? "root=") with
  | none => .ok
  | some rootSpec =>
    match rootSpec.dropPrefix? "UUID=" with
    | none => .ok
    | some uuid =>
      if (uuid.splitOn '-').length ≠ 5 then
        .warning ("Malformed UUID in root=: " ++ uuid)
      else .ok

namespace BootContext

variable (ctx : BootContext)

/-! ### The image -/

def fileExistsAny (volumes : List Volume) (path : Text) : Bool :=
  volumes.any fun v => (ctx.existsWithBootFallback v path).isSome

def checkFileExistsAny (volumes : List Volume) (path : Text) : CheckResult :=
  if ctx.fileExistsAny volumes path then .ok else .error ("File not found: " ++ path)

def findVolumeWithFile (esp : Volume) (extraVolumes : List Volume) (path : Text) : Volume :=
  ((esp :: extraVolumes).find? fun v => (ctx.existsWithBootFallback v path).isSome).getD esp

/-- What the checks of an image read: the file on the volume that has it, at the path it has
there. -/
def readForChecks (esp : Volume) (extraVolumes : List Volume) (path : Text) :
    Except FsError Bytes :=
  let vol := ctx.findVolumeWithFile esp extraVolumes path
  vol.readStr ((ctx.existsWithBootFallback vol path).getD path)

/-- `shim_validate`, which `verify_image` repeats under shim. -/
def shimValidates (data : Bytes) : Bool :=
  ctx.platform.shimLockHandle.isOk && ctx.platform.shimLockOpen.isOk &&
    (ctx.platform.shimVerify data).isOk

def checkSecureBoot (read : Except FsError Bytes) : CheckResult :=
  match read with
  | .error _ => .warning "Cannot read file for Secure Boot check"
  | .ok data =>
    if ctx.sbState = .activeWithShim ∧ ctx.shimValidates data = false then
      .warning "Not signed for Secure Boot"
    else .ok

def checkImage (target : Pe.Target) (esp : Volume) (extraVolumes : List Volume) (path : Text) :
    ProbeM (List CheckResult) := do
  let fileOk := ctx.checkFileExistsAny (esp :: extraVolumes) path
  if fileOk.severity = .ok then
    let read := ctx.readForChecks esp extraVolumes path
    let pe ← checkPeHeader target (read.map fun data => data.part 0 256)
    return [fileOk, pe] ++ if ctx.sbState = .disabled then [] else [ctx.checkSecureBoot read]
  else return [fileOk]

def runChecks (target : Pe.Target) (esp : Volume) (extraVolumes : List Volume) :
    EntryKind → ProbeM (List CheckResult)
  | .chainload path | .uki path _ => ctx.checkImage target esp extraVolumes path
  | .linuxLegacy kernelPath initrdPaths options => do
    let checks ← ctx.checkImage target esp extraVolumes kernelPath
    let missing := initrdPaths.filter fun ipath => ¬ ctx.fileExistsAny (esp :: extraVolumes) ipath
    return checks ++ missing.map (fun ipath => .warning ("Initrd not found: " ++ ipath)) ++
      [checkRootParam options]
  | .iso (.file isoPath) => pure [ctx.checkFileExistsAny (esp :: extraVolumes) isoPath]
  | .iso (.optical _ _) => pure []

def runPreflight (target : Pe.Target) (esp : Volume) (extraVolumes : List Volume)
    (kind : EntryKind) : ProbeM PreflightResult := do
  return .fromChecks (← ctx.runChecks target esp extraVolumes kind)

/-! ### Preflight and boot -/

/-- A volume without I/O errors: what can be read exists, and what exists is a directory or can be
read. -/
structure Intact (v : Volume) : Prop where
  exists_of_read : ∀ p bytes, v.read p = .ok bytes → v.fileExists p = .ok true
  read_of_exists : ∀ p, v.fileExists p = .ok true →
    v.read p = .error .isDirectory ∨ ∃ bytes, v.read p = .ok bytes

section Agreement

variable {ctx} {fromUtf8Lossy : Bytes → Text} {esp : Volume} {extraVolumes volumes : List Volume}
  {entry : BootEntry} {path resolved : Text} {v : Volume} {bytes : Bytes} {i : Nat}

lemma Intact.existsStr (h : Intact v) (hread : v.readStr path = .ok bytes) :
    v.existsStr path = true := by
  unfold Volume.readStr at hread
  unfold Volume.existsStr
  cases hpath : canonicalPath path with
  | error e =>
    rw [hpath] at hread
    cases hread
  | ok p =>
    rw [hpath] at hread
    dsimp only
    rw [h.exists_of_read p bytes hread]
    rfl

lemma Intact.readStr (h : Intact v) (hexists : v.existsStr path = true) :
    v.readStr path = .error .isDirectory ∨ ∃ bytes, v.readStr path = .ok bytes := by
  unfold Volume.existsStr at hexists
  unfold Volume.readStr
  cases hpath : canonicalPath path with
  | error e =>
    rw [hpath] at hexists
    cases hexists
  | ok p =>
    rw [hpath] at hexists
    have hexists : v.fileExists p = .ok true := by
      cases hfile : v.fileExists p with
      | error e =>
        simp only [hfile] at hexists
        cases hexists
      | ok b =>
        simp only [hfile] at hexists
        cases b
        · cases hexists
        · rfl
    exact h.read_of_exists p hexists

lemma existsWithBootFallback_of_existsStr (h : v.existsStr path = true) :
    ctx.existsWithBootFallback v path = some path := by
  rw [existsWithBootFallback, if_pos h]

lemma existsStr_of_existsWithBootFallback (h : ctx.existsWithBootFallback v path = some resolved) :
    v.existsStr resolved = true := by
  unfold existsWithBootFallback at h
  dsimp only at h
  split_ifs at h with h1 h2 h3 h4 h5
  all_goals
    rw [← Option.some.inj h]
    assumption

lemma checkFileExistsAny_ok_iff :
    (ctx.checkFileExistsAny volumes path).severity = .ok ↔
      ctx.findVolume path volumes 0 ≠ none := by
  have hexists : ctx.fileExistsAny volumes path = true ↔ ctx.findVolume path volumes 0 ≠ none := by
    rw [Ne, findVolume_eq_none_iff, fileExistsAny, any_eq_true]
    push Not
    simp only [Option.isSome_iff_ne_none]
  rw [← hexists, checkFileExistsAny]
  split_ifs with h
  · exact ⟨fun _ => h, fun _ => rfl⟩
  · exact ⟨nofun, fun h' => absurd h' h⟩

lemma readForChecks_of_findVolume
    (h : ctx.findVolume path (esp :: extraVolumes) 0 = some (i, v, resolved)) :
    ctx.readForChecks esp extraVolumes path = v.readStr resolved := by
  have hfind : ∀ (volumes : List Volume) (n : Nat),
      ctx.findVolume path volumes n = some (i, v, resolved) →
      volumes.find? (fun v => (ctx.existsWithBootFallback v path).isSome) = some v := by
    intro volumes
    induction volumes with
    | nil => nofun
    | cons w volumes ih =>
      intro n hn
      unfold findVolume at hn
      cases hw : ctx.existsWithBootFallback w path with
      | some resolved' =>
        rw [hw] at hn
        simp only [Option.some.injEq, Prod.mk.injEq] at hn
        obtain ⟨-, rfl, -⟩ := hn
        simp [hw]
      | none =>
        rw [hw] at hn
        simp [hw, ih _ hn]
  obtain ⟨-, -, hresolved, -⟩ := findVolume_eq_some_iff.mp h
  rw [readForChecks, findVolumeWithFile, hfind _ _ h]
  simp only [Option.getD_some, hresolved]

/-- The attempt measures the bytes as its image. -/
def ReadsImage (ctx : BootContext) (fromUtf8Lossy : Bytes → Text) (volumes : List Volume)
    (entry : BootEntry) (bytes : Bytes) : Prop :=
  ∃ extended, .extend 4 bytes extended ∈ (ctx.bootEntry fromUtf8Lossy volumes entry).trace

lemma readsImage_iff_of_not_chainload (hkind : ∀ path, entry.kind ≠ .chainload path) :
    ctx.ReadsImage fromUtf8Lossy volumes entry bytes ↔
      ∃ img, ctx.imageFor fromUtf8Lossy volumes entry = some img ∧ img.bytes = bytes := by
  have hmem : ctx.ReadsImage fromUtf8Lossy volumes entry bytes ↔ ∃ extended, (4, bytes, extended) ∈
      (ctx.bootEntry fromUtf8Lossy volumes entry).trace.filterMap Effect.extension := by
    refine exists_congr fun extended => ?_
    rw [mem_filterMap]
    constructor
    · exact fun h => ⟨_, h, rfl⟩
    · rintro ⟨e, he, hext⟩
      cases e with
      | extend pcr data extended' =>
        simp only [Effect.extension, Option.some.injEq, Prod.mk.injEq] at hext
        obtain ⟨rfl, rfl, rfl⟩ := hext
        exact he
      | _ => cases hext
  rw [hmem]
  cases himage : ctx.imageFor fromUtf8Lossy volumes entry with
  | none => simp [extensions_of_no_image hkind himage]
  | some img =>
    rw [extensions_of_image himage, measurements]
    split_ifs
    · simp [measurement, Effect.extension, eq_comm]
    · simp [measurement, Effect.extension, eq_comm]

lemma readsImage_iff_of_chainload (hkind : entry.kind = .chainload path) :
    ctx.ReadsImage fromUtf8Lossy (esp :: extraVolumes) entry bytes ↔
      esp.readStr path = .ok bytes := by
  unfold ReadsImage bootEntry
  simp only [hkind, chainloadEfi, emit_bind, trace_after]
  cases hread : esp.readStr path with
  | error e => simp [orStatus, Except.mapError]
  | ok read =>
    simp only [orStatus, Except.mapError, ofExcept_ok, pure_bind, measureLogged_eq, loadFromBuffer,
      emit_bind, after_bind, after_after, trace_after, mem_append, mem_singleton]
    rw [Except.ok.injEq]
    constructor
    · rintro ⟨extended, h | (h | h) | h⟩
      · cases h
      · rcases mem_pair.mp h with h | h
        · exact (Effect.extend.inj h).2.1.symm
        · cases h
      · cases h
      · cases hload : ctx.platform.loadImage (ctx.memory.atLoadImage read) with
        | error s =>
          rw [hload] at h
          cases h
        | ok =>
          simp only [hload, ofExcept_ok, pure_bind, record, flushUnless_eq, emit_bind, after_bind,
            after_after, trace_after, trace_startLoaded, mem_append, mem_singleton] at h
          rcases h with (h | h) | h
          · cases h
          · unfold flushes at h
            split_ifs at h <;> simp at h
          · cases h
    · rintro rfl
      exact ⟨_, .inr (.inl (.inl mem_cons_self))⟩

variable {options : Text}

lemma readsImage_iff_of_uki (hkind : entry.kind = .uki path options) :
    ctx.ReadsImage fromUtf8Lossy (esp :: extraVolumes) entry bytes ↔
      esp.readStr path = .ok bytes := by
  have hnot : ∀ path, entry.kind ≠ .chainload path := by simp [hkind]
  have himage : ctx.imageFor fromUtf8Lossy (esp :: extraVolumes) entry =
      ukiImage esp path options := by
    unfold imageFor
    rw [hkind]
  rw [readsImage_iff_of_not_chainload hnot, himage, ukiImage]
  cases esp.readStr path <;> simp [Except.toOption]

lemma readsImage_iff_of_linux {initrdPaths : List Text}
    (hkind : entry.kind = .linuxLegacy path initrdPaths options) :
    ctx.ReadsImage fromUtf8Lossy (esp :: extraVolumes) entry bytes ↔
      ∃ i v resolved, ctx.findVolume path (esp :: extraVolumes) 0 = some (i, v, resolved) ∧
        v.readStr resolved = .ok bytes := by
  have hnot : ∀ path, entry.kind ≠ .chainload path := by simp [hkind]
  have himage : ctx.imageFor fromUtf8Lossy (esp :: extraVolumes) entry =
      ctx.linuxImage (esp :: extraVolumes) path options := by
    unfold imageFor
    rw [hkind]
  rw [readsImage_iff_of_not_chainload hnot, himage, linuxImage]
  cases ctx.findVolume path (esp :: extraVolumes) 0 with
  | none => simp
  | some found =>
    obtain ⟨i, v, resolved⟩ := found
    cases hread : v.readStr resolved <;> simp [Except.toOption, hread]

/-- Preflight and boot agree on an image: it is reported as present exactly where boot reads one,
and the checks have read what boot reads. -/
structure Agrees (ctx : BootContext) (fromUtf8Lossy : Bytes → Text) (esp : Volume)
    (extraVolumes : List Volume) (entry : BootEntry) (path : Text) : Prop where
  present : (ctx.checkFileExistsAny (esp :: extraVolumes) path).severity = .ok ↔
    ∃ bytes, ctx.ReadsImage fromUtf8Lossy (esp :: extraVolumes) entry bytes
  bytes : ∀ bytes, ctx.ReadsImage fromUtf8Lossy (esp :: extraVolumes) entry bytes →
    ctx.readForChecks esp extraVolumes path = .ok bytes

/-- What preflight finds is no directory, and where boot looks on the ESP alone, it is on the ESP
at the path as written. -/
def FoundWhereBooted (ctx : BootContext) (esp : Volume) (extraVolumes : List Volume)
    (kind : EntryKind) (path : Text) : Prop :=
  ∀ i v resolved, ctx.findVolume path (esp :: extraVolumes) 0 = some (i, v, resolved) →
    v.readStr resolved ≠ .error .isDirectory ∧
      ((∀ kernelPath initrdPaths options, kind ≠ .linuxLegacy kernelPath initrdPaths options) →
        i = 0 ∧ resolved = path)

section Intact

variable (hintact : ∀ v ∈ esp :: extraVolumes, Intact v)

include hintact

lemma exists_readStr_of_found
    (h : ctx.findVolume path (esp :: extraVolumes) 0 = some (i, v, resolved))
    (hfile : v.readStr resolved ≠ .error .isDirectory) :
    ∃ bytes, v.readStr resolved = .ok bytes := by
  obtain ⟨-, hv, hresolved, -⟩ := findVolume_eq_some_iff.mp h
  exact ((hintact v (mem_of_getElem? hv)).readStr
    (existsStr_of_existsWithBootFallback hresolved)).resolve_left hfile

lemma findVolume_of_readStr (h : esp.readStr path = .ok bytes) :
    ctx.findVolume path (esp :: extraVolumes) 0 = some (0, esp, path) := by
  have hexists := (hintact esp mem_cons_self).existsStr h
  rw [findVolume, existsWithBootFallback_of_existsStr hexists]

lemma agrees_iff_of_linux {initrdPaths : List Text}
    (hkind : entry.kind = .linuxLegacy path initrdPaths options) :
    Agrees ctx fromUtf8Lossy esp extraVolumes entry path ↔
      FoundWhereBooted ctx esp extraVolumes entry.kind path := by
  constructor
  · intro h i v resolved hfound
    refine ⟨fun hdirectory => ?_, fun hnot => absurd hkind (hnot _ _ _)⟩
    have hpresent := checkFileExistsAny_ok_iff.mpr (Option.ne_none_iff_exists'.mpr ⟨_, hfound⟩)
    obtain ⟨bytes, hreads⟩ := h.present.mp hpresent
    obtain ⟨i', v', resolved', hfound', hread⟩ := (readsImage_iff_of_linux hkind).mp hreads
    rw [hfound] at hfound'
    obtain ⟨-, rfl, rfl⟩ : i = i' ∧ v = v' ∧ resolved = resolved' := by simpa using hfound'
    rw [hdirectory] at hread
    cases hread
  · intro h
    refine ⟨?_, fun bytes hreads => ?_⟩
    · rw [checkFileExistsAny_ok_iff, Option.ne_none_iff_exists']
      constructor
      · rintro ⟨⟨i, v, resolved⟩, hfound⟩
        obtain ⟨bytes, hread⟩ :=
          exists_readStr_of_found hintact hfound (h i v resolved hfound).1
        exact ⟨bytes, (readsImage_iff_of_linux hkind).mpr ⟨i, v, resolved, hfound, hread⟩⟩
      · rintro ⟨bytes, hreads⟩
        obtain ⟨i, v, resolved, hfound, -⟩ := (readsImage_iff_of_linux hkind).mp hreads
        exact ⟨_, hfound⟩
    · obtain ⟨i, v, resolved, hfound, hread⟩ := (readsImage_iff_of_linux hkind).mp hreads
      rw [readForChecks_of_findVolume hfound, hread]

lemma agrees_iff_of_esp
    (hkind : ∀ kernelPath initrdPaths options,
      entry.kind ≠ .linuxLegacy kernelPath initrdPaths options)
    (hreads : ∀ bytes, ctx.ReadsImage fromUtf8Lossy (esp :: extraVolumes) entry bytes ↔
      esp.readStr path = .ok bytes) :
    Agrees ctx fromUtf8Lossy esp extraVolumes entry path ↔
      FoundWhereBooted ctx esp extraVolumes entry.kind path := by
  constructor
  · intro h i v resolved hfound
    have hpresent := checkFileExistsAny_ok_iff.mpr (Option.ne_none_iff_exists'.mpr ⟨_, hfound⟩)
    obtain ⟨bytes, hread⟩ := h.present.mp hpresent
    rw [hreads] at hread
    rw [findVolume_of_readStr hintact hread] at hfound
    obtain ⟨rfl, rfl, rfl⟩ : 0 = i ∧ esp = v ∧ path = resolved := by simpa using hfound
    refine ⟨fun hdirectory => ?_, fun _ => ⟨rfl, rfl⟩⟩
    rw [hdirectory] at hread
    cases hread
  · intro h
    refine ⟨?_, fun bytes hread => ?_⟩
    · rw [checkFileExistsAny_ok_iff, Option.ne_none_iff_exists']
      simp only [hreads]
      constructor
      · rintro ⟨⟨i, v, resolved⟩, hfound⟩
        obtain ⟨hfile, hesp⟩ := h i v resolved hfound
        obtain ⟨rfl, rfl⟩ := hesp hkind
        obtain ⟨-, hv, -⟩ := findVolume_eq_some_iff.mp hfound
        obtain rfl : esp = v := by simpa using hv
        exact exists_readStr_of_found hintact hfound hfile
      · rintro ⟨bytes, hread⟩
        exact ⟨_, findVolume_of_readStr hintact hread⟩
    · rw [hreads] at hread
      rw [readForChecks_of_findVolume (findVolume_of_readStr hintact hread), hread]

/-- On volumes without I/O errors, preflight and boot agree on a kernel, UKI or chainload entry
exactly where what preflight finds is where boot looks for it, and no directory. -/
theorem preflight_agrees_iff (hpath : entry.kind.bootPath = some path) :
    Agrees ctx fromUtf8Lossy esp extraVolumes entry path ↔
      FoundWhereBooted ctx esp extraVolumes entry.kind path := by
  cases hkind : entry.kind with
  | chainload path' =>
    rw [hkind] at hpath
    obtain rfl : path' = path := Option.some.inj hpath
    rw [← hkind]
    exact agrees_iff_of_esp hintact (by simp [hkind]) fun _ => readsImage_iff_of_chainload hkind
  | uki path' options =>
    rw [hkind] at hpath
    obtain rfl : path' = path := Option.some.inj hpath
    rw [← hkind]
    exact agrees_iff_of_esp hintact (by simp [hkind]) fun _ => readsImage_iff_of_uki hkind
  | linuxLegacy path' initrdPaths options =>
    rw [hkind] at hpath
    obtain rfl : path' = path := Option.some.inj hpath
    rw [← hkind]
    exact agrees_iff_of_linux hintact hkind
  | iso source =>
    rw [hkind] at hpath
    cases hpath

end Intact

end Agreement

lemma intact_uniform (contents : Bytes) : Intact (.uniform contents) :=
  ⟨fun _ _ _ => rfl, fun _ _ => .inr ⟨contents, rfl⟩⟩

/-- A UKI on the ESP. -/
theorem uki_on_esp_agrees :
    Agrees (.accepting .auto .disabled true .stable none) (fun _ => []) (.uniform [1]) [] ukiEntry
      "\\EFI\\Linux\\a.efi" := by
  refine (preflight_agrees_iff (fun v hv => ?_) rfl).mpr fun i v resolved hfound => ?_
  · rw [mem_singleton.mp hv]
    exact intact_uniform [1]
  · obtain ⟨rfl, rfl, rfl⟩ :
        0 = i ∧ Volume.uniform [1] = v ∧ "\\EFI\\Linux\\a.efi" = resolved := by
      simpa using Option.some.inj hfound
    exact ⟨nofun, fun _ => ⟨rfl, rfl⟩⟩

/-- A UKI that another volume has is reported as present, and boot does not find it. -/
theorem uki_on_other_volume_disagrees :
    let ctx := BootContext.accepting .auto .disabled true .stable none
    let esp := Volume.empty "fat".toList
    let extraVolumes := [Volume.uniform [1]]
    let path := "\\EFI\\Linux\\a.efi".toList
    (ctx.checkFileExistsAny (esp :: extraVolumes) path).severity = .ok ∧
      (ctx.bootEntry (fun _ => []) (esp :: extraVolumes) ukiEntry).result =
        .error (.error .notFound) ∧
      ¬ Agrees ctx (fun _ => []) esp extraVolumes ukiEntry path := by
  intro ctx esp extraVolumes path
  have hpresent : (ctx.checkFileExistsAny (esp :: extraVolumes) path).severity = .ok := by decide
  refine ⟨hpresent, by decide, fun h => ?_⟩
  obtain ⟨bytes, hreads⟩ := h.present.mp hpresent
  have hread : esp.readStr path = .ok bytes := (readsImage_iff_of_uki rfl).mp hreads
  cases hread

end BootContext

/-! ### Probes of an image -/

/-- An image that ends before its machine field does. -/
def EndsInMachine (data : Bytes) : Prop :=
  64 ≤ data.length ∧ data.part 0 2 = [0x4D, 0x5A] ∧
    let peOffset := leNat (data.part 0x3C 4)
    peOffset + 4 ≤ data.length ∧ data.part peOffset 4 = [0x50, 0x45, 0, 0] ∧
      data.length < peOffset + 6

section Probes

variable {ε : Type} {data : Bytes} {offset width : Nat} {target : Pe.Target}

lemma readNumLe_eq_ok (h : offset + width ≤ data.length) (hword : offset + width < wordSize) :
    (readNumLe width data offset : Checked ε Nat) = .ok (leNat (data.part offset width)) := by
  rw [readNumLe, add_eq_ok hword, ok_bind, readLe_eq_ok h]

lemma traps_readNumLe_iff (hword : offset + width < wordSize) :
    Traps (readNumLe width data offset : Checked ε Nat) ↔ data.length < offset + width := by
  rw [readNumLe, add_eq_ok hword, ok_bind, readLe, traps_bind_pure_iff, traps_slice_iff]
  omega

lemma traps_peHeaderIssue_iff : Traps (peHeaderIssue target data) ↔ EndsInMachine data := by
  have hword : wordSize = 2 ^ 64 := rfl
  have hoffset : leNat (data.part 0x3C 4) < 256 ^ 4 := by
    refine (leNat_lt _).trans_le (Nat.pow_le_pow_right (by norm_num) ?_)
    exact length_take_le _ _
  unfold peHeaderIssue EndsInMachine
  rw [traps_refuseIf_bind_iff, Nat.not_lt]
  refine and_congr_right fun h64 => ?_
  have hmagic : (slice data 0 2 : Checked CheckResult Bytes) = .ok (data.part 0 2) :=
    if_pos ⟨by omega, by omega⟩
  rw [hmagic, ok_bind, traps_refuseIf_bind_iff, not_not]
  refine and_congr_right fun _ => ?_
  rw [readNumLe_eq_ok (by omega) (by omega), ok_bind, add_eq_ok (by omega), ok_bind,
    traps_refuseIf_bind_iff, Nat.not_lt]
  refine and_congr_right fun hpe => ?_
  rw [ok_bind, slice_eq_ok hpe, ok_bind, traps_refuseIf_bind_iff, not_not]
  refine and_congr_right fun _ => ?_
  rw [ok_bind, traps_bind_iff, traps_readNumLe_iff (by omega)]
  refine or_iff_left ?_
  rintro ⟨machine, -, h⟩
  exact not_traps_refuseIf h

lemma traps_checkPeHeader_iff {read : Except FsError Bytes} :
    Traps (checkPeHeader target read) ↔ ∃ data, read = .ok data ∧ EndsInMachine data := by
  cases read with
  | error e => exact ⟨nofun, nofun⟩
  | ok data =>
    have hissue : Traps (checkPeHeader target (.ok data)) ↔ Traps (peHeaderIssue target data) := by
      unfold Traps checkPeHeader
      cases hissue : peHeaderIssue target data with
      | ok => simp [hissue, pure, Except.pure]
      | error e => cases e <;> simp [hissue, pure, Except.pure]
    rw [hissue, traps_peHeaderIssue_iff]
    simp

/-- The probes of a file do not trap exactly where its header does not end in the machine field, and
its last `.osrel` section has no lone quotation mark for a value. -/
theorem probes_not_trap_iff (target : Pe.Target) (file : FileReader) :
    (¬ Traps (checkPeHeader target (file.readAt 0 256)) ∧ ¬ Traps (readUkiMetadata file)) ↔
      (∀ data, file.readAt 0 256 = .ok data → ¬ EndsInMachine data) ∧
        ∀ header machine sections osrel, file.readAt 0 4096 = .ok header →
          parsePeSectionTable header = .ok (machine, sections) →
          osrelBytes file sections = some osrel → ¬ HasLoneQuote osrel := by
  rw [traps_checkPeHeader_iff, traps_readUkiMetadata_iff]
  push Not
  rfl

end Probes

def truncatedPe : Bytes :=
  [0x4D, 0x5A] ++ List.replicate 58 0 ++ [64, 0, 0, 0] ++ [0x50, 0x45, 0, 0]

/-- Preflight traps at the machine field, which the file does not have. And the parser of
`os-release` traps at the line `ID="`. -/
theorem probes_trap :
    Traps (checkPeHeader .x86_64 ((FileReader.ofContent truncatedPe).readAt 0 256)) ∧
      Traps (parseOsRelease [0x49, 0x44, 0x3D, 0x22]) :=
  ⟨rfl, rfl⟩

end LamBoot
