import LamBoot.Boot.Routes
import LamBoot.Discovery.Permitted

/-!
# The volume an entry is read from

An entry remembers the volume it was found on, but only the flow of ISO files asks for it. Kernels
and their initrds are read off the first volume that has a file of the name, and images are read off
the ESP.
-/

namespace LamBoot

open Text Traced

/-! ### Files and reads -/

def Effect.volumeRead : Effect → Option (Nat × Text)
  | .read (.volume i) path => some (i, path)
  | _ => none

def EntryKind.files : EntryKind → List Text
  | .chainload path | .uki path _ => [path]
  | .linuxLegacy kernelPath initrdPaths _ => kernelPath :: initrdPaths
  | .iso _ => []

abbrev ReadsNothing {α : Type} (x : Attempt α) : Prop :=
  Forall (fun e => e.volumeRead = none) x

namespace BootContext

variable (ctx : BootContext)

/-- The path a file has on the volume the entry was found on, as it is written or below `\boot`. -/
def ownPath (volumes : List Volume) (entry : BootEntry) (file : Text) : Option Text := do
  let v ← volumes[entry.sourceVolumeIndex]?
  ctx.existsWithBootFallback v file

def firstLocation (volumes : List Volume) (file : Text) : Option (Nat × Text) :=
  (ctx.findVolume file volumes 0).map fun found => (found.1, found.2.2)

def location (volumes : List Volume) : EntryKind → Text → Option (Nat × Text)
  | .chainload _, file | .uki _ _, file => some (0, file)
  | .linuxLegacy _ _ _, file => ctx.firstLocation volumes file
  | .iso _, _ => none

/-- Where an entry's file is to be read from: the volume of the entry where it has the file, and
wherever the flow finds it otherwise. -/
def ownLocation (volumes : List Volume) (entry : BootEntry) (file : Text) : Option (Nat × Text) :=
  match ctx.ownPath volumes entry file with
  | some path => some (entry.sourceVolumeIndex, path)
  | none => ctx.location volumes entry.kind file

def ownFiles (volumes : List Volume) (entry : BootEntry) : List (Nat × Text) :=
  entry.kind.files.filterMap (ctx.ownLocation volumes entry)

/-- An attempt reads its entry's files in order, each off the entry's own volume where that has it:
the image in any case, and all of them before a start. -/
structure ReadsOwnFiles (volumes : List Volume) (entry : BootEntry) (attempt : Attempt Status) :
    Prop where
  order : seen Effect.volumeRead attempt <+: ctx.ownFiles volumes entry
  image : ∀ file path, entry.kind.files.head? = some file →
    ctx.ownPath volumes entry file = some path →
      (seen Effect.volumeRead attempt).head? = some (entry.sourceVolumeIndex, path)
  all : (∃ e ∈ attempt.trace, e.Starts) →
    seen Effect.volumeRead attempt = ctx.ownFiles volumes entry

/-- The entry's own volume has a file, but its flow looks elsewhere: for images on the ESP, for
other files on earlier volumes first. -/
def Shadowed (volumes : List Volume) (entry : BootEntry) (file : Text) : Prop :=
  match entry.kind with
  | .chainload _ | .uki _ _ =>
    ∃ path, ctx.ownPath volumes entry file = some path ∧
      (entry.sourceVolumeIndex ≠ 0 ∨ path ≠ file)
  | .linuxLegacy _ _ _ =>
    ctx.ownPath volumes entry file ≠ none ∧
      ∃ i < entry.sourceVolumeIndex, ∃ v, volumes[i]? = some v ∧
        ctx.existsWithBootFallback v file ≠ none
  | .iso _ => False

/-- An attempt comes to a file of its entry: to the image at once, and to an initrd component where
the kernel can be read and is accepted and the components before it can be read, if any volume has
them. -/
def Reached (volumes : List Volume) (kind : EntryKind) (file : Text) : Prop :=
  match kind with
  | .chainload path | .uki path _ => file = path
  | .linuxLegacy kernelPath initrdPaths options =>
    file = kernelPath ∨ ∃ img before after, ctx.linuxImage volumes kernelPath options = some img ∧
      ctx.Accepts img.bytes ∧ initrdPaths = before ++ file :: after ∧
        ctx.InitrdsReadable volumes (.linuxLegacy kernelPath before options)
  | .iso _ => False

/-! ### Finding a volume -/

variable {ctx} {volumes : List Volume}

lemma findVolume_eq_some_iff {path : Text} {n i : Nat} {v : Volume}
    {resolved : Text} :
    ctx.findVolume path volumes n = some (i, v, resolved) ↔
      n ≤ i ∧ volumes[i - n]? = some v ∧ ctx.existsWithBootFallback v path = some resolved ∧
        ∀ j < i - n, ∀ w, volumes[j]? = some w → ctx.existsWithBootFallback w path = none := by
  induction volumes generalizing n with
  | nil => simp [findVolume]
  | cons w volumes ih =>
    rw [findVolume]
    cases hw : ctx.existsWithBootFallback w path with
    | some r =>
      constructor
      · intro h
        obtain ⟨rfl, rfl, rfl⟩ : n = i ∧ w = v ∧ r = resolved := by simpa using h
        simpa using hw
      · rintro ⟨hle, hv, hr, hfirst⟩
        rcases Nat.eq_zero_or_pos (i - n) with h0 | hpos
        · obtain rfl : w = v := by simpa [h0] using hv
          obtain rfl : r = resolved := by simpa [hw] using hr
          simp [show n = i by omega]
        · have := hfirst 0 hpos w (by simp)
          simp [hw] at this
    | none =>
      dsimp only
      rw [ih]
      constructor
      · rintro ⟨hle, hv, hr, hfirst⟩
        have hi : i - n = i - (n + 1) + 1 := by omega
        refine ⟨by omega, by simpa [hi] using hv, hr, fun j hj u hu => ?_⟩
        cases j with
        | zero =>
          obtain rfl : w = u := by simpa using hu
          exact hw
        | succ j => exact hfirst j (by omega) u (by simpa using hu)
      · rintro ⟨hle, hv, hr, hfirst⟩
        rcases Nat.eq_zero_or_pos (i - n) with h0 | hpos
        · obtain rfl : w = v := by simpa [h0] using hv
          simp [hw] at hr
        · have hi : i - n = i - (n + 1) + 1 := by omega
          refine ⟨by omega, by simpa [hi] using hv, hr, fun j hj u hu => ?_⟩
          exact hfirst (j + 1) (by omega) u (by simpa using hu)

lemma findVolume_eq_none_iff {path : Text} {n : Nat} :
    ctx.findVolume path volumes n = none ↔
      ∀ v ∈ volumes, ctx.existsWithBootFallback v path = none := by
  induction volumes generalizing n with
  | nil => simp [findVolume]
  | cons w volumes ih =>
    rw [findVolume]
    cases hw : ctx.existsWithBootFallback w path <;> simp [hw, ih]

/-! ### Effects that read nothing -/

lemma readsNothing_flushUnless (coupling : Bool) : ReadsNothing (flushUnless coupling) := by
  cases coupling with
  | true => exact forall_pure
  | false => exact forall_emit rfl

lemma readsNothing_measureLogged (p : Platform) (pcr : Nat) (data : Bytes)
    (measured skipped path : Text) :
    ReadsNothing (measureLogged p pcr data measured skipped path) := by
  refine Forall.bind (forall_emit rfl) fun _ => ?_
  split
  · exact forall_emit rfl
  · exact forall_emit rfl

lemma readsNothing_startLoaded (p : Platform) (image : Bytes) :
    ReadsNothing (startLoaded p image) := by
  simp [Forall, trace_startLoaded, Effect.volumeRead]

lemma readsNothing_startVerified (img : Image) :
    ReadsNothing (ctx.startVerified img (ctx.verifiedBytes img (ctx.via img.bytes))) := by
  intro e he
  rcases (ctx.startEffect_of_mem he).form with ⟨_, rfl⟩ | rfl | ⟨_, _, rfl | rfl⟩ | h
  · rfl
  · rfl
  · rfl
  · rfl
  · cases e with
    | startNative | startImage => rfl
    | _ => cases h

/-! ### What the flows read -/

lemma seen_record_bind {α : Type} (ev : TrustEvent) (f : Unit → Attempt α) :
    seen Effect.volumeRead (record ev >>= f) = seen Effect.volumeRead (f ()) := rfl

lemma seen_flushUnless_bind {α : Type} (coupling : Bool) (f : Unit → Attempt α) :
    seen Effect.volumeRead (flushUnless coupling >>= f) = seen Effect.volumeRead (f ()) := by
  cases coupling <;> rfl

lemma seen_read_bind {α : Type} (i : Nat) (path : Text) (f : Unit → Attempt α) :
    seen Effect.volumeRead (emit (.read (.volume i) path) >>= f) =
      (i, path) :: seen Effect.volumeRead (f ()) := rfl

/-- The shared steps read what the staging of the initrd reads, if they come to it. -/
lemma seen_verifyAndStart (img : Image) (stage : Attempt Unit) :
    (ctx.Accepts img.bytes →
      seen Effect.volumeRead (ctx.verifyAndStart img stage) = seen Effect.volumeRead stage) ∧
    (¬ ctx.Accepts img.bytes → ReadsNothing (ctx.verifyAndStart img stage)) := by
  obtain ⟨asked, hasked, -, heq⟩ := ctx.verifyAndStart_verifies img stage
  have hpast : (ctx.measurements img ++ (asked ++ [Effect.record (ctx.verification img)])).filterMap
      Effect.volumeRead = [] := by
    refine List.filterMap_eq_nil_iff.mpr fun e he => ?_
    simp only [List.mem_append, List.mem_singleton] at he
    rcases he with he | he | rfl
    · rcases ctx.measurements_form (P := fun _ => True) (fun _ _ => trivial) he with h | ⟨_, rfl, -⟩
      · cases e with
        | extend => rfl
        | _ => exact absurd rfl h
      · rfl
    · obtain ⟨accepted, rfl⟩ := hasked e he
      rfl
    · rfl
  rw [heq, ReadsNothing, ← seen_eq_nil_iff, seen_after, hpast, List.nil_append]
  refine ⟨fun h => ?_, fun h => ?_⟩
  · rw [if_pos (ctx.accepts_iff.mp h)]
    exact seen_bind_of_forall fun _ => readsNothing_startVerified img
  · rw [if_neg (mt ctx.accepts_iff.mpr h)]
    rfl

lemma readsNothing_verifyAndStart (img : Image) {stage : Attempt Unit} (h : ReadsNothing stage) :
    ReadsNothing (ctx.verifyAndStart img stage) := by
  obtain ⟨haccepted, hrefused⟩ := ctx.seen_verifyAndStart img stage
  by_cases ha : ctx.Accepts img.bytes
  · exact seen_eq_nil_iff.mp ((haccepted ha).trans (seen_eq_nil_iff.mpr h))
  · exact hrefused ha

/-- The initrd components up to the first that is found but cannot be read. -/
def initrdsReached (volumes : List Volume) : List Text → List Text
  | [] => []
  | path :: paths =>
    path :: match ctx.findVolume path volumes 0 with
      | some (_, v, resolved) =>
        if (v.readStr resolved).isOk then initrdsReached volumes paths else []
      | none => initrdsReached volumes paths

/-- The files of an entry that an attempt comes to, in order. -/
def filesReached (volumes : List Volume) : EntryKind → List Text
  | .chainload path | .uki path _ => [path]
  | .linuxLegacy kernelPath initrdPaths options =>
    kernelPath :: match ctx.linuxImage volumes kernelPath options with
      | some img =>
        if (ctx.verdictOf img.bytes).2.2 then ctx.initrdsReached volumes initrdPaths else []
      | none => []
  | .iso _ => []

lemma seen_readInitrds (volumes : List Volume) (paths : List Text) :
    seen Effect.volumeRead (ctx.readInitrds volumes paths) =
      (ctx.initrdsReached volumes paths).filterMap (ctx.firstLocation volumes) := by
  induction paths with
  | nil => rfl
  | cons path paths ih =>
    unfold readInitrds initrdsReached
    cases hfind : ctx.findVolume path volumes 0 with
    | none => simpa [firstLocation, hfind] using ih
    | some found =>
      obtain ⟨i, v, resolved⟩ := found
      have hlocation : ctx.firstLocation volumes path = some (i, resolved) := by
        simp [firstLocation, hfind]
      rw [List.filterMap_cons_some hlocation]
      refine (seen_read_bind i resolved _).trans (congrArg ((i, resolved) :: ·) ?_)
      dsimp only
      cases v.readStr resolved with
      | error e => rfl
      | ok data =>
        refine (seen_bind_of_forall (x := ctx.readInitrds volumes paths) fun _ => ?_).trans ih
        exact forall_pure

lemma seen_kernel (img : Image) (volumes : List Volume) (initrdPaths : List Text) :
    seen Effect.volumeRead (ctx.verifyAndStart img
        (if initrdPaths = [] then pure ()
        else do
          let combined ← ctx.readInitrds volumes initrdPaths
          ctx.registerInitrd combined)) =
      (if (ctx.verdictOf img.bytes).2.2 then ctx.initrdsReached volumes initrdPaths
        else []).filterMap (ctx.firstLocation volumes) := by
  obtain ⟨haccepted, hrefused⟩ := ctx.seen_verifyAndStart img
    (if initrdPaths = [] then pure ()
    else do
      let combined ← ctx.readInitrds volumes initrdPaths
      ctx.registerInitrd combined)
  by_cases ha : ctx.Accepts img.bytes
  · rw [haccepted ha, if_pos (ctx.accepts_iff.mp ha)]
    split
    · next h =>
      rw [h]
      rfl
    · exact (seen_bind_of_forall fun _ => forall_emit rfl).trans (seen_readInitrds volumes _)
  · rw [seen_eq_nil_iff.mpr (hrefused ha), if_neg (mt ctx.accepts_iff.mpr ha)]
    rfl

lemma seen_bootLinux (volumes : List Volume) (kernelPath options : Text) (initrdPaths : List Text) :
    seen Effect.volumeRead (ctx.bootLinux volumes kernelPath initrdPaths options) =
      (ctx.filesReached volumes (.linuxLegacy kernelPath initrdPaths options)).filterMap
        (ctx.firstLocation volumes) := by
  unfold bootLinux readKernel filesReached kernelLoadPhase
  rw [seen_record_bind, seen_flushUnless_bind]
  cases hfind : ctx.findVolume kernelPath volumes 0 with
  | none =>
    simp only [bind_assoc, seen_record_bind, seen_flushUnless_bind]
    simp [firstLocation, linuxImage, hfind, fail]
  | some found =>
    obtain ⟨i, v, resolved⟩ := found
    have hlocation : ctx.firstLocation volumes kernelPath = some (i, resolved) := by
      simp [firstLocation, hfind]
    simp only [bind_assoc, seen_record_bind, seen_read_bind]
    rw [List.filterMap_cons_some hlocation]
    refine congrArg ((i, resolved) :: ·) ?_
    cases hread : v.readStr resolved with
    | error e =>
      have himage : ctx.linuxImage volumes kernelPath options = none := by
        simp [linuxImage, hfind, hread, Except.toOption]
      rw [himage]
      rfl
    | ok bytes =>
      have himage : ctx.linuxImage volumes kernelPath options =
          some ⟨bytes, kernelPath, options, v.backendTag, some "kernel_native_load_fallback"⟩ := by
        simp [linuxImage, hfind, hread, Except.toOption]
      simp only [himage, orStatus, Except.mapError, ofExcept_ok, pure_bind, seen_record_bind,
        seen_flushUnless_bind]
      exact seen_kernel _ volumes initrdPaths

lemma readsNothing_isoBootResolved (iso : Volume) (labelForLog kernelPath : Text)
    (initrdPaths : List Text) (options : Text) :
    ReadsNothing (ctx.isoBootResolved iso labelForLog kernelPath initrdPaths options) := by
  have hinitrds (paths : List Text) : ReadsNothing (readIsoInitrds iso paths) := by
    induction paths with
    | nil => exact forall_pure
    | cons path paths ih =>
      refine Forall.bind (forall_emit rfl) fun _ => Forall.bind ih fun rest => ?_
      split
      · exact forall_pure
      · exact forall_pure
  refine Forall.bind (forall_emit rfl) fun _ => Forall.bind forall_ofExcept fun kernel => ?_
  refine Forall.bind (hinitrds _) fun initrd => Forall.bind (forall_emit rfl) fun _ => ?_
  refine readsNothing_verifyAndStart _ ?_
  split
  · exact forall_pure
  · exact forall_emit rfl

lemma readsNothing_bootIsoRecipe (iso : Volume) (labelForLog : Text)
    (cmdline : DistroRecipe → Text) (source : Text) :
    ReadsNothing (ctx.bootIsoRecipe iso labelForLog cmdline source) := by
  unfold bootIsoRecipe
  split
  · exact forall_stop
  · split
    · exact forall_stop
    · exact Forall.bind (forall_emit rfl) fun _ => readsNothing_isoBootResolved _ _ _ _ _

lemma readsNothing_bootIso (fromUtf8Lossy : Bytes → Text) (volumes : List Volume)
    (holdingIndex : Nat) (isoPath : Text) :
    ReadsNothing (ctx.bootIso fromUtf8Lossy volumes holdingIndex isoPath) := by
  unfold bootIso
  split
  · exact forall_stop
  · split
    · exact forall_stop
    · refine Forall.bind forall_ofExcept fun backend => Forall.bind (forall_emit rfl) fun _ => ?_
      refine Forall.bind (forall_emit rfl) fun _ => ?_
      dsimp only
      split
      · exact readsNothing_isoBootResolved _ _ _ _ _
      · exact readsNothing_bootIsoRecipe _ _ _ _

lemma readsNothing_bootIsoOptical (handle : Nat) (label : Text) :
    ReadsNothing (ctx.bootIsoOptical handle label) :=
  Forall.bind forall_ofExcept fun _ =>
    Forall.bind (forall_emit rfl) fun _ => readsNothing_bootIsoRecipe _ _ _ _

/-- An attempt reads the files it comes to, where it finds them. -/
lemma seen_bootEntry (ctx : BootContext) (fromUtf8Lossy : Bytes → Text) (hne : volumes ≠ [])
    (entry : BootEntry) :
    seen Effect.volumeRead (ctx.bootEntry fromUtf8Lossy volumes entry) =
      (ctx.filesReached volumes entry.kind).filterMap (ctx.location volumes entry.kind) := by
  obtain ⟨esp, extras, rfl⟩ := List.exists_cons_of_ne_nil hne
  unfold bootEntry
  cases entry.kind with
  | chainload path =>
    refine (seen_read_bind 0 path _).trans (congrArg ((0, path) :: ·) (seen_eq_nil_iff.mpr ?_))
    refine Forall.bind forall_ofExcept fun bytes => ?_
    refine Forall.bind (readsNothing_measureLogged _ _ _ _ _ _) fun _ => ?_
    refine Forall.bind (Forall.bind (forall_emit rfl) fun _ => forall_ofExcept) fun _ => ?_
    refine Forall.bind (forall_emit rfl) fun _ => ?_
    refine Forall.bind (readsNothing_flushUnless _) fun _ => ?_
    exact readsNothing_startLoaded _ _
  | uki path options =>
    refine (seen_read_bind 0 path _).trans (congrArg ((0, path) :: ·) (seen_eq_nil_iff.mpr ?_))
    refine Forall.bind forall_ofExcept fun bytes => ?_
    exact readsNothing_verifyAndStart _ forall_pure
  | linuxLegacy kernelPath initrdPaths options => exact seen_bootLinux _ _ _ _
  | iso source =>
    cases source with
    | file isoPath => exact seen_eq_nil_iff.mpr (readsNothing_bootIso _ _ _ _)
    | optical handle label => exact seen_eq_nil_iff.mpr (readsNothing_bootIsoOptical _ _)

/-! ### The files an attempt comes to -/

variable {kind : EntryKind} {file : Text}

lemma mem_initrdsReached_cons {path : Text} {paths : List Text} :
    file ∈ ctx.initrdsReached volumes (path :: paths) ↔ file = path ∨
      (∀ i v resolved, ctx.findVolume path volumes 0 = some (i, v, resolved) →
        (v.readStr resolved).isOk) ∧ file ∈ ctx.initrdsReached volumes paths := by
  rw [initrdsReached]
  cases ctx.findVolume path volumes 0 with
  | none => simp
  | some found =>
    obtain ⟨i, v, resolved⟩ := found
    by_cases h : (v.readStr resolved).isOk <;> simp [h]

lemma mem_initrdsReached_iff (kernelPath options : Text) {paths : List Text} :
    file ∈ ctx.initrdsReached volumes paths ↔ ∃ before after, paths = before ++ file :: after ∧
      ctx.InitrdsReadable volumes (.linuxLegacy kernelPath before options) := by
  induction paths with
  | nil => simp [initrdsReached]
  | cons path paths ih =>
    rw [mem_initrdsReached_cons, ih]
    constructor
    · rintro (rfl | ⟨hpath, before, after, rfl, hbefore⟩)
      · exact ⟨[], paths, rfl, by simp [InitrdsReadable]⟩
      · exact ⟨path :: before, after, rfl, List.forall_mem_cons.mpr ⟨hpath, hbefore⟩⟩
    · rintro ⟨_ | ⟨first, before⟩, after, heq, hbefore⟩
      · exact .inl (List.cons.inj heq).1.symm
      · obtain ⟨rfl, rfl⟩ := List.cons.inj heq
        obtain ⟨hpath, hbefore⟩ := List.forall_mem_cons.mp hbefore
        exact .inr ⟨hpath, before, after, rfl, hbefore⟩

lemma mem_filesReached_iff :
    file ∈ ctx.filesReached volumes kind ↔ ctx.Reached volumes kind file := by
  cases kind with
  | chainload path => exact List.mem_singleton
  | uki path options => exact List.mem_singleton
  | iso source => exact iff_of_false List.not_mem_nil id
  | linuxLegacy kernelPath initrdPaths options =>
    rw [filesReached, Reached, List.mem_cons]
    refine or_congr_right ?_
    cases ctx.linuxImage volumes kernelPath options with
    | none => simp
    | some img =>
      have hinitrds : file ∈ ctx.initrdsReached volumes initrdPaths ↔ _ :=
        mem_initrdsReached_iff kernelPath options
      by_cases ha : ctx.Accepts img.bytes
      · simp [ctx.accepts_iff.mp ha, ha, hinitrds]
      · have hrefused : (ctx.verdictOf img.bytes).2.2 = false := by
          simpa using mt ctx.accepts_iff.mpr ha
        simp [hrefused, ha]

lemma initrdsReached_initial (volumes : List Volume) (paths : List Text) :
    ctx.initrdsReached volumes paths <+: paths := by
  induction paths with
  | nil => exact List.nil_prefix
  | cons path paths ih =>
    rw [initrdsReached, List.cons_prefix_cons]
    refine ⟨rfl, ?_⟩
    split
    · split
      · exact ih
      · exact List.nil_prefix
    · exact ih

lemma filesReached_initial (ctx : BootContext) (volumes : List Volume) (kind : EntryKind) :
    ctx.filesReached volumes kind <+: kind.files := by
  cases kind with
  | chainload path => exact List.prefix_rfl
  | uki path options => exact List.prefix_rfl
  | iso source => exact List.prefix_rfl
  | linuxLegacy kernelPath initrdPaths options =>
    refine List.cons_prefix_cons.mpr ⟨rfl, ?_⟩
    split
    · split
      · exact initrdsReached_initial volumes initrdPaths
      · exact List.nil_prefix
    · exact List.nil_prefix

/-- An attempt comes to the image of its entry in any case. -/
lemma filesReached_head (ctx : BootContext) (volumes : List Volume)
    (h : kind.files.head? = some file) :
    ∃ rest, ctx.filesReached volumes kind = file :: rest := by
  cases kind with
  | chainload path => exact ⟨[], congrArg (fun p => [p]) (Option.some.inj h)⟩
  | uki path options => exact ⟨[], congrArg (fun p => [p]) (Option.some.inj h)⟩
  | linuxLegacy kernelPath initrdPaths options => exact ⟨_, congrArg (· :: _) (Option.some.inj h)⟩
  | iso source => cases h

lemma initrdsReached_eq_self {kernelPath options : Text} {paths : List Text}
    (h : ctx.InitrdsReadable volumes (.linuxLegacy kernelPath paths options)) :
    ctx.initrdsReached volumes paths = paths := by
  induction paths with
  | nil => rfl
  | cons path paths ih =>
    obtain ⟨hpath, hpaths⟩ := List.forall_mem_cons.mp h
    rw [initrdsReached]
    split
    · next i v resolved hfind => rw [if_pos (hpath i v resolved hfind), ih hpaths]
    · rw [ih hpaths]

variable {entry : BootEntry}

/-- Before anything is started, all files of the entry have been read. -/
lemma filesReached_of_starts {fromUtf8Lossy : Bytes → Text} (hne : volumes ≠ [])
    (h : ∃ e ∈ (ctx.bootEntry fromUtf8Lossy volumes entry).trace, e.Starts) :
    ctx.filesReached volumes entry.kind = entry.kind.files := by
  obtain ⟨e, he, hstarts⟩ := h
  cases hkind : entry.kind with
  | chainload path => rfl
  | uki path options => rfl
  | iso source => rfl
  | linuxLegacy kernelPath initrdPaths options =>
    have hready : ∃ img, ctx.Ready fromUtf8Lossy volumes entry img := by
      by_contra hnot
      obtain ⟨s, hs⟩ := ctx.bootEntry_of_not_ready (by simp [hkind]) hnot
      exact (hs.forall_mem rfl e he).not_starts hstarts
    obtain ⟨img, himage, haccepted, hinitrds⟩ := hready
    obtain ⟨esp, extras, rfl⟩ := List.exists_cons_of_ne_nil hne
    have hlinux : ctx.linuxImage (esp :: extras) kernelPath options = some img := by
      simpa [imageFor, hkind] using himage
    rw [hkind] at hinitrds
    rw [filesReached, hlinux]
    dsimp only
    rw [if_pos (ctx.accepts_iff.mp haccepted), initrdsReached_eq_self hinitrds]
    rfl

/-! ### Files in the way of an entry's own -/

lemma ownPath_isSome_location {file path : Text}
    (hfile : file ∈ entry.kind.files) (hown : ctx.ownPath volumes entry file = some path) :
    (ctx.location volumes entry.kind file).isSome := by
  obtain ⟨v, hv, hpath⟩ := Option.bind_eq_some_iff.mp hown
  cases hkind : entry.kind with
  | chainload path => rfl
  | uki path options => rfl
  | linuxLegacy kernelPath initrdPaths options =>
    rw [location, firstLocation, Option.isSome_map, Option.isSome_iff_ne_none, ne_eq,
      findVolume_eq_none_iff]
    intro h
    simp [h v (List.mem_of_getElem? hv)] at hpath
  | iso source => simp [hkind, EntryKind.files] at hfile

lemma isSome_location {file : Text}
    (hfile : file ∈ entry.kind.files) :
    (ctx.location volumes entry.kind file).isSome =
      (ctx.ownLocation volumes entry file).isSome := by
  cases hown : ctx.ownPath volumes entry file with
  | none => simp [ownLocation, hown]
  | some path => simp [ownLocation, hown, ownPath_isSome_location hfile hown]

lemma firstLocation_eq_own_iff {i : Nat} {v : Volume} {file path : Text}
    (hv : volumes[i]? = some v) (hpath : ctx.existsWithBootFallback v file = some path) :
    ctx.firstLocation volumes file = some (i, path) ↔
      ∀ j < i, ∀ w, volumes[j]? = some w → ctx.existsWithBootFallback w file = none := by
  constructor
  · intro h
    obtain ⟨⟨i', v', path'⟩, hfind, heq⟩ := Option.map_eq_some_iff.mp h
    obtain ⟨rfl, rfl⟩ : i' = i ∧ path' = path := by simpa using heq
    simpa using (findVolume_eq_some_iff.mp hfind).2.2.2
  · intro h
    have hfind : ctx.findVolume file volumes 0 = some (i, v, path) :=
      findVolume_eq_some_iff.mpr ⟨Nat.zero_le i, by simpa using hv, hpath, by simpa using h⟩
    simp [firstLocation, hfind]

lemma location_eq_own_iff {file : Text}
    (hfile : file ∈ entry.kind.files) :
    ctx.location volumes entry.kind file = ctx.ownLocation volumes entry file ↔
      ¬ ctx.Shadowed volumes entry file := by
  cases hown : ctx.ownPath volumes entry file with
  | none =>
    cases hkind : entry.kind <;> simp [ownLocation, Shadowed, hown, hkind]
  | some path =>
    cases hkind : entry.kind with
    | chainload p => simp [ownLocation, Shadowed, location, hown, hkind, eq_comm]
    | uki p options => simp [ownLocation, Shadowed, location, hown, hkind, eq_comm]
    | linuxLegacy kernelPath initrdPaths options =>
      obtain ⟨v, hv, hpath⟩ := Option.bind_eq_some_iff.mp hown
      simp [ownLocation, Shadowed, location, hown, hkind, firstLocation_eq_own_iff hv hpath]
    | iso source => simp [hkind, EntryKind.files] at hfile

/-- An attempt reads its entry's own files exactly when nothing is in the way of one that it comes
to: an image has to be on the ESP under its path, and a kernel or an initrd component on no earlier
volume. -/
theorem bootEntry_readsOwnFiles_iff (ctx : BootContext) (fromUtf8Lossy : Bytes → Text)
    (volumes : List Volume) (entry : BootEntry) :
    ctx.ReadsOwnFiles volumes entry (ctx.bootEntry fromUtf8Lossy volumes entry) ↔
      ∀ file, ctx.Reached volumes entry.kind file → ¬ ctx.Shadowed volumes entry file := by
  by_cases hne : volumes = []
  · subst hne
    have hown : ∀ file, ctx.ownPath [] entry file = none := fun _ => rfl
    refine iff_of_true ⟨List.nil_prefix, ?_, by simp [bootEntry, fail]⟩ fun file _ hshadowed => ?_
    · intro file path _ hpath
      cases hpath
    · unfold Shadowed at hshadowed
      split at hshadowed <;> simp [hown] at hshadowed
  have hseen := ctx.seen_bootEntry fromUtf8Lossy hne entry
  have hpart := ctx.filesReached_initial volumes entry.kind
  have horder : seen Effect.volumeRead (ctx.bootEntry fromUtf8Lossy volumes entry) <+:
      ctx.ownFiles volumes entry ↔
        ∀ file, ctx.Reached volumes entry.kind file → ¬ ctx.Shadowed volumes entry file := by
    rw [hseen, ownFiles, filterMap_initial_iff hpart fun file hfile => isSome_location hfile]
    simp only [← mem_filesReached_iff]
    exact forall₂_congr fun file hfile => location_eq_own_iff (hpart.subset hfile)
  refine ⟨fun h => horder.mp h.order, fun h => ⟨horder.mpr h, fun file path hfile hown => ?_,
    fun hstarts => ?_⟩⟩
  · obtain ⟨rest, hrest⟩ := ctx.filesReached_head volumes hfile
    have hreached : ctx.Reached volumes entry.kind file :=
      mem_filesReached_iff.mp (hrest ▸ List.mem_cons_self)
    have hlocation := (location_eq_own_iff (List.mem_of_mem_head? hfile)).mpr (h file hreached)
    rw [hseen, hrest, List.filterMap_cons_some (hlocation.trans (by rw [ownLocation, hown]))]
    rfl
  · have hfiles := filesReached_of_starts hne hstarts
    rw [hseen, hfiles, ownFiles]
    refine List.filterMap_congr fun file hfile => (location_eq_own_iff hfile).mpr (h file ?_)
    exact mem_filesReached_iff.mp (hfiles ▸ hfile)

end BootContext

/-! ### A kernel and an image behind those of the ESP -/

def espWithKernel : Volume :=
  .ofFiles "fat"
    [(["vmlinuz"], "kernel of the ESP"), (["shell.efi"], "shell of the ESP")]

def dataWithEntry (content file : Text) : Volume :=
  .ofFiles "ext4"
    [(["loader", "entries", file ++ ".conf"], content), ([file], "file of the entry")]

def volumesWithEntries : List Volume :=
  [espWithKernel, dataWithEntry "linux /vmlinuz" "vmlinuz",
    dataWithEntry "efi /shell.efi" "shell.efi"]

/-- Both entries are discovered on volumes that have the files they name, and both are booted from
the ESP. -/
theorem entries_read_from_esp :
    let ctx := BootContext.accepting .auto .disabled false .stable none
    let boot := ctx.bootEntry (fun _ => []) volumesWithEntries
    let entries := (discoverAllEntries .plain {} volumesWithEntries none).entries
    (entries.map fun entry => (entry.sourceVolumeIndex,
        entry.kind.files.map (ctx.ownPath volumesWithEntries entry),
        seen Effect.volumeRead (boot entry))) =
      [(1, [some "\\vmlinuz".toList], [(0, "\\vmlinuz".toList)]),
        (2, [some "\\shell.efi"], [(0, "\\shell.efi")])] ∧
      ∀ entry ∈ entries, ¬ ctx.ReadsOwnFiles volumesWithEntries entry (boot entry) := by
  intro ctx boot entries
  refine ⟨by decide +kernel, fun entry hentry h => ?_⟩
  have hread : ∀ entry ∈ entries, ∃ file ∈ entry.kind.files.head?,
      ∃ path ∈ ctx.ownPath volumesWithEntries entry file,
        (seen Effect.volumeRead (boot entry)).head? ≠ some (entry.sourceVolumeIndex, path) := by
    decide +kernel
  obtain ⟨file, hfile, path, hpath, hne⟩ := hread entry hentry
  exact hne (h.image file path hfile hpath)

end LamBoot
