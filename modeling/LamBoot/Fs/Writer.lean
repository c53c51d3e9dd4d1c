import LamBoot.Fs.FatSpec

/-!
# A FAT volume with its read cache

`Volume` of `fs.rs` over the FAT backend, with the bytes it has read before, and `EspWriter` of
`fs_writer.rs`, the only way to write. A writer forgets what was cached for the paths it is given,
once the backend has reported success.
-/

namespace LamBoot

open Text Stateful

/-! ### The cache -/

def usizeMax : Nat := 2 ^ 64 - 1

structure CacheKey where
  path : Text
  offset : Nat
  len : Nat
deriving DecidableEq, Repr

namespace CacheKey

def fullRead (path : PathBuf) : CacheKey :=
  ⟨path.asStr, 0, usizeMax⟩

def range (path : PathBuf) (offset len : Nat) : CacheKey :=
  ⟨path.asStr, offset, len⟩

end CacheKey

structure CacheEntry where
  key : CacheKey
  data : Bytes
deriving DecidableEq, Repr

/-- What has been read, the latest use first. -/
structure VolumeCache where
  entries : List CacheEntry
  usedBytes : Nat
  limitBytes : Nat

namespace VolumeCache

def new : VolumeCache where
  entries := []
  usedBytes := 0
  limitBytes := 8 * 1024 * 1024

def get (cache : VolumeCache) (key : CacheKey) : Option (Bytes × VolumeCache) :=
  match cache.entries.find? fun e => e.key = key with
  | none => none
  | some entry =>
    let rest := cache.entries.eraseP fun e => e.key = key
    some (entry.data, { cache with entries := entry :: rest })

/-- Drop entries, the one used longest ago first, until `needed` bytes fit. The entries are listed
from that end. -/
def evict (limit needed : Nat) : List CacheEntry → Nat → List CacheEntry × Nat
  | [], used => ([], used)
  | evicted :: rest, used =>
    if limit < used + needed then evict limit needed rest (used - evicted.data.length)
    else (evicted :: rest, used)

def insert (cache : VolumeCache) (key : CacheKey) (data : Bytes) : VolumeCache :=
  if cache.limitBytes < data.length then cache
  else
    let kept := evict cache.limitBytes data.length cache.entries.reverse cache.usedBytes
    { cache with
      entries := ⟨key, data⟩ :: kept.1.reverse
      usedBytes := kept.2 + data.length }

def invalidatePath (cache : VolumeCache) (path : PathBuf) : VolumeCache :=
  let dropped := cache.entries.filter fun e => e.key.path = path.asStr
  { cache with
    entries := cache.entries.filter fun e => e.key.path ≠ path.asStr
    usedBytes := cache.usedBytes - (dropped.map fun e => e.data.length).sum }

end VolumeCache

/-! ### The volume -/

/-- A mounted FAT volume. -/
structure FatVolume where
  media : Media
  /-- Whether the file system protocol of the firmware is open. -/
  sfsOpen : Bool
  cache : VolumeCache

def FatVolume.mount (media : Media) : FatVolume :=
  ⟨media, false, .new⟩

abbrev VolumeM := EStateM Stop FatVolume

def onMedia {α : Type} (x : FatM α) : VolumeM α :=
  zoom FatVolume.media (fun v media => { v with media }) x

section Volume

variable (driver : FatDriver)

def sfsMut : VolumeM Unit := do
  if (← get).sfsOpen then return ()
  onMedia (driver.query .openProtocol fun _ => .ok ())
  modify fun v => { v with sfsOpen := true }

/-- Look a key up in the cache, and `fetch` and cache the bytes where it is not there. -/
def cachedRead (key : CacheKey) (fetch : FatM Bytes) : VolumeM Bytes := do
  let v ← get
  match v.cache.get key with
  | some (data, cache) =>
    set { v with cache }
    return data
  | none =>
    sfsMut driver
    let data ← onMedia fetch
    modify fun v => { v with cache := v.cache.insert key data }
    return data

namespace FatVolume

def read (path : PathBuf) : VolumeM Bytes :=
  cachedRead driver (.fullRead path) (readThroughSfs driver path)

def readAt (path : PathBuf) (offset len : Nat) : VolumeM Bytes :=
  cachedRead driver (.range path offset len) (fatReadAt driver path offset len)

def invalidatePath (path : PathBuf) : VolumeM Unit :=
  modify fun v => { v with cache := v.cache.invalidatePath path }

end FatVolume

def sfsOrErr : VolumeM Unit := do
  match ← attempt Stop.error? (sfsMut driver) with
  | .ok () => return ()
  | .error _ => throw (.failed (.unsupported "write requires a FAT volume"))

namespace EspWriter

def change (path : PathBuf) (x : FatM Unit) : VolumeM Unit := do
  sfsOrErr driver
  onMedia x
  FatVolume.invalidatePath path

def write (path : PathBuf) (data : Bytes) : VolumeM Unit :=
  change driver path (fatWrite driver path data)

def append (path : PathBuf) (data : Bytes) : VolumeM Unit :=
  change driver path (fatAppend driver path data)

def trueAppend (path : PathBuf) (data : Bytes) : VolumeM Unit :=
  change driver path (fatTrueAppend driver path data)

def rename (dirPath : PathBuf) (oldName newName : Text) : VolumeM Unit := do
  sfsOrErr driver
  onMedia (fatRename driver dirPath oldName newName)
  let oldFull ← fsResult ((dirPath.join oldName).mapError FsError.ofPathError)
  let newFull ← fsResult ((dirPath.join newName).mapError FsError.ofPathError)
  FatVolume.invalidatePath oldFull
  FatVolume.invalidatePath newFull

def ensureDir (path : PathBuf) : VolumeM Unit :=
  change driver path (fatEnsureDir driver path)

def delete (path : PathBuf) : VolumeM Unit :=
  change driver path (fatDelete driver path)

end EspWriter

end Volume

/-! ### What they do to the disk and the cache -/

section Specification

variable {α : Type} {driver : FatDriver} {v : FatVolume} {x : FatM α}

lemma triple_onMedia {post : α → Disk → Prop} {stopped : Disk → Prop}
    (h : Ends v.media.disk x post stopped) :
    Triple (· = v) (onMedia x) (fun a v' => v'.cache = v.cache ∧ post a v'.media.disk)
      fun _ v' => v'.cache = v.cache ∧ stopped v'.media.disk :=
  triple_zoom (h.media.imp (fun _ _ h => ⟨rfl, h⟩) fun _ _ h => ⟨rfl, h⟩)

def FatVolume.SameBytes (v v' : FatVolume) : Prop :=
  v'.cache = v.cache ∧ v'.media.disk = v.media.disk

lemma triple_sfsMut :
    Triple (· = v) (sfsMut driver) (fun _ => v.SameBytes) fun _ => v.SameBytes := by
  refine Triple.bind triple_get fun v₁ v₂ h => ?_
  obtain ⟨rfl, rfl⟩ := h
  split_ifs
  · exact triple_pure fun _ h => by rw [h]; exact ⟨rfl, rfl⟩
  · refine Triple.bind (triple_onMedia FatDriver.ends_query) fun _ v₁ h => ?_
    refine Triple.imp triple_modify (fun _ v₂ hv => ?_) fun _ _ => id
    rw [hv]
    exact ⟨h.1, h.2.1⟩

lemma triple_sfsOrErr :
    Triple (· = v) (sfsOrErr driver) (fun _ => v.SameBytes) fun _ => v.SameBytes := by
  have h : Triple (· = v) (attempt Stop.error? (sfsMut driver)) (fun _ => v.SameBytes)
      fun _ => v.SameBytes :=
    triple_attempt (Triple.imp_stopped triple_sfsMut
      fun _ _ h => ⟨fun _ _ => h, fun _ => h⟩)
  refine Triple.bind h fun r v₁ h => ?_
  cases r with
  | ok u => exact triple_pure fun _ hv => by rw [hv]; exact h
  | error e => exact triple_throw fun _ hv => by rw [hv]; exact h

lemma triple_rename_of_join_error {dirPath : PathBuf} {oldName newName : Text}
    (h : (∃ e, dirPath.join oldName = .error e) ∨ ∃ e, dirPath.join newName = .error e) :
    Triple (· = v) (EspWriter.rename driver dirPath oldName newName) (fun _ _ => False)
      fun _ => v.SameBytes := by
  have hfat : ∀ d,
      Ends d (fatRename driver dirPath oldName newName) (fun _ _ => False) (· = d) := by
    intro d
    unfold fatRename
    cases hold : dirPath.join oldName with
    | error e => exact ends_throw rfl
    | ok oldFull =>
      obtain ⟨e, hnew⟩ : ∃ e, dirPath.join newName = .error e := by simpa [hold] using h
      rw [fsResult_ok_bind, hnew]
      exact ends_throw rfl
  refine Triple.bind triple_sfsOrErr fun _ v₁ h₁ => ?_
  refine Triple.bind ((triple_onMedia (hfat _)).imp_stopped
    fun _ v₂ h₂ => ⟨h₂.1.trans h₁.1, h₂.2.trans h₁.2⟩) fun _ v₂ h₂ => h₂.2.elim

lemma triple_trueAppend {path : PathBuf} {data : Bytes} :
    Triple (· = v) (EspWriter.trueAppend driver path data)
      (fun _ v' => v'.media.disk.content (driver.nameOf path) =
        some ((v.media.disk.content (driver.nameOf path)).getD [] ++ data)) fun _ _ => True := by
  refine Triple.bind (Triple.imp_stopped triple_sfsOrErr fun _ _ _ => trivial) fun _ v₁ h₁ => ?_
  refine Triple.bind ((triple_onMedia ends_fatTrueAppend).imp_stopped fun _ _ _ => trivial)
    fun _ v₂ h₂ => ?_
  refine Triple.imp triple_modify (fun _ v₃ h₃ => ?_) fun _ _ => id
  rw [h₃, ← h₁.2]
  exact h₂.2

end Specification

end LamBoot
