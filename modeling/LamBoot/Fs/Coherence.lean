import LamBoot.Fs.FatFrame
import LamBoot.Fs.Writer

/-!
# Coherence of the read cache

A read gives the bytes on the disk, as long as every cached entry does. A writer keeps that up if it
reports success, for then it forgets its path. It fails where a write stops after it has changed the
disk, and where the path differs from the cached one in the case of a letter.
-/

namespace LamBoot

open List Text Stateful Option

/-! ### The cache -/

namespace VolumeCache

variable {cache cache' : VolumeCache} {key : CacheKey} {data : Bytes} {e : CacheEntry}

/-- A hit brings the first entry with the key to the front. -/
lemma get_eq_some_iff : cache.get key = some (data, cache') ↔
    ∃ before after, cache.entries = before ++ ⟨key, data⟩ :: after ∧
      (∀ e ∈ before, e.key ≠ key) ∧
      cache' = { cache with entries := ⟨key, data⟩ :: (before ++ after) } := by
  unfold get
  constructor
  · intro h
    cases hfind : cache.entries.find? fun e => e.key = key with
    | none => simp [hfind] at h
    | some entry =>
      simp only [hfind, Option.some.injEq, Prod.mk.injEq] at h
      obtain ⟨rfl, rfl⟩ := h
      obtain ⟨hkey, before, after, hentries, hbefore⟩ := find?_eq_some_iff_append.mp hfind
      obtain rfl : entry.key = key := by simpa using hkey
      refine ⟨before, after, hentries, by simpa using hbefore, ?_⟩
      rw [hentries, eraseP_append_right _ (by simpa using hbefore)]
      simp
  · rintro ⟨before, after, hentries, hbefore, rfl⟩
    have hfind : cache.entries.find? (fun e => e.key = key) = some ⟨key, data⟩ :=
      find?_eq_some_iff_append.mpr ⟨by simp, before, after, hentries, by simpa using hbefore⟩
    rw [hfind, hentries, eraseP_append_right _ (by simpa using hbefore)]
    simp

lemma mem_of_mem_evict {limit needed : Nat} {entries : List CacheEntry} {used : Nat}
    (h : e ∈ (evict limit needed entries used).1) : e ∈ entries := by
  induction entries generalizing used with
  | nil => simp [evict] at h
  | cons evicted rest ih =>
    unfold evict at h
    split_ifs at h
    · exact mem_cons_of_mem _ (ih h)
    · exact h

lemma mem_of_mem_insert (h : e ∈ (cache.insert key data).entries) :
    e = ⟨key, data⟩ ∧ data.length ≤ cache.limitBytes ∨ e ∈ cache.entries := by
  unfold insert at h
  split_ifs at h with hlimit
  · exact .inr h
  · rcases mem_cons.mp h with rfl | h
    · exact .inl ⟨rfl, by omega⟩
    · exact .inr (mem_reverse.mp (mem_of_mem_evict (mem_reverse.mp h)))

lemma limitBytes_insert : (cache.insert key data).limitBytes = cache.limitBytes := by
  unfold insert
  split_ifs <;> rfl

lemma mem_invalidatePath {path : PathBuf} :
    e ∈ (cache.invalidatePath path).entries ↔ e ∈ cache.entries ∧ e.key.path ≠ path.asStr := by
  simp [invalidatePath]

end VolumeCache

/-! ### Coherent volumes -/

def bytesAt (driver : FatDriver) (d : Disk) (key : CacheKey) : Option Bytes :=
  (d.content (driver.stored (replaceChar '/' '\\' key.path))).map fun content =>
    (content.drop (seek content key.offset)).take key.len

/-- What is cached is what is on the disk, under some of the given paths. -/
structure Coherent (driver : FatDriver) (paths : Set Text) (v : FatVolume) : Prop where
  current : ∀ e ∈ v.cache.entries, bytesAt driver v.media.disk e.key = some e.data
  short : ∀ e ∈ v.cache.entries, e.data.length < usizeMax
  known : ∀ e ∈ v.cache.entries, e.key.path ∈ paths
  limit : v.cache.limitBytes < usizeMax

variable {driver : FatDriver} {paths : Set Text} {v v' : FatVolume}

lemma coherent_mount {media : Media} : Coherent driver paths (.mount media) := by
  have hlimit : VolumeCache.new.limitBytes < usizeMax := by decide
  exact ⟨nofun, nofun, nofun, hlimit⟩

lemma Coherent.of_subset (h : Coherent driver paths v)
    (hentries : ∀ e ∈ v'.cache.entries, e ∈ v.cache.entries ∧
      bytesAt driver v'.media.disk e.key = bytesAt driver v.media.disk e.key)
    (hlimit : v'.cache.limitBytes = v.cache.limitBytes) : Coherent driver paths v' := by
  refine ⟨fun e he => ?_, fun e he => ?_, fun e he => ?_, by rw [hlimit]; exact h.limit⟩
  · rw [(hentries e he).2]
    exact h.current e (hentries e he).1
  · exact h.short e (hentries e he).1
  · exact h.known e (hentries e he).1

lemma Coherent.of_sameBytes (h : Coherent driver paths v) (hsame : v.SameBytes v') :
    Coherent driver paths v' := by
  refine h.of_subset (fun e he => ?_) (by rw [hsame.1])
  rw [hsame.1] at he
  rw [hsame.2]
  exact ⟨he, rfl⟩

lemma Coherent.insert {key : CacheKey} {data : Bytes} (h : Coherent driver paths v)
    (hpath : key.path ∈ paths) (hdata : bytesAt driver v.media.disk key = some data) :
    Coherent driver paths { v with cache := v.cache.insert key data } := by
  have hall : ∀ e ∈ (v.cache.insert key data).entries, bytesAt driver v.media.disk e.key =
      some e.data ∧ e.data.length < usizeMax ∧ e.key.path ∈ paths := by
    intro e he
    rcases VolumeCache.mem_of_mem_insert he with ⟨rfl, hlen⟩ | he
    · exact ⟨hdata, hlen.trans_lt h.limit, hpath⟩
    · exact ⟨h.current e he, h.short e he, h.known e he⟩
  refine ⟨fun e he => (hall e he).1, fun e he => (hall e he).2.1, fun e he => (hall e he).2.2, ?_⟩
  rw [VolumeCache.limitBytes_insert]
  exact h.limit

/-! ### Reading -/

lemma triple_cachedRead {key : CacheKey} {fetch : FatM Bytes} (current : Disk → Bytes → Prop)
    (hpath : key.path ∈ paths)
    (hfetch : ∀ d, Ends d fetch (fun bytes d' => d' = d ∧ current d bytes) (· = d))
    (hkey : ∀ d bytes, current d bytes → bytesAt driver d key = some bytes)
    (hshort : ∀ d bytes, bytes.length < usizeMax → bytesAt driver d key = some bytes →
      current d bytes) (h : Coherent driver paths v) :
    Triple (· = v) (cachedRead driver key fetch)
      (fun bytes v' => Coherent driver paths v' ∧ current v'.media.disk bytes)
      fun _ => Coherent driver paths := by
  refine Triple.bind triple_get fun v₁ v₂ hv => ?_
  obtain ⟨rfl, rfl⟩ := hv
  cases hget : v₂.cache.get key with
  | some hit =>
    obtain ⟨data, cache⟩ := hit
    obtain ⟨before, after, hentries, -, rfl⟩ := VolumeCache.get_eq_some_iff.mp hget
    have hsub : ⟨key, data⟩ :: (before ++ after) ⊆ v₂.cache.entries := by
      rw [hentries]
      exact perm_middle.symm.subset
    refine Triple.bind triple_set fun _ v₃ hv => ?_
    subst hv
    refine triple_pure fun v₃ hv => ?_
    subst hv
    have hmem := hsub mem_cons_self
    refine ⟨h.of_subset (fun e he => ⟨hsub he, rfl⟩) rfl, ?_⟩
    exact hshort _ _ (h.short _ hmem) (h.current _ hmem)
  | none =>
    refine Triple.bind (Triple.imp_stopped triple_sfsMut fun _ _ => h.of_sameBytes)
      fun _ v₃ hv => ?_
    have h₃ := h.of_sameBytes hv
    refine Triple.bind ((triple_onMedia (hfetch v₃.media.disk)).imp_stopped
      fun _ v₄ hv => h₃.of_sameBytes hv) fun bytes v₄ hv => ?_
    obtain ⟨hcache, hdisk, hcurrent⟩ := hv
    have h₄ := h₃.of_sameBytes ⟨hcache, hdisk⟩
    rw [← hdisk] at hcurrent
    refine Triple.bind triple_modify fun _ v₅ hv => ?_
    refine triple_pure fun v₆ hv' => ?_
    rw [hv', hv]
    exact ⟨h₄.insert hpath (hkey _ _ hcurrent), hcurrent⟩

lemma triple_read {path : PathBuf} (hpath : path.asStr ∈ paths) (h : Coherent driver paths v) :
    Triple (· = v) (FatVolume.read driver path)
      (fun bytes v' => Coherent driver paths v' ∧
        v'.media.disk.content (driver.nameOf path) = some bytes)
      fun _ => Coherent driver paths := by
  refine (triple_cachedRead (fun d bytes => d.content (driver.nameOf path) = some bytes ∧
    bytes.length ≤ usizeMax) hpath (fun d => ?_) (fun d bytes hd => ?_) (fun d bytes hlen hd => ?_)
    h).imp (fun _ _ h' => ⟨h'.1, h'.2.1⟩) fun _ _ => id
  · refine Ends.imp ends_readThroughSfs (fun bytes d' h => ⟨h.1, h.2.2.1, ?_⟩) fun _ => id
    exact h.2.2.2.trans (by decide)
  · change Option.map _ (d.content (driver.nameOf path)) = _
    rw [hd.1]
    simpa [seek, endOfFile, CacheKey.fullRead] using hd.2
  · obtain ⟨content, hc, hbytes⟩ := Option.map_eq_some_iff.mp hd
    have htake : content.take usizeMax = bytes := by
      simpa [seek, endOfFile, CacheKey.fullRead] using hbytes
    -- What is cached is too short to be only a part of the file.
    have hle : content.length ≤ usizeMax := by
      by_contra hlt
      rw [← htake, length_take] at hlen
      omega
    rw [take_of_length_le hle] at htake
    exact ⟨htake ▸ hc, htake ▸ hle⟩

lemma triple_readAt {path : PathBuf} {offset len : Nat} (hpath : path.asStr ∈ paths)
    (h : Coherent driver paths v) :
    Triple (· = v) (FatVolume.readAt driver path offset len)
      (fun bytes v' => Coherent driver paths v' ∧
        bytesAt driver v'.media.disk (.range path offset len) = some bytes)
      fun _ => Coherent driver paths := by
  refine triple_cachedRead _ hpath (fun d => ?_) (fun _ _ => id) (fun _ _ _ => id) h
  refine Ends.imp ends_fatReadAt (fun bytes d' h => ⟨h.1, ?_⟩) fun _ => id
  obtain ⟨-, content, hc, rfl⟩ := h
  change Option.map _ (d.content (driver.nameOf path)) = _
  rw [hc]
  rfl

/-! ### Writing -/

/-- The cache has no entry for the paths, and nothing else has changed on the disk. -/
structure Forgets (driver : FatDriver) (forgotten : List PathBuf) (v v' : FatVolume) : Prop where
  entries : ∀ e ∈ v'.cache.entries, e ∈ v.cache.entries ∧ ∀ p ∈ forgotten, e.key.path ≠ p.asStr
  disk : ∀ name, (∀ p ∈ forgotten, name ≠ driver.nameOf p) →
    v'.media.disk name = v.media.disk name
  limit : v'.cache.limitBytes = v.cache.limitBytes

/-- No two of the paths are spellings of one file. -/
def SpelledAlike (driver : FatDriver) (paths : Set Text) : Prop :=
  ∀ p ∈ paths, ∀ q ∈ paths,
    driver.stored (replaceChar '/' '\\' p) = driver.stored (replaceChar '/' '\\' q) → p = q

lemma Coherent.of_forgets {forgotten : List PathBuf} (h : Coherent driver paths v)
    (halike : SpelledAlike driver paths) (hpaths : ∀ p ∈ forgotten, p.asStr ∈ paths)
    (hforgets : Forgets driver forgotten v v') : Coherent driver paths v' := by
  refine h.of_subset (fun e he => ?_) hforgets.limit
  obtain ⟨hmem, hne⟩ := hforgets.entries e he
  refine ⟨hmem, ?_⟩
  have hdisk := hforgets.disk (driver.stored (replaceChar '/' '\\' e.key.path)) fun p hp heq =>
    hne p hp (halike _ (h.known e hmem) _ (hpaths p hp) heq)
  simp only [bytesAt, Disk.content, hdisk]

lemma triple_change {path : PathBuf} {x : FatM Unit} (hx : Confined {driver.nameOf path} x) :
    Triple (· = v) (EspWriter.change driver path x) (fun _ => Forgets driver [path] v)
      fun _ v' => v'.cache = v.cache := by
  refine Triple.bind (Triple.imp_stopped triple_sfsOrErr fun _ _ h => h.1) fun _ v₁ h₁ => ?_
  refine Triple.bind ((triple_onMedia (hx v₁.media.disk)).imp_stopped
    fun _ v₂ h₂ => h₂.1.trans h₁.1) fun _ v₂ h₂ => ?_
  refine Triple.imp triple_modify (fun _ v₃ h₃ => ?_) fun _ _ => id
  subst h₃
  refine ⟨fun e he => ?_, fun name hname => ?_, ?_⟩
  · rw [h₂.1, h₁.1, VolumeCache.mem_invalidatePath] at he
    simpa using he
  · rw [← h₁.2]
    exact h₂.2 (by simpa using hname)
  · change v₂.cache.limitBytes = _
    rw [h₂.1, h₁.1]

lemma triple_rename_forgets {dirPath oldFull newFull : PathBuf} {oldName newName : Text}
    (hold : dirPath.join oldName = .ok oldFull) (hnew : dirPath.join newName = .ok newFull) :
    Triple (· = v) (EspWriter.rename driver dirPath oldName newName)
      (fun _ => Forgets driver [oldFull, newFull] v) fun _ v' => v'.cache = v.cache := by
  unfold EspWriter.rename
  rw [hold, hnew]
  refine Triple.bind (Triple.imp_stopped triple_sfsOrErr fun _ _ h => h.1) fun _ v₁ h₁ => ?_
  refine Triple.bind ((triple_onMedia (confined_fatRename hold hnew v₁.media.disk)).imp_stopped
    fun _ v₂ h₂ => h₂.1.trans h₁.1) fun _ v₂ h₂ => ?_
  rw [fsResult_ok_bind, fsResult_ok_bind]
  refine Triple.bind triple_modify fun _ v₃ h₃ => ?_
  subst h₃
  refine Triple.imp triple_modify (fun _ v₃ h₃ => ?_) fun _ _ => id
  subst h₃
  refine ⟨fun e he => ?_, fun name hname => ?_, ?_⟩
  · simp only [VolumeCache.mem_invalidatePath] at he
    rw [h₂.1, h₁.1] at he
    simpa [and_assoc] using he
  · rw [← h₁.2]
    exact h₂.2 (by simpa using hname)
  · change v₂.cache.limitBytes = _
    rw [h₂.1, h₁.1]

/-! ### Histories -/

/-- What is done with a volume. -/
inductive VolumeOp where
  | read (path : PathBuf)
  | readAt (path : PathBuf) (offset len : Nat)
  | write (path : PathBuf) (data : Bytes)
  | append (path : PathBuf) (data : Bytes)
  | trueAppend (path : PathBuf) (data : Bytes)
  | rename (dirPath : PathBuf) (oldName newName : Text)
  | ensureDir (path : PathBuf)
  | delete (path : PathBuf)

namespace VolumeOp

def run (driver : FatDriver) : VolumeOp → VolumeM (Option Bytes)
  | .read path => do return some (← FatVolume.read driver path)
  | .readAt path offset len => do return some (← FatVolume.readAt driver path offset len)
  | .write path data => do
    EspWriter.write driver path data
    return none
  | .append path data => do
    EspWriter.append driver path data
    return none
  | .trueAppend path data => do
    EspWriter.trueAppend driver path data
    return none
  | .rename dirPath oldName newName => do
    EspWriter.rename driver dirPath oldName newName
    return none
  | .ensureDir path => do
    EspWriter.ensureDir driver path
    return none
  | .delete path => do
    EspWriter.delete driver path
    return none

def given : VolumeOp → List PathBuf
  | .read path | .readAt path _ _ | .write path _ | .append path _ | .trueAppend path _
  | .ensureDir path | .delete path => [path]
  | .rename dirPath oldName newName =>
    [oldName, newName].filterMap fun name => (dirPath.join name).toOption

/-- The bytes are those on the disk. -/
def Current (driver : FatDriver) (d : Disk) (bytes : Bytes) : VolumeOp → Prop
  | .read path => d.content (driver.nameOf path) = some bytes
  | .readAt path offset len => bytesAt driver d (.range path offset len) = some bytes
  | _ => False

/-- An operation that succeeds, or leaves the disk as it was. -/
def Settled (driver : FatDriver) (v : FatVolume) (op : VolumeOp) : Prop :=
  (value? (op.run driver) v).isSome = true ∨
    (final (op.run driver) v).media.disk = v.media.disk

variable {op : VolumeOp}

lemma triple_write {x : VolumeM Unit} {forgotten : List PathBuf}
    (halike : SpelledAlike driver paths) (hpaths : ∀ p ∈ forgotten, p.asStr ∈ paths)
    (h : Coherent driver paths v)
    (hx : Triple (· = v) x (fun _ => Forgets driver forgotten v) fun _ v' => v'.cache = v.cache) :
    Triple (· = v) (x >>= fun _ => pure none)
      (fun r v' => Coherent driver paths v' ∧ ∀ bytes, r = some bytes →
        op.Current driver v'.media.disk bytes)
      fun _ v' => v'.media.disk = v.media.disk → Coherent driver paths v' := by
  refine Triple.bind (hx.imp_stopped fun _ v' hcache hdisk => h.of_sameBytes ⟨hcache, hdisk⟩)
    fun _ v' hv => ?_
  refine triple_pure fun _ hv' => ?_
  rw [hv']
  exact ⟨h.of_forgets halike hpaths hv, nofun⟩

lemma triple_run (halike : SpelledAlike driver paths) (hpaths : ∀ p ∈ op.given, p.asStr ∈ paths)
    (h : Coherent driver paths v) :
    Triple (· = v) (op.run driver)
      (fun r v' => Coherent driver paths v' ∧ ∀ bytes, r = some bytes →
        op.Current driver v'.media.disk bytes)
      fun _ v' => v'.media.disk = v.media.disk → Coherent driver paths v' := by
  cases op with
  | read path =>
    refine Triple.bind ((triple_read (hpaths path (by simp [given])) h).imp_stopped
      fun _ _ hv _ => hv) fun bytes v' hv => ?_
    refine triple_pure fun _ hv' => ?_
    rw [hv']
    exact ⟨hv.1, fun _ hbytes => some.inj hbytes ▸ hv.2⟩
  | readAt path offset len =>
    refine Triple.bind ((triple_readAt (hpaths path (by simp [given])) h).imp_stopped
      fun _ _ hv _ => hv) fun bytes v' hv => ?_
    refine triple_pure fun _ hv' => ?_
    rw [hv']
    exact ⟨hv.1, fun _ hbytes => some.inj hbytes ▸ hv.2⟩
  | write path data => exact triple_write halike hpaths h (triple_change confined_fatWrite)
  | append path data => exact triple_write halike hpaths h (triple_change confined_fatAppend)
  | trueAppend path data =>
    exact triple_write halike hpaths h (triple_change confined_fatTrueAppend)
  | ensureDir path => exact triple_write halike hpaths h (triple_change confined_fatEnsureDir)
  | delete path => exact triple_write halike hpaths h (triple_change confined_fatDelete)
  | rename dirPath oldName newName =>
    by_cases hjoin : (∃ e, dirPath.join oldName = .error e) ∨ ∃ e, dirPath.join newName = .error e
    · exact Triple.bind ((triple_rename_of_join_error hjoin).imp_stopped
        fun _ _ hv _ => h.of_sameBytes hv) fun _ _ hv => hv.elim
    cases hold : dirPath.join oldName with
    | error e => exact absurd (.inl ⟨e, hold⟩) hjoin
    | ok oldFull =>
    cases hnew : dirPath.join newName with
    | error e => exact absurd (.inr ⟨e, hnew⟩) hjoin
    | ok newFull =>
    refine triple_write halike (fun p hp => hpaths p ?_) h (triple_rename_forgets hold hnew)
    simpa [given, hold, hnew, Except.toOption] using hp

lemma coherent_final (halike : SpelledAlike driver paths)
    (hpaths : ∀ p ∈ op.given, p.asStr ∈ paths) (h : Coherent driver paths v)
    (hsettled : op.Settled driver v) : Coherent driver paths (final (op.run driver) v) := by
  have htriple := triple_run halike hpaths h
  cases hrun : op.run driver v with
  | ok r v' =>
    rw [final, hrun]
    exact (htriple.ok rfl hrun).1
  | error e v' =>
    simp only [Settled, value?, final, hrun, isSome_none, Bool.false_eq_true,
      false_or] at hsettled ⊢
    exact htriple.error rfl hrun hsettled

end VolumeOp

def afterAll (driver : FatDriver) : List VolumeOp → FatVolume → FatVolume
  | [], v => v
  | op :: ops, v => afterAll driver ops (final (op.run driver) v)

def AllSettled (driver : FatDriver) : List VolumeOp → FatVolume → Prop
  | [], _ => True
  | op :: ops, v => op.Settled driver v ∧ AllSettled driver ops (final (op.run driver) v)

lemma coherent_afterAll {ops : List VolumeOp} (halike : SpelledAlike driver paths)
    (hpaths : ∀ op ∈ ops, ∀ p ∈ op.given, p.asStr ∈ paths) (h : Coherent driver paths v)
    (hsettled : AllSettled driver ops v) : Coherent driver paths (afterAll driver ops v) := by
  induction ops generalizing v with
  | nil => exact h
  | cons op ops ih =>
    refine ih (fun op' hop => hpaths op' (mem_cons_of_mem _ hop)) ?_ hsettled.2
    exact VolumeOp.coherent_final halike (hpaths op mem_cons_self) h hsettled.1

def givenPaths (ops : List VolumeOp) : Set Text :=
  {p | ∃ op ∈ ops, ∃ path ∈ op.given, path.asStr = p}

/-- After any history a read gives the bytes on the disk, if no operation failed after it had
changed the disk, and no two paths differ that name the same file. -/
theorem read_current (driver : FatDriver) (media : Media) (history : List VolumeOp) (op : VolumeOp)
    (halike : SpelledAlike driver (givenPaths (op :: history)))
    (hsettled : AllSettled driver history (.mount media)) {bytes : Bytes} {v : FatVolume}
    (hread : op.run driver (afterAll driver history (.mount media)) = .ok (some bytes) v) :
    op.Current driver v.media.disk bytes := by
  have hgiven : ∀ op' ∈ op :: history, ∀ p ∈ op'.given, p.asStr ∈ givenPaths (op :: history) :=
    fun op' hop p hp => ⟨op', hop, p, hp, rfl⟩
  have hcoherent := coherent_afterAll halike
    (fun op' hop => hgiven op' (mem_cons_of_mem _ hop)) coherent_mount hsettled
  exact ((VolumeOp.triple_run halike (hgiven op mem_cons_self) hcoherent).ok rfl hread).2
    bytes rfl

/-! ### Two ways to read old bytes -/

def logPath : PathBuf := ⟨["log"], by decide⟩

def upperLogPath : PathBuf := ⟨["LOG"], by decide⟩

def logDisk : Disk := .ofFiles [("\\log", [1])]

/-- A file that is written under the path it was read from is read again as it is on the disk. -/
theorem read_current_after_write :
    let v := afterAll (.failsOnce 100) [.read logPath, .write logPath [2]] (.mount ⟨logDisk, 0⟩)
    value? ((VolumeOp.read logPath).run (.failsOnce 100)) v = some (some [2]) ∧
      (final ((VolumeOp.read logPath).run (.failsOnce 100)) v).media.disk.content "\\log" =
        some [2] := by
  have hvalue : value? ((VolumeOp.read logPath).run (.failsOnce 100))
      (afterAll (.failsOnce 100) [.read logPath, .write logPath [2]] (.mount ⟨logDisk, 0⟩)) =
        some (some [2]) := by decide +kernel
  have halike : SpelledAlike (.failsOnce 100)
      (givenPaths [.read logPath, .read logPath, .write logPath [2]]) := by
    have hlog : ∀ p ∈ givenPaths [.read logPath, .read logPath, .write logPath [2]],
        p = logPath.asStr := by
      rintro p ⟨op, hop, path, hpath, rfl⟩
      simp only [mem_cons, not_mem_nil, or_false] at hop
      rcases hop with rfl | rfl | rfl <;> simp_all [VolumeOp.given]
    intro p hp q hq _
    rw [hlog p hp, hlog q hq]
  refine ⟨hvalue, ?_⟩
  exact read_current (.failsOnce 100) ⟨logDisk, 0⟩ [.read logPath, .write logPath [2]]
    (.read logPath) halike ⟨.inl (by decide +kernel), .inl (by decide +kernel), trivial⟩
    (eq_ok_of_value? hvalue)

/-- A write that fails at its last operation leaves an empty file, and a write to the path in other
letters a new one. The old bytes are read in either case. -/
theorem read_old_bytes :
    let failed := afterAll (.failsOnce 12) [.read logPath, .write logPath [2]]
      (.mount ⟨logDisk, 0⟩)
    let other := afterAll (.failsOnce 100) [.read logPath, .write upperLogPath [2]]
      (.mount ⟨logDisk, 0⟩)
    failed.media.disk.content "\\log" = some [] ∧
      value? (FatVolume.read (.failsOnce 12) logPath) failed = some [1] ∧
      other.media.disk.content "\\log" = some [2] ∧
      value? (FatVolume.read (.failsOnce 100) logPath) other = some [1] ∧
      value? (FatVolume.read (.failsOnce 100) upperLogPath) other = some [2] := by
  decide +kernel

end LamBoot
