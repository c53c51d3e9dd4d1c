import LamBoot.Fs.Coherence
import LamBoot.Library.History

/-!
# The read cache against its history

`VolumeCache` of `fs.rs` over any sequence of reads and invalidations of a volume, with what happens
to the cache written down beside it.
-/

namespace LamBoot

open List History Stateful

/-! ### Sizes -/

def stored (entries : List CacheEntry) : Nat :=
  (entries.map fun e => e.data.length).sum

@[simp] lemma stored_nil : stored [] = 0 :=
  rfl

@[simp] lemma stored_cons (e : CacheEntry) (entries : List CacheEntry) :
    stored (e :: entries) = e.data.length + stored entries :=
  rfl

@[simp] lemma stored_append (entries entries' : List CacheEntry) :
    stored (entries ++ entries') = stored entries + stored entries' := by
  simp [stored]

@[simp] lemma stored_reverse (entries : List CacheEntry) :
    stored entries.reverse = stored entries := by
  simp [stored, sum_reverse]

lemma stored_filter_not (p : CacheEntry → Bool) (entries : List CacheEntry) :
    stored entries - stored (entries.filter p) = stored (entries.filter fun e => !p e) := by
  have h : stored entries = stored (entries.filter p) + stored (entries.filter fun e => !p e) := by
    induction entries with
    | nil => rfl
    | cons e entries ih =>
      cases hp : p e <;> simp only [filter_cons, hp, stored_cons, ih] <;> simp <;> omega
  omega

/-! ### One operation of the cache -/

namespace VolumeCache

variable {cache cache' : VolumeCache} {key : CacheKey} {data : Bytes}

lemma get_eq_none_iff : cache.get key = none ↔ ∀ e ∈ cache.entries, e.key ≠ key := by
  have hfind : cache.get key = none ↔ (cache.entries.find? fun e => e.key = key) = none := by
    unfold get
    cases cache.entries.find? fun e => e.key = key <;> simp
  rw [hfind, find?_eq_none]
  simp

lemma evict_spec (limit needed : Nat) (entries : List CacheEntry) :
    ∃ evicted kept, evict limit needed entries (stored entries) = (kept, stored kept) ∧
      entries = evicted ++ kept ∧ (kept = [] ∨ stored kept + needed ≤ limit) ∧
      ∀ evicted' kept', entries = evicted' ++ kept' → kept.length < kept'.length →
        limit < stored kept' + needed := by
  induction entries with
  | nil => exact ⟨[], [], rfl, rfl, .inl rfl, by simp⟩
  | cons e entries ih =>
    unfold evict
    split_ifs with hroom
    · obtain ⟨evicted, kept, hevict, hentries, hfits, hshortest⟩ := ih
      refine ⟨e :: evicted, kept, ?_, by rw [hentries, cons_append], hfits, ?_⟩
      · rw [stored_cons, Nat.add_sub_cancel_left, hevict]
      · rintro (_ | ⟨e', evicted'⟩) kept' heq hlt
        · rw [nil_append] at heq
          rwa [← heq]
        · exact hshortest evicted' kept' (cons.inj heq).2 hlt
    · refine ⟨[], e :: entries, rfl, rfl, .inr (by omega), fun evicted' kept' heq hlt => ?_⟩
      have := congrArg length heq
      rw [length_append] at this
      omega

def evictedBy (cache : VolumeCache) (data : Bytes) : List CacheEntry :=
  if cache.limitBytes < data.length then []
  else
    let kept := evict cache.limitBytes data.length cache.entries.reverse cache.usedBytes
    cache.entries.drop kept.1.length

/-- An insertion keeps the longest part of the entries, from the latest use on, with which the value
fits. -/
structure MakesRoom (cache : VolumeCache) (data : Bytes) (kept evicted : List CacheEntry) :
    Prop where
  entries : cache.entries = kept ++ evicted
  fits : stored kept + data.length ≤ cache.limitBytes
  shortest : ∀ kept' evicted', cache.entries = kept' ++ evicted' → kept.length < kept'.length →
    cache.limitBytes < stored kept' + data.length

lemma insert_spec (key : CacheKey) (hused : cache.usedBytes = stored cache.entries)
    (hlen : data.length ≤ cache.limitBytes) :
    ∃ kept evicted, MakesRoom cache data kept evicted ∧ cache.evictedBy data = evicted ∧
      cache.insert key data =
        { cache with entries := ⟨key, data⟩ :: kept, usedBytes := stored kept + data.length } := by
  obtain ⟨evicted, kept, hevict, hentries, hfits, hshortest⟩ :=
    evict_spec cache.limitBytes data.length cache.entries.reverse
  rw [stored_reverse, ← hused] at hevict
  have hentries' : cache.entries = kept.reverse ++ evicted.reverse := by
    rw [← reverse_append, ← hentries, reverse_reverse]
  refine ⟨kept.reverse, evicted.reverse, ⟨hentries', ?_, fun kept' evicted' heq hlt => ?_⟩, ?_, ?_⟩
  · rw [stored_reverse]
    rcases hfits with rfl | hfits
    · simpa using hlen
    · exact hfits
  · have := hshortest evicted'.reverse kept'.reverse
      (by rw [heq, reverse_append]) (by simpa using hlt)
    rwa [stored_reverse] at this
  · rw [evictedBy, if_neg (not_lt.mpr hlen), hevict, hentries']
    simp
  · rw [insert, if_neg (not_lt.mpr hlen), hevict, stored_reverse]

end VolumeCache

/-! ### The history -/

/-- What happens to a cache. -/
inductive CacheNote where
  | used (key : CacheKey)
  | inserted (key : CacheKey) (data : Bytes)
  | evicted (key : CacheKey)
  | invalidated (path : Text)
deriving DecidableEq, Repr

namespace CacheNote

def Uses (key : CacheKey) (note : CacheNote) : Prop :=
  note = .used key ∨ ∃ data, note = .inserted key data

def Loses (key : CacheKey) (note : CacheNote) : Prop :=
  note = .evicted key ∨ note = .invalidated key.path

end CacheNote

/-- Inserted, where it fits, and not lost since. -/
def Held (limit : Nat) (log : List CacheNote) (key : CacheKey) (data : Bytes) : Prop :=
  Since (fun note => note = .inserted key data ∧ data.length ≤ limit)
    (fun note => ¬ note.Loses key) log

/-- Used, and the other key has not been since. -/
def MoreRecent (log : List CacheNote) (key key' : CacheKey) : Prop :=
  Since (CacheNote.Uses key) (fun note => ¬ note.Uses key') log

/-- What a volume does with its cache: it reads through it, where the backend may have bytes for a
miss, and it forgets a path. -/
inductive CacheUse where
  | read (key : CacheKey) (fetched : Option Bytes)
  | invalidatePath (path : PathBuf)

/-- A cache with its history, the latest first. -/
structure LoggedCache where
  cache : VolumeCache
  log : List CacheNote

namespace LoggedCache

def empty (limit : Nat) : LoggedCache :=
  ⟨⟨[], 0, limit⟩, []⟩

def step (t : LoggedCache) : CacheUse → LoggedCache
  | .read key fetched =>
    match t.cache.get key, fetched with
    | some (_, cache), _ => ⟨cache, .used key :: t.log⟩
    | none, some data =>
      ⟨t.cache.insert key data,
        .inserted key data :: ((t.cache.evictedBy data).map fun e => .evicted e.key) ++ t.log⟩
    | none, none => t
  | .invalidatePath path =>
    ⟨t.cache.invalidatePath path, .invalidated path.asStr :: t.log⟩

/-- The cache is as its history says. -/
structure Faithful (limit : Nat) (t : LoggedCache) : Prop where
  limitBytes : t.cache.limitBytes = limit
  used : t.cache.usedBytes = stored t.cache.entries
  fits : t.cache.usedBytes ≤ limit
  keys : (t.cache.entries.map CacheEntry.key).Nodup
  recent : t.cache.entries.Pairwise fun e e' => MoreRecent t.log e.key e'.key
  held : ∀ key data, ⟨key, data⟩ ∈ t.cache.entries ↔ Held limit t.log key data

section Steps

variable {limit : Nat} {t : LoggedCache} {key : CacheKey} {data : Bytes} {log : List CacheNote}

lemma held_cons {note : CacheNote} :
    Held limit (note :: log) key data ↔ (note = .inserted key data ∧ data.length ≤ limit) ∨
      ¬ note.Loses key ∧ Held limit log key data :=
  Iff.rfl

lemma held_append_evicted {evicted : List CacheEntry} :
    Held limit ((evicted.map fun e => .evicted e.key) ++ log) key data ↔
      (∀ e ∈ evicted, e.key ≠ key) ∧ Held limit log key data := by
  rw [Held, since_append_of_forall_not (by simp), forall_mem_map]
  simp [CacheNote.Loses, Held]

lemma moreRecent_cons {key key' : CacheKey} {note : CacheNote}
    (hnote : ¬ note.Uses key') (h : MoreRecent log key key') : MoreRecent (note :: log) key key' :=
  .inr ⟨hnote, h⟩

lemma faithful_empty (limit : Nat) : Faithful limit (empty limit) where
  limitBytes := rfl
  used := rfl
  fits := Nat.zero_le limit
  keys := nodup_nil
  recent := List.Pairwise.nil
  held _ _ := iff_of_false not_mem_nil id

lemma Faithful.hit (h : Faithful limit t) {cache : VolumeCache}
    (hget : t.cache.get key = some (data, cache)) :
    Faithful limit ⟨cache, .used key :: t.log⟩ := by
  obtain ⟨before, after, hentries, -, rfl⟩ := VolumeCache.get_eq_some_iff.mp hget
  have hperm : (⟨key, data⟩ :: (before ++ after)).Perm t.cache.entries := by
    rw [hentries]
    exact perm_middle.symm
  have hnodup : ((⟨key, data⟩ :: (before ++ after)).map CacheEntry.key).Nodup :=
    (hperm.map CacheEntry.key).nodup_iff.mpr h.keys
  have hother : ∀ e ∈ before ++ after, e.key ≠ key := by
    intro e he heq
    rw [map_cons, nodup_cons] at hnodup
    exact hnodup.1 (mem_map.mpr ⟨e, he, heq⟩)
  refine ⟨h.limitBytes, ?_, h.fits, hnodup, pairwise_cons.mpr ⟨?_, ?_⟩, ?_⟩
  · rw [h.used, hentries]
    simp
    omega
  · intro e _
    exact .inl (.inl rfl)
  · have hsub : (before ++ after).Sublist t.cache.entries := by
      rw [hentries]
      exact (List.Sublist.refl _).append (sublist_cons_self _ _)
    refine (h.recent.sublist hsub).imp_of_mem fun {e e'} _ he' hrecent => ?_
    refine moreRecent_cons ?_ hrecent
    rintro (heq | ⟨data, heq⟩)
    · exact hother e' he' (CacheNote.used.inj heq).symm
    · cases heq
  · intro key' data'
    rw [hperm.mem_iff, h.held, held_cons]
    simp [CacheNote.Loses]

lemma Faithful.insert_of_lt (h : Faithful limit t) (hget : t.cache.get key = none)
    (hlen : limit < data.length) : Faithful limit ⟨t.cache, .inserted key data :: t.log⟩ := by
  have hkey := VolumeCache.get_eq_none_iff.mp hget
  refine ⟨h.limitBytes, h.used, h.fits, h.keys, ?_, ?_⟩
  · refine h.recent.imp_of_mem fun {e e'} _ he' hrecent => moreRecent_cons ?_ hrecent
    rintro (heq | ⟨data, heq⟩)
    · cases heq
    · exact hkey e' he' (CacheNote.inserted.inj heq).1.symm
  · intro key' data'
    rw [h.held, held_cons, or_iff_right ?_]
    · simp [CacheNote.Loses]
    · rintro ⟨heq, hle⟩
      obtain ⟨-, rfl⟩ := CacheNote.inserted.inj heq
      omega

lemma Faithful.insert_of_le (h : Faithful limit t) (hget : t.cache.get key = none)
    (hlen : data.length ≤ limit) :
    Faithful limit ⟨t.cache.insert key data,
      .inserted key data :: ((t.cache.evictedBy data).map fun e => .evicted e.key) ++ t.log⟩ := by
  have hkey := VolumeCache.get_eq_none_iff.mp hget
  obtain ⟨kept, evicted, hroom, hevicted, hinsert⟩ :=
    VolumeCache.insert_spec key h.used (h.limitBytes.symm ▸ hlen)
  rw [hinsert, hevicted]
  have hentries := hroom.entries
  have hkeys := h.keys
  rw [hentries, map_append, nodup_append] at hkeys
  have hsub : kept.Sublist t.cache.entries := by
    rw [hentries]
    exact sublist_append_left _ _
  have hkept : ∀ e ∈ kept, e.key ≠ key := fun e he => hkey e (hsub.subset he)
  refine ⟨h.limitBytes, ?_, ?_, ?_, pairwise_cons.mpr ⟨?_, ?_⟩, ?_⟩
  · exact Nat.add_comm _ _
  · exact h.limitBytes ▸ hroom.fits
  · rw [map_cons, nodup_cons]
    refine ⟨fun hmem => ?_, hkeys.1⟩
    obtain ⟨e, he, heq⟩ := mem_map.mp hmem
    exact hkept e he heq
  · intro e _
    exact .inl (.inr ⟨data, rfl⟩)
  · refine (h.recent.sublist hsub).imp_of_mem fun {e e'} _ he' hrecent => ?_
    refine moreRecent_cons ?_ (Since.append hrecent ?_)
    · rintro (heq | ⟨data, heq⟩)
      · cases heq
      · exact hkept e' he' (CacheNote.inserted.inj heq).1.symm
    · intro note hnote
      obtain ⟨e'', -, rfl⟩ := mem_map.mp hnote
      rintro (heq | ⟨data, heq⟩) <;> cases heq
  · intro key' data'
    have hmem : ⟨key', data'⟩ ∈ kept ↔
        (∀ e ∈ evicted, e.key ≠ key') ∧ ⟨key', data'⟩ ∈ t.cache.entries := by
      rw [hentries, mem_append]
      constructor
      · intro hkept'
        refine ⟨fun e he heq => ?_, .inl hkept'⟩
        exact hkeys.2.2 key' (mem_map.mpr ⟨_, hkept', rfl⟩) _ (mem_map_of_mem he) heq.symm
      · rintro ⟨hne, hkept' | hevicted'⟩
        · exact hkept'
        · exact absurd rfl (hne _ hevicted')
    have hloses : ¬ (CacheNote.inserted key data).Loses key' := by simp [CacheNote.Loses]
    rw [mem_cons, hmem, h.held, cons_append, held_cons, held_append_evicted, and_iff_right hloses]
    refine or_congr_left ?_
    constructor
    · intro heq
      obtain ⟨rfl, rfl⟩ := CacheEntry.mk.inj heq
      exact ⟨rfl, hlen⟩
    · rintro ⟨heq, -⟩
      obtain ⟨rfl, rfl⟩ := CacheNote.inserted.inj heq
      rfl

lemma Faithful.insert (h : Faithful limit t) (hget : t.cache.get key = none) :
    Faithful limit ⟨t.cache.insert key data,
      .inserted key data :: ((t.cache.evictedBy data).map fun e => .evicted e.key) ++ t.log⟩ := by
  rcases Nat.lt_or_ge limit data.length with hlen | hlen
  · have hlen' : t.cache.limitBytes < data.length := h.limitBytes.symm ▸ hlen
    rw [VolumeCache.insert, if_pos hlen', VolumeCache.evictedBy, if_pos hlen']
    exact h.insert_of_lt hget hlen
  · exact h.insert_of_le hget hlen

lemma Faithful.invalidatePath (h : Faithful limit t) (path : PathBuf) :
    Faithful limit ⟨t.cache.invalidatePath path, .invalidated path.asStr :: t.log⟩ := by
  refine ⟨h.limitBytes, ?_, ?_, ?_, ?_, ?_⟩
  · change t.cache.usedBytes - stored _ = stored _
    rw [h.used, stored_filter_not]
    simp [VolumeCache.invalidatePath]
  · exact (Nat.sub_le _ _).trans h.fits
  · exact h.keys.sublist (filter_sublist.map _)
  · refine (h.recent.sublist filter_sublist).imp fun hrecent => moreRecent_cons ?_ hrecent
    rintro (heq | ⟨data, heq⟩) <;> cases heq
  · intro key data
    rw [VolumeCache.mem_invalidatePath, h.held, held_cons]
    simp [CacheNote.Loses, and_comm, eq_comm]

lemma Faithful.step (h : Faithful limit t) (use : CacheUse) : Faithful limit (t.step use) := by
  cases use with
  | read key fetched =>
    dsimp only [LoggedCache.step]
    rcases hget : t.cache.get key with _ | ⟨data, cache⟩
    · cases fetched with
      | none => exact h
      | some data => exact h.insert hget
    · exact h.hit hget
  | invalidatePath path => exact h.invalidatePath path

lemma Faithful.foldl (h : Faithful limit t) (uses : List CacheUse) :
    Faithful limit (uses.foldl LoggedCache.step t) := by
  induction uses generalizing t with
  | nil => exact h
  | cons use uses ih => exact ih (h.step use)

lemma Faithful.get_iff (h : Faithful limit t) :
    (∃ cache, t.cache.get key = some (data, cache)) ↔ Held limit t.log key data := by
  rw [← h.held]
  constructor
  · rintro ⟨cache, hget⟩
    obtain ⟨before, after, hentries, -⟩ := VolumeCache.get_eq_some_iff.mp hget
    rw [hentries]
    simp
  · intro hmem
    obtain ⟨before, after, hentries⟩ := append_of_mem hmem
    refine ⟨_, VolumeCache.get_eq_some_iff.mpr ⟨before, after, hentries, fun e he heq => ?_, rfl⟩⟩
    -- each key is stored once
    have hkeys := h.keys
    rw [hentries, map_append, nodup_append] at hkeys
    exact hkeys.2.2 e.key (mem_map_of_mem he) key (by simp) heq

end Steps

end LoggedCache

/-- The cache of a volume after any reads and invalidations. -/
theorem volumeCache_spec (limit : Nat) (uses : List CacheUse) :
    let t := uses.foldl LoggedCache.step (LoggedCache.empty limit)
    t.cache.usedBytes = stored t.cache.entries ∧ t.cache.usedBytes ≤ limit ∧
    (t.cache.entries.map CacheEntry.key).Nodup ∧
    t.cache.entries.Pairwise (fun e e' => MoreRecent t.log e.key e'.key) ∧
    (∀ key data, data.length ≤ limit → ∃ kept evicted,
      t.cache.MakesRoom data kept evicted ∧ t.cache.evictedBy data = evicted ∧
      (t.cache.insert key data).entries = ⟨key, data⟩ :: kept) ∧
    ∀ key data, (∃ cache, t.cache.get key = some (data, cache)) ↔ Held limit t.log key data := by
  intro t
  have h : t.Faithful limit := (LoggedCache.faithful_empty limit).foldl uses
  refine ⟨h.used, h.fits, h.keys, h.recent, fun key data hlen => ?_, fun _ _ => h.get_iff⟩
  obtain ⟨kept, evicted, hroom, hevicted, hinsert⟩ :=
    VolumeCache.insert_spec key h.used (h.limitBytes.symm ▸ hlen)
  exact ⟨kept, evicted, hroom, hevicted, by rw [hinsert]⟩

/-! ### Runs of a volume -/

namespace FatVolume

variable {α β : Type} {driver : FatDriver} {v v' : FatVolume} {x : VolumeM α}

/-- The cache of the volume is what some uses of it lead to. -/
def Sound (v : FatVolume) : Prop :=
  ∃ uses : List CacheUse,
    (uses.foldl LoggedCache.step (.empty VolumeCache.new.limitBytes)).cache = v.cache

lemma Sound.of_cache (h : v.Sound) (hcache : v'.cache = v.cache) : v'.Sound := by
  rwa [Sound, hcache]

lemma Sound.step (h : v.Sound) (use : CacheUse)
    (hcache : ∀ log, (LoggedCache.step ⟨v.cache, log⟩ use).cache = v'.cache) : v'.Sound := by
  obtain ⟨uses, h⟩ := h
  refine ⟨uses ++ [use], ?_⟩
  rw [foldl_append, ← hcache, ← h]
  rfl

def Keeps (x : VolumeM α) : Prop :=
  Triple Sound x (fun _ => Sound) fun _ => Sound

lemma Keeps.bind {f : α → VolumeM β} (hx : Keeps x) (hf : ∀ a, Keeps (f a)) : Keeps (x >>= f) :=
  Triple.bind hx fun a _ hv => (hf a).of_pre fun _ heq => heq ▸ hv

lemma triple_onMedia_cache {x : FatM α} : Triple (· = v) (onMedia x)
    (fun _ v' => v'.cache = v.cache) fun _ v' => v'.cache = v.cache := by
  refine triple_zoom fun media _ => ?_
  cases x media <;> rfl

lemma keeps_cachedRead {key : CacheKey} {fetch : FatM Bytes} :
    Keeps (cachedRead driver key fetch) := by
  intro v h
  refine Triple.bind triple_get (fun v₁ v₂ hv => ?_) v rfl
  obtain ⟨rfl, rfl⟩ := hv
  rcases hget : v₂.cache.get key with _ | ⟨data, cache⟩
  · refine Triple.bind (triple_sfsMut.imp_stopped fun _ _ h₃ => h.of_cache h₃.1) fun _ v₃ h₃ => ?_
    replace h := h.of_cache h₃.1
    refine Triple.bind (triple_onMedia_cache.imp_stopped fun _ _ => h.of_cache) fun data v₄ h₄ => ?_
    rintro _ rfl
    refine h.step (.read key (some data)) fun _ => ?_
    simp only [LoggedCache.step, h₃.1, hget, h₄]
  · refine fun _ _ => h.step (.read key none) fun _ => ?_
    simp only [LoggedCache.step, hget]

lemma keeps_onMedia {x : FatM α} : Keeps (onMedia x) := fun v h =>
  triple_onMedia_cache.imp (fun _ _ => h.of_cache) (fun _ _ => h.of_cache) v rfl

lemma keeps_sfsOrErr : Keeps (sfsOrErr driver) := fun v h =>
  triple_sfsOrErr.imp (fun _ _ hv => h.of_cache hv.1) (fun _ _ hv => h.of_cache hv.1) v rfl

lemma keeps_invalidatePath {path : PathBuf} : Keeps (invalidatePath path) :=
  fun _ h => h.step (.invalidatePath path) fun _ => rfl

lemma keeps_change {path : PathBuf} {x : FatM Unit} : Keeps (EspWriter.change driver path x) :=
  keeps_sfsOrErr.bind fun _ => keeps_onMedia.bind fun _ => keeps_invalidatePath

lemma keeps_fsResult {r : Except FsError α} : Keeps (fsResult r) := by
  cases r <;> exact fun _ => id

lemma keeps_run (op : VolumeOp) : Keeps (op.run driver) := by
  have hpure : ∀ r : Option Bytes, Keeps (pure r) := fun _ => triple_pure fun _ => id
  cases op with
  | read | readAt => exact keeps_cachedRead.bind fun _ => hpure _
  | rename =>
    refine Keeps.bind ?_ fun _ => hpure _
    refine keeps_sfsOrErr.bind fun _ => keeps_onMedia.bind fun _ => ?_
    refine keeps_fsResult.bind fun _ => keeps_fsResult.bind fun _ => ?_
    exact keeps_invalidatePath.bind fun _ => keeps_invalidatePath
  | _ => exact keeps_change.bind fun _ => hpure _

/-- Whatever is done with a volume and wherever its driver fails, its cache is what reads and
invalidations lead to. It counts its bytes rightly and stays within its limit. -/
theorem sound_afterAll (driver : FatDriver) (media : Media) (ops : List VolumeOp) :
    let v := afterAll driver ops (.mount media)
    v.Sound ∧ v.cache.usedBytes = stored v.cache.entries ∧ v.cache.usedBytes ≤ 8 * 1024 * 1024 := by
  intro v
  have hsound : v.Sound := by
    suffices h : ∀ w : FatVolume, w.Sound → (afterAll driver ops w).Sound from h _ ⟨[], rfl⟩
    clear v
    induction ops with
    | nil => exact fun _ => id
    | cons op ops ih => exact fun w hw => ih _ ((keeps_run op).final hw)
  obtain ⟨uses, hcache⟩ := hsound
  have hfaithful := (LoggedCache.faithful_empty VolumeCache.new.limitBytes).foldl uses
  rw [← hcache]
  exact ⟨⟨uses, hcache⟩, hfaithful.used, hfaithful.fits⟩

end FatVolume

end LamBoot
