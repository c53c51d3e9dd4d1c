import LamBoot.Discovery.Permitted

/-!
# The ids of the menu

The configuration, the crash recovery and the boot variables name entries by their ids. Ids can only
be equal within one scanner, and there the removal of duplicates keeps most of them apart, but not
those of `EntryFile.Clash`. The id of an entry is a function of its file, except that that of a
unified kernel image is its place in the listing.
-/

namespace LamBoot

open List Text

def isoName (path : Text) : Text :=
  if "/isos/".toList.isPrefixOf path then path.drop 6 else path.drop 11

/-- Two files whose entries have the same id. Tools are the images with a slash before their path,
as other loaders have a backslash there. -/
def EntryFile.Clash : EntryFile → EntryFile → Prop
  | .conf f, .conf g => (BlsEntry.ofFilename f).id = (BlsEntry.ofFilename g).id
  | .disc p, .disc q => isoName p = isoName q
  | .image p, .image q =>
    p.head? = some '/' ∧ q.head? = some '/' ∧
      trimEndMatches ".efi" (afterLast '\\' p) = trimEndMatches ".efi" (afterLast '\\' q)
  | _, _ => False

lemma EntryFile.clash_conf {f g : Text} : EntryFile.Clash (.conf f) (.conf g) ↔
    (BlsEntry.ofFilename f).id = (BlsEntry.ofFilename g).id :=
  Iff.rfl

def EntryFile.key (lower : Lowercase) : EntryFile → Text
  | .conf _ => []
  | .image path | .uki path | .kernel path | .disc path => extractFilenameLower lower path
  | .optical label => "optical:" ++ lower.apply label

lemma dedupKey_eq {e : BootEntry} (h : ∀ filename, e.ownFile ≠ .conf filename)
    (lower : Lowercase) : dedupKey lower e = e.ownFile.key lower := by
  unfold BootEntry.ownFile at h ⊢
  unfold dedupKey
  cases hfile : e.blsFilename with
  | some filename => simp [hfile] at h
  | none =>
    cases e.kind with
    | iso source => cases source <;> rfl
    | _ => rfl

/-! ### Paths of the scanners -/

lemma isoName_append {dir : Text} (h : dir ∈ ["/isos".toList, "/boot/isos".toList]) (name : Text) :
    isoName (dir ++ "/".toList ++ name) = name := by
  simp only [mem_cons, not_mem_nil, or_false] at h
  rcases h with rfl | rfl
  · rfl
  · rfl

lemma head?_of_mem_glob {v : Volume} {pattern path : Text} (h : path ∈ v.glob pattern) :
    path.head? = some '/' := by
  have hnormal : (normalizePathString pattern).head? = some '/' := by
    unfold normalizePathString
    dsimp only
    split_ifs with hnil hslash
    · rfl
    · exact hslash
    · rfl
  unfold Volume.glob at h
  split at h
  · cases h
  · next before filePattern hsplit =>
    have hbefore : before ≠ [] → before.head? = some '/' := by
      intro hne
      obtain ⟨c, rest, rfl⟩ := exists_cons_of_ne_nil hne
      rw [(rsplitOnce_eq_some_iff.mp hsplit).1] at hnormal
      simpa using hnormal
    dsimp only at h
    split at h
    · cases h
    · split at h
      · cases h
      · obtain ⟨de, -, rfl⟩ := mem_map.mp h
        split_ifs with hnil hdir hdir
        · rfl
        · rfl
        · rfl
        · obtain ⟨c, rest, hcons⟩ := exists_cons_of_ne_nil hnil
          simpa [hcons] using hbefore hnil

lemma looksLikeDistroUuidDir_chars {name : Text} (h : looksLikeDistroUuidDir name = true) :
    (∀ c ∈ name, c ≠ '/' ∧ c ≠ '\\') ∧ name.getLast? ≠ some 's' := by
  have hhex : ∀ c, (looksLikeDistroUuidDir.isAsciiHexdigit c || c == '-') = true →
      c ≠ '/' ∧ c ≠ '\\' ∧ c ≠ 's' := by
    intro c hc
    refine ⟨?_, ?_, ?_⟩ <;>
    · rintro rfl
      revert hc
      decide
  unfold looksLikeDistroUuidDir at h
  split at h
  · cases h
  · next before suffix hsplit =>
    simp only [Bool.and_eq_true, decide_eq_true_eq, all_eq_true] at h
    obtain ⟨⟨⟨⟨-, -⟩, hbefore⟩, hsuffix⟩, hdigits⟩ := h
    obtain ⟨rfl, -⟩ := splitOnce_eq_some_iff.mp hsplit
    refine ⟨fun c hc => ?_, ?_⟩
    · rcases mem_append.mp hc with hc | hc
      · have halnum := hbefore c hc
        refine ⟨?_, ?_⟩ <;>
        · rintro rfl
          revert halnum
          decide
      · rcases mem_cons.mp hc with rfl | hc
        · decide
        · exact ⟨(hhex c (hsuffix c hc)).1, (hhex c (hsuffix c hc)).2.1⟩
    · have hne : suffix ≠ [] := by
        rintro rfl
        simp at hdigits
      intro hlast
      rw [getLast?_append_of_ne_nil _ (cons_ne_nil _ _),
        getLast?_cons_of_ne_nil hne] at hlast
      exact (hhex 's' (hsuffix 's' (mem_of_getLast? hlast))).2.2 rfl

lemma fixedLoaders_paths : ∀ a ∈ fixedLoaders,
    a.1.head? ≠ some '/' ∧ ∀ b ∈ fixedLoaders, a.1 = b.1 ↔ a.2 = b.2 := by
  decide

def kernelName (previous : Bool) : Text :=
  if previous then "vmlinuz-previous.efi" else "vmlinuz.efi"

lemma directoryKernel_eq {name : Text} (h : looksLikeDistroUuidDir name = true)
    (previous : Bool) :
    directoryKernel name previous = "\\EFI\\" ++ name ++ '\\' :: kernelName previous := by
  have hname : forwardToBackslash name = name := by
    rw [forwardToBackslash, replaceChar, map_congr_left (g := id), map_id]
    intro c hc
    simp [((looksLikeDistroUuidDir_chars h).1 c hc).1]
  have happend (s t : Text) :
      forwardToBackslash (s ++ t) = forwardToBackslash s ++ forwardToBackslash t := by
    simp [forwardToBackslash, replaceChar]
  rw [directoryKernel, happend, happend, hname]
  cases previous <;> rfl

lemma directoryKernel_inj {name name' : Text} {previous previous' : Bool}
    (hname : looksLikeDistroUuidDir name = true) (hname' : looksLikeDistroUuidDir name' = true)
    (h : directoryKernel name previous = directoryKernel name' previous') :
    name = name' ∧ previous = previous' := by
  have hkernel (previous : Bool) : '\\' ∉ kernelName previous := by
    cases previous <;> decide
  rw [directoryKernel_eq hname, directoryKernel_eq hname'] at h
  have hlast := congrArg (afterLast '\\') h
  rw [afterLast_append (hkernel previous), afterLast_append (hkernel previous')] at hlast
  have hprevious : previous = previous' := by
    revert hlast
    cases previous <;> cases previous' <;> decide
  subst hprevious
  simpa using h

namespace Origin

/-! ### Equal ids -/

def scanner : Origin → Fin 7
  | .bls _ => 0
  | .isoFile _ _ => 1
  | .optical _ => 2
  | .uki _ _ => 3
  | .directory _ _ => 4
  | .tool _ => 5
  | .loader _ _ => 6

def scannerOfLetter : Char → Fin 7
  | 'b' => 0
  | 'i' => 1
  | 'o' => 2
  | 'u' => 3
  | 's' => 4
  | 't' => 5
  | _ => 6

variable {env : Surroundings} {policy : Policy} {volumes : List Volume} {o o' : Origin}

lemma head?_id (h : o.Valid env policy volumes) :
    (o.id env.lower).head?.map scannerOfLetter = some o.scanner := by
  cases o with
  | bls entry => rfl
  | isoFile dir name => rfl
  | optical label => rfl
  | uki number path => rfl
  | directory name previous => cases previous <;> rfl
  | tool path => rfl
  | loader path id =>
    have hids : ∀ loader ∈ fixedLoaders, loader.2.head?.map scannerOfLetter = some 6 := by decide
    exact hids (path, id) h.1

lemma scanner_eq (h : o.Valid env policy volumes) (h' : o'.Valid env policy volumes)
    (hid : o.id env.lower = o'.id env.lower) : o.scanner = o'.scanner := by
  have hhead := head?_id h
  rw [hid, head?_id h'] at hhead
  exact (Option.some.inj hhead).symm

lemma directory_of_id_eq {lower : Lowercase} {name name' : Text} {previous previous' : Bool}
    (hname : looksLikeDistroUuidDir name = true) (hname' : looksLikeDistroUuidDir name' = true)
    (hid : Origin.id lower (.directory name previous) =
      Origin.id lower (.directory name' previous')) :
    name = name' ∧ previous = previous' := by
  have hlast {name name' : Text} (h : looksLikeDistroUuidDir name = true)
      (hid : "sdboot-" ++ name = "sdboot-" ++ name' ++ "-previous") :
      False := by
    rw [append_assoc, append_cancel_left_eq] at hid
    apply (looksLikeDistroUuidDir_chars h).2
    rw [hid, getLast?_append_of_ne_nil _ (by decide)]
    rfl
  cases previous with
  | false =>
    cases previous' with
    | false => exact ⟨append_cancel_left hid, rfl⟩
    | true => exact (hlast hname hid).elim
  | true =>
    cases previous' with
    | false => exact (hlast hname' hid.symm).elim
    | true => exact ⟨append_cancel_left (append_cancel_right hid), rfl⟩

lemma clash_of_id_eq (h : o.Valid env policy volumes) (h' : o'.Valid env policy volumes)
    (hid : o.id env.lower = o'.id env.lower) :
    o.file.Clash o'.file ∨
      (∀ filename, o.file ≠ .conf filename ∧ o'.file ≠ .conf filename) ∧
        o.file.key env.lower = o'.file.key env.lower := by
  have hscanner := scanner_eq h h' hid
  cases o with
  | bls entry =>
    cases o' with
    | bls entry' =>
      refine .inl (EntryFile.clash_conf.mpr ?_)
      rw [← (foundOn_of_mem_allBls h).named.id, ← (foundOn_of_mem_allBls h').named.id]
      exact append_cancel_left hid
    | _ => simp [scanner] at hscanner
  | isoFile dir name =>
    cases o' with
    | isoFile dir' name' =>
      refine .inl ?_
      change isoName _ = isoName _
      rw [isoName_append h, isoName_append h']
      exact append_cancel_left hid
    | _ => simp [scanner] at hscanner
  | optical label =>
    cases o' with
    | optical label' =>
      have hlabel : env.lower.apply label = env.lower.apply label' := append_cancel_left hid
      exact .inr ⟨fun _ => ⟨nofun, nofun⟩, congrArg ("optical:".toList ++ ·) hlabel⟩
    | _ => simp [scanner] at hscanner
  | uki number path =>
    cases o' with
    | uki number' path' =>
      obtain rfl := decimal_injective (append_cancel_left hid)
      obtain ⟨esp, hesp, hpath⟩ := h
      obtain ⟨esp', hesp', hpath'⟩ := h'
      obtain rfl := Option.mem_unique hesp hesp'
      obtain rfl : path = path' := by simpa [hpath] using hpath'
      exact .inr ⟨fun _ => ⟨nofun, nofun⟩, rfl⟩
    | _ => simp [scanner] at hscanner
  | directory name previous =>
    cases o' with
    | directory name' previous' =>
      obtain ⟨rfl, rfl⟩ := directory_of_id_eq h.1 h'.1 hid
      exact .inr ⟨fun _ => ⟨nofun, nofun⟩, rfl⟩
    | _ => simp [scanner] at hscanner
  | loader path id =>
    cases o' with
    | loader path' id' =>
      obtain rfl : path = path' := ((fixedLoaders_paths _ h.1).2 _ h'.1).mpr hid
      exact .inr ⟨fun _ => ⟨nofun, nofun⟩, rfl⟩
    | _ => simp [scanner] at hscanner
  | tool path =>
    cases o' with
    | tool path' =>
      obtain ⟨⟨esp, -, hpath⟩, -⟩ := h
      obtain ⟨⟨esp', -, hpath'⟩, -⟩ := h'
      refine .inl ⟨head?_of_mem_glob hpath, head?_of_mem_glob hpath', ?_⟩
      exact append_cancel_left hid
    | _ => simp [scanner] at hscanner

lemma id_eq_of_clash (h : o.Valid env policy volumes) (h' : o'.Valid env policy volumes)
    (hclash : o.file.Clash o'.file) : o.id env.lower = o'.id env.lower := by
  cases o with
  | bls entry =>
    cases o' with
    | bls entry' =>
      have hid := EntryFile.clash_conf.mp hclash
      rw [← (foundOn_of_mem_allBls h).named.id, ← (foundOn_of_mem_allBls h').named.id] at hid
      exact congrArg ("bls-".toList ++ ·) hid
    | _ => exact hclash.elim
  | isoFile dir name =>
    cases o' with
    | isoFile dir' name' =>
      have hname : isoName (dir ++ "/" ++ name) = isoName (dir' ++ "/" ++ name') :=
        hclash
      rw [isoName_append h, isoName_append h'] at hname
      exact congrArg ("iso-".toList ++ ·) hname
    | _ => exact hclash.elim
  | optical label => cases o' <;> exact hclash.elim
  | uki number path => cases o' <;> exact hclash.elim
  | directory name previous => cases o' <;> exact hclash.elim
  | loader path id =>
    cases o' with
    | loader path' id' => exact absurd hclash.1 (fixedLoaders_paths _ h.1).1
    | tool path' => exact absurd hclash.1 (fixedLoaders_paths _ h.1).1
    | _ => exact hclash.elim
  | tool path =>
    cases o' with
    | loader path' id' => exact absurd hclash.2.1 (fixedLoaders_paths _ h'.1).1
    | tool path' => exact congrArg ("tool-".toList ++ ·) hclash.2.2
    | _ => exact hclash.elim

/-! ### Equal files -/

lemma id_of_file_eq {env' : Surroundings} {policy' : Policy} {volumes' : List Volume}
    (hlower : env'.lower = env.lower) (h : o.Valid env policy volumes)
    (h' : o'.Valid env' policy' volumes') (hfile : o.file = o'.file) :
    (o.id env.lower = o'.id env'.lower ∧ ∀ path, o.file ≠ .uki path) ∨
      ∃ number number' path, o = .uki number path ∧ o' = .uki number' path := by
  rw [hlower]
  cases o with
  | bls entry =>
    cases o' with
    | bls entry' =>
      have hfilename : entry.filename = entry'.filename := EntryFile.conf.inj hfile
      refine .inl ⟨congrArg ("bls-".toList ++ ·) ?_, nofun⟩
      rw [(foundOn_of_mem_allBls h).named.id, (foundOn_of_mem_allBls h').named.id, hfilename]
    | _ => exact nomatch hfile
  | isoFile dir name =>
    cases o' with
    | isoFile dir' name' =>
      have hname := congrArg isoName (EntryFile.disc.inj hfile)
      rw [isoName_append h, isoName_append h'] at hname
      exact .inl ⟨congrArg ("iso-".toList ++ ·) hname, nofun⟩
    | _ => exact nomatch hfile
  | optical label =>
    cases o' with
    | optical label' =>
      obtain rfl : label = label' := EntryFile.optical.inj hfile
      exact .inl ⟨rfl, nofun⟩
    | _ => exact nomatch hfile
  | uki number path =>
    cases o' with
    | uki number' path' =>
      obtain rfl : path = path' := EntryFile.uki.inj hfile
      exact .inr ⟨number, number', path, rfl, rfl⟩
    | _ => exact nomatch hfile
  | directory name previous =>
    cases o' with
    | directory name' previous' =>
      obtain ⟨rfl, rfl⟩ := directoryKernel_inj h.1 h'.1 (EntryFile.kernel.inj hfile)
      exact .inl ⟨rfl, nofun⟩
    | _ => exact nomatch hfile
  | loader path id =>
    cases o' with
    | loader path' id' =>
      refine .inl ⟨?_, nofun⟩
      exact ((fixedLoaders_paths _ h.1).2 _ h'.1).mp (EntryFile.image.inj hfile)
    | tool path' =>
      obtain rfl : path = path' := EntryFile.image.inj hfile
      obtain ⟨⟨esp, -, hglob⟩, -⟩ := h'
      exact absurd (head?_of_mem_glob hglob) (fixedLoaders_paths _ h.1).1
    | _ => exact nomatch hfile
  | tool path =>
    cases o' with
    | loader path' id' =>
      obtain rfl : path = path' := EntryFile.image.inj hfile
      obtain ⟨⟨esp, -, hglob⟩, -⟩ := h
      exact absurd (head?_of_mem_glob hglob) (fixedLoaders_paths _ h'.1).1
    | tool path' =>
      obtain rfl : path = path' := EntryFile.image.inj hfile
      exact .inl ⟨rfl, nofun⟩
    | _ => exact nomatch hfile

end Origin

/-! ### The menu -/

section Menu

variable (env : Surroundings) (policy : Policy) (volumes : List Volume)
  (selfImageSha256 : Option Bytes)

variable {env policy volumes selfImageSha256} in
/-- Two entries of the menu have the same id exactly where their files clash. -/
lemma id_eq_iff_clash {a b : BootEntry} (ha : FirstOffer env policy volumes selfImageSha256 a)
    (hb : FirstOffer env policy volumes selfImageSha256 b) (hne : a ≠ b) :
    a.id = b.id ↔ a.ownFile.Clash b.ownFile := by
  have hkey : dedupKey env.lower a ≠ dedupKey env.lower b := fun h => hne (ha.eq_of_key hb h)
  obtain ⟨o, ho⟩ := comesFrom_of_mem_offered ha.mem
  obtain ⟨o', ho'⟩ := comesFrom_of_mem_offered hb.mem
  rw [ho.id, ho'.id, ho.file, ho'.file]
  constructor
  · intro hid
    rcases Origin.clash_of_id_eq ho.valid ho'.valid hid with hclash | ⟨hconf, hsame⟩
    · exact hclash
    · rw [← ho.file, ← ho'.file] at hconf hsame
      rw [dedupKey_eq (fun f => (hconf f).1), dedupKey_eq (fun f => (hconf f).2)] at hkey
      exact absurd hsame hkey
  · exact Origin.id_eq_of_clash ho.valid ho'.valid

/-- The ids of the menu are different exactly where, of the offers that no earlier file name or
label hides, no two are for files that clash. In another discovery the entry of the same file has
the same id; that of a unified kernel image exactly where it has the same place in the listing. -/
theorem discoverAllEntries_ids :
    (((discoverAllEntries env policy volumes selfImageSha256).entries.map (·.id)).Nodup ↔
      ∀ a b, FirstOffer env policy volumes selfImageSha256 a →
        FirstOffer env policy volumes selfImageSha256 b → a ≠ b →
          ¬ a.ownFile.Clash b.ownFile) ∧
    ∀ (env' : Surroundings) (policy' : Policy) (volumes' : List Volume)
      (selfImageSha256' : Option Bytes), env'.lower = env.lower →
      ∀ e ∈ (discoverAllEntries env policy volumes selfImageSha256).entries,
      ∀ e' ∈ (discoverAllEntries env' policy' volumes' selfImageSha256').entries,
        e.ownFile = e'.ownFile →
          ((∀ path, e.ownFile ≠ .uki path) → e.id = e'.id) ∧
          ∀ path, e.ownFile = .uki path →
            ∃ n n', (Origin.uki n path).Valid env policy volumes ∧
              (Origin.uki n' path).Valid env' policy' volumes' ∧ (e.id = e'.id ↔ n = n') := by
  constructor
  · have hkeys : (discoverAllEntries env policy volumes selfImageSha256).entries.Pairwise
        fun a b => dedupKey env.lower a ≠ dedupKey env.lower b := pairwise_keepFirst _ [] _
    have hnodup : (discoverAllEntries env policy volumes selfImageSha256).entries.Nodup :=
      hkeys.imp fun hab heq => hab (congrArg _ heq)
    rw [nodup_map_iff_inj_on hnodup]
    simp only [mem_discovered_iff]
    constructor
    · intro h a b ha hb hne hclash
      exact hne (h a ha b hb ((id_eq_iff_clash ha hb hne).mpr hclash))
    · intro h a ha b hb hid
      by_contra hne
      exact h a b ha hb hne ((id_eq_iff_clash ha hb hne).mp hid)
  · intro env' policy' volumes' selfImageSha256' hlower e he e' he' hfile
    obtain ⟨o, ho⟩ := comesFrom_of_mem_discovered he
    obtain ⟨o', ho'⟩ := comesFrom_of_mem_discovered he'
    rw [ho.file, ho'.file] at hfile
    rw [ho.id, ho'.id, ho.file]
    rcases Origin.id_of_file_eq hlower ho.valid ho'.valid hfile with
      ⟨hid, huki⟩ | ⟨number, number', path, rfl, rfl⟩
    · exact ⟨fun _ => hid, fun path hpath => absurd hpath (huki path)⟩
    · refine ⟨fun h => absurd rfl (h path), ?_⟩
      rintro _ ⟨⟩
      refine ⟨number, number', ho.valid, ho'.valid, ?_⟩
      exact (append_cancel_left_eq ..).to_iff.trans decimal_injective.eq_iff

end Menu

/-! ### Ids that collide and ids that move -/

def espWithUkis (names : List Text) : Volume :=
  .ofFiles "fat"
    ([(["loader".toList, "entries".toList, "foo.conf".toList], "linux /vmlinuz-6.9".toList),
      (["loader", "entries", "foo+3.conf"], "linux /vmlinuz-6.8")] ++
      names.map fun name => (["EFI".toList, "Linux".toList, name], []))

def idsAndFiles (esp : Volume) : List (Text × EntryFile) :=
  (discoverAllEntries { Surroundings.plain with sort := .insertion } {} [esp] none).entries.map
    fun e => (e.id, e.ownFile)

/-- Two kernels share an id; and the id of an image changes with the order of the listing, as it
does when another image is added before it. -/
theorem ids_collide_and_move :
    (idsAndFiles (espWithUkis ["a.efi".toList, "b.efi".toList]) =
      [("bls-foo".toList, .conf "foo.conf".toList), ("bls-foo".toList, .conf "foo+3.conf".toList),
        ("uki-1".toList, .uki "/EFI/Linux/b.efi".toList),
        ("uki-0".toList, .uki "/EFI/Linux/a.efi".toList)]) ∧
    (idsAndFiles (espWithUkis ["b.efi".toList, "a.efi".toList]) =
      [("bls-foo".toList, .conf "foo.conf".toList), ("bls-foo".toList, .conf "foo+3.conf".toList),
        ("uki-0".toList, .uki "/EFI/Linux/b.efi".toList),
        ("uki-1".toList, .uki "/EFI/Linux/a.efi".toList)]) ∧
    (idsAndFiles (espWithUkis ["b.efi".toList])).getLast? =
      some ("uki-0".toList, .uki "/EFI/Linux/b.efi".toList) := by
  decide +kernel

end LamBoot
