import LamBoot.Boot.Types
import LamBoot.Library.Words

/-!
# The root partition on the command line

`auto_append_root` of `partitions.rs`, which adds the root partition to the command lines of kernels
that name none. It looks for `root=` anywhere in the command line, so that a parameter such as
`nfsroot=` passes for one.
-/

namespace LamBoot

open List Text

/-! ### Partitions -/

structure Guid where
  timeLow : UInt32
  timeMid : UInt16
  timeHigh : UInt16
  clockSeq : UInt16
  node : BitVec 48
deriving DecidableEq, Repr

inductive PartType
  | root
  | xbootldr
  | opaquePart
deriving DecidableEq, Repr

structure DiscoveredPartition where
  partitionType : PartType
  uniqueGuid : Guid
deriving DecidableEq, Repr

def lowerHex (width n : Nat) : Text :=
  let digits := Nat.toDigits 16 n
  List.replicate (width - digits.length) '0' ++ digits

def formatPartuuid (guid : Guid) : Text :=
  lowerHex 8 guid.timeLow.toNat ++ '-' :: lowerHex 4 guid.timeMid.toNat ++
    '-' :: lowerHex 4 guid.timeHigh.toNat ++ '-' :: lowerHex 4 guid.clockSeq.toNat ++
    '-' :: lowerHex 12 guid.node.toNat

def rootParam (partuuid : Text) : Text :=
  " root=PARTUUID=" ++ partuuid ++ " rw"

def appendRoot (partuuid : Text) (entry : BootEntry) : BootEntry :=
  match entry.kind with
  | .linuxLegacy kernelPath initrdPaths options =>
    if "root=" <:+: options then entry
    else { entry with kind := .linuxLegacy kernelPath initrdPaths (options ++ rootParam partuuid) }
  | _ => entry

def autoAppendRoot (entries : List BootEntry) (partitions : List DiscoveredPartition) :
    List BootEntry :=
  match partitions.find? fun p => p.partitionType = .root with
  | none => entries
  | some root => entries.map (appendRoot (formatPartuuid root.uniqueGuid))

/-! ### What is appended -/

/-- A command line has a parameter `root=`. -/
def HasRoot (options : Text) : Prop :=
  ∃ token ∈ splitWhitespace options, "root=" <+: token
deriving Decidable

variable {partuuid options : Text} {entry : BootEntry}

lemma HasRoot.contains (h : HasRoot options) : "root=" <:+: options := by
  obtain ⟨token, htoken, hprefix⟩ := h
  exact hprefix.isInfix.trans (infix_of_mem_word htoken)

lemma rootParam_eq (partuuid : Text) : rootParam partuuid =
    ' ' :: ("root=" ++ ("PARTUUID=" ++ partuuid ++ " rw")) := by
  have hlit : " root=PARTUUID=" = ' ' :: ("root=" ++ "PARTUUID=") := by
    decide +kernel
  have hshape : ∀ a b c d : Text, ' ' :: (a ++ b) ++ c ++ d = ' ' :: (a ++ (b ++ c ++ d)) := by
    intro a b c d
    simp
  exact (congrArg (fun s => s ++ partuuid ++ " rw") hlit).trans (hshape _ _ _ _)

lemma hasRoot_append_rootParam (options partuuid : Text) :
    HasRoot (options ++ rootParam partuuid) := by
  rw [rootParam_eq]
  generalize "PARTUUID=" ++ partuuid ++ " rw" = rest
  have hword : (splitWhitespace ("root=" ++ rest)).head? =
      some (("root=" ++ rest).takeWhile (!isWhitespace ·)) :=
    head?_splitWhitespace (c := 'r') rfl (by decide)
  refine ⟨("root=" ++ rest).takeWhile (!isWhitespace ·), ?_, ?_⟩
  · rw [splitWhitespace_append_cons (by decide)]
    exact mem_append_right _ (mem_of_mem_head? hword)
  · rw [takeWhile_append_of_pos (by decide)]
    exact prefix_append ..

/-- What an entry keeps: all of it where it is no kernel or has a root, and otherwise all but that
something may follow its command line. -/
def Keeps (entry entry' : BootEntry) : Prop :=
  match entry.kind with
  | .linuxLegacy kernelPath initrdPaths options =>
    if HasRoot options then entry' = entry
    else ∃ more, entry' =
      { entry with kind := .linuxLegacy kernelPath initrdPaths (options ++ more) }
  | _ => entry' = entry

lemma keeps_appendRoot (partuuid : Text) (entry : BootEntry) :
    Keeps entry (appendRoot partuuid entry) := by
  unfold Keeps appendRoot
  cases hkind : entry.kind with
  | linuxLegacy kernelPath initrdPaths options =>
    dsimp only
    split_ifs with hroot hcontains hcontains
    · rfl
    · exact absurd hroot.contains hcontains
    · exact ⟨[], by rw [append_nil, ← hkind]⟩
    · exact ⟨_, rfl⟩
  | chainload path => rfl
  | uki path options => rfl
  | iso source => rfl

section Kernel

variable {kernelPath : Text} {initrdPaths : List Text}

lemma appendRoot_of_contains
    (hkind : entry.kind = .linuxLegacy kernelPath initrdPaths options)
    (hcontains : "root=" <:+: options) : appendRoot partuuid entry = entry := by
  rw [appendRoot, hkind]
  exact if_pos hcontains

lemma appendRoot_of_lacks
    (hkind : entry.kind = .linuxLegacy kernelPath initrdPaths options)
    (hcontains : ¬ "root=" <:+: options) : appendRoot partuuid entry =
      { entry with
        kind := .linuxLegacy kernelPath initrdPaths (options ++ rootParam partuuid) } := by
  rw [appendRoot, hkind]
  exact if_neg hcontains

end Kernel

lemma appendRoot_appendRoot (partuuid : Text) (entry : BootEntry) :
    appendRoot partuuid (appendRoot partuuid entry) = appendRoot partuuid entry := by
  cases hkind : entry.kind with
  | linuxLegacy kernelPath initrdPaths options =>
    by_cases hcontains : "root=" <:+: options
    · rw [appendRoot_of_contains hkind hcontains, appendRoot_of_contains hkind hcontains]
    · rw [appendRoot_of_lacks hkind hcontains]
      exact appendRoot_of_contains rfl (hasRoot_append_rootParam options partuuid).contains
  | chainload path => simp only [appendRoot, hkind]
  | uki path options => simp only [appendRoot, hkind]
  | iso source => simp only [appendRoot, hkind]

/-- The options of a kernel name its root. -/
def RootNamed (entry : BootEntry) : Prop :=
  ∀ kernelPath initrdPaths options, entry.kind = .linuxLegacy kernelPath initrdPaths options →
    HasRoot options

/-- Where `root=` is in the command line of a kernel, it begins a parameter. -/
def PlainRoot (entry : BootEntry) : Prop :=
  ∀ kernelPath initrdPaths options, entry.kind = .linuxLegacy kernelPath initrdPaths options →
    "root=" <:+: options → HasRoot options

lemma rootNamed_appendRoot_iff : RootNamed (appendRoot partuuid entry) ↔ PlainRoot entry := by
  cases hkind : entry.kind with
  | linuxLegacy kernelPath initrdPaths options =>
    by_cases hcontains : "root=" <:+: options
    · rw [appendRoot_of_contains hkind hcontains]
      constructor
      · exact fun h k i o hkind _ => h k i o hkind
      · intro h k i o hkind'
        obtain ⟨-, -, rfl⟩ := EntryKind.linuxLegacy.inj (hkind.symm.trans hkind')
        exact h k i _ hkind' hcontains
    · rw [appendRoot_of_lacks hkind hcontains]
      refine iff_of_true (fun k i o hkind' => ?_) fun k i o hkind' hcontains' => ?_
      · obtain ⟨-, -, rfl⟩ := EntryKind.linuxLegacy.inj hkind'
        exact hasRoot_append_rootParam options partuuid
      · obtain ⟨-, -, rfl⟩ := EntryKind.linuxLegacy.inj (hkind.symm.trans hkind')
        exact absurd hcontains' hcontains
  | chainload path => simp [RootNamed, PlainRoot, appendRoot, hkind]
  | uki path options => simp [RootNamed, PlainRoot, appendRoot, hkind]
  | iso source => simp [RootNamed, PlainRoot, appendRoot, hkind]

/-! ### All entries -/

variable {entries : List BootEntry} {partitions : List DiscoveredPartition}

/-- The entries are as they should be after the root was appended: each kernel has one, what an
entry had it has kept, and there is nothing left to do. -/
structure RootAppended (entries : List BootEntry) (partitions : List DiscoveredPartition)
    (after : List BootEntry) : Prop where
  named : ∀ entry ∈ after, RootNamed entry
  keeps : List.Forall₂ Keeps entries after
  idempotent : autoAppendRoot after partitions = after

lemma autoAppendRoot_eq_map (hroot : ∃ p ∈ partitions, p.partitionType = .root) :
    ∃ partuuid, ∀ entries,
      autoAppendRoot entries partitions = entries.map (appendRoot partuuid) := by
  obtain ⟨p, hp, htype⟩ := hroot
  cases hfind : partitions.find? fun p => p.partitionType = .root with
  | none => exact absurd (decide_eq_true htype) (List.find?_eq_none.mp hfind p hp)
  | some root =>
    refine ⟨formatPartuuid root.uniqueGuid, fun entries => ?_⟩
    rw [autoAppendRoot, hfind]

/-- With a root partition, all is as it should be just when no kernel has `root=` only inside of
another parameter. -/
theorem rootAppended_autoAppendRoot_iff
    (hroot : ∃ p ∈ partitions, p.partitionType = .root) :
    RootAppended entries partitions (autoAppendRoot entries partitions) ↔
      ∀ entry ∈ entries, PlainRoot entry := by
  obtain ⟨partuuid, hmap⟩ := autoAppendRoot_eq_map hroot
  constructor
  · intro h entry hentry
    have hnamed := h.named (appendRoot partuuid entry) (by
      rw [hmap]
      exact mem_map_of_mem hentry)
    exact rootNamed_appendRoot_iff.mp hnamed
  · intro h
    refine ⟨?_, ?_, ?_⟩
    · intro entry' hentry'
      rw [hmap] at hentry'
      obtain ⟨entry, hentry, rfl⟩ := mem_map.mp hentry'
      exact rootNamed_appendRoot_iff.mpr (h entry hentry)
    · rw [hmap, forall₂_map_right_iff]
      exact forall₂_same.mpr fun entry _ => keeps_appendRoot partuuid entry
    · rw [hmap, hmap, map_map]
      exact map_congr_left fun entry _ => appendRoot_appendRoot partuuid entry

def kernelWith (options : Text) : BootEntry :=
  { id := "bls-linux", name := "Linux", kind := .linuxLegacy "\\vmlinuz" [] options,
    icon := .linux }

def rootPartition : DiscoveredPartition :=
  ⟨.root, ⟨1, 2, 3, 4, 5⟩⟩

theorem rootAppended_autoAppendRoot_quiet :
    (∃ p ∈ [rootPartition], p.partitionType = .root) ∧
      RootAppended [kernelWith "quiet"] [rootPartition]
        (autoAppendRoot [kernelWith "quiet"] [rootPartition]) := by
  refine ⟨by decide, (rootAppended_autoAppendRoot_iff (by decide)).mpr ?_⟩
  intro entry hentry k i o hkind hcontains
  rw [mem_singleton.mp hentry] at hkind
  obtain ⟨-, -, rfl⟩ := EntryKind.linuxLegacy.inj hkind
  exact absurd hcontains (by decide +kernel)

/-- A parameter that ends in `root` keeps the root from being appended. -/
theorem not_rootAppended_of_nfsroot :
    autoAppendRoot [kernelWith "nfsroot=10.0.0.1:/srv"] [rootPartition] =
        [kernelWith "nfsroot=10.0.0.1:/srv"] ∧
      ¬ RootAppended [kernelWith "nfsroot=10.0.0.1:/srv"] [rootPartition]
        (autoAppendRoot [kernelWith "nfsroot=10.0.0.1:/srv"] [rootPartition]) := by
  have hsame : autoAppendRoot [kernelWith "nfsroot=10.0.0.1:/srv"] [rootPartition] =
      [kernelWith "nfsroot=10.0.0.1:/srv"] := by decide +kernel
  refine ⟨hsame, fun h => ?_⟩
  have hnamed := h.named (kernelWith "nfsroot=10.0.0.1:/srv") (by
    rw [hsame]
    exact mem_singleton_self _)
  exact absurd (hnamed _ _ _ rfl) (by decide +kernel)

end LamBoot
