import LamBoot.Fs.Fat
import LamBoot.Fs.PathLaws
import LamBoot.Fs.Volume
import LamBoot.Library.Checked
import LamBoot.Library.Utf8

/-!
# The btrfs backends

`fs_backend_btrfs.rs` and its twin for logical volumes, `fs_backend_lvm_btrfs.rs`, over the reader
`lambutter`. The reader works on literal paths and does not follow symbolic links, so the backends
do.
-/

namespace LamBoot

open List Text Except
open Checked (ok_bind)

/-! ### The reader -/

inductive SuperblockReason where
  | badMagic
  | badCsum
  | generationSkew
  | noValidCopy
  | unsupportedCsumType
  | unsupportedIncompat
  | badGeometry

/-- `lambutter::Error`. -/
inductive LbErr where
  | notFound
  | notARegularFile
  | notASymlink
  | badSuperblock (reason : SuperblockReason)
  | unsupportedFeature
  | unsupportedProfile
  | unsupportedChecksum
  | csumMismatch
  | corruptBtree
  | badCompression
  | outOfMemory
  | io (token : Text)

structure Inode where
  objectid : UInt64
deriving DecidableEq

structure LbMetadata where
  kind : FileKind
  size : Nat
  mode : Nat

structure LbDirEntry where
  name : Bytes
  inodeNumber : UInt64

/-- `lambutter::Btrfs`, as its answers. Paths are given as bytes. -/
structure Lambutter where
  resolve : Bytes → Except LbErr Inode
  metadata : Inode → Except LbErr LbMetadata
  readLink : Bytes → Except LbErr Bytes
  /-- The bytes of a file from an offset on, at most as many as asked for. -/
  readFileAt : Inode → Nat → Nat → Except LbErr Bytes
  readDir : Bytes → Except LbErr (List LbDirEntry)

/-- The literal path is of a file of some kind. -/
structure Lambutter.Finds (lb : Lambutter) (path : Bytes) (inode : Inode) (md : LbMetadata) :
    Prop where
  resolve : lb.resolve path = .ok inode
  metadata : lb.metadata inode = .ok md

/-- What is assumed of the reader: a directory can be listed, and a symbolic link has no entries of
its own, whatever it leads to. -/
structure Lambutter.Literal (lb : Lambutter) : Prop where
  readDir_directory : ∀ path inode md, lb.Finds path inode md → md.kind = .directory →
    ∃ entries, lb.readDir path = .ok entries
  readDir_symlink : ∀ path inode md, lb.Finds path inode md → md.kind = .symlink →
    lb.readDir path = .ok [] ∨ ∃ e, lb.readDir path = .error e

/-! ### The backends -/

def btrfsBackendTag : Text := "lambutter@0.3.0-path"

def translateLbError : LbErr → FsError
  | .notFound => .notFound
  | .notARegularFile => .isDirectory
  | .notASymlink => .unsupported "not_a_symlink"
  | .badSuperblock .badMagic => .corrupt "btrfs bad superblock magic"
  | .badSuperblock .badCsum => .corrupt "btrfs superblock csum mismatch"
  | .badSuperblock .generationSkew => .corrupt "btrfs superblock generation skew"
  | .badSuperblock .noValidCopy => .corrupt "btrfs no valid superblock copy"
  | .badSuperblock .unsupportedCsumType => .unsupportedFeature "btrfs_csum_type" btrfsBackendTag
  | .badSuperblock .unsupportedIncompat => .unsupportedFeature "btrfs_incompat_flag" btrfsBackendTag
  | .badSuperblock .badGeometry => .corrupt "btrfs bad nodesize/sectorsize"
  | .unsupportedFeature => .unsupportedFeature "btrfs_incompat_flag" btrfsBackendTag
  | .unsupportedProfile => .unsupportedFeature "btrfs_raid_profile" btrfsBackendTag
  | .unsupportedChecksum => .unsupportedFeature "btrfs_csum_type" btrfsBackendTag
  | .csumMismatch => .corrupt "btrfs metadata block csum mismatch"
  | .corruptBtree => .corrupt "btrfs btree structural violation"
  | .badCompression => .corrupt "btrfs decompression failed"
  | .outOfMemory => .unsupported "out_of_memory"
  | .io token => .corrupt token

structure Metadata where
  kind : FileKind
  size : Nat
  mode : Nat
  readOnly : Bool
  sourceBackend : Text

/-- A directory entry with the size of its file. -/
structure SizedDirEntry extends DirEntry where
  size : Nat

def kindOf (md : LbMetadata) : FileKind :=
  if md.kind = .regular then .regular
  else if md.kind = .directory then .directory
  else if md.kind = .symlink then .symlink
  else .other

def translateMetadata (md : LbMetadata) : Metadata where
  kind := kindOf md
  size := md.size
  mode := md.mode
  readOnly := md.mode &&& 0o200 == 0
  sourceBackend := btrfsBackendTag

def lbPath (path : PathBuf) : Except FsError Bytes :=
  if path.asStr.head? = some '/' then .ok (utf8 path.asStr)
  else .error (.invalidPath "lambutter::Path rejected (not absolute?)")

def maxSymlinkDepth : Nat := 40

section Backend

variable (lb : Lambutter)

def answer {α : Type} (r : Except LbErr α) : Except FsError α :=
  r.mapError translateLbError

def pathResult (r : Except PathError PathBuf) : Except FsError PathBuf :=
  r.mapError FsError.ofPathError

/-- Where a symbolic link at `current` leads. -/
def linkTarget (current : PathBuf) (target : Text) : Except PathError PathBuf :=
  if target.head? = some '/' then PathBuf.fromStr target else current.parent.join target

/-- The loop of `resolve_following`, with the number of turns that are left. -/
def resolveLoop : Nat → PathBuf → Except FsError Inode
  | 0, _ => .error (.unsupported "symlink_chain_too_deep")
  | turns + 1, current => do
    let p ← lbPath current
    let inode ← answer (lb.resolve p)
    let md ← answer (lb.metadata inode)
    if md.kind ≠ .symlink then return inode
    else
      match ofUtf8 (← answer (lb.readLink p)) with
      | none => .error (.invalidPath "non-utf8 symlink target")
      | some target => resolveLoop turns (← pathResult (linkTarget current target))

def resolveFollowing (path : PathBuf) : Except FsError Inode := do
  resolveLoop lb (maxSymlinkDepth + 1) (← pathResult (PathBuf.fromStr path.asStr))

def readInode (inode : Inode) : Except FsError Bytes := do
  let md ← answer (lb.metadata inode)
  let size ← checkedFullReadLen md.size
  answer (lb.readFileAt inode 0 size)

def listEntries (kind : LbMetadata → FileKind) :
    List LbDirEntry → Except FsError (List SizedDirEntry)
  | [] => .ok []
  | entry :: rest =>
    match ofUtf8 entry.name with
    | none => .error (.invalidPath "non-utf8 btrfs filename")
    | some name =>
      if name = "." ∨ name = ".." then listEntries kind rest
      else
        -- an entry whose metadata cannot be read is listed without them
        let (kind', size) := match lb.metadata ⟨entry.inodeNumber⟩ with
          | .ok md => (kind md, md.size)
          | .error _ => (.other, 0)
        (listEntries kind rest).map ({ name, kind := kind', size } :: ·)

/-- `read_dir`. The links are followed to find out whether there is a directory, and then the
literal path is listed. -/
def readDirOf (kind : LbMetadata → FileKind) (path : PathBuf) :
    Except FsError (List SizedDirEntry) := do
  let inode ← resolveFollowing lb path
  let dirMd ← answer (lb.metadata inode)
  if dirMd.kind ≠ .directory then .error .notDirectory
  else
    let p ← lbPath path
    listEntries lb kind (← answer (lb.readDir p))

end Backend

/-- What a backend answers. -/
structure BtrfsOps where
  read : PathBuf → Except FsError Bytes
  readAt : PathBuf → Nat → Nat → Except FsError Bytes
  fileExists : PathBuf → Except FsError Bool
  metadata : PathBuf → Except FsError Metadata
  readDir : PathBuf → Except FsError (List SizedDirEntry)

/-- `BtrfsBackend`. -/
def btrfsBackend (lb : Lambutter) : BtrfsOps where
  read path := do readInode lb (← resolveFollowing lb path)
  readAt path offset len := do answer (lb.readFileAt (← resolveFollowing lb path) offset len)
  fileExists path := do
    match lb.resolve (← lbPath path) with
    | .ok _ => .ok true
    | .error .notFound => .ok false
    | .error other => .error (translateLbError other)
  metadata path := do
    return translateMetadata (← answer (lb.metadata (← resolveFollowing lb path)))
  readDir := readDirOf lb fun md => (translateMetadata md).kind

/-- `LvmBtrfsBackend`, which has the same operations but finds out the kind of an entry itself. -/
def lvmBtrfsBackend (lb : Lambutter) : BtrfsOps where
  read := (btrfsBackend lb).read
  readAt := (btrfsBackend lb).readAt
  fileExists := (btrfsBackend lb).fileExists
  metadata := (btrfsBackend lb).metadata
  readDir := readDirOf lb kindOf

/-! ### Chains of links -/

section Chains

variable (lb : Lambutter)

/-- A symbolic link at `p` leads to `q`. -/
def Link (p q : PathBuf) : Prop :=
  ∃ inode md bytes target, lb.Finds (utf8 p.asStr) inode md ∧ md.kind = .symlink ∧
    lb.readLink (utf8 p.asStr) = .ok bytes ∧ ofUtf8 bytes = some target ∧
    linkTarget p target = .ok q

/-- A number of links lead from one path to another. -/
inductive Chain : Nat → PathBuf → PathBuf → Prop where
  | nil (p : PathBuf) : Chain 0 p p
  | cons {n : Nat} {p q r : PathBuf} (hlink : Link lb p q) (hchain : Chain n q r) :
      Chain (n + 1) p r

variable {lb} {n m : Nat} {p q r : PathBuf}

lemma Chain.append (hpq : Chain lb m p q) (hqr : Chain lb n q r) : Chain lb (n + m) p r := by
  induction hpq with
  | nil => exact hqr
  | cons hlink _ ih => exact .cons hlink (ih hqr)

lemma Chain.split (h : Chain lb (n + m) p r) : ∃ q, Chain lb m p q := by
  induction m generalizing p with
  | zero => exact ⟨p, .nil p⟩
  | succ m ih =>
    cases h with
    | cons hlink hchain =>
      obtain ⟨q, hq⟩ := ih hchain
      exact ⟨q, .cons hlink hq⟩

lemma Chain.of_cycle (hpq : Chain lb m p q) (hcycle : Chain lb n q q) (hn : 0 < n) (k : Nat) :
    ∃ r, Chain lb k p r := by
  have hlong : ∀ i, Chain lb (i * n) q q := by
    intro i
    induction i with
    | zero => rw [Nat.zero_mul]; exact .nil q
    | succ i ih => rw [Nat.succ_mul, Nat.add_comm]; exact ih.append hcycle
  have hk : k ≤ k * n + m := (Nat.le_mul_of_pos_right k hn).trans (Nat.le_add_right _ _)
  have hchain := hpq.append (hlong k)
  rw [← Nat.sub_add_cancel hk] at hchain
  exact hchain.split

lemma lbPath_eq_ok (p : PathBuf) : lbPath p = .ok (utf8 p.asStr) :=
  if_pos p.head?_asStr

lemma answer_ok {α : Type} (a : α) : answer (.ok a) = .ok a :=
  rfl

lemma resolveLoop_link (h : Link lb p q) (turns : Nat) :
    resolveLoop lb (turns + 1) p = resolveLoop lb turns q := by
  obtain ⟨inode, md, bytes, target, hfinds, hkind, hread, htarget, hq⟩ := h
  rw [resolveLoop, lbPath_eq_ok, ok_bind, hfinds.resolve, answer_ok, ok_bind,
    hfinds.metadata, answer_ok, ok_bind, if_neg (not_not.mpr hkind), hread, answer_ok,
    ok_bind, htarget]
  dsimp only
  rw [hq]
  rfl

lemma resolveLoop_chain (h : Chain lb n p q) (turns : Nat) :
    resolveLoop lb (turns + n) p = resolveLoop lb turns q := by
  induction h with
  | nil => rfl
  | cons hlink _ ih => rw [← Nat.add_assoc, resolveLoop_link hlink, ih]

lemma resolveFollowing_eq (lb : Lambutter) (p : PathBuf) :
    resolveFollowing lb p = resolveLoop lb (maxSymlinkDepth + 1) p := by
  rw [resolveFollowing, p.fromStr_asStr]
  rfl

variable {inode : Inode} {md : LbMetadata}

lemma resolveLoop_target (h : lb.Finds (utf8 q.asStr) inode md) (hkind : md.kind ≠ .symlink)
    (turns : Nat) : resolveLoop lb (turns + 1) q = .ok inode := by
  rw [resolveLoop, lbPath_eq_ok, ok_bind, h.resolve, answer_ok, ok_bind, h.metadata,
    answer_ok, ok_bind, if_pos hkind]
  rfl

lemma resolveFollowing_chain (hn : n ≤ maxSymlinkDepth) (hchain : Chain lb n p q)
    (h : lb.Finds (utf8 q.asStr) inode md) (hkind : md.kind ≠ .symlink) :
    resolveFollowing lb p = .ok inode := by
  obtain ⟨k, hk⟩ := Nat.exists_eq_add_of_le hn
  rw [resolveFollowing_eq, show maxSymlinkDepth + 1 = k + 1 + n by omega,
    resolveLoop_chain hchain, resolveLoop_target h hkind]

lemma resolveFollowing_long (h : Chain lb (maxSymlinkDepth + 1) p q) :
    resolveFollowing lb p = .error (.unsupported "symlink_chain_too_deep") := by
  rw [resolveFollowing_eq, ← Nat.zero_add (maxSymlinkDepth + 1), resolveLoop_chain h]
  rfl

end Chains

/-! ### What the operations act on -/

section Acts

variable (lb : Lambutter)

def listTarget (target : PathBuf) (md : LbMetadata) : Except FsError (List SizedDirEntry) :=
  if md.kind = .directory then do listEntries lb kindOf (← answer (lb.readDir (utf8 target.asStr)))
  else .error .notDirectory

def EmptyDir (target : PathBuf) : Prop :=
  ∃ entries, lb.readDir (utf8 target.asStr) = .ok entries ∧
    ∀ entry ∈ entries, ofUtf8 entry.name = some ".".toList ∨ ofUtf8 entry.name = some "..".toList

/-- The operations on a path are those on what it leads to. -/
structure Acts (ops : BtrfsOps) (path target : PathBuf) (inode : Inode) (md : LbMetadata) :
    Prop where
  read : ops.read path = readInode lb inode
  metadata : ops.metadata path = .ok (translateMetadata md)
  readDir : ops.readDir path = listTarget lb target md

/-- The operations on a path report an error. -/
structure Refuses (ops : BtrfsOps) (path : PathBuf) : Prop where
  read : ∃ e, ops.read path = .error e
  metadata : ∃ e, ops.metadata path = .error e
  readDir : ∃ e, ops.readDir path = .error e

variable {lb} {n : Nat} {path target : PathBuf} {inode : Inode} {md : LbMetadata}

lemma lvmBtrfsBackend_eq (lb : Lambutter) : lvmBtrfsBackend lb = btrfsBackend lb :=
  rfl

lemma read_eq (h : resolveFollowing lb path = .ok inode) :
    (btrfsBackend lb).read path = readInode lb inode := by
  change (resolveFollowing lb path >>= readInode lb) = _
  rw [h]
  rfl

lemma metadata_eq (h : resolveFollowing lb path = .ok inode) (hmd : lb.metadata inode = .ok md) :
    (btrfsBackend lb).metadata path = .ok (translateMetadata md) := by
  change (resolveFollowing lb path >>= fun i => answer (lb.metadata i) >>= fun md =>
    pure (translateMetadata md)) = _
  rw [h, ok_bind, hmd]
  rfl

lemma readDir_eq (h : resolveFollowing lb path = .ok inode) (hmd : lb.metadata inode = .ok md) :
    (btrfsBackend lb).readDir path = listTarget lb path md := by
  change readDirOf lb kindOf path = _
  rw [readDirOf, h, ok_bind, hmd, answer_ok, ok_bind, lbPath_eq_ok, ok_bind, listTarget]
  by_cases hkind : md.kind = .directory
  · rw [if_neg (not_not.mpr hkind), if_pos hkind]
  · rw [if_pos hkind, if_neg hkind]

lemma refuses_of_error {e : FsError} (h : resolveFollowing lb path = .error e) :
    Refuses (btrfsBackend lb) path := by
  refine ⟨⟨e, ?_⟩, ⟨e, ?_⟩, ⟨e, ?_⟩⟩
  · change (resolveFollowing lb path >>= readInode lb) = _
    rw [h]
    rfl
  · change (resolveFollowing lb path >>= fun i => answer (lb.metadata i) >>= fun md =>
      pure (translateMetadata md)) = _
    rw [h]
    rfl
  · change readDirOf lb kindOf path = _
    rw [readDirOf, h]
    rfl

lemma translateLbError_ne_invalidPath (e : LbErr) (reason : Text) :
    translateLbError e ≠ .invalidPath reason := by
  rcases e with _ | _ | _ | reason | _ | _ | _ | _ | _ | _ | _ | _
  case badSuperblock => cases reason <;> nofun
  all_goals nofun

lemma listEntries_error {entries : List LbDirEntry} {e : FsError}
    (h : listEntries lb kindOf entries = .error e) : ∃ reason, e = .invalidPath reason := by
  induction entries with
  | nil => exact nomatch h
  | cons entry rest ih =>
    rw [listEntries] at h
    cases hname : ofUtf8 entry.name with
    | none =>
      rw [hname] at h
      exact ⟨_, (error.inj h).symm⟩
    | some name =>
      rw [hname] at h
      dsimp only at h
      split_ifs at h
      · exact ih h
      · cases hrest : listEntries lb kindOf rest with
        | ok entries => exact nomatch hrest ▸ h
        | error e' =>
          rw [hrest] at h
          exact ih (hrest.trans h)

lemma listEntries_eq_nil_iff {entries : List LbDirEntry} :
    listEntries lb kindOf entries = .ok [] ↔ ∀ entry ∈ entries,
      ofUtf8 entry.name = some ".".toList ∨ ofUtf8 entry.name = some "..".toList := by
  induction entries with
  | nil => exact iff_of_true rfl nofun
  | cons entry rest ih =>
    rw [listEntries, forall_mem_cons, ← ih]
    cases hname : ofUtf8 entry.name with
    | none => exact iff_of_false nofun fun h => h.1.elim nofun nofun
    | some name =>
      dsimp only
      rw [Option.some.injEq, Option.some.injEq]
      split_ifs with hdots
      · exact (and_iff_right hdots).symm
      · refine iff_of_false (fun h => ?_) fun h => hdots h.1
        cases hrest : listEntries lb kindOf rest <;> rw [hrest] at h <;> exact nomatch h

lemma listTarget_link_iff (hlb : lb.Literal) {linkInode : Inode} {linkMd : LbMetadata}
    (hlink : lb.Finds (utf8 path.asStr) linkInode linkMd) (hsymlink : linkMd.kind = .symlink)
    (htarget : lb.Finds (utf8 target.asStr) inode md) (hdir : md.kind = .directory) :
    listTarget lb path md = listTarget lb target md ↔
      lb.readDir (utf8 path.asStr) = .ok [] ∧ EmptyDir lb target := by
  obtain ⟨entries, hentries⟩ := hlb.readDir_directory _ _ _ htarget hdir
  have hlist : ∀ q, listTarget lb q md =
      answer (lb.readDir (utf8 q.asStr)) >>= listEntries lb kindOf := fun q => if_pos hdir
  have hempty : EmptyDir lb target ↔ listEntries lb kindOf entries = .ok [] := by
    rw [listEntries_eq_nil_iff]
    constructor
    · rintro ⟨_, h, hdots⟩
      rw [hentries] at h
      exact ok.inj h ▸ hdots
    · exact fun h => ⟨entries, hentries, h⟩
  rw [hempty, hlist, hlist, hentries, answer_ok, ok_bind]
  rcases hlb.readDir_symlink _ _ _ hlink hsymlink with h | ⟨e, h⟩
  · rw [h]
    exact ⟨fun h => ⟨rfl, h.symm⟩, fun h => h.2.symm⟩
  · rw [h]
    refine iff_of_false (fun heq => ?_) nofun
    have heq : listEntries lb kindOf entries = .error (translateLbError e) := heq.symm
    obtain ⟨reason, hreason⟩ := listEntries_error heq
    exact translateLbError_ne_invalidPath e reason hreason

lemma acts_iff (hlb : lb.Literal) (hn : n ≤ maxSymlinkDepth) (hchain : Chain lb n path target)
    (htarget : lb.Finds (utf8 target.asStr) inode md) (hkind : md.kind ≠ .symlink) :
    Acts lb (btrfsBackend lb) path target inode md ↔ n = 0 ∨ md.kind ≠ .directory ∨
      lb.readDir (utf8 path.asStr) = .ok [] ∧ EmptyDir lb target := by
  have hresolve := resolveFollowing_chain hn hchain htarget hkind
  have hiff : Acts lb (btrfsBackend lb) path target inode md ↔
      listTarget lb path md = listTarget lb target md := by
    rw [← readDir_eq hresolve htarget.metadata]
    exact ⟨Acts.readDir, fun h => ⟨read_eq hresolve, metadata_eq hresolve htarget.metadata, h⟩⟩
  rw [hiff]
  by_cases hdir : md.kind = .directory
  · cases hchain with
    | nil => exact iff_of_true rfl (.inl rfl)
    | cons hlink hrest =>
      obtain ⟨linkInode, linkMd, bytes, text, hfinds, hsymlink, -⟩ := hlink
      rw [listTarget_link_iff hlb hfinds hsymlink htarget hdir]
      exact ⟨fun h => .inr (.inr h), fun h =>
        (h.resolve_left (Nat.succ_ne_zero _)).resolve_left (not_not.mpr hdir)⟩
  · rw [listTarget, listTarget, if_neg hdir, if_neg hdir]
    exact iff_of_true rfl (.inr (.inl hdir))

end Acts

/-- Up to forty links are followed when a file is read and when its metadata are; a directory is
listed through a link only if both are empty. More links, and cycles, are refused. -/
theorem symlinks_iff {lb : Lambutter} (hlb : lb.Literal) {ops : BtrfsOps}
    (hops : ops ∈ [btrfsBackend lb, lvmBtrfsBackend lb]) :
    (∀ n path target inode md, n ≤ maxSymlinkDepth → Chain lb n path target →
      lb.Finds (utf8 target.asStr) inode md → md.kind ≠ .symlink →
      ops.read path = readInode lb inode ∧ ops.metadata path = .ok (translateMetadata md) ∧
      (Acts lb ops path target inode md ↔ n = 0 ∨ md.kind ≠ .directory ∨
        lb.readDir (utf8 path.asStr) = .ok [] ∧ EmptyDir lb target)) ∧
    (∀ n path target, maxSymlinkDepth < n → Chain lb n path target → Refuses ops path) ∧
    ∀ m n path target, 0 < n → Chain lb m path target → Chain lb n target target →
      Refuses ops path := by
  have hops : ops = btrfsBackend lb := by
    rcases mem_cons.mp hops with rfl | h
    · rfl
    · rw [mem_singleton.mp h, lvmBtrfsBackend_eq]
  subst hops
  refine ⟨fun n path target inode md hn hchain htarget hkind => ?_,
    fun n path target hn hchain => ?_, fun m n path target hn hchain hcycle => ?_⟩
  · have hresolve := resolveFollowing_chain hn hchain htarget hkind
    exact ⟨read_eq hresolve, metadata_eq hresolve htarget.metadata,
      acts_iff hlb hn hchain htarget hkind⟩
  · obtain ⟨k, rfl⟩ := Nat.exists_eq_add_of_le hn
    rw [Nat.add_comm] at hchain
    obtain ⟨q, hq⟩ := hchain.split
    exact refuses_of_error (resolveFollowing_long hq)
  · obtain ⟨q, hq⟩ := hchain.of_cycle hcycle hn (maxSymlinkDepth + 1)
    exact refuses_of_error (resolveFollowing_long hq)

/-! ### A directory behind a link -/

section LinkedTree

def dirPath : PathBuf := ⟨["dir"], by decide⟩

def linkPath : PathBuf := ⟨["link"], by decide⟩

def dirMd : LbMetadata := ⟨.directory, 0, 0o755⟩

def linkedTree : Lambutter where
  resolve p :=
    if p = utf8 dirPath.asStr then .ok ⟨256⟩
    else if p = utf8 linkPath.asStr then .ok ⟨257⟩
    else .error .notFound
  metadata inode :=
    if inode = ⟨256⟩ then .ok dirMd
    else if inode = ⟨257⟩ then .ok ⟨.symlink, 3, 0o777⟩
    else .ok ⟨.regular, 0, 0o644⟩
  readLink p := if p = utf8 linkPath.asStr then .ok (utf8 "dir") else .error .notASymlink
  readFileAt _ _ _ := .ok []
  readDir p :=
    if p = utf8 dirPath.asStr then .ok [⟨utf8 "file", 258⟩] else .error .notFound

lemma linkedTree_literal : linkedTree.Literal where
  readDir_directory path inode md h hkind := by
    by_cases hdir : path = utf8 dirPath.asStr
    · exact ⟨_, if_pos hdir⟩
    · have hresolve := h.resolve
      simp only [linkedTree, if_neg hdir] at hresolve
      split_ifs at hresolve
      obtain rfl := ok.inj hresolve
      obtain rfl := ok.inj h.metadata
      exact nomatch hkind
  readDir_symlink path inode md h hkind := by
    refine .inr ⟨.notFound, if_neg ?_⟩
    rintro rfl
    obtain rfl := ok.inj h.resolve
    obtain rfl := ok.inj h.metadata
    exact nomatch hkind

lemma linkedTree_dir : linkedTree.Finds (utf8 dirPath.asStr) ⟨256⟩ dirMd :=
  ⟨rfl, rfl⟩

lemma linkedTree_link : Link linkedTree linkPath dirPath :=
  ⟨⟨257⟩, ⟨.symlink, 3, 0o777⟩, utf8 "dir", "dir", ⟨rfl, rfl⟩, rfl, rfl, ofUtf8_utf8 _, by decide⟩

lemma linkedTree_chain : Chain linkedTree 1 linkPath dirPath :=
  .cons linkedTree_link (.nil _)

end LinkedTree

/-- The metadata of the directory are found through the link, and the directory itself is listed. -/
theorem symlinks_iff_linkedTree :
    linkedTree.Literal ∧
      (lvmBtrfsBackend linkedTree).metadata linkPath = .ok (translateMetadata dirMd) ∧
      Acts linkedTree (lvmBtrfsBackend linkedTree) dirPath dirPath ⟨256⟩ dirMd := by
  obtain ⟨h, -⟩ := symlinks_iff linkedTree_literal (mem_cons_of_mem _ (mem_singleton_self _))
  obtain ⟨-, hmetadata, -⟩ :=
    h 1 linkPath dirPath _ _ (by decide) linkedTree_chain linkedTree_dir nofun
  obtain ⟨-, -, hacts⟩ := h 0 dirPath dirPath _ _ (Nat.zero_le _) (.nil _) linkedTree_dir nofun
  exact ⟨linkedTree_literal, hmetadata, hacts.mpr (.inl rfl)⟩

/-- One link leads to a directory with a file, and neither backend lists the file. -/
theorem symlinks_linkedTree :
    linkedTree.Literal ∧ Chain linkedTree 1 linkPath dirPath ∧
    linkedTree.Finds (utf8 dirPath.asStr) ⟨256⟩ dirMd ∧
    ∀ ops ∈ [btrfsBackend linkedTree, lvmBtrfsBackend linkedTree],
      ops.readDir dirPath = .ok [⟨⟨"file", .regular⟩, 0⟩] ∧
      ops.readDir linkPath = .error .notFound ∧
      ¬ Acts linkedTree ops linkPath dirPath ⟨256⟩ dirMd := by
  refine ⟨linkedTree_literal, linkedTree_chain, linkedTree_dir, ?_⟩
  have hfile : listTarget linkedTree dirPath dirMd = .ok [⟨⟨"file", .regular⟩, 0⟩] := by
    have hname : ofUtf8 (utf8 "file") = some "file" := ofUtf8_utf8 _
    change listEntries linkedTree kindOf [⟨utf8 "file", 258⟩] = _
    rw [listEntries, hname]
    rfl
  have hdir : (btrfsBackend linkedTree).readDir dirPath = .ok [⟨⟨"file", .regular⟩, 0⟩] :=
    (readDir_eq (resolveFollowing_chain (Nat.zero_le _) (.nil _) linkedTree_dir nofun) rfl).trans
      hfile
  have hlink : (btrfsBackend linkedTree).readDir linkPath = .error .notFound := by
    rw [readDir_eq (resolveFollowing_chain (by decide) linkedTree_chain linkedTree_dir nofun) rfl]
    rfl
  have hnot : ¬ Acts linkedTree (btrfsBackend linkedTree) linkPath dirPath ⟨256⟩ dirMd := by
    intro h
    exact nomatch hlink.symm.trans (h.readDir.trans hfile)
  intro ops hops
  rcases mem_cons.mp hops with rfl | hops
  · exact ⟨hdir, hlink, hnot⟩
  · obtain rfl := mem_singleton.mp hops
    exact ⟨hdir, hlink, hnot⟩

end LamBoot
