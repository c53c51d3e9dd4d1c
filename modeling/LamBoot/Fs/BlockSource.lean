import LamBoot.Library.Checked
import LamBoot.Library.Stateful
import LamBoot.TrustEvent

/-!
# Block sources

The byte sources of `block_source.rs`: a disk that the firmware reads in whole blocks, and a file of
another file system. Both have a cursor and may read less than asked for. `SourceReader` makes them
random access.
-/

namespace LamBoot

open List Bytes Stateful

/-! ### Sources and readers -/

inductive SeekFrom where
  | start (x : UInt64)
  | fromEnd (x : Int64)
  | current (x : Int64)

/-- `BlockSource`, with its `Read` and `Seek`. A read takes the size of the buffer and gives the
bytes that it has put there. -/
structure BlockSource (ε σ : Type) where
  seek : SeekFrom → EStateM ε σ Nat
  read : Nat → EStateM ε σ Bytes
  debug : ε → Text

structure SourceReaderError where
  message : Text
deriving DecidableEq, Repr

section Reader

variable {ε σ : Type} (source : BlockSource ε σ)

/-- The loop of `fill_at`, with `left` bytes still to read. -/
def fillLoop (left : Nat) : EStateM SourceReaderError σ Bytes :=
  if _hleft : left = 0 then pure []
  else do
    let got ← EStateM.adaptExcept (fun e => ⟨"read: " ++ source.debug e⟩) (source.read left)
    if _hgot : got.length = 0 then throw ⟨"EOF before read completed"⟩
    else do
      let rest ← fillLoop (left - got.length)
      return got ++ rest
termination_by left
decreasing_by omega

/-- `SourceReader::fill_at`, for a buffer of `len` bytes. -/
def fillAt (offset : UInt64) (len : Nat) : EStateM SourceReaderError σ Bytes :=
  if len = 0 then pure []
  else do
    let _ ← EStateM.adaptExcept (fun e => ⟨"seek: " ++ source.debug e⟩)
      (source.seek (.start offset))
    fillLoop source len

/-- A use of a source. -/
inductive SourceOp where
  | seek (pos : SeekFrom)
  | read (len : Nat)
  | fillAt (offset : UInt64) (len : Nat)

def SourceOp.after : SourceOp → σ → σ
  | .seek pos => final (source.seek pos)
  | .read len => final (source.read len)
  | .fillAt offset len => final (LamBoot.fillAt source offset len)

def afterOps (ops : List SourceOp) (s : σ) : σ :=
  ops.foldl (fun s op => op.after source s) s

end Reader

/-- Where a seek goes from a position in a source of the given length. The texts are those of its
errors. -/
def seekTarget (tooLong : Text) (len position : Nat) : SeekFrom → Except Text Nat
  | .start x => .ok x.toNat
  | .fromEnd x => fromSigned tooLong "seek-from-end overflow" "seek-from-end negative" len x
  | .current x =>
    fromSigned "position overflows i64" "seek-from-current overflow" "seek-from-current negative"
      position x
where
  fromSigned (tooLong overflow negative : Text) (base : Nat) (x : Int64) : Except Text Nat :=
    if 2 ^ 63 ≤ base then .error tooLong
    else if (2 ^ 63 : Int) ≤ base + x.toInt then .error overflow
    else if base + x.toInt < 0 then .error negative
    else .ok (base + x.toInt).toNat

section Seek

variable {ε σ : Type} (tooLong : Text) (err : Text → ε) (len position : σ → Nat)
  (moveTo : Nat → σ → σ)

def seekCursor (pos : SeekFrom) : EStateM ε σ Nat := do
  let s ← get
  match seekTarget tooLong (len s) (position s) pos with
  | .error message => throw (err message)
  | .ok new =>
    set (moveTo new s)
    return new

variable {tooLong err len position moveTo} {pos : SeekFrom} {s : σ}

lemma seekCursor_of_error {message : Text}
    (h : seekTarget tooLong (len s) (position s) pos = .error message) :
    seekCursor tooLong err len position moveTo pos s = .error (err message) s := by
  refine (bind_of_ok rfl).trans ?_
  rw [h]
  rfl

lemma seekCursor_of_ok {new : Nat} (h : seekTarget tooLong (len s) (position s) pos = .ok new) :
    seekCursor tooLong err len position moveTo pos s = .ok new (moveTo new s) := by
  refine (bind_of_ok rfl).trans ?_
  rw [h]
  rfl

lemma eq_of_seekCursor_error {e : ε} {t : σ}
    (h : seekCursor tooLong err len position moveTo pos s = .error e t) : t = s := by
  cases htarget : seekTarget tooLong (len s) (position s) pos with
  | error message =>
    rw [seekCursor_of_error htarget] at h
    exact (EStateM.Result.error.inj h).2.symm
  | ok new =>
    rw [seekCursor_of_ok htarget] at h
    cases h

lemma final_seekCursor {P : σ → Prop} (hs : P s) (hmove : ∀ new, P (moveTo new s)) :
    P (final (seekCursor tooLong err len position moveTo pos) s) := by
  cases htarget : seekTarget tooLong (len s) (position s) pos with
  | error message => simpa only [final, seekCursor_of_error htarget] using hs
  | ok new => simpa only [final, seekCursor_of_ok htarget] using hmove new

end Seek

/-! ### Disks -/

/-- A disk or partition of the firmware, with its content. `read_blocks` serves the requests that
are within it and of whole blocks. -/
structure BlockIo where
  mediaId : UInt32
  blockSize : Nat
  lastBlock : Nat
  content : Bytes
  readBlocks : UInt32 → Nat → Nat → Option Bytes
  blockSize_pos : 0 < blockSize
  length_content : content.length = (lastBlock + 1) * blockSize
  fits : content.length < 2 ^ 64
  readBlocks_eq : ∀ first count, (first + count) * blockSize ≤ content.length →
    readBlocks mediaId first (count * blockSize) =
      some (content.part (first * blockSize) (count * blockSize))

/-- The state of a `BlockIoSource`, with the requests it has made: the first block and the number of
bytes. -/
structure BlockIoSource where
  mediaId : UInt32
  blockSize : Nat
  position : Nat
  mediaLen : Nat
  requests : List (Nat × Nat)

structure BlockIoError where
  message : Text

def checkedAdd (m n : Nat) : Option Nat :=
  if m + n < 2 ^ 64 then some (m + n) else none

def checkedMul (m n : Nat) : Option Nat :=
  if m * n < 2 ^ 64 then some (m * n) else none

/-- The first block, the number of bytes and the offset in them that cover a range of bytes. -/
def computeAlignedRead (startByte dstLen blockSize : Nat) : Option (Nat × Nat × Nat) :=
  if dstLen = 0 ∨ blockSize = 0 then none
  else do
    let firstLba := startByte / blockSize
    let endByte ← checkedAdd startByte dstLen
    let lastLba := (endByte - 1) / blockSize
    let alignedBlocks := lastLba - firstLba + 1
    let alignedLen ← checkedMul alignedBlocks blockSize
    let intra := startByte - firstLba * blockSize
    if alignedLen < (← checkedAdd intra dstLen) then none
    else some (firstLba, alignedLen, intra)

namespace BlockIoSource

variable (io : BlockIo)

def fromBlockIo : Except Text BlockIoSource :=
  if io.blockSize = 0 then .error "block_size=0"
  else .ok {
    mediaId := io.mediaId
    blockSize := io.blockSize
    position := 0
    mediaLen := Checked.saturatingMul (Checked.saturatingAdd io.lastBlock 1) io.blockSize
    requests := [] }

def read (len : Nat) : EStateM BlockIoError BlockIoSource Bytes := do
  let s ← get
  let remaining := s.mediaLen - s.position
  if len = 0 ∨ remaining = 0 then return []
  else
    let want := min len remaining
    match computeAlignedRead s.position want s.blockSize with
    | none => throw ⟨"alignment-compute overflow"⟩
    | some (firstLba, alignedLen, intra) =>
      set { s with requests := (firstLba, alignedLen) :: s.requests }
      match io.readBlocks s.mediaId firstLba alignedLen with
      | none => throw ⟨"BlockIO::read_blocks failed"⟩
      | some buf =>
        modify fun s => { s with position := Checked.saturatingAdd s.position want }
        return buf.part intra want

def moveTo (new : Nat) (s : BlockIoSource) : BlockIoSource :=
  { s with position := new }

def seek : SeekFrom → EStateM BlockIoError BlockIoSource Nat :=
  seekCursor "media_len overflows i64" BlockIoError.mk mediaLen position moveTo

/-- `#[derive(Debug)]` of the error. -/
def debugError (e : BlockIoError) : Text :=
  "BlockIoError(" ++ debugStr e.message ++ [')']

def source : BlockSource BlockIoError BlockIoSource :=
  ⟨seek, read io, debugError⟩

end BlockIoSource

/-! ### Files -/

/-- An open file. Reading a range gives a prefix of it, which may differ from call to call and is
not empty before the end of the file. -/
structure BackendFile where
  content : Bytes
  readAt : Nat → Nat → Nat → Option Bytes
  fits : content.length < 2 ^ 64
  readAt_short : ∀ call offset len, 0 < len → offset < content.length →
    ∃ got, readAt call offset len = some got ∧ got ≠ [] ∧ got <+: content.part offset len

/-- The state of a `FileBlockSource`, with the number of calls of the backend. -/
structure FileBlockSource where
  len : Nat
  position : Nat
  calls : Nat

structure FileSourceError where
  message : Text

namespace FileBlockSource

variable (file : BackendFile)

/-- `new`, which takes the length from the metadata of the file. -/
def new : FileBlockSource :=
  ⟨file.content.length, 0, 0⟩

def read (len : Nat) : EStateM FileSourceError FileBlockSource Bytes := do
  let s ← get
  let remaining := s.len - s.position
  if len = 0 ∨ remaining = 0 then return []
  else
    let want := min len remaining
    set { s with calls := s.calls + 1 }
    match file.readAt s.calls s.position want with
    | none => throw ⟨"holding read_at failed"⟩
    | some got =>
      let n := min got.length len
      modify fun s => { s with position := Checked.saturatingAdd s.position n }
      return got.take n

def moveTo (new : Nat) (s : FileBlockSource) : FileBlockSource :=
  { s with position := new }

def seek : SeekFrom → EStateM FileSourceError FileBlockSource Nat :=
  seekCursor "len overflows i64" FileSourceError.mk len position moveTo

def debugError (e : FileSourceError) : Text :=
  "FileSourceError(" ++ debugStr e.message ++ [')']

def source : BlockSource FileSourceError FileBlockSource :=
  ⟨seek, read file, debugError⟩

end FileBlockSource

/-! ### Views -/

/-- The source is a view of a byte string: in a valid state, a read gives a part of the content at
the position, which is empty only at the end. -/
structure ByteView {ε σ : Type} (source : BlockSource ε σ) (content : Bytes) (Valid : σ → Prop)
    (pos : σ → Nat) : Prop where
  seek_start : ∀ {s} x, Valid s →
    ∃ t, source.seek (.start x) s = .ok x.toNat t ∧ Valid t ∧ pos t = x.toNat
  read_inside : ∀ {s len}, Valid s → 0 < len → pos s < content.length →
    ∃ got t, source.read len s = .ok got t ∧ got ≠ [] ∧ got <+: content.part (pos s) len ∧
      Valid t ∧ pos t = pos s + got.length
  read_end : ∀ {s} len, Valid s → content.length ≤ pos s →
    ∃ t, source.read len s = .ok [] t ∧ Valid t
  seek_valid : ∀ {s} p, Valid s → Valid (final (source.seek p) s)
  read_empty : ∀ {s}, source.read 0 s = .ok [] s

namespace ByteView

variable {ε σ : Type} {source : BlockSource ε σ} {content : Bytes} {Valid : σ → Prop}
  {pos : σ → Nat} {s : σ}

lemma adaptExcept_of_ok {ε' α : Type} {f : ε → ε'} {x : EStateM ε σ α} {a : α} {t : σ}
    (h : x s = .ok a t) : EStateM.adaptExcept f x s = .ok a t := by
  rw [EStateM.adaptExcept, h]

lemma fillLoop_inside (hview : ByteView source content Valid pos) {left : Nat} (hs : Valid s)
    (h : pos s + left ≤ content.length) :
    ∃ t, fillLoop source left s = .ok (content.part (pos s) left) t ∧ Valid t := by
  induction left using Nat.strong_induction_on generalizing s with
  | _ left ih =>
    rw [fillLoop]
    by_cases hleft : left = 0
    · subst hleft
      exact ⟨s, by simp [part, pure, EStateM.pure], hs⟩
    obtain ⟨got, t, hread, hne, hprefix, ht, hpos⟩ :=
      hview.read_inside hs (Nat.pos_of_ne_zero hleft) (by omega)
    have hgot : got.length ≠ 0 := fun h0 => hne (length_eq_zero_iff.mp h0)
    have hle : got.length ≤ left := hprefix.length_le.trans (length_take_le _ _)
    obtain ⟨u, hrest, hu⟩ := ih (left - got.length) (by omega) ht (by omega)
    refine ⟨u, ?_, hu⟩
    rw [dif_neg hleft, bind_of_ok (adaptExcept_of_ok hread), dif_neg hgot, bind_of_ok hrest]
    have hparts := part_add content (pos s) got.length (left - got.length)
    rw [Nat.add_sub_cancel' hle, ← eq_part_of_prefix hprefix, ← hpos] at hparts
    rw [hparts]
    rfl

lemma fillLoop_outside (hview : ByteView source content Valid pos) {left : Nat} (hs : Valid s)
    (hleft : left ≠ 0) (h : content.length < pos s + left) :
    ∃ t, fillLoop source left s = .error ⟨"EOF before read completed"⟩ t ∧ Valid t := by
  induction left using Nat.strong_induction_on generalizing s with
  | _ left ih =>
    rw [fillLoop, dif_neg hleft]
    by_cases hpos : pos s < content.length
    · obtain ⟨got, t, hread, hne, hprefix, ht, hpos'⟩ :=
        hview.read_inside hs (Nat.pos_of_ne_zero hleft) hpos
      have hgot : got.length ≠ 0 := fun h0 => hne (length_eq_zero_iff.mp h0)
      have hle : got.length ≤ left ∧ pos s + got.length ≤ content.length := by
        have hlen := hprefix.length_le
        simp only [part, length_take, length_drop] at hlen
        omega
      obtain ⟨u, hrest, hu⟩ := ih (left - got.length) (by omega) ht (by omega) (by omega)
      refine ⟨u, ?_, hu⟩
      rw [bind_of_ok (adaptExcept_of_ok hread), dif_neg hgot, bind_of_error hrest]
    · obtain ⟨t, hread, ht⟩ := hview.read_end left hs (not_lt.mp hpos)
      refine ⟨t, ?_, ht⟩
      rw [bind_of_ok (adaptExcept_of_ok hread)]
      rfl

lemma fillAt_eq (hview : ByteView source content Valid pos) (hs : Valid s) (offset : UInt64)
    {len : Nat} (hlen : 0 < len) :
    value? (fillAt source offset len) s = (if offset.toNat + len ≤ content.length then
      some (content.part offset.toNat len) else none) ∧
      Valid (final (fillAt source offset len) s) := by
  obtain ⟨t, hseek, ht, hpos⟩ := hview.seek_start offset hs
  have hrun : fillAt source offset len s = fillLoop source len t := by
    rw [fillAt, if_neg (by omega), bind_of_ok (adaptExcept_of_ok hseek)]
  rw [← hpos]
  split_ifs with hinside
  · obtain ⟨u, hfill, hu⟩ := hview.fillLoop_inside ht hinside
    simpa only [value?, final, hrun, hfill, true_and] using hu
  · obtain ⟨u, hfill, hu⟩ := hview.fillLoop_outside ht (by omega) (not_le.mp hinside)
    simpa only [value?, final, hrun, hfill, true_and] using hu

lemma valid_after (hview : ByteView source content Valid pos) (hs : Valid s) (op : SourceOp) :
    Valid (op.after source s) := by
  cases op with
  | seek p => exact hview.seek_valid p hs
  | read len =>
    rcases Nat.eq_zero_or_pos len with rfl | hlen
    · simpa only [SourceOp.after, final, hview.read_empty] using hs
    · by_cases hpos : pos s < content.length
      · obtain ⟨got, t, hread, -, -, ht, -⟩ := hview.read_inside hs hlen hpos
        simpa only [SourceOp.after, final, hread] using ht
      · obtain ⟨t, hread, ht⟩ := hview.read_end len hs (not_lt.mp hpos)
        simpa only [SourceOp.after, final, hread] using ht
  | fillAt offset len =>
    rcases Nat.eq_zero_or_pos len with rfl | hlen
    · exact hs
    · exact (hview.fillAt_eq hs offset hlen).2

lemma valid_afterOps (hview : ByteView source content Valid pos) (hs : Valid s)
    (ops : List SourceOp) : Valid (afterOps source ops s) := by
  induction ops generalizing s with
  | nil => exact hs
  | cons op ops ih => exact ih (hview.valid_after hs op)

end ByteView

/-! ### The disk as a view -/

section Disk

variable {io : BlockIo}

def InRange (io : BlockIo) (request : Nat × Nat) : Prop :=
  request.1 * io.blockSize + request.2 ≤ io.content.length ∧ io.blockSize ∣ request.2

structure BlockIoSource.Valid (io : BlockIo) (s : BlockIoSource) : Prop where
  mediaId : s.mediaId = io.mediaId
  blockSize : s.blockSize = io.blockSize
  mediaLen : s.mediaLen = io.content.length
  requests : ∀ request ∈ s.requests, InRange io request

lemma computeAlignedRead_eq {position want : Nat} (hwant : 0 < want)
    (h : position + want ≤ io.content.length) :
    ∃ first count intra, computeAlignedRead position want io.blockSize =
        some (first, count * io.blockSize, intra) ∧
      (first + count) * io.blockSize ≤ io.content.length ∧
      first * io.blockSize + intra = position ∧ intra + want ≤ count * io.blockSize := by
  have hpos := io.blockSize_pos
  have hfits := io.fits
  set first := position / io.blockSize with hfirst
  set last := (position + want - 1) / io.blockSize with hlast
  have hfirst_le : first * io.blockSize ≤ position := Nat.div_mul_le_self _ _
  have hlast_lt : position + want - 1 < last * io.blockSize + io.blockSize := by
    have hlt := Nat.lt_div_mul_add (a := position + want - 1) hpos
    rwa [← hlast] at hlt
  have hle : first ≤ last := Nat.div_le_div_right (by omega)
  have hmono : first * io.blockSize ≤ last * io.blockSize := Nat.mul_le_mul_right _ hle
  have hend : last * io.blockSize + io.blockSize ≤ io.content.length := by
    have hblock : last < io.lastBlock + 1 := by
      rw [hlast, Nat.div_lt_iff_lt_mul hpos, ← io.length_content]
      omega
    rw [io.length_content, ← Nat.succ_mul]
    exact Nat.mul_le_mul_right _ hblock
  have hcount : (last - first + 1) * io.blockSize =
      last * io.blockSize - first * io.blockSize + io.blockSize := by
    rw [Nat.add_mul, Nat.sub_mul, Nat.one_mul]
  refine ⟨first, last - first + 1, position - first * io.blockSize, ?_, ?_, by omega, by omega⟩
  · have hendByte : checkedAdd position want = some (position + want) := if_pos (by omega)
    have hbytes : checkedMul (last - first + 1) io.blockSize =
        some ((last - first + 1) * io.blockSize) := if_pos (by omega)
    have hintra : checkedAdd (position - first * io.blockSize) want =
        some (position - first * io.blockSize + want) := if_pos (by omega)
    rw [computeAlignedRead, if_neg (by omega)]
    simp only [hendByte, ← hfirst, ← hlast, hbytes, hintra, Option.bind_eq_bind, Option.bind_some]
    rw [if_neg (by omega)]
  · rw [show first + (last - first + 1) = last + 1 by omega, Nat.succ_mul]
    exact hend

lemma fromBlockIo_eq (io : BlockIo) :
    ∃ s, BlockIoSource.fromBlockIo io = .ok s ∧ s.Valid io := by
  have hpos := io.blockSize_pos
  have hfits := io.fits
  have hlen := io.length_content
  have hblocks : io.lastBlock + 1 ≤ (io.lastBlock + 1) * io.blockSize :=
    Nat.le_mul_of_pos_right _ hpos
  have hword : Checked.wordSize = 2 ^ 64 := rfl
  have hadd : Checked.saturatingAdd io.lastBlock 1 = io.lastBlock + 1 := by
    unfold Checked.saturatingAdd
    omega
  refine ⟨_, if_neg hpos.ne', rfl, rfl, ?_, nofun⟩
  dsimp only
  rw [hadd, hlen]
  unfold Checked.saturatingMul
  omega

namespace BlockIoSource

variable {s : BlockIoSource}

lemma Valid.moveTo (hs : s.Valid io) (new : Nat) : (s.moveTo new).Valid io :=
  ⟨hs.mediaId, hs.blockSize, hs.mediaLen, hs.requests⟩

lemma read_of_done (io : BlockIo) {len : Nat} (h : len = 0 ∨ s.mediaLen - s.position = 0) :
    read io len s = .ok [] s := by
  refine (bind_of_ok rfl).trans ?_
  dsimp only
  rw [if_pos h]
  rfl

lemma read_of_blocks {len first alignedLen intra : Nat} {buf : Bytes}
    (h : ¬ (len = 0 ∨ s.mediaLen - s.position = 0))
    (hcompute : computeAlignedRead s.position (min len (s.mediaLen - s.position)) s.blockSize =
      some (first, alignedLen, intra))
    (hbuf : io.readBlocks s.mediaId first alignedLen = some buf) :
    read io len s = .ok (buf.part intra (min len (s.mediaLen - s.position)))
      { s with
        requests := (first, alignedLen) :: s.requests
        position := Checked.saturatingAdd s.position (min len (s.mediaLen - s.position)) } := by
  refine (bind_of_ok rfl).trans ?_
  dsimp only
  rw [if_neg h, hcompute]
  refine (bind_of_ok rfl).trans ?_
  rw [hbuf]
  rfl

lemma read_inside (hs : s.Valid io) {len : Nat} (hlen : 0 < len)
    (hpos : s.position < io.content.length) :
    ∃ got t, read io len s = .ok got t ∧ got ≠ [] ∧ got <+: io.content.part s.position len ∧
      t.Valid io ∧ t.position = s.position + got.length := by
  have hmedia := hs.mediaLen
  have hfits := io.fits
  have hword : Checked.wordSize = 2 ^ 64 := rfl
  set want := min len (s.mediaLen - s.position) with hwant
  have hinside : s.position + want ≤ io.content.length := by omega
  obtain ⟨first, count, intra, hcompute, hend, hstart, hcover⟩ :=
    computeAlignedRead_eq (by omega) hinside
  have hbuf := io.readBlocks_eq first count hend
  rw [← hs.mediaId] at hbuf
  rw [← hs.blockSize] at hcompute hstart hcover hbuf
  have hread := read_of_blocks (by omega) hcompute hbuf
  have hgot : ((io.content.part (first * s.blockSize) (count * s.blockSize)).part intra want) =
      io.content.part s.position want := by rw [part_part hcover, hstart]
  have hlength : (io.content.part s.position want).length = want := length_part (by omega)
  refine ⟨_, _, hread, ?_, ?_, ⟨hs.mediaId, hs.blockSize, hs.mediaLen, ?_⟩, ?_⟩
  · rw [← hwant, hgot]
    exact ne_nil_of_length_pos (by omega)
  · rw [← hwant, hgot]
    exact part_prefix_part (by omega)
  · rw [hs.blockSize]
    refine forall_mem_cons.mpr ⟨⟨?_, Nat.dvd_mul_left _ _⟩, hs.requests⟩
    rwa [Nat.add_mul] at hend
  · rw [← hwant, hgot, hlength]
    change Checked.saturatingAdd s.position want = s.position + want
    unfold Checked.saturatingAdd
    omega

end BlockIoSource

lemma byteView_blockIoSource (io : BlockIo) :
    ByteView (BlockIoSource.source io) io.content (BlockIoSource.Valid io)
      BlockIoSource.position where
  seek_start {s} x hs := ⟨s.moveTo x.toNat, rfl, hs.moveTo x.toNat, rfl⟩
  read_inside hs hlen hpos := BlockIoSource.read_inside hs hlen hpos
  read_end _ hs hpos :=
    ⟨_, BlockIoSource.read_of_done io (.inr (Nat.sub_eq_zero_of_le (hs.mediaLen ▸ hpos))), hs⟩
  seek_valid _ hs := final_seekCursor hs hs.moveTo
  read_empty := BlockIoSource.read_of_done io (.inl rfl)

end Disk

/-! ### The file as a view -/

section File

variable {file : BackendFile}

structure FileBlockSource.Valid (file : BackendFile) (s : FileBlockSource) : Prop where
  len : s.len = file.content.length

namespace FileBlockSource

variable {s : FileBlockSource}

lemma read_of_done (file : BackendFile) {len : Nat} (h : len = 0 ∨ s.len - s.position = 0) :
    read file len s = .ok [] s := by
  refine (bind_of_ok rfl).trans ?_
  dsimp only
  rw [if_pos h]
  rfl

lemma read_of_got {len : Nat} {got : Bytes} (h : ¬ (len = 0 ∨ s.len - s.position = 0))
    (hgot : file.readAt s.calls s.position (min len (s.len - s.position)) = some got) :
    read file len s = .ok (got.take (min got.length len))
      { s with
        calls := s.calls + 1
        position := Checked.saturatingAdd s.position (min got.length len) } := by
  refine (bind_of_ok rfl).trans ?_
  dsimp only
  rw [if_neg h]
  refine (bind_of_ok rfl).trans ?_
  rw [hgot]
  rfl

lemma read_inside (hs : s.Valid file) {len : Nat} (hlen : 0 < len)
    (hpos : s.position < file.content.length) :
    ∃ got t, read file len s = .ok got t ∧ got ≠ [] ∧ got <+: file.content.part s.position len ∧
      t.Valid file ∧ t.position = s.position + got.length := by
  have hfile := hs.len
  have hfits := file.fits
  have hword : Checked.wordSize = 2 ^ 64 := rfl
  set want := min len (s.len - s.position) with hwant
  obtain ⟨got, hgot, hne, hprefix⟩ :=
    file.readAt_short s.calls s.position want (by omega) hpos
  have hle : got.length ≤ want := hprefix.length_le.trans (length_take_le _ _)
  have hmin : min got.length len = got.length := by omega
  have hread := read_of_got (by omega) hgot
  rw [hmin, take_length] at hread
  refine ⟨got, _, hread, hne, hprefix.trans (part_prefix_part (by omega)), ⟨hs.len⟩, ?_⟩
  have hend : s.position + got.length ≤ file.content.length := by omega
  change Checked.saturatingAdd s.position got.length = s.position + got.length
  unfold Checked.saturatingAdd
  omega

end FileBlockSource

lemma byteView_fileBlockSource (file : BackendFile) :
    ByteView (FileBlockSource.source file) file.content (FileBlockSource.Valid file)
      FileBlockSource.position where
  seek_start {s} x hs := ⟨s.moveTo x.toNat, rfl, ⟨hs.len⟩, rfl⟩
  read_inside hs hlen hpos := FileBlockSource.read_inside hs hlen hpos
  read_end _ hs hpos :=
    ⟨_, FileBlockSource.read_of_done file (.inr (Nat.sub_eq_zero_of_le (hs.len ▸ hpos))), hs⟩
  seek_valid _ hs := final_seekCursor hs fun _ => ⟨hs.len⟩
  read_empty := FileBlockSource.read_of_done file (.inl rfl)

end File

/-- What random access over a source gives after any uses of it: exactly the ranges inside the
content, and a seek that fails leaves the state as it was. -/
def Serves {ε σ : Type} (source : BlockSource ε σ) (content : Bytes) (s : σ) : Prop :=
  (∀ offset len, 0 < len → value? (fillAt source offset len) s =
    if offset.toNat + len ≤ content.length then some (content.part offset.toNat len) else none) ∧
  ∀ pos e t, source.seek pos s = .error e t → t = s

/-- Both sources are byte views, after any history of seeks and reads. No request to the firmware
reaches past the last block. -/
theorem sources_serve (io : BlockIo) (file : BackendFile) (ops : List SourceOp) :
    (∃ start, BlockIoSource.fromBlockIo io = .ok start ∧
      let s := afterOps (BlockIoSource.source io) ops start
      Serves (BlockIoSource.source io) io.content s ∧
        ∀ request ∈ s.requests, InRange io request) ∧
    let s := afterOps (FileBlockSource.source file) ops (FileBlockSource.new file)
    Serves (FileBlockSource.source file) file.content s := by
  have hdisk := byteView_blockIoSource io
  have hfile := byteView_fileBlockSource file
  constructor
  · obtain ⟨start, hstart, hvalid⟩ := fromBlockIo_eq io
    have hs := hdisk.valid_afterOps hvalid ops
    refine ⟨start, hstart, ⟨fun offset len hlen => (hdisk.fillAt_eq hs offset hlen).1, ?_⟩,
      hs.requests⟩
    exact fun pos e t h => eq_of_seekCursor_error h
  · have hs := hfile.valid_afterOps (s := FileBlockSource.new file) ⟨rfl⟩ ops
    refine ⟨fun offset len hlen => (hfile.fillAt_eq hs offset hlen).1, ?_⟩
    exact fun pos e t h => eq_of_seekCursor_error h

-- there are disks and files, of any content that fits
example : ∃ io : BlockIo, io.content = [1, 2, 3, 4] :=
  ⟨{ mediaId := 0
     blockSize := 2
     lastBlock := 1
     content := [1, 2, 3, 4]
     readBlocks := fun _ first len => some (part [1, 2, 3, 4] (first * 2) len)
     blockSize_pos := by decide
     length_content := rfl
     fits := by decide
     readBlocks_eq := fun _ _ _ => rfl }, rfl⟩

example (content : Bytes) (h : content.length < 2 ^ 64) :
    ∃ file : BackendFile, file.content = content :=
  ⟨{ content
     readAt := fun _ offset _ => some (content.part offset 1)
     fits := h
     readAt_short := fun _ offset len hlen hoffset =>
      ⟨_, rfl, ne_nil_of_length_pos (by rw [length_part (by omega)]; decide),
        part_prefix_part hlen⟩ }, rfl⟩

end LamBoot
