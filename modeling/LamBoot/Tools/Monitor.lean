import LamBoot.Library.Digits
import LamBoot.Library.LittleEndian
import LamBoot.Library.Search
import LamBoot.Library.Selection
import LamBoot.Library.Utf16

/-!
# The monitor's search for variables

`extract_uefi_vars` of `tools/lamboot-monitor.py` where `virt-fw-vars` is not at hand. It looks for
the vendor GUID, for the names of the variables near it, and takes what stands behind a name for the
value.
-/

namespace LamBoot.Monitor

open List Bytes Text Search

/-! ### The search -/

def hexDigit (c : Char) : Nat :=
  if c.isDigit then c.toNat - 48 else c.toLower.toNat - 87

/-- `int(s, 16)`. -/
def hexNat (s : Text) : Nat :=
  s.foldl (fun n c => 16 * n + hexDigit c) 0

/-- `bytes.fromhex`. -/
def fromHex : Text → Bytes
  | high :: low :: s => UInt8.ofNat (16 * hexDigit high + hexDigit low) :: fromHex s
  | _ => []

def guidToBytes (guid : Text) : Bytes :=
  match guid.splitOn '-' with
  | a :: b :: c :: d :: e :: _ =>
    leBytes 4 (hexNat a) ++ leBytes 2 (hexNat b) ++ leBytes 2 (hexNat c) ++ fromHex d ++ fromHex e
  | _ => []

def lambootGuid : Bytes :=
  guidToBytes "4c414d42-4f4f-5400-0000-000000000001"

inductive VarType
  | u8
  | u32
  | utf8
  | timestamp
deriving DecidableEq, Repr

/-- A value of the result. Of a string there are the bytes, which are decoded as UTF-8 with a
replacement for what is not. -/
inductive Value
  | u8 (n : UInt8)
  | u32 (n : Nat)
  | utf8 (bytes : Bytes)
  | timestamp (text : Text)
deriving DecidableEq, Repr

structure Variable where
  name : Text
  type : VarType
deriving DecidableEq, Repr

def lambootVariables : List Variable :=
  [⟨"LamBootState", .u8⟩, ⟨"LamBootCrashCount", .u8⟩, ⟨"LamBootLastEntry", .utf8⟩,
    ⟨"LamBootTimestamp", .timestamp⟩, ⟨"LamBootVersion", .u32⟩]

def Variable.nameBytes (v : Variable) : Bytes :=
  (utf16 v.name).flatMap le16

def year (raw : Bytes) : Nat :=
  leNat (raw.take 2)

/-- `YYYY-MM-DDTHH:MM:SS` of the eight bytes of a timestamp, of which the last is not used. -/
def formatTimestamp (raw : Bytes) : Text :=
  let part (i : Nat) : Text := (Digits.padded 2 (raw.getD i 0).toNat).text
  (Digits.padded 4 (year raw)).text ++ '-' :: part 2 ++ '-' :: part 3 ++ 'T' :: part 4 ++
    ':' :: part 5 ++ ':' :: part 6

def readValue (data : Bytes) (off : Nat) : VarType → Option Value
  | .u8 => data[off]?.map .u8
  | .u32 => if off + 4 ≤ data.length then some (.u32 (leNat (data.part off 4))) else none
  | .utf8 =>
    if off + 1 < data.length then
      match find [0] (data.part off 128) with
      | some len => if 0 < len then some (.utf8 (data.part off len)) else none
      | none => none
    else none
  | .timestamp =>
    if off + 8 ≤ data.length then
      if 2000 < year (data.part off 8) then some (.timestamp (formatTimestamp (data.part off 8)))
      else none
    else none

def nameNear (data : Bytes) (v : Variable) (pos : Nat) : Option Nat :=
  let searchStart := pos - 256
  let searchEnd := min data.length (pos + 256)
  (find v.nameBytes (data.part searchStart (searchEnd - searchStart))).map (searchStart + ·)

def Variable.valueOffset (v : Variable) (namePos : Nat) : Nat :=
  namePos + v.nameBytes.length + 2

def valueNear (data : Bytes) (v : Variable) (pos : Nat) : Option Value :=
  match nameNear data v pos with
  | none => none
  | some namePos =>
    if data.length ≤ v.valueOffset namePos then none
    else readValue data (v.valueOffset namePos) v.type

abbrev Found := Text → Option Value

def setNear (data : Bytes) (pos : Nat) (found : Found) (v : Variable) : Found :=
  match valueNear data v pos with
  | none => found
  | some value => Function.update found v.name (some value)

def addNear (data : Bytes) (found : Found) (pos : Nat) : Found :=
  lambootVariables.foldl (setNear data pos) found

def extractUefiVars (data : Bytes) : Found :=
  visit lambootGuid data (addNear data) (data.length + 1) 0 fun _ => none

/-! ### What is found -/

variable {data : Bytes} {v : Variable}

def hits (data : Bytes) : List Nat :=
  occurrences lambootGuid data

lemma lambootGuid_eq : lambootGuid =
    [0x42, 0x4d, 0x41, 0x4c, 0x4f, 0x4f, 0x00, 0x54, 0, 0, 0, 0, 0, 0, 0, 1] := by
  decide

lemma unbordered_lambootGuid : Unbordered lambootGuid := by
  rw [lambootGuid_eq]
  decide

lemma mem_hits {pos : Nat} : pos ∈ hits data ↔ lambootGuid <+: data.drop pos :=
  mem_occurrences (by rw [lambootGuid_eq]; simp)

lemma setNear_self (found : Found) (pos : Nat) : setNear data pos found v v.name =
    ((valueNear data v pos).map some).getD (found v.name) := by
  unfold setNear
  cases valueNear data v pos with
  | none => rfl
  | some value => exact Function.update_self ..

lemma setNear_of_ne {w : Variable} (found : Found) (pos : Nat) (h : v.name ≠ w.name) :
    setNear data pos found w v.name = found v.name := by
  unfold setNear
  cases valueNear data w pos with
  | none => rfl
  | some value => exact Function.update_of_ne h ..

lemma foldl_setNear_of_notMem {l : List Variable} (found : Found) (pos : Nat)
    (h : v.name ∉ l.map Variable.name) :
    l.foldl (setNear data pos) found v.name = found v.name := by
  induction l generalizing found with
  | nil => rfl
  | cons w l ih =>
    rw [map_cons, mem_cons, not_or] at h
    rw [foldl_cons, ih _ h.2, setNear_of_ne found pos h.1]

lemma foldl_setNear {l : List Variable} (found : Found) (pos : Nat) (hv : v ∈ l)
    (hnodup : (l.map Variable.name).Nodup) : l.foldl (setNear data pos) found v.name =
      ((valueNear data v pos).map some).getD (found v.name) := by
  induction l generalizing found with
  | nil => cases hv
  | cons w l ih =>
    rw [map_cons, nodup_cons] at hnodup
    rw [foldl_cons]
    rcases mem_cons.mp hv with rfl | hv
    · rw [foldl_setNear_of_notMem _ pos hnodup.1, setNear_self]
    · have hne : v.name ≠ w.name := fun h => hnodup.1 (h ▸ mem_map_of_mem hv)
      rw [ih _ hv hnodup.2, setNear_of_ne found pos hne]

lemma extractUefiVars_eq (hv : v ∈ lambootVariables) :
    extractUefiVars data v.name = ((hits data).filterMap (valueNear data v)).getLast? := by
  have hne : lambootGuid ≠ [] := by
    rw [lambootGuid_eq]
    exact cons_ne_nil _ _
  have hstep : ∀ (found : Found) (pos : Nat), addNear data found pos v.name =
      ((valueNear data v pos).map some).getD (found v.name) :=
    fun found pos => foldl_setNear found pos hv (by decide)
  have hlast := @get_foldl_eq _ _ _ _ (addNear data) (fun found : Found => found v.name)
    (valueNear data v) some hstep (hits data) fun _ => none
  rw [extractUefiVars, unbordered_lambootGuid.visit_eq_foldl hne]
  refine hlast.trans ?_
  cases ((hits data).filterMap (valueNear data v)).getLast? with
  | none => rfl
  | some value => rfl

end LamBoot.Monitor
