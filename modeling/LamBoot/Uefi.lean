import LamBoot.Library.Text

/-!
# UEFI values

Status codes, as `uefi::Status` has them on a 64-bit machine, and the strings firmware takes.
-/

namespace LamBoot

/-- An EFI status. The top bit marks an error, and zero is success. -/
structure Status where
  code : UInt64
deriving DecidableEq, Repr

namespace Status

def error (n : UInt64) : Status :=
  ⟨0x8000000000000000 ||| n⟩

def success : Status := ⟨0⟩
def loadError : Status := error 1
def invalidParameter : Status := error 2
def unsupported : Status := error 3
def deviceError : Status := error 7
def outOfResources : Status := error 9
def volumeCorrupted : Status := error 10
def notFound : Status := error 14
def accessDenied : Status := error 15
def aborted : Status := error 21
def securityViolation : Status := error 26

/-- `to_result`: everything but success is an error, warnings included. -/
def toResult (s : Status) : Except Status Unit :=
  if s = success then .ok () else .error s

end Status

/-- `CString16::try_from`: UCS-2 has no characters beyond the basic plane, and the string ends at
its NUL. -/
def cstring16 (s : Text) : Option (List UInt16) :=
  if s.all (fun c => c.toNat < 0x10000 && c.toNat != 0) then some (Text.utf16 s ++ [0]) else none

end LamBoot
