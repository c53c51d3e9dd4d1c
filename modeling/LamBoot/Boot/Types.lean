import LamBoot.Bls.Entry

/-!
# Boot entries

The menu's entries of `boot_types.rs`.
-/

namespace LamBoot

/-- Where the ISO9660 bytes of an entry come from: a file on a volume, or a drive by its firmware
handle and the label of its medium. -/
inductive IsoSource where
  | file (isoPath : Text)
  | optical (handle : Nat) (label : Text)
deriving DecidableEq, Repr

/-- What kind of thing an entry boots. -/
inductive EntryKind where
  | chainload (path : Text)
  | uki (path options : Text)
  | linuxLegacy (kernelPath : Text) (initrdPaths : List Text) (options : Text)
  | iso (source : IsoSource)
deriving DecidableEq, Repr

inductive Icon where
  | windows
  | linux
  | efi
  | recovery
  | network
  | tools
deriving DecidableEq, Repr

inductive PreflightStatus where
  | ok
  | warning
  | error
deriving DecidableEq, Repr

/-- A bootable entry discovered on some volume. -/
structure BootEntry where
  id : Text
  name : Text
  kind : EntryKind
  icon : Icon
  /-- The file an entry of the Boot Loader Specification comes from. -/
  blsFilename : Option Text := none
  /-- The status of the preflight checks, once they have run. -/
  preflight : Option PreflightStatus := none
  sourceVolumeIndex : Nat := 0
  sourceBackendTag : BackendTag := []
deriving DecidableEq, Repr

def EntryKind.bootPath : EntryKind → Option Text
  | .chainload path => some path
  | .uki path _ => some path
  | .linuxLegacy kernelPath _ _ => some kernelPath
  | .iso _ => none

end LamBoot
