import LamBoot.Fs.Volume

/-!
# Finding the kernel of an ISO

The two resolvers of boot-from-ISO: the extractor for a distribution's own `loopback.cfg`
(`loopback_cfg.rs`), and the table of distribution layouts told apart by marker paths
(`distro_iso.rs`).
-/

namespace LamBoot

open Text

/-! ### `loopback.cfg` -/

/-- The kernel, initrd and command line pulled from a menu entry. -/
structure LoopbackEntry where
  kernel : Text
  initrd : Text
  options : Text
deriving DecidableEq, Repr

def firstWord (line : Text) : Text :=
  (splitWhitespace line).head?.getD []

def stripKw (line : Text) : List Text → Option Text
  | [] => none
  | kw :: kws =>
    match line.dropPrefix? kw with
    | some rest => if rest.head?.any isWhitespace then some (trimStart rest) else stripKw line kws
    | none => stripKw line kws

def countBraces (line : Text) : Int :=
  (line.map fun c => if c = '\x7b' then 1 else if c = '\x7d' then -1 else 0).sum

def substituteIsoPath (args isoPath : Text) : Text :=
  replace "$iso_path" isoPath (replace "$\x7biso_path\x7d" isoPath args)

/-- The variables of the loop of `parse_first_menuentry`. -/
structure MenuScan where
  started : Bool := false
  depth : Int := 0
  sawOpen : Bool := false
  kernel : Option (Text × Text) := none
  initrd : Option Text := none

def MenuScan.readCommand (s : MenuScan) (line : Text) : MenuScan :=
  let s :=
    match s.kernel, stripKw line ["linux", "linux16", "linuxefi"] with
    | none, some rest =>
      -- the path ends at the first white space, and the arguments follow it
      let path := rest.takeWhile (!isWhitespace ·)
      let args := trim ((rest.dropWhile (!isWhitespace ·)).drop 1)
      if path = [] then s else { s with kernel := some (path, args) }
    | _, _ => s
  match s.initrd, stripKw line ["initrd", "initrd16", "initrdefi"] with
  | none, some rest =>
    match (splitWhitespace rest).head? with
    | some path => { s with initrd := some path }
    | none => s
  | _, _ => s

/-- The loop of `parse_first_menuentry` over the lines. -/
def MenuScan.run (s : MenuScan) : List Text → MenuScan
  | [] => s
  | raw :: rest =>
    let line := trim raw
    if line = [] ∨ line.head? = some '#' then s.run rest
    else if !s.started then
      if firstWord line = "menuentry" ∨ firstWord line = "submenu" then
        let depth := s.depth + countBraces line
        MenuScan.run { s with started := true, depth, sawOpen := 0 < depth } rest
      else s.run rest
    else
      let s := s.readCommand line
      let depth := s.depth + countBraces line
      let s := { s with depth, sawOpen := s.sawOpen || 0 < depth }
      if (s.sawOpen && s.depth ≤ 0) || (s.kernel.isSome && s.initrd.isSome) then s else s.run rest

def parseFirstMenuentry (cfg isoPath : Text) : Option LoopbackEntry := do
  let s := MenuScan.run {} (lines cfg)
  let (kernel, args) ← s.kernel
  let initrd ← s.initrd
  return { kernel, initrd, options := substituteIsoPath args isoPath }

/-! ### Distribution layouts -/

/-- A distribution family's boot recipe. -/
structure DistroRecipe where
  family : Text
  markers : List Text
  kernel : List Text
  initrd : List Text
  mediaCmdline : Text
  fileCmdline : Text

def distroTable : List DistroRecipe :=
  [ { family := "arch"
      markers := ["/arch/boot"]
      kernel := ["/arch/boot/x86_64/vmlinuz-linux", "/arch/boot/vmlinuz-linux"]
      initrd :=
        ["/arch/boot/intel-ucode.img", "/arch/boot/amd-ucode.img",
          "/arch/boot/x86_64/initramfs-linux.img"]
      mediaCmdline := "archisobasedir=arch archisolabel=\x7blabel\x7d"
      fileCmdline := "archisobasedir=arch img_loop=\x7biso\x7d earlymodules=loop" },
    { family := "ubuntu-casper"
      markers := ["/casper"]
      kernel := ["/casper/vmlinuz", "/casper/vmlinuz.efi"]
      initrd :=
        ["/casper/initrd", "/casper/initrd.lz", "/casper/initrd.gz"]
      mediaCmdline := "boot=casper"
      fileCmdline := "boot=casper iso-scan/filename=\x7biso\x7d" },
    { family := "debian-live"
      markers := ["/live"]
      kernel := ["/live/vmlinuz*", "/live/vmlinuz"]
      initrd := ["/live/initrd.img*", "/live/initrd.img"]
      mediaCmdline := "boot=live components"
      fileCmdline := "boot=live components findiso=\x7biso\x7d" },
    { family := "fedora"
      markers := ["/LiveOS/squashfs.img"]
      kernel :=
        ["/images/pxeboot/vmlinuz", "/boot/x86_64/loader/linux",
          "/isolinux/vmlinuz"]
      initrd :=
        ["/images/pxeboot/initrd.img", "/boot/x86_64/loader/initrd",
          "/isolinux/initrd.img"]
      mediaCmdline := "root=live:CDLABEL=\x7blabel\x7d rd.live.image"
      fileCmdline :=
        "root=live:CDLABEL=\x7blabel\x7d rd.live.image iso-scan/filename=\x7biso\x7d" },
    { family := "opensuse"
      markers := ["/boot/x86_64/loader"]
      kernel := ["/boot/x86_64/loader/linux"]
      initrd := ["/boot/x86_64/loader/initrd"]
      mediaCmdline := "root=live:CDLABEL=\x7blabel\x7d"
      fileCmdline := "root=live:CDLABEL=\x7blabel\x7d iso-scan/filename=\x7biso\x7d" },
    { family := "alpine"
      markers := ["/apks"]
      kernel := ["/boot/vmlinuz-lts", "/boot/vmlinuz-virt"]
      initrd := ["/boot/initramfs-lts", "/boot/initramfs-virt"]
      mediaCmdline :=
        "alpine_dev=cdrom:iso9660 modules=loop,squashfs,sd-mod,usb-storage quiet"
      fileCmdline := "modules=loop,squashfs,sd-mod,usb-storage quiet" } ]

def fingerprint (present : Text → Bool) : Option DistroRecipe :=
  distroTable.find? fun r => r.markers.all present

def splitGlob (candidate : Text) : Option (Text × Text) := do
  let stripped ← candidate.dropSuffix? ['*']
  rsplitOnce '/' stripped

def globPick (names : List Text) (pre : Text) : Option Text :=
  (names.filter (pre.isPrefixOf ·)).foldl (fun best n =>
    match best with
    | none => some n
    | some b => if Text.cmp n b = .lt then some b else some n) none

def escapeLabel (label : Text) : Text :=
  replace " " "\\x20" label

def renderCmdline (template isoPath label : Text) : Text :=
  replace "\x7blabel\x7d" (escapeLabel label) (replace "\x7biso\x7d" isoPath template)

def resolveCandidate (iso : Volume) (candidate : Text) : Option Text :=
  match splitGlob candidate with
  | some (dir, pre) => do
    let names ← (iso.readDirStr dir).toOption
    let pick ← globPick names pre
    return dir ++ '/' :: pick
  | none => if iso.existsStr candidate then some candidate else none

def resolveRecipe (iso : Volume) (recipe : DistroRecipe) : Option (Text × List Text) := do
  let kernel ← recipe.kernel.findSome? (resolveCandidate iso)
  return (kernel, recipe.initrd.filterMap (resolveCandidate iso))

end LamBoot
