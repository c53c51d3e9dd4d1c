import LamBoot.Discovery.Bls

/-!
# Discovery on the ESP

The scanners of `discovery.rs` that follow UEFI conventions: the Windows boot manager, unified
kernel images, directories in the style of systemd-boot, other loaders and tools. Each of them asks
the policy about the path it found, spelled as it found it.
-/

namespace LamBoot

open Text

/-! ### Names and paths -/

/-- Recognise directory names of the shape `<distro>-<uuid-ish>`. -/
def looksLikeDistroUuidDir (dirname : Text) : Bool :=
  match splitOnce '-' dirname with
  | none => false
  | some (name, suffix) =>
    -- the length of the suffix counts its bytes
    decide (4 ≤ (utf8 suffix).length) && name.head?.any Char.isAlpha &&
      name.all (fun c => c.isAlphanum || c == '_') &&
      suffix.all (fun c => isAsciiHexdigit c || c == '-') &&
      decide (4 ≤ (suffix.filter isAsciiHexdigit).length)
where
  isAsciiHexdigit (c : Char) : Bool :=
    c.isDigit || ('a' ≤ c && c ≤ 'f') || ('A' ≤ c && c ≤ 'F')

def prettyNameFromDistroUuidDir (dirname : Text) : Text :=
  let name := dirname.takeWhile (· != '-')
  if name = "Pop_OS" then "Pop!_OS" else name

def forwardToBackslash (path : Text) : Text :=
  replaceChar '/' '\\' path

def extractFilename (path : Text) : Option Text :=
  some (trimEndMatches ".efi" (afterLast '\\' path))

/-- A version to sort unified kernel images by: what the name has in its last parentheses. -/
def extractUkiVersion (entry : BootEntry) : Text :=
  match rsplitOnce '(' entry.name with
  | none => entry.id
  | some (_, rest) =>
    match rsplitOnce ')' rest with
    | none => entry.id
    | some (version, _) => version

section Scanners

variable (env : Surroundings) (policy : Policy) (esp : Volume)

/-! ### Fixed paths -/

def windowsPath : Text := "\\EFI\\Microsoft\\Boot\\bootmgfw.efi"

def discoverWindows : List BootEntry :=
  if esp.existsStr windowsPath && policy.allowed env.lower windowsPath then
    [{ id := "windows", name := "Windows Boot Manager", kind := .chainload windowsPath,
       icon := .windows }]
  else []

def fallbackPath : Text := "\\EFI\\BOOT\\BOOTX64.EFI"

def otherLoaders : List (Text × Text × Text) :=
  [("\\EFI\\grub\\grubx64.efi", "grub", "GRUB Bootloader"),
    ("\\EFI\\refind\\refind_x64.efi", "refind", "rEFInd Boot Manager"),
    (fallbackPath, "fallback", "EFI Fallback")]

/-- The fallback loader is this program: it was started from there, or the file holds the bytes of
the running image. -/
def fallbackIsSelf (selfImageSha256 : Option Bytes) : Bool :=
  env.bootedViaRemovableFallback ||
    selfImageSha256.any fun selfHash =>
      match PathBuf.fromStr "/EFI/BOOT/BOOTX64.EFI" with
      | .error _ => false
      | .ok path =>
        match esp.read path with
        | .error _ => false
        | .ok bytes => env.sha256 bytes == selfHash

def discoverOtherLoaders (selfImageSha256 : Option Bytes) : List BootEntry :=
  otherLoaders.filterMap fun (path, id, name) =>
    if !(esp.existsStr path && policy.allowed env.lower path) then none
    else if path = fallbackPath ∧ fallbackIsSelf env esp selfImageSha256 then none
    else some { id, name, kind := .chainload path, icon := .efi }

/-! ### Unified kernel images -/

def ukiName (path : Text) (metadata : Option UkiMetadata) : Text :=
  match metadata with
  | some { osName := some os, kernelVersion, .. } =>
    match kernelVersion with
    | some version => os ++ " (" ++ version ++ ")"
    | none => os
  | _ => "Linux (" ++ (extractFilename path).getD "Linux" ++ ")"

def ukiEntryOf (number : Nat) (path : Text) : BootEntry :=
  let metadata := env.readUkiMetadata esp path
  { id := "uki-" ++ decimal number
    name := ukiName path metadata
    kind := .uki path ((metadata.bind (·.cmdline)).getD [])
    icon := .linux }

def discoverLinuxUki : List BootEntry :=
  let paths := (esp.glob "/EFI/Linux/*.efi").filter (policy.allowed env.lower)
  let entries := paths.mapIdx fun number path => ukiEntryOf env esp number path
  env.sort.apply
    (fun a b => (versionCompareStr (extractUkiVersion a) (extractUkiVersion b)).swap) entries

/-! ### Directories with a kernel -/

def siblingInitrd (initrdPath : Text) : List Text :=
  if esp.existsStr initrdPath then [forwardToBackslash initrdPath] else []

/-- The entries of one directory of the ESP: its kernel and, where there is one, the kernel before
it. -/
def discoverDirStyle (dir : DirEntry) : List BootEntry :=
  let dirPath := "/EFI/" ++ dir.name
  let kernelPath := dirPath ++ "/vmlinuz.efi"
  let cmdlinePath := dirPath ++ "/cmdline"
  let initrdPath := dirPath ++ "/initrd.img"
  let prevKernelPath := dirPath ++ "/vmlinuz-previous.efi"
  let prevInitrdPath := dirPath ++ "/initrd.img-previous"
  let kernelEfi := forwardToBackslash kernelPath
  let prevKernelEfi := forwardToBackslash prevKernelPath
  -- a directory whose metadata could not be read is reported as something else
  if dir.kind = .regular ∨ dir.kind = .symlink then []
  else if !looksLikeDistroUuidDir dir.name then []
  else if !esp.existsStr kernelPath then []
  else if !policy.allowed env.lower kernelEfi then []
  else
    let cmdline := trim ((esp.readToStringStr cmdlinePath).toOption.getD [])
    let initrdPaths := siblingInitrd esp initrdPath
    -- a kernel with neither a command line nor an initrd does not boot
    if cmdline = [] ∧ initrdPaths = [] then []
    else
      let displayName := prettyNameFromDistroUuidDir dir.name
      let current : BootEntry :=
        { id := "sdboot-" ++ dir.name, name := displayName,
          kind := .linuxLegacy kernelEfi initrdPaths cmdline, icon := .linux }
      if esp.existsStr prevKernelPath && policy.allowed env.lower prevKernelEfi then
        [current,
          { id := "sdboot-" ++ dir.name ++ "-previous",
            name := displayName ++ " (previous kernel)",
            kind := .linuxLegacy prevKernelEfi (siblingInitrd esp prevInitrdPath) cmdline,
            icon := .linux }]
      else [current]

/-- Discover distributions with systemd-boot's discoverable directories, ordered by id. -/
def discoverSystemdBootDirStyle : List BootEntry :=
  match PathBuf.fromStr "/EFI" with
  | .error _ => []
  | .ok efiDir =>
    match esp.readDir efiDir with
    | .error _ => []
    | .ok dirs =>
      env.sort.apply (fun a b => Text.cmp a.id b.id)
        (dirs.flatMap (discoverDirStyle env policy esp))

/-! ### Tools -/

/-- One line of the module manifest: the module whose section it is in, and the names so far. -/
def readManifestLine (state : Option Text × List (Text × Text)) (line : Text) :
    Option Text × List (Text × Text) :=
  let line := trim line
  if line = [] ∨ line.head? = some '#' then state
  else if "[modules.".toList.isPrefixOf line then
    match rsplitOnce ']' line with
    | some (before, _) => (some (before.drop 9), state.2)
    | none => state
  else
    match state.1, splitOnce '=' line with
    | some moduleId, some (key, value) =>
      if trim key = "name" then
        (state.1, state.2 ++ [(moduleId, trimMatches '"' (trim value))])
      else state
    | _, _ => state

def loadModuleManifest : List (Text × Text) :=
  match esp.readToStringStr "\\EFI\\LamBoot\\modules\\manifest.toml" with
  | .error _ => []
  | .ok content => ((lines content).foldl readManifestLine (none, [])).2

def discoverTools : List BootEntry :=
  if !policy.modulesEnabled then []
  else
    let manifest := loadModuleManifest esp
    ((esp.glob "/EFI/LamBoot/modules/*.efi").filter (policy.allowed env.lower)).map fun path =>
      let filename := (extractFilename path).getD "tool"
      { id := "tool-" ++ filename
        name :=
          match manifest.find? fun (id, _) => id = filename with
          | some (_, name) => name
          | none => "Tool: " ++ filename
        kind := .chainload path
        icon := .tools }

end Scanners

end LamBoot
