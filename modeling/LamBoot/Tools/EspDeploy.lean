import LamBoot.Library.FileTree
import LamBoot.Tools.Installer

/-!
# Deploying to the EFI partition

`lib/esp-deploy.sh`: the files of a release are copied to the EFI partition, a manifest records what
is there, and the removal goes by the manifest. Copies are made under a temporary name, which
nothing in a tree has, and moved into place.
-/

namespace LamBoot.EspDeploy

open Text BlsEntry Shell Installer FileTree

/-- The EFI partition of a machine. -/
structure Esp where
  /-- Where it is mounted. -/
  place : Place
  /-- The digest that `sha256sum` prints. -/
  sha256 : Text → Text
  sha256_hex : ∀ content, sha256 content ≠ [] ∧
    ∀ c ∈ sha256 content, c ∈ "0123456789abcdef".toList
  /-- `$$`. -/
  pid : Text

def IsRowName (name : Text) : Prop :=
  Nodes.IsPlainName name ∧ '\n' ∉ name ∧ '\t' ∉ name ∧ '\x00' ∉ name
deriving Decidable

/-- The files of a release, by their places under `EFI/LamBoot`. -/
structure Dist where
  files : AList fun _ : Place => Text
  names : ∀ p ∈ files, ∀ name ∈ p, IsRowName name

/-- The name of a driver. -/
structure Driver where
  name : Text
  isRowName : IsRowName name
  efi : ".efi" <:+ name

/-! ### Names -/

/-- `LAMBOOT_ESP_LIB_DIR`. -/
def libDir : Place :=
  ["EFI", "LamBoot"]

/-- `LAMBOOT_ESP_MANIFEST_REL`. -/
def manifestRel : Place :=
  libDir ++ [".install-manifest".toList]

def espEfiBinaryName (arch : Text) : Option Text :=
  if arch = "x86_64" then some "lambootx64.efi"
  else if arch = "aarch64" then some "lambootaa64.efi"
  else none

def espEfiSourceFilename (arch : Text) (isSigned : Bool) : Option Text :=
  if isSigned then
    if arch = "x86_64" then some "lambootx64-signed.efi"
    else if arch = "aarch64" then some "lambootaa64-signed.efi"
    else none
  else espEfiBinaryName arch

/-- `${canonical%.efi}-signed.efi`. -/
def signedName (canonical : Text) : Text :=
  ((canonical.dropSuffix? ".efi").getD canonical) ++ "-signed.efi"

/-- `esp_module_source_for` and `esp_driver_source_for`: the content of the signed file where it is
asked for and there, and of the other one otherwise. -/
def sourceFor (dist : Dist) (dir canonical : Text) (isSigned : Bool) : Option Text :=
  if isSigned then
    (dist.files.lookup [dir, signedName canonical]).or (dist.files.lookup [dir, canonical])
  else dist.files.lookup [dir, canonical]

/-! ### The parts of a release -/

/-- A file that is to be copied to a place under the partition. -/
structure Copy where
  /-- The file is copied also where the same is there. -/
  always : Bool
  rel : Place
  content : Text

namespace Dist

variable (dist : Dist)

/-- What `esp_deploy_binary` copies. -/
def binaryCopies (arch : Text) (isSigned : Bool) : List Copy :=
  match espEfiSourceFilename arch isSigned, espEfiBinaryName arch with
  | some srcName, some dstName =>
    ((dist.files.lookup [srcName]).map fun content =>
      ⟨false, libDir ++ [dstName], content⟩).toList
  | _, _ => []

/-- `"${mods_src}"/*.efi` without the signed files. The shell sorts them; nothing here depends on
their order. -/
def moduleNames : List Text :=
  dist.files.keys.filterMap fun p =>
    match p with
    | [dir, name] =>
      if dir = "modules" ∧ ".efi" <:+ name ∧ name.head? ≠ some '.' ∧
          ¬ "-signed.efi" <:+ name then some name
      else none
    | _ => none

/-- What `esp_deploy_modules` copies. -/
def moduleCopies (isSigned includeManifest : Bool) : List Copy :=
  (if includeManifest then
    ((dist.files.lookup ["modules".toList, "manifest.toml".toList]).map fun content =>
      ⟨true, libDir ++ ["modules".toList, "manifest.toml".toList], content⟩).toList
  else []) ++
  dist.moduleNames.filterMap fun name =>
    (sourceFor dist "modules".toList name isSigned).map fun content =>
      ⟨false, libDir ++ ["modules".toList, name], content⟩

/-- What `esp_deploy_drivers` copies. -/
def driverCopies (isSigned : Bool) (drivers : List Driver) : List Copy :=
  if drivers = [] then []
  else
    (drivers.filterMap fun drv =>
      (sourceFor dist "drivers".toList drv.name isSigned).map fun content =>
        ⟨false, libDir ++ ["drivers".toList, drv.name], content⟩) ++
    ((dist.files.lookup ["drivers".toList, "LICENSE-GPL-2.0.txt".toList]).map fun content =>
      ⟨true, libDir ++ ["drivers".toList, "LICENSE-GPL-2.0.txt".toList], content⟩).toList

end Dist

/-! ### Copies -/

/-- What a deploy has done so far: the tree, the paths that it has printed, and the places that it
has copied files to. -/
structure Deploy where
  nodes : Nodes
  listed : List Place
  written : List Place

namespace Esp

variable (esp : Esp)

def tmpName (p : Place) : Text :=
  p.getLast?.getD [] ++ ".lamboot-esp-deploy." ++ esp.pid

def espAtomicCopy (t : Nodes) (content : Text) (dst : Place) : Option (Nodes × Place) :=
  (t.makeDirs dst.dropLast).bind fun t => t.put (esp.tmpName dst) content dst

def espNeedsUpdate (t : Nodes) (content : Text) (dst : Place) : Bool :=
  match t.lookup dst with
  | some (.file old) => esp.sha256 content != esp.sha256 old
  | _ => true

/-- A file is copied, unless the same is there, and its path printed. A copy that fails is not. -/
def deployCopy (d : Deploy) (c : Copy) : Deploy :=
  let dst := esp.place ++ c.rel
  if c.always || esp.espNeedsUpdate d.nodes c.content dst then
    match esp.espAtomicCopy d.nodes c.content dst with
    | some (nodes, target) => ⟨nodes, d.listed ++ [c.rel], d.written ++ [target]⟩
    | none => d
  else { d with listed := d.listed ++ [c.rel] }

variable (dist : Dist)

def espDeployBinary (arch : Text) (isSigned : Bool) (d : Deploy) : Deploy :=
  (dist.binaryCopies arch isSigned).foldl esp.deployCopy d

def espDeployModules (isSigned includeManifest : Bool) (d : Deploy) : Deploy :=
  (dist.moduleCopies isSigned includeManifest).foldl esp.deployCopy d

def espDeployDrivers (isSigned : Bool) (drivers : List Driver) (d : Deploy) : Deploy :=
  (dist.driverCopies isSigned drivers).foldl esp.deployCopy d

def policyRel : Place :=
  libDir ++ ["policy.toml".toList]

/-- `policy.toml` is not overwritten when it is to be preserved; it is listed in either case. -/
def espDeployPolicy (preserve : Bool) (d : Deploy) : Deploy :=
  match dist.files.lookup ["policy.toml".toList] with
  | none => d
  | some content =>
    let dst := esp.place ++ policyRel
    match d.nodes.lookup dst, preserve with
    | some (.file _), true =>
      let d := { d with listed := d.listed ++ [policyRel] }
      if esp.espNeedsUpdate d.nodes content dst then
        match esp.espAtomicCopy d.nodes content
            (esp.place ++ libDir ++ ["policy.toml.new".toList]) with
        | some (nodes, target) => { d with nodes, written := d.written ++ [target] }
        | none => d
      else d
    | _, _ => esp.deployCopy d ⟨true, policyRel, content⟩

/-! ### The manifest -/

/-- What the head of the manifest says. -/
structure Header where
  timestamp : Line
  version : Line
  arch : Line
  distro : Line

def Header.lines (h : Header) : List Text :=
  ["# LamBoot Install Manifest", "# Generated: " ++ h.timestamp.val, "# Version: " ++ h.version.val,
    "# Arch: " ++ h.arch.val, "# Distro: " ++ h.distro.val]

def pathOf (rel : Place) : Text :=
  join ['/'] rel

def manifestRow (t : Nodes) (rel : Place) : Option Row :=
  (t.fileAt esp.place (pathOf rel)).map fun file => ⟨esp.sha256 file.2, pathOf rel⟩

def espManifestWrite (header : Header) (t : Nodes) (listed : List Place) :
    Option (Nodes × Place) :=
  let dst := esp.place ++ manifestRel
  let text := textOf (header.lines ++ (listed.filterMap (esp.manifestRow t)).map Row.text)
  t.put (esp.tmpName dst) text dst

/-- The lines that `read` gives: each that ends with a line feed, without the null characters. -/
def readLines (text : Text) : List Text :=
  (text.splitOn '\n').dropLast.map (·.filter (· ≠ '\x00'))

/-- A row as it is printed with a tab and read again. Tabs are separators that can be repeated. -/
def rereadRow (r : Row) : Row :=
  let words := ((r.hash ++ '\t' :: r.path).splitOn '\t').filter (· ≠ [])
  ⟨words[0]?.getD [], words[1]?.getD []⟩

/-- The rows of `esp_manifest_parse`, as its reader takes them. -/
def espManifestParse (text : Text) : List Row :=
  ((readLines text).filterMap readRow).map rereadRow

/-! ### Removal -/

variable (force keepBls : Bool)

/-- A row that is kept: an entry with `--keep-bls`, or a changed file without `--force`. -/
def Spared (r : Row) (content : Text) : Prop :=
  (keepBls = true ∧ "loader/entries/" <+: r.path) ∨
    (esp.sha256 content ≠ r.hash ∧ force = false)
deriving Decidable

def removeRow (t : Nodes) (r : Row) : Nodes :=
  match t.fileAt esp.place r.path with
  | none => t
  | some (p, content) => if esp.Spared force keepBls r content then t else t.erase p

/-- The rows of the manifest, the manifest itself, and the directories that are empty then. -/
def espRemoveByManifest (t : Nodes) : Option Nodes :=
  match t.lookup (esp.place ++ manifestRel) with
  | some (.file text) =>
    let t : Nodes := (espManifestParse text).foldl (esp.removeRow force keepBls) t
    let t : Nodes := t.erase (esp.place ++ manifestRel)
    let t := t.removeDir (esp.place ++ libDir ++ ["modules".toList])
    let t := t.removeDir (esp.place ++ libDir ++ ["drivers".toList])
    some (t.removeDir (esp.place ++ libDir))
  | _ => none

end Esp

/-! ### A release -/

/-- What is deployed and how. -/
structure Release where
  dist : Dist
  arch : Text
  isSigned : Bool
  includeManifest : Bool
  drivers : List Driver
  header : Esp.Header

def Esp.deploy (esp : Esp) (r : Release) (t : Nodes) : Deploy :=
  esp.espDeployPolicy r.dist true
    (esp.espDeployDrivers r.dist r.isSigned r.drivers
      (esp.espDeployModules r.dist r.isSigned r.includeManifest
        (esp.espDeployBinary r.dist r.arch r.isSigned ⟨t, [], []⟩)))

/-- A deploy, its manifest and the removal without force: the tree in the end, and the places that
the deploy has written to. -/
def Esp.deployAndRemove (esp : Esp) (r : Release) (keepBls : Bool) (t : Nodes) :
    Option (Nodes × List Place) :=
  let d := esp.deploy r t
  match esp.espManifestWrite r.header d.nodes d.listed with
  | none => none
  | some (t, target) =>
    (esp.espRemoveByManifest false keepBls t).map fun t => (t, d.written ++ [target])

end LamBoot.EspDeploy
