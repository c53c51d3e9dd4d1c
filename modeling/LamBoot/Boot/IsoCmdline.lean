import LamBoot.Boot.Opening
import LamBoot.Fs.PathLaws
import LamBoot.Library.Placeholders

/-!
# The command line of an ISO file

What the two templates of a file-hosted ISO stand for, and when the replacements of
`substitute_iso_path` and `render_cmdline` give it.
-/

namespace LamBoot

open List Text BootContext Option

/-- The command line of a file-hosted ISO, before anything is replaced: the arguments of its own
`loopback.cfg`, or the command line of its distribution. -/
inductive CmdlineTemplate where
  | loopback (args : Text)
  | recipe (fileCmdline : Text)

/-- The arguments of the kernel that is taken from an ISO's `loopback.cfg`. -/
def loopbackArgs (fromUtf8Lossy : Bytes → Text) (iso : Volume) : Option Text := do
  let bytes ← (iso.readStr "/boot/grub/loopback.cfg").toOption
  let s := MenuScan.run {} (lines (fromUtf8Lossy bytes))
  let (_, args) ← s.kernel
  let _ ← s.initrd
  return args

def cmdlineTemplate (fromUtf8Lossy : Bytes → Text) (iso : Volume) : Option CmdlineTemplate :=
  match loopbackArgs fromUtf8Lossy iso with
  | some args => some (.loopback args)
  | none => (fingerprint iso.existsStr).map fun recipe => .recipe recipe.fileCmdline

namespace CmdlineTemplate

/-- The template with the path of the ISO and its own label in place of the placeholders. -/
def filled (isoPath label : Text) : CmdlineTemplate → Text
  | loopback args => substitute [("$\x7biso_path\x7d", isoPath), ("$iso_path", isoPath)] args
  | recipe fileCmdline =>
    substitute [("\x7biso\x7d", isoPath), ("\x7blabel\x7d", escapeLabel label)] fileCmdline

/-- No placeholder begins in the path where the path stands in for another one, and a template that
names the label belongs to an ISO without one. -/
def Fillable (isoPath label : Text) : CmdlineTemplate → Prop
  | loopback args => Clean '$' "\x7biso_path\x7d" "iso_path" isoPath args
  | recipe fileCmdline =>
    Clean '\x7b' "iso\x7d" "label\x7d" isoPath fileCmdline ∧
      (occurrences "\x7blabel\x7d" fileCmdline = 0 ∨ label = [])

end CmdlineTemplate

variable {isoPath : Text}

lemma loopbackEntry_options (fromUtf8Lossy : Bytes → Text) (iso : Volume) (isoPath : Text) :
    (loopbackEntry fromUtf8Lossy iso isoPath).map LoopbackEntry.options =
      (loopbackArgs fromUtf8Lossy iso).map (substituteIsoPath · isoPath) := by
  unfold loopbackEntry loopbackArgs parseFirstMenuentry
  cases (iso.readStr "/boot/grub/loopback.cfg").toOption with
  | none => rfl
  | some bytes =>
    dsimp only [bind_eq_bind, bind_some]
    cases (MenuScan.run {} (lines (fromUtf8Lossy bytes))).kernel with
    | none => rfl
    | some kernel =>
      dsimp only [bind_some]
      cases (MenuScan.run {} (lines (fromUtf8Lossy bytes))).initrd <;> rfl

lemma substituteIsoPath_eq_iff (hpath : isoPath.head? = some '/') (args : Text) :
    substituteIsoPath args isoPath = (CmdlineTemplate.loopback args).filled isoPath [] ↔
      Clean '$' "\x7biso_path\x7d" "iso_path" isoPath args := by
  obtain ⟨rest, rfl⟩ := head?_eq_some_iff.mp hpath
  have h : Apart '$' "\x7biso_path\x7d" "iso_path" ('/' :: rest) :=
    ⟨by decide, by decide, by decide, by decide, '/', rest, rfl, by decide, by decide⟩
  have hslash : 0 < countP (· = '/') ('/' :: rest) :=
    countP_pos_iff.mpr ⟨'/', mem_cons_self, by decide⟩
  rw [substituteIsoPath, replace_eq_substitute, replace_eq_substitute]
  exact h.substitute_eq_iff (by decide) hslash

lemma escapeLabel_eq_nil_iff (label : Text) : escapeLabel label = [] ↔ label = [] := by
  refine ⟨fun h => ?_, fun h => by rw [h]; rfl⟩
  have hcount := countP_substitute (d := ' ') (q := []) not_mem_nil (fun _ => true) "\\x20" label
  rw [escapeLabel, replace_eq_substitute] at h
  rw [show substitute [([' '], "\\x20")] label = [] from h] at hcount
  simp only [countP_true, length_cons, length_nil,
    show "\\x20".toList.length = 4 from rfl] at hcount
  exact length_eq_zero_iff.mp (by omega)

lemma renderCmdline_eq_iff (hpath : isoPath.head? = some '/') (fileCmdline label : Text) :
    renderCmdline fileCmdline isoPath [] =
        (CmdlineTemplate.recipe fileCmdline).filled isoPath label ↔
      (CmdlineTemplate.recipe fileCmdline).Fillable isoPath label := by
  obtain ⟨rest, rfl⟩ := head?_eq_some_iff.mp hpath
  have h : Apart '\x7b' "iso\x7d" "label\x7d" ('/' :: rest) :=
    ⟨by decide, by decide, by decide, by decide, '/', rest, rfl, by decide, by decide⟩
  rw [renderCmdline, replace_eq_substitute, replace_eq_substitute, CmdlineTemplate.Fillable,
    ← escapeLabel_eq_nil_iff]
  exact h.substitute_nil_eq_iff

lemma isoImage_options {iso : Volume} {kernelPath options : Text} {img : Image}
    (h : isoImage iso kernelPath options = some img) : img.options = options := by
  obtain ⟨bytes, -, hbytes⟩ := bind_eq_some_iff.mp h
  rw [← some.inj hbytes]

namespace BootContext

variable (ctx : BootContext)

/-- The command line of a file-hosted ISO is its template filled in just if no placeholder begins in
the path where it stands in, and a template that names the label belongs to an ISO without one. -/
theorem bootIso_options_iff (fromUtf8Lossy : Bytes → Text) {volumes : List Volume}
    {holdingIndex : Nat} {isoPath : Text} {holding backend : Volume} {path : PathBuf} {img : Image}
    (hholding : volumes[holdingIndex]? = some holding) (hpath : PathBuf.fromStr isoPath = .ok path)
    (hmount : ctx.platform.mountIso holding path = .ok backend)
    (himg : ctx.isoFileImage fromUtf8Lossy volumes holdingIndex isoPath = some img) :
    ctx.OpensTo True (ctx.bootIso fromUtf8Lossy volumes holdingIndex isoPath) (some img) ∧
      ∃ template, cmdlineTemplate fromUtf8Lossy (isoVolume backend) = some template ∧
        (img.options = template.filled isoPath (backend.label.getD []) ↔
          template.Fillable isoPath (backend.label.getD [])) := by
  refine ⟨himg ▸ ctx.bootIso_opensTo fromUtf8Lossy volumes holdingIndex isoPath, ?_⟩
  have hslash := (PathBuf.fromStr_eq_ok_iff.mp hpath).1
  have hargs := loopbackEntry_options fromUtf8Lossy (isoVolume backend) isoPath
  simp only [isoFileImage, hholding, hpath, hmount, Except.toOption, bind_eq_bind,
    bind_some] at himg
  rw [cmdlineTemplate]
  cases hentry : loopbackEntry fromUtf8Lossy (isoVolume backend) isoPath with
  | some entry =>
    rw [hentry] at himg hargs
    obtain ⟨args, hsome, hoptions⟩ := map_eq_some_iff.mp hargs.symm
    refine ⟨.loopback args, by rw [hsome], ?_⟩
    rw [isoImage_options himg, ← hoptions]
    exact substituteIsoPath_eq_iff hslash args
  | none =>
    rw [hentry] at himg hargs
    obtain ⟨recipe, hrecipe, hrest⟩ := bind_eq_some_iff.mp himg
    obtain ⟨resolved, -, hkernel⟩ := bind_eq_some_iff.mp hrest
    refine ⟨.recipe recipe.fileCmdline, ?_, ?_⟩
    · rw [map_eq_none_iff.mp hargs.symm, hrecipe]
      rfl
    · rw [isoImage_options hkernel]
      exact renderCmdline_eq_iff hslash recipe.fileCmdline _

end BootContext

/-- `String::from_utf8_lossy` on ASCII. -/
def asciiText (bytes : Bytes) : Text :=
  bytes.map fun b => Char.ofNat b.toNat

def isoContext (backend : Volume) : BootContext :=
  { BootContext.accepting .auto .disabled false .stable none with
    platform := { Platform.accepting false none with mountIso := fun _ _ => .ok backend } }

def ubuntuIso : Volume :=
  { Volume.ofFiles "iso9660"
      [(["boot", "grub", "loopback.cfg"],
          "menuentry Try \x7b\nlinux /vmlinuz file=$\x7biso_path\x7d\ninitrd /initrd\n\x7d\n"),
        (["vmlinuz"], "kernel")] with
    label := some "Ubuntu 24.04" }

def fedoraIso : Volume :=
  { Volume.ofFiles "iso9660"
      [(["LiveOS", "squashfs.img"], "root"), (["images", "pxeboot", "vmlinuz"], "kernel")] with
    label := some "Fedora Live" }

/-- A path without placeholders. -/
theorem bootIso_options_iff_ubuntuIso : ∃ img template,
    (isoContext ubuntuIso).isoFileImage asciiText [.empty "fat"] 0 "/isos/u.iso" = some img ∧
      cmdlineTemplate asciiText (isoVolume ubuntuIso) = some template ∧
        img.options = template.filled "/isos/u.iso" "Ubuntu 24.04" := by
  obtain ⟨img, himg⟩ := isSome_iff_exists.mp (show isSome
    ((isoContext ubuntuIso).isoFileImage asciiText [.empty "fat"] 0 "/isos/u.iso") = true by decide)
  obtain ⟨path, hpath⟩ : ∃ path, PathBuf.fromStr "/isos/u.iso" = .ok path := ⟨_, rfl⟩
  obtain ⟨-, template, htemplate, hiff⟩ :=
    (isoContext ubuntuIso).bootIso_options_iff asciiText rfl hpath rfl himg
  have hloopback : cmdlineTemplate asciiText (isoVolume ubuntuIso) =
      some (.loopback "file=$\x7biso_path\x7d") := rfl
  obtain rfl := some.inj (hloopback.symm.trans htemplate)
  exact ⟨img, _, himg, htemplate, hiff.mpr (clean_of_notMem (by decide))⟩

/-- The command line names no label though the ISO has one, and a path with a placeholder is put
into itself. -/
theorem isoFileImage_fedoraIso :
    (((isoContext fedoraIso).isoFileImage asciiText [.empty "fat"] 0 "/f.iso").map (·.options) =
        some "root=live:CDLABEL= rd.live.image iso-scan/filename=/f.iso".toList ∧
      (cmdlineTemplate asciiText (isoVolume fedoraIso)).map (·.filled "/f.iso" "Fedora Live") =
        some "root=live:CDLABEL=Fedora\\x20Live rd.live.image iso-scan/filename=/f.iso".toList) ∧
    ((isoContext ubuntuIso).isoFileImage asciiText [.empty "fat"] 0 "/$iso_path").map (·.options) =
        some "file=//$iso_path".toList ∧
      (cmdlineTemplate asciiText (isoVolume ubuntuIso)).map (·.filled "/$iso_path" "Ubuntu 24.04") =
        some "file=/$iso_path".toList := by
  refine ⟨⟨?_, ?_⟩, ?_, ?_⟩
  · decide
  · decide
  · decide
  · decide

end LamBoot
