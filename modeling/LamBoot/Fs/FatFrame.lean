import LamBoot.Fs.FatSpec

/-!
# What the file operations leave alone

Every operation on a FAT volume is confined to the names it is given. This holds also of one that
stops early.
-/

namespace LamBoot

open Text Stateful

variable {driver : FatDriver} {d : Disk} {path : PathBuf}

/-- However it ends, a computation changes nothing outside the names. -/
def Confined {α : Type} (names : Set Text) (x : FatM α) : Prop :=
  ∀ d, Ends d x (fun _ d' => Set.EqOn d' d namesᶜ) (Set.EqOn · d namesᶜ)

section Confined

variable {α β : Type} {name : Text} {x : FatM α} {f : α → FatM β} {file : FileHandle}

lemma eqOn_update {node : Option FileNode} : Set.EqOn (Function.update d name node) d {name}ᶜ :=
  fun _ hk => Function.update_of_ne hk _ _

lemma Confined.mono {names names' : Set Text} (h : Confined names x) (hsub : names ⊆ names') :
    Confined names' x :=
  fun d => (h d).imp (fun _ _ hd => hd.mono (Set.compl_subset_compl.mpr hsub))
    fun _ hd => hd.mono (Set.compl_subset_compl.mpr hsub)

variable {names : Set Text}

/-- What is known of the result of the first part may be used for the second. -/
lemma Confined.bind_of {P : α → Prop}
    (hx : ∀ d, Ends d x (fun a d' => P a ∧ Set.EqOn d' d namesᶜ) (Set.EqOn · d namesᶜ))
    (hf : ∀ a, P a → Confined names (f a)) : Confined names (x >>= f) := by
  intro d
  refine Ends.bind (hx d) fun a d' h => ?_
  exact (hf a h.1 d').imp (fun _ _ h' => h'.trans h.2) fun _ h' => h'.trans h.2

lemma Confined.bind (hx : Confined names x)
    (hf : ∀ a, Confined names (f a)) : Confined names (x >>= f) :=
  Confined.bind_of (P := fun _ => True) (fun d => (hx d).imp (fun _ _ h => ⟨trivial, h⟩)
    fun _ => id) fun a _ => hf a

lemma confined_pure {a : α} : Confined names (pure a : FatM α) :=
  fun _ => ends_pure (Set.eqOn_refl _ _)

lemma confined_throw {e : Stop} : Confined names (throw e : FatM α) :=
  fun _ => ends_throw (Set.eqOn_refl _ _)

lemma Ends.eqOn {post : α → Disk → Prop} {P : α → Prop}
    (h : Ends d x post (· = d)) (hpost : ∀ a d', post a d' → d' = d ∧ P a) :
    Ends d x (fun a d' => P a ∧ Set.EqOn d' d namesᶜ) (Set.EqOn · d namesᶜ) := by
  refine h.imp (fun a d' ha => ⟨(hpost a d' ha).2, ?_⟩) fun d' hd => ?_
  · rw [(hpost a d' ha).1]
    exact Set.eqOn_refl _ _
  · rw [hd]
    exact Set.eqOn_refl _ _

lemma confined_openVolume_bind {f : Unit → FatM β}
    (hf : Confined names (f ())) : Confined names (driver.openVolume >>= f) :=
  Confined.bind_of (P := fun _ => True) (fun _ => Ends.eqOn FatDriver.ends_openVolume
    fun _ _ h => ⟨h, trivial⟩) fun _ _ => hf

lemma confined_toUefiPath_bind (driver : FatDriver) {f : Text → FatM β}
    (hf : ∀ cstr, driver.stored cstr = driver.nameOf path → Confined names (f cstr)) :
    Confined names (fsResult (toUefiPath path) >>= f) :=
  Confined.bind_of (fun _ => Ends.eqOn ends_fsResult fun _ _ h =>
    ⟨h.1, stored_of_toUefiPath driver h.2⟩) hf

variable {f : FileHandle → FatM β} {cstr : Text}

lemma confined_create_bind {node : FileNode}
    (hname : driver.stored cstr = name) (hf : Confined {name} (f ⟨name, 0⟩)) :
    Confined {name} (driver.openFile cstr .createReadWrite node >>= f) := by
  have hcreated : ∀ d, Set.EqOn (FatDriver.created (driver.stored cstr) node d) d {name}ᶜ := by
    intro d
    rw [hname]
    unfold FatDriver.created
    split
    · exact Set.eqOn_refl _ _
    · exact eqOn_update
  refine Confined.bind_of (P := fun file => file = ⟨name, 0⟩) (fun d => ?_) fun _ h => h ▸ hf
  refine Ends.imp FatDriver.ends_create (fun file d' h => ⟨?_, ?_⟩) fun d' h => ?_
  · rw [h.2, hname]
  · rw [h.1]
    exact hcreated d
  · rcases h with rfl | rfl
    · exact Set.eqOn_refl _ _
    · exact hcreated d

lemma confined_open_bind {mode : FileMode} {node : FileNode}
    (hmode : mode ≠ .createReadWrite)
    (hf : Confined {name} (f ⟨driver.stored cstr, 0⟩)) :
    Confined {name} (driver.openFile cstr mode node >>= f) :=
  Confined.bind_of (P := fun file => file = ⟨driver.stored cstr, 0⟩) (fun _ =>
    (FatDriver.ends_openFile hmode).eqOn fun _ _ h => ⟨h.1, h.2.1⟩) fun _ h => h ▸ hf

lemma confined_regularOrErr_bind (hf : Confined {name} (f file)) :
    Confined {name} (regularOrErr driver file >>= f) :=
  Confined.bind_of (P := fun r => r = file) (fun _ => Ends.eqOn ends_regularOrErr
    fun _ _ h => ⟨h.1, h.2.1⟩) fun _ h => h ▸ hf

lemma confined_intoRegularFile_bind {f : Option FileHandle → FatM β}
    (hsome : Confined {name} (f (some file))) (hnone : Confined {name} (f none)) :
    Confined {name} (driver.intoRegularFile file >>= f) := by
  refine Confined.bind_of (P := fun r => r = some file ∨ r = none) (fun _ =>
    Ends.eqOn FatDriver.ends_intoRegularFile fun _ _ h => ⟨h.1, h.2.imp And.left And.left⟩) ?_
  rintro _ (rfl | rfl)
  · exact hsome
  · exact hnone

variable {data : Bytes}

lemma confined_write (hname : file.name = name) :
    Confined {name} (driver.write file data) := by
  have hwritten : ∀ data d, Set.EqOn (FatDriver.written file data d) d {name}ᶜ := by
    intro data d
    unfold FatDriver.written
    rw [hname]
    split
    · exact eqOn_update
    · exact Set.eqOn_refl _ _
  refine fun d => Ends.imp FatDriver.ends_write (fun _ d' h => ?_) fun d' h => ?_
  · rw [h]
    exact hwritten data d
  · obtain ⟨n, rfl⟩ := h
    exact hwritten _ d

lemma confined_deleteOrErr (hname : file.name = name) :
    Confined {name} (deleteOrErr driver file) := by
  have hdeleted : ∀ d, Set.EqOn (FatDriver.deleted file d) d {name}ᶜ := by
    intro d
    rw [FatDriver.deleted, hname]
    exact eqOn_update
  refine fun d => Ends.imp ends_deleteOrErr (fun _ d' h => ?_) fun d' h => ?_
  · rw [h]
    exact hdeleted d
  · rcases h with rfl | rfl
    · exact Set.eqOn_refl _ _
    · exact hdeleted d

lemma confined_removeExisting (hname : driver.stored cstr = name) :
    Confined {name} (removeExisting driver cstr) := by
  have hremoved : ∀ d d', Removed (driver.stored cstr) d d' → Set.EqOn d' d {name}ᶜ := by
    rintro d d' (rfl | ⟨-, rfl⟩)
    · exact Set.eqOn_refl _ _
    · rw [hname]
      exact eqOn_update
  exact fun d => Ends.imp ends_removeExisting (fun _ => hremoved d) (hremoved d)

/-- The file operations are confined to the name of their path. -/
lemma confined_fatWrite :
    Confined {driver.nameOf path} (fatWrite driver path data) := by
  refine confined_openVolume_bind (confined_toUefiPath_bind driver fun cstr hname => ?_)
  refine Confined.bind (confined_removeExisting hname) fun _ => ?_
  exact confined_create_bind hname (confined_regularOrErr_bind (confined_write rfl))

lemma confined_fatAppend :
    Confined {driver.nameOf path} (fatAppend driver path data) := by
  have hread : ∀ d, Ends d (attempt Stop.error? (readThroughSfs driver path))
      (fun _ d' => True ∧ Set.EqOn d' d {driver.nameOf path}ᶜ)
      (Set.EqOn · d {driver.nameOf path}ᶜ) := by
    intro d
    refine ends_attempt (Ends.imp ends_readThroughSfs (fun _ d' h => ?_) fun d' h => ?_)
    · rw [h.1]
      exact ⟨trivial, Set.eqOn_refl _ _⟩
    · rw [h]
      exact ⟨fun _ => ⟨trivial, Set.eqOn_refl _ _⟩, Set.eqOn_refl _ _⟩
  refine Confined.bind_of hread fun r _ => ?_
  rcases r with e | bytes
  · cases e <;> first | exact confined_fatWrite | exact confined_throw
  · exact confined_fatWrite

lemma confined_fatTrueAppend :
    Confined {driver.nameOf path} (fatTrueAppend driver path data) := by
  refine confined_openVolume_bind (confined_toUefiPath_bind driver fun cstr hname => ?_)
  refine confined_create_bind hname (confined_regularOrErr_bind ?_)
  refine Confined.bind_of (P := fun file => file.name = driver.nameOf path) (fun d =>
    Ends.eqOn FatDriver.ends_setPosition fun _ _ h => ⟨h.1, ?_⟩) fun _ h => confined_write h
  obtain ⟨-, content, -, rfl⟩ := h
  rfl

lemma confined_fatEnsureDir : Confined {driver.nameOf path} (fatEnsureDir driver path) :=
  confined_openVolume_bind (confined_toUefiPath_bind driver fun _ hname =>
    confined_create_bind hname confined_pure)

lemma confined_fatDelete : Confined {driver.nameOf path} (fatDelete driver path) := by
  refine confined_openVolume_bind (confined_toUefiPath_bind driver fun cstr hname => ?_)
  refine confined_open_bind (by decide) (confined_intoRegularFile_bind ?_ confined_throw)
  exact confined_deleteOrErr hname

lemma confined_deleteOld :
    Confined {driver.stored cstr} (deleteOld driver cstr) :=
  confined_open_bind (by decide)
    (confined_intoRegularFile_bind (confined_deleteOrErr rfl) confined_pure)

/-- A rename is confined to the two names. -/
lemma confined_fatRename {dirPath oldFull newFull : PathBuf} {oldName newName : Text}
    (hold : dirPath.join oldName = .ok oldFull) (hnew : dirPath.join newName = .ok newFull) :
    Confined {driver.nameOf oldFull, driver.nameOf newFull}
      (fatRename driver dirPath oldName newName) := by
  unfold fatRename
  rw [hold, hnew, fsResult_ok_bind, fsResult_ok_bind]
  refine Confined.bind_of (P := fun _ => True) (fun d => Ends.eqOn ends_readThroughSfs
    fun _ _ h => ⟨h.1, trivial⟩) fun content _ => ?_
  refine Confined.bind (Confined.mono confined_fatWrite (by simp)) fun _ => ?_
  refine confined_openVolume_bind (confined_toUefiPath_bind driver fun cstr hname => ?_)
  rw [← hname]
  exact Confined.mono confined_deleteOld (by simp)

end Confined

end LamBoot
