import LamBoot.Bls.Entry
import LamBoot.Fs.Writer

/-!
# Renaming a file

A rename copies the file to its new name and then deletes the old one. It goes through four stages,
and the content is under one of the names in each, as long as the new name is not that of a regular
file.
-/

namespace LamBoot

open Text Stateful Function

/-! ### The stages of a rename -/

/-- The disks that a rename of a file with `content` goes through. -/
inductive RenameStage (d : Disk) (old new : Text) (content : Bytes) : Disk → Prop
  | untouched : RenameStage d old new content d
  | copying (n : Nat) :
    RenameStage d old new content (update d new (some (.file (content.take n))))
  | copied : RenameStage d old new content (update d new (some (.file content)))
  | moved :
    RenameStage d old new content
      (update (update d new (some (.file content))) old none)

/-- No file but the renamed one has changed, and its content is under one of its names. A name that
is not a path has no place on the disk. -/
structure RenameKeeps (d : Disk) (old new : Option Text) (d' : Disk) : Prop where
  others : ∀ name node, old ≠ some name → d name = some node → d' name = some node
  content : ∀ name bytes, old = some name → d.content name = some bytes →
    d'.content name = some bytes ∨ ∃ name', new = some name' ∧ d'.content name' = some bytes

lemma RenameKeeps.refl {d : Disk} {old new : Option Text} : RenameKeeps d old new d :=
  ⟨fun _ _ _ h => h, fun _ _ _ h => .inl h⟩

lemma RenameStage.keeps {d d' : Disk} {old new : Text} {content : Bytes}
    (h : RenameStage d old new content d') (hold : d.content old = some content)
    (hnew : d new = none) : RenameKeeps d (some old) (some new) d' := by
  have hne : old ≠ new := by
    rintro rfl
    simp [Disk.content, hnew] at hold
  have hother : ∀ name node, d name = some node → name ≠ new := by
    rintro name node hd rfl
    simp [hnew] at hd
  refine ⟨fun name node hname hd => ?_, fun name bytes hname hbytes => ?_⟩
  · rw [ne_eq, Option.some.injEq, eq_comm] at hname
    cases h <;> simp [update_of_ne, hname, hother name node hd, hd]
  · obtain rfl : old = name := Option.some.inj hname
    obtain rfl : content = bytes := by simpa [hold] using hbytes
    cases h with
    | untouched => exact .inl hold
    | copying n => exact .inl (by rw [Disk.content_update_of_ne hne, hold])
    | copied => exact .inl (by rw [Disk.content_update_of_ne hne, hold])
    | moved =>
      exact .inr ⟨new, rfl, by rw [Disk.content_update_of_ne hne.symm, Disk.content_update_self]⟩

/-! ### A rename goes through its stages -/

variable {driver : FatDriver} {d : Disk} {dirPath oldFull newFull : PathBuf}
  {oldName newName : Text}

lemma ends_deleteOld {cstr : Text} :
    Ends d (deleteOld driver cstr)
      (fun _ d' => d' = update d (driver.stored cstr) none ∨
        d' = d ∧ (d.content (driver.stored cstr) = none ∨ driver.Refuses .getPosition))
      (fun d' => d' = d ∨ d' = update d (driver.stored cstr) none) := by
  refine Ends.bind ((FatDriver.ends_openFile (by decide)).imp_stopped fun _ => .inl)
    fun handle d' h => ?_
  obtain ⟨rfl, rfl, -⟩ := h
  refine Ends.bind (Ends.imp_stopped FatDriver.ends_intoRegularFile fun _ => .inl)
    fun r d'' h => ?_
  obtain ⟨rfl, ⟨rfl, -⟩ | ⟨rfl, hr⟩⟩ := h
  · exact Ends.imp ends_deleteOrErr (fun _ _ => .inl) fun _ => id
  · exact ends_pure (.inr ⟨rfl, hr⟩)

def Overwrites (driver : FatDriver) (d : Disk) (dirPath : PathBuf) (oldName newName : Text) :
    Prop :=
  ∃ oldFull newFull, dirPath.join oldName = .ok oldFull ∧ dirPath.join newName = .ok newFull ∧
    (toUefiPath oldFull).isOk = true ∧ (toUefiPath newFull).isOk = true ∧
    (∃ content, d.content (driver.nameOf oldFull) = some content ∧
      content.length ≤ maxBootFileBytes) ∧
    ∃ existing, d.content (driver.nameOf newFull) = some existing

lemma ends_fatRename (hold : dirPath.join oldName = .ok oldFull)
    (hnew : dirPath.join newName = .ok newFull)
    (hsafe : ¬ Overwrites driver d dirPath oldName newName) :
    Ends d (fatRename driver dirPath oldName newName)
      (fun _ d' => ∃ content, d.content (driver.nameOf oldFull) = some content ∧
        d (driver.nameOf newFull) = none ∧
        (d' = update (update d (driver.nameOf newFull) (some (.file content)))
            (driver.nameOf oldFull) none ∨
          driver.Refuses .getPosition ∧
            d' = update d (driver.nameOf newFull) (some (.file content))))
      (fun d' => d' = d ∨ ∃ content, d.content (driver.nameOf oldFull) = some content ∧
        d (driver.nameOf newFull) = none ∧
        RenameStage d (driver.nameOf oldFull) (driver.nameOf newFull) content d') := by
  unfold fatRename
  rw [hold, hnew, fsResult_ok_bind, fsResult_ok_bind]
  refine Ends.bind (Ends.imp_stopped ends_readThroughSfs fun _ => .inl) fun content d' h => ?_
  obtain ⟨rfl, hpath, hcontent, hlen⟩ := h
  cases hpath' : (toUefiPath newFull).isOk with
  | false =>
    exact Ends.bind ((ends_fatWrite_of_error hpath').imp_stopped fun _ => .inl)
      fun _ _ h => h.elim
  | true =>
  have hfree : d'.content (driver.nameOf newFull) = none := by
    cases hc : d'.content (driver.nameOf newFull) with
    | none => rfl
    | some existing =>
      exact absurd ⟨oldFull, newFull, hold, hnew, hpath, hpath', ⟨content, hcontent, hlen⟩,
        existing, hc⟩ hsafe
  have hne : driver.nameOf oldFull ≠ driver.nameOf newFull := by
    intro heq
    rw [heq, hfree] at hcontent
    cases hcontent
  refine Ends.bind ((ends_fatWrite_of_content_eq_none hfree).imp_stopped fun d'' h => ?_)
    fun _ d'' h => ?_
  · rcases h with h | ⟨hnone, n, rfl⟩
    · exact .inl h
    · exact .inr ⟨content, hcontent, hnone, .copying n⟩
  obtain ⟨hnone, rfl⟩ := h
  refine Ends.bind (Ends.imp_stopped FatDriver.ends_openVolume fun d'' h => ?_) fun _ d'' h => ?_
  · exact .inr ⟨content, hcontent, hnone, by rw [h]; exact .copied⟩
  subst h
  refine Ends.bind (Ends.imp_stopped ends_fsResult fun d'' h => ?_) fun cstr d'' h => ?_
  · exact .inr ⟨content, hcontent, hnone, by rw [h]; exact .copied⟩
  obtain ⟨rfl, hcstr⟩ := h
  rw [← stored_of_toUefiPath driver hcstr] at *
  refine Ends.imp ends_deleteOld (fun _ d'' h => ⟨content, hcontent, hnone, ?_⟩) fun d'' h =>
    .inr ⟨content, hcontent, hnone, ?_⟩
  · rcases h with h | ⟨h, hc | hr⟩
    · exact .inl h
    · rw [Disk.content_update_of_ne hne, hcontent] at hc
      cases hc
    · exact .inr ⟨hr, h⟩
  · rcases h with rfl | rfl
    · exact .copied
    · exact .moved

/-! ### The writer -/

def FatDriver.target (driver : FatDriver) (dirPath : PathBuf) (name : Text) : Option Text :=
  match dirPath.join name with
  | .ok full => some (driver.nameOf full)
  | .error _ => none

lemma FatDriver.target_eq_some_iff {name stored : Text} :
    driver.target dirPath name = some stored ↔
      ∃ full, dirPath.join name = .ok full ∧ driver.nameOf full = stored := by
  unfold FatDriver.target
  cases dirPath.join name <;> simp

variable {v : FatVolume}

lemma triple_rename {post : Unit → Disk → Prop} {stopped : Disk → Prop}
    (hold : dirPath.join oldName = .ok oldFull) (hnew : dirPath.join newName = .ok newFull)
    (h : Ends v.media.disk (fatRename driver dirPath oldName newName) post stopped)
    (hs : stopped v.media.disk) :
    Triple (· = v) (EspWriter.rename driver dirPath oldName newName)
      (fun u v' => post u v'.media.disk) fun _ v' => stopped v'.media.disk := by
  unfold EspWriter.rename
  rw [hold, hnew]
  refine Triple.bind (Triple.imp_stopped triple_sfsOrErr
    fun _ v' h => by rw [h.2]; exact hs) fun _ v₁ h₁ => ?_
  rw [← h₁.2] at h
  refine Triple.bind ((triple_onMedia h).imp_stopped fun _ _ h => h.2)
    fun u v₂ h₂ => ?_
  rw [fsResult_ok_bind, fsResult_ok_bind]
  refine Triple.bind triple_modify fun _ v₃ h₃ => ?_
  refine Triple.imp triple_modify (fun _ v₄ h₄ => ?_) fun _ _ => id
  rw [h₄, h₃]
  exact h₂.2

lemma triple_rename_of_target_eq_none
    (h : driver.target dirPath oldName = none ∨ driver.target dirPath newName = none) :
    Triple (· = v) (EspWriter.rename driver dirPath oldName newName) (fun _ _ => False)
      fun _ v' => v'.media.disk = v.media.disk := by
  refine (triple_rename_of_join_error (h.imp (fun h => ?_) fun h => ?_)).imp_stopped
    fun _ _ hv => hv.2
  all_goals
    unfold FatDriver.target at h
    split at h
    · cases h
    · next e he => exact ⟨e, he⟩

/-! ### A file of the new name is lost -/

def FatDriver.haltsCreating (fold : Char → Char) : FatDriver where
  fold
  answer _ op :=
    match op with
    | .openFile _ .createReadWrite => .halts 0
    | _ => .succeeds

/-- From the disk `d`, a computation ends with `a` and the disk `d'`. -/
def Yields {α : Type} (d : Disk) (x : FatM α) (a : α) (d' : Disk) : Prop :=
  ∀ clock, ∃ clock', x ⟨d, clock⟩ = .ok a ⟨d', clock'⟩

section Yields

variable {α β : Type} {d' d'' : Disk} {x : FatM α} {f : α → FatM β} {a : α} {b : β} {op : FileOp}
  {file : FileHandle}

lemma yields_pure : Yields d (pure a) a d :=
  fun clock => ⟨clock, rfl⟩

lemma Yields.bind (hx : Yields d x a d') (hf : Yields d' (f a) b d'') :
    Yields d (x >>= f) b d'' := by
  intro clock
  obtain ⟨clock', h⟩ := hx clock
  rw [bind_of_ok h]
  exact hf clock'

lemma yields_attempt (h : Yields d x a d') : Yields d (attempt Stop.error? x) (.ok a) d' := by
  intro clock
  obtain ⟨clock', hx⟩ := h clock
  exact ⟨clock', by simp only [attempt, hx]⟩

lemma yields_fsResult {r : Except FsError α} (h : r = .ok a) : Yields d (fsResult r) a d := by
  rw [h]
  exact yields_pure

lemma yields_perform {partly : Nat → Disk → Disk} {result : Disk → Except Status (α × Disk)}
    (hop : ¬ driver.Refuses op) (h : result d = .ok (a, d')) :
    Yields d (driver.perform op partly result) a d' := by
  intro clock
  have ha : driver.answer clock op = .succeeds := not_not.mp fun h => hop ⟨clock, h⟩
  exact ⟨clock + 1, by simp [FatDriver.perform, ha, h]⟩

lemma yields_query {result : Disk → Except Status α} (hop : ¬ driver.Refuses op)
    (h : result d = .ok a) : Yields d (driver.query op result) a d :=
  yields_perform hop (by simp [h, Except.map])

lemma yields_queryFile {result : Bytes → Except Status α} {content : Bytes}
    (hop : ¬ driver.Refuses op) (hc : d.content file.name = some content)
    (h : result content = .ok a) : Yields d (driver.queryFile op file result) a d :=
  yields_query hop (by simp [FatDriver.onContent, hc, h])

end Yields

lemma exists_of_isOk {ε α : Type} {r : Except ε α} (h : r.isOk = true) : ∃ a, r = .ok a := by
  cases r with
  | ok a => exact ⟨a, rfl⟩
  | error e => cases h

namespace FatDriver

variable {fold : Char → Char} {file : FileHandle} {content : Bytes} {path : PathBuf} {cstr : Text}

lemma not_refuses_haltsCreating {op : FileOp} (h : ∀ path, op ≠ .openFile path .createReadWrite) :
    ¬ (haltsCreating fold).Refuses op := by
  rintro ⟨clock, hop⟩
  simp only [haltsCreating] at hop
  exact hop rfl

lemma yields_openFile {mode : FileMode} (hmode : mode ≠ .createReadWrite)
    (hc : d.content ((haltsCreating fold).stored cstr) = some content) :
    Yields d ((haltsCreating fold).openFile cstr mode (.file []))
      ⟨(haltsCreating fold).stored cstr, 0⟩ d := by
  have hopened : opened ((haltsCreating fold).stored cstr) d =
      .ok ⟨(haltsCreating fold).stored cstr, 0⟩ := by
    simp [opened, Disk.content_eq_some_iff.mp hc]
  cases mode with
  | read => exact yields_query (not_refuses_haltsCreating (by simp)) hopened
  | readWrite => exact yields_query (not_refuses_haltsCreating (by simp)) hopened
  | createReadWrite => exact absurd rfl hmode

lemma yields_intoRegularFile (hc : d.content file.name = some content) :
    Yields d ((haltsCreating fold).intoRegularFile file) (some file) d := by
  have hposition : positionIn file d = .ok file.position := by
    simp [positionIn, Disk.content_eq_some_iff.mp hc]
  exact (yields_attempt (yields_query (not_refuses_haltsCreating (by simp)) hposition)).bind
    yields_pure

lemma yields_readThroughSfs (hpath : toUefiPath path = .ok cstr)
    (hc : d.content ((haltsCreating fold).nameOf path) = some content)
    (hlen : content.length ≤ maxBootFileBytes) :
    Yields d (readThroughSfs (haltsCreating fold) path) content d := by
  rw [← stored_of_toUefiPath (haltsCreating fold) hpath] at hc
  have hopen : Yields d (openFileRead (haltsCreating fold) path)
      ⟨(haltsCreating fold).stored cstr, 0⟩ d :=
    (yields_fsResult hpath).bind ((yields_openFile (by decide) hc).bind
      ((yields_intoRegularFile hc).bind yields_pure))
  have hsize : checkedFullReadLen content.length = .ok content.length := by
    rw [checkedFullReadLen, if_neg (by omega)]
  refine Yields.bind (yields_query (not_refuses_haltsCreating (by simp)) rfl) (hopen.bind ?_)
  refine Yields.bind (yields_queryFile (not_refuses_haltsCreating (by simp)) hc rfl) ?_
  refine Yields.bind (yields_fsResult hsize) ?_
  exact yields_queryFile (not_refuses_haltsCreating (by simp)) hc (by simp)

lemma yields_removeExisting (hc : d.content ((haltsCreating fold).stored cstr) = some content) :
    Yields d (removeExisting (haltsCreating fold) cstr) ()
      (update d ((haltsCreating fold).stored cstr) none) := by
  have hdelete : Yields d ((haltsCreating fold).delete ⟨(haltsCreating fold).stored cstr, 0⟩) ()
      (update d ((haltsCreating fold).stored cstr) none) :=
    yields_perform (not_refuses_haltsCreating (by simp)) rfl
  exact (yields_attempt (yields_openFile (by decide) hc)).bind
    ((yields_intoRegularFile hc).bind ((yields_attempt hdelete).bind yields_pure))

lemma fatWrite_haltsCreating (data : Bytes) (clock : Nat) (hpath : toUefiPath path = .ok cstr)
    (hc : d.content ((haltsCreating fold).nameOf path) = some content) :
    ∃ clock', fatWrite (haltsCreating fold) path data ⟨d, clock⟩ =
      .error .halted ⟨update d ((haltsCreating fold).nameOf path) none, clock'⟩ := by
  have hname := stored_of_toUefiPath (haltsCreating fold) hpath
  rw [← hname] at hc ⊢
  have hvolume : Yields d (haltsCreating fold).openVolume () d :=
    yields_query (not_refuses_haltsCreating (by simp)) rfl
  obtain ⟨clock₁, h₁⟩ := hvolume clock
  obtain ⟨clock₂, h₂⟩ := yields_fsResult hpath clock₁
  obtain ⟨clock₃, h₃⟩ := yields_removeExisting hc clock₂
  refine ⟨clock₃ + 1, ?_⟩
  unfold fatWrite
  rw [bind_of_ok h₁, bind_of_ok h₂, bind_of_ok h₃]
  exact bind_of_error rfl

lemma fatRename_haltsCreating {oldName newName : Text} (clock : Nat)
    (hold : dirPath.join oldName = .ok oldFull) (hnew : dirPath.join newName = .ok newFull)
    (h : Overwrites (haltsCreating fold) d dirPath oldName newName) :
    ∃ clock', fatRename (haltsCreating fold) dirPath oldName newName ⟨d, clock⟩ =
      .error .halted ⟨update d ((haltsCreating fold).nameOf newFull) none, clock'⟩ := by
  obtain ⟨oldFull', newFull', hold', hnew', hpath, hpath', ⟨content, hc, hlen⟩, existing, hc'⟩ := h
  obtain rfl : oldFull' = oldFull := by simpa [hold] using hold'.symm
  obtain rfl : newFull' = newFull := by simpa [hnew] using hnew'.symm
  obtain ⟨cstr, hcstr⟩ := exists_of_isOk hpath
  obtain ⟨cstr', hcstr'⟩ := exists_of_isOk hpath'
  obtain ⟨clock₁, h₁⟩ := yields_readThroughSfs hcstr hc hlen clock
  obtain ⟨clock₂, h₂⟩ := fatWrite_haltsCreating content clock₁ hcstr' hc'
  refine ⟨clock₂, ?_⟩
  unfold fatRename
  rw [hold, hnew, fsResult_ok_bind, fsResult_ok_bind, bind_of_ok h₁]
  exact bind_of_error h₂

end FatDriver

/-! ### When a rename is safe -/

/-- The file has the new name, and the old one is gone. -/
def RenameMoves (d : Disk) (old new : Option Text) (d' : Disk) : Prop :=
  ∃ name name' bytes, old = some name ∧ new = some name' ∧ d.content name = some bytes ∧
    d'.content name' = some bytes ∧ d' name = none

section Safety

variable (driver) (dirPath) (oldName) (newName) (v)

/-- However a rename leaves off, it has kept the files, and a rename that ends has moved its file.
-/
structure RenameSafe : Prop where
  keeps : RenameKeeps v.media.disk (driver.target dirPath oldName) (driver.target dirPath newName)
    (final (EspWriter.rename driver dirPath oldName newName) v).media.disk
  moves : ∀ v', EspWriter.rename driver dirPath oldName newName v = .ok () v' →
    RenameMoves v.media.disk (driver.target dirPath oldName) (driver.target dirPath newName)
      v'.media.disk

end Safety

lemma target_of_join {name : Text} {full : PathBuf} (h : dirPath.join name = .ok full) :
    driver.target dirPath name = some (driver.nameOf full) :=
  FatDriver.target_eq_some_iff.mpr ⟨full, h, rfl⟩

lemma triple_rename_of_not_overwrites (driver : FatDriver)
    (hsafe : ¬ Overwrites driver v.media.disk dirPath oldName newName) :
    Triple (· = v) (EspWriter.rename driver dirPath oldName newName)
      (fun _ v' => RenameKeeps v.media.disk (driver.target dirPath oldName)
          (driver.target dirPath newName) v'.media.disk ∧
        (RenameMoves v.media.disk (driver.target dirPath oldName) (driver.target dirPath newName)
          v'.media.disk ∨ driver.Refuses .getPosition))
      fun _ v' => RenameKeeps v.media.disk (driver.target dirPath oldName)
        (driver.target dirPath newName) v'.media.disk := by
  by_cases htarget : driver.target dirPath oldName = none ∨ driver.target dirPath newName = none
  · refine (triple_rename_of_target_eq_none htarget).imp (fun _ _ h => h.elim)
      fun _ v' h => ?_
    rw [h]
    exact .refl
  simp only [not_or, ← ne_eq, Option.ne_none_iff_exists', FatDriver.target_eq_some_iff] at htarget
  obtain ⟨⟨old, oldFull, hold, rfl⟩, new, newFull, hnew, rfl⟩ := htarget
  rw [target_of_join hold, target_of_join hnew]
  have hends : Ends v.media.disk (fatRename driver dirPath oldName newName)
      (fun _ d' => RenameKeeps v.media.disk (some (driver.nameOf oldFull))
          (some (driver.nameOf newFull)) d' ∧
        (RenameMoves v.media.disk (some (driver.nameOf oldFull)) (some (driver.nameOf newFull)) d' ∨
          driver.Refuses .getPosition))
      (RenameKeeps v.media.disk (some (driver.nameOf oldFull)) (some (driver.nameOf newFull))) := by
    refine (ends_fatRename hold hnew hsafe).imp ?_ ?_
    · rintro _ d' ⟨content, hcontent, hnone, h⟩
      have hne : driver.nameOf newFull ≠ driver.nameOf oldFull := by
        intro heq
        simp [Disk.content, ← heq, hnone] at hcontent
      rcases h with rfl | ⟨hr, rfl⟩
      · refine ⟨RenameStage.moved.keeps hcontent hnone,
          .inl ⟨_, _, content, rfl, rfl, hcontent, ?_, ?_⟩⟩
        · rw [Disk.content_update_of_ne hne, Disk.content_update_self]
        · exact update_self _ _ _
      · exact ⟨RenameStage.copied.keeps hcontent hnone, .inr hr⟩
    · rintro d' (rfl | ⟨content, hcontent, hnone, h⟩)
      · exact .refl
      · exact h.keeps hcontent hnone
  exact triple_rename hold hnew hends .refl

lemma sfsOrErr_of_sfsOpen (h : v.sfsOpen = true) : sfsOrErr driver v = .ok () v := by
  have hsfs : sfsMut driver v = .ok () v := by
    unfold sfsMut
    rw [bind_of_ok (show (get : VolumeM FatVolume) v = .ok v v from rfl), if_pos h]
    rfl
  have hattempt : attempt Stop.error? (sfsMut driver) v = .ok (.ok ()) v := by
    simp only [attempt, hsfs]
  unfold sfsOrErr
  rw [bind_of_ok hattempt]
  rfl

def FatVolume.opened (d : Disk) : FatVolume :=
  ⟨⟨d, 0⟩, true, .new⟩

lemma not_renameKeeps_of_overwrites (h : Overwrites driver d dirPath oldName newName) :
    ¬ RenameKeeps d (driver.target dirPath oldName) (driver.target dirPath newName)
      (final (EspWriter.rename (.haltsCreating driver.fold) dirPath oldName newName)
        (.opened d)).media.disk := by
  obtain ⟨oldFull, newFull, hold, hnew, -, -, ⟨content, hc, -⟩, existing, hc'⟩ := id h
  obtain ⟨clock, hrun⟩ : ∃ clock, fatRename (.haltsCreating driver.fold) dirPath oldName newName
      ⟨d, 0⟩ = .error .halted ⟨update d (driver.nameOf newFull) none, clock⟩ :=
    FatDriver.fatRename_haltsCreating 0 hold hnew h
  have hmedia : onMedia (fatRename (.haltsCreating driver.fold) dirPath oldName newName)
      (.opened d) = .error .halted
        ⟨⟨update d (driver.nameOf newFull) none, clock⟩, true, .new⟩ := by
    simp only [onMedia, zoom, FatVolume.opened, hrun]
  have hfinal : (final (EspWriter.rename (.haltsCreating driver.fold) dirPath oldName newName)
      (.opened d)).media.disk = update d (driver.nameOf newFull) none := by
    unfold final EspWriter.rename
    rw [bind_of_ok (sfsOrErr_of_sfsOpen rfl), bind_of_error hmedia]
  rw [hfinal, target_of_join hold, target_of_join hnew]
  intro hkeeps
  by_cases heq : driver.nameOf oldFull = driver.nameOf newFull
  · have h := hkeeps.content _ content rfl hc
    simp [heq] at h
  · have h := hkeeps.others _ _ (by simpa using heq) (Disk.content_eq_some_iff.mp hc')
    simp at h

/-- A rename keeps every file, whatever the firmware refuses and wherever it stops, if and only if
it overwrites nothing; it has then moved its file, if the firmware gives the position in every file.
-/
theorem EspWriter.rename_safe_iff (driver : FatDriver) (d : Disk) (dirPath : PathBuf)
    (oldName newName : Text) :
    ((∀ answer v, v.media.disk = d →
        RenameKeeps d (driver.target dirPath oldName) (driver.target dirPath newName)
          (final (EspWriter.rename { driver with answer } dirPath oldName newName) v).media.disk) ↔
      ¬ Overwrites driver d dirPath oldName newName) ∧
    ((∀ answer v, v.media.disk = d → ¬ FatDriver.Refuses { driver with answer } .getPosition →
        RenameSafe { driver with answer } dirPath oldName newName v) ↔
      ¬ Overwrites driver d dirPath oldName newName) := by
  refine ⟨⟨fun h hover => ?_, fun hsafe answer v hv => ?_⟩,
    ⟨fun h hover => ?_, fun hsafe answer v hv hposition => ?_⟩⟩
  · exact not_renameKeeps_of_overwrites hover (h _ (.opened d) rfl)
  · subst hv
    exact Triple.final ((triple_rename_of_not_overwrites { driver with answer } hsafe).imp
      (fun _ _ h => h.1) fun _ _ h => h) rfl
  · exact not_renameKeeps_of_overwrites hover
      (h _ (.opened d) rfl (FatDriver.not_refuses_haltsCreating (by simp))).keeps
  · subst hv
    have htriple := triple_rename_of_not_overwrites { driver with answer } hsafe
    refine ⟨Triple.final (htriple.imp (fun _ _ h => h.1) fun _ _ h => h) rfl,
      fun v' hrun => ?_⟩
    exact (htriple.ok rfl hrun).2.resolve_right hposition

/-! ### Boot counting -/

/-- `decrement_boot_count`, as far as it concerns the volume. -/
def decrementBootCount (driver : FatDriver) (entry : BlsEntry) : VolumeM (Option Text) := do
  match entry.decrementedFilename with
  | none => return none
  | some newFilename =>
    match PathBuf.fromStr "/loader/entries" with
    | .error _ => return none
    | .ok entriesDir =>
      match ← attempt Stop.error?
          (EspWriter.rename driver entriesDir entry.filename newFilename) with
      | .ok () => return some newFilename
      | .error _ => return none

def fooThreeLeft : Text := "\\loader\\entries\\foo+3-0.conf"

def fooTwoLeft : Text := "\\loader\\entries\\foo+2-1.conf"

/-- A file that has the name of the next count is replaced. And where the firmware fails to give the
position in the old file, the count is reported as done with the entry under both names. -/
theorem decrement_replaces_and_doubles :
    let both := FatVolume.mount ⟨.ofFiles [(fooThreeLeft, [3]), (fooTwoLeft, [2])], 0⟩
    let one := FatVolume.mount ⟨.ofFiles [(fooThreeLeft, [3])], 0⟩
    let entry := BlsEntry.ofFilename "foo+3-0.conf"
    both.media.disk.content fooTwoLeft = some [2] ∧
      value? (decrementBootCount (.failsOnce 100) entry) both =
        some (some "foo+2-1.conf".toList) ∧
      (final (decrementBootCount (.failsOnce 100) entry) both).media.disk.content fooTwoLeft =
        some [3] ∧
      value? (decrementBootCount (.failsOnce 13) entry) one =
        some (some "foo+2-1.conf".toList) ∧
      (final (decrementBootCount (.failsOnce 13) entry) one).media.disk.content fooTwoLeft =
        some [3] ∧
      (final (decrementBootCount (.failsOnce 13) entry) one).media.disk.content fooThreeLeft =
        some [3] := by
  decide +kernel

end LamBoot
