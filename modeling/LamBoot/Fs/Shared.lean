import LamBoot.Fs.Rename

/-!
# Sharing the backend of a volume

An ISO file is read through the backend of the volume that holds it: `Volume::share_backend` makes
the backend a shared one, and it stays shared.
-/

namespace LamBoot

open Text Stateful

/-- How a volume holds its backend. -/
inductive BackendOwn where
  | owned
  | shared
deriving DecidableEq, Repr

/-- A FAT volume and how it holds its backend. -/
structure HeldVolume where
  own : BackendOwn
  volume : FatVolume

def HeldVolume.shareBackend (v : HeldVolume) : HeldVolume :=
  { v with own := .shared }

/-- The methods of `EspWriter` that write. -/
inductive WriterOp where
  | write (path : PathBuf) (data : Bytes)
  | append (path : PathBuf) (data : Bytes)
  | trueAppend (path : PathBuf) (data : Bytes)
  | rename (dirPath : PathBuf) (oldName newName : Text)
  | ensureDir (path : PathBuf)
  | delete (path : PathBuf)

namespace WriterOp

variable (driver : FatDriver)

def onOwned : WriterOp → VolumeM Unit
  | .write path data => EspWriter.write driver path data
  | .append path data => EspWriter.append driver path data
  | .trueAppend path data => EspWriter.trueAppend driver path data
  | .rename dirPath oldName newName => EspWriter.rename driver dirPath oldName newName
  | .ensureDir path => EspWriter.ensureDir driver path
  | .delete path => EspWriter.delete driver path

/-- A method on any volume. All of them ask for the protocol first, which a shared backend does not
give. -/
def run (op : WriterOp) : EStateM Stop HeldVolume Unit := do
  match (← get).own with
  | .owned => zoom HeldVolume.volume (fun v volume => { v with volume }) (op.onOwned driver)
  | .shared => throw (.failed (.unsupported "write requires a FAT volume"))

def effect (op : WriterOp) (v : HeldVolume) : Except Stop Unit × Disk × VolumeCache :=
  match op.run driver v with
  | .ok () v' => (.ok (), v'.volume.media.disk, v'.volume.cache)
  | .error stop v' => (.error stop, v'.volume.media.disk, v'.volume.cache)

end WriterOp

/-- The file system protocol cannot be opened. -/
def FatVolume.Unopenable (driver : FatDriver) (v : FatVolume) : Prop :=
  v.sfsOpen = false ∧
    ∃ status progress, driver.answer v.media.clock .openProtocol = .fails status progress

section Effects

variable {driver : FatDriver} {v : FatVolume}

lemma effect_shared (op : WriterOp) :
    op.effect driver ⟨.shared, v⟩ =
      (.error (.failed (.unsupported "write requires a FAT volume")), v.media.disk, v.cache) := rfl

variable {v' : FatVolume}

lemma effect_owned_of_error {op : WriterOp} {stop : Stop}
    (h : op.onOwned driver v = .error stop v') :
    op.effect driver ⟨.owned, v⟩ = (.error stop, v'.media.disk, v'.cache) := by
  have hrun : op.run driver ⟨.owned, v⟩ = .error stop ⟨.owned, v'⟩ := by
    unfold WriterOp.run
    rw [bind_of_ok (show (get : EStateM Stop HeldVolume HeldVolume) ⟨.owned, v⟩ =
      .ok ⟨.owned, v⟩ ⟨.owned, v⟩ from rfl)]
    simp only [zoom, h]
  rw [WriterOp.effect, hrun]

lemma sfsMut_of_not_open (driver : FatDriver) (h : v.sfsOpen = false) :
    sfsMut driver v =
      match driver.answer v.media.clock .openProtocol with
      | .succeeds => .ok () { v with media := ⟨v.media.disk, v.media.clock + 1⟩, sfsOpen := true }
      | .fails status _ =>
        .error (.failed (.io status)) { v with media := ⟨v.media.disk, v.media.clock + 1⟩ }
      | .halts _ => .error .halted { v with media := ⟨v.media.disk, v.media.clock + 1⟩ } := by
  unfold sfsMut
  rw [bind_of_ok (show (get : VolumeM FatVolume) v = .ok v v from rfl), if_neg (by simp [h])]
  cases hanswer : driver.answer v.media.clock .openProtocol <;>
    simp [onMedia, zoom, FatDriver.query, FatDriver.perform, hanswer, Except.map, bind,
      EStateM.bind, modify, modifyGet, MonadStateOf.modifyGet]
  rfl

lemma sfsOrErr_of_unopenable (h : v.Unopenable driver) :
    sfsOrErr driver v = .error (.failed (.unsupported "write requires a FAT volume"))
      { v with media := ⟨v.media.disk, v.media.clock + 1⟩ } := by
  obtain ⟨hopen, status, progress, hanswer⟩ := h
  have hsfs := sfsMut_of_not_open driver hopen
  rw [hanswer] at hsfs
  have hattempt : attempt Stop.error? (sfsMut driver) v = .ok (.error (.io status))
      { v with media := ⟨v.media.disk, v.media.clock + 1⟩ } := by
    simp only [attempt, hsfs, Stop.error?]
  unfold sfsOrErr
  rw [bind_of_ok hattempt]
  rfl

lemma sfsOrErr_of_not_unopenable (h : ¬ v.Unopenable driver) :
    (∃ v', sfsOrErr driver v = .ok () v') ∨ ∃ v', sfsOrErr driver v = .error .halted v' := by
  cases hopen : v.sfsOpen with
  | true => exact .inl ⟨v, sfsOrErr_of_sfsOpen hopen⟩
  | false =>
    have hsfs := sfsMut_of_not_open driver hopen
    unfold sfsOrErr
    cases hanswer : driver.answer v.media.clock .openProtocol with
    | succeeds =>
      rw [hanswer] at hsfs
      have hattempt : attempt Stop.error? (sfsMut driver) v = .ok (.ok ())
          { v with media := ⟨v.media.disk, v.media.clock + 1⟩, sfsOpen := true } := by
        simp only [attempt, hsfs]
      exact .inl ⟨_, bind_of_ok hattempt⟩
    | fails status progress => exact absurd ⟨hopen, status, progress, hanswer⟩ h
    | halts progress =>
      rw [hanswer] at hsfs
      have hattempt : attempt Stop.error? (sfsMut driver) v = .error .halted
          { v with media := ⟨v.media.disk, v.media.clock + 1⟩ } := by
        simp only [attempt, hsfs, Stop.error?]
      exact .inr ⟨_, bind_of_error hattempt⟩

lemma onOwned_of_sfsOrErr_error {stop : Stop}
    (h : sfsOrErr driver v = .error stop v') (op : WriterOp) :
    op.onOwned driver v = .error stop v' := by
  cases op <;> exact bind_of_error h

/-- A rename to a name above the root asks for the protocol and then fails for its name. -/
def aboveRoot : WriterOp :=
  .rename ⟨[], nofun⟩ ".." []

lemma onOwned_aboveRoot (h : sfsOrErr driver v = .ok () v') :
    aboveRoot.onOwned driver v = .error (.failed (.invalidPath "above root")) v' :=
  (bind_of_ok h).trans rfl

lemma effect_eq_owned_iff {own : BackendOwn} :
    (∀ op : WriterOp, op.effect driver ⟨own, v⟩ = op.effect driver ⟨.owned, v⟩) ↔
      own = .owned ∨ v.Unopenable driver := by
  constructor
  · intro h
    cases own with
    | owned => exact .inl rfl
    | shared =>
      right
      by_contra hnot
      have hprobe := h aboveRoot
      rw [effect_shared] at hprobe
      rcases sfsOrErr_of_not_unopenable hnot with ⟨v', hok⟩ | ⟨v', herror⟩
      · rw [effect_owned_of_error (onOwned_aboveRoot hok)] at hprobe
        simp at hprobe
      · rw [effect_owned_of_error (onOwned_of_sfsOrErr_error herror _)] at hprobe
        simp at hprobe
  · rintro (rfl | h) op
    · rfl
    · rw [effect_owned_of_error (onOwned_of_sfsOrErr_error (sfsOrErr_of_unopenable h) op)]
      cases own with
      | owned =>
        rw [effect_owned_of_error (onOwned_of_sfsOrErr_error (sfsOrErr_of_unopenable h) op)]
      | shared => rfl

end Effects

end LamBoot
