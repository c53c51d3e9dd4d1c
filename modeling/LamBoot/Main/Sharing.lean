import LamBoot.Fs.Shared
import LamBoot.Main.Loop

/-!
# Write access after an ISO was opened

`boot_iso` shares the backend of the volume that holds the ISO file before it looks at the file, and
nothing gives the volume its backend back.
-/

namespace LamBoot

open Text Traced

def holdingVolume (volumes : List Nat) (entry : BootEntry) : Option Nat :=
  match entry.kind with
  | .iso (.file _) => volumes[entry.sourceVolumeIndex]?
  | .chainload _ | .uki _ _ | .linuxLegacy _ _ _ | .iso (.optical _ _) => none

namespace LoopConfig

variable (cfg : LoopConfig)

def sharedIn (p : LoopState × World) : Option Nat :=
  match cfg.selection p.2 p.1, p.2.writeBootReport with
  | some selection, .ok () => holdingVolume p.1.volumes selection
  | _, _ => none

def shareBackends (own : Nat → BackendOwn) (p : LoopState × World) : Nat → BackendOwn :=
  match cfg.sharedIn p with
  | some i => Function.update own i .shared
  | none => own

/-- How the volumes hold their backends after the last attempt of a run. All of them own them at
first. -/
def ownership (s : LoopState) (ws : List World) : Nat → BackendOwn :=
  (cfg.passes s ws).foldl cfg.shareBackends fun _ => .owned

variable {cfg}

lemma shareBackends_eq_owned_iff {own : Nat → BackendOwn} {p : LoopState × World} {i : Nat} :
    cfg.shareBackends own p i = .owned ↔ own i = .owned ∧ cfg.sharedIn p ≠ some i := by
  unfold shareBackends
  cases h : cfg.sharedIn p with
  | none => simp
  | some j =>
    by_cases hj : i = j
    · subst hj
      simp
    · simp [Function.update_of_ne hj, Ne.symm hj]

lemma foldl_shareBackends_eq_owned_iff {ps : List (LoopState × World)} {own : Nat → BackendOwn}
    {i : Nat} :
    ps.foldl cfg.shareBackends own i = .owned ↔
      own i = .owned ∧ ∀ p ∈ ps, cfg.sharedIn p ≠ some i := by
  induction ps generalizing own with
  | nil => simp
  | cons p ps ih =>
    rw [List.foldl_cons, ih, shareBackends_eq_owned_iff, List.forall_mem_cons, and_assoc]

/-- After any run, the writers of a FAT volume do what they did before exactly where no attempt
shared its backend, or where the firmware does not give the protocol anyway. -/
theorem effect_after_run_iff (s : LoopState) (ws : List World) (i : Nat) (driver : FatDriver)
    (v : FatVolume) :
    (∀ op : WriterOp,
      op.effect driver ⟨cfg.ownership s ws i, v⟩ = op.effect driver ⟨.owned, v⟩) ↔
      (∀ p ∈ cfg.passes s ws, cfg.sharedIn p ≠ some i) ∨ v.Unopenable driver := by
  have howned : cfg.ownership s ws i = .owned ↔ ∀ p ∈ cfg.passes s ws, cfg.sharedIn p ≠ some i := by
    rw [ownership, foldl_shareBackends_eq_owned_iff]
    simp
  rw [effect_eq_owned_iff, howned]

/-- A log on an ESP that owns its backend is appended to; after an attempt at an ISO file on it that
fails, it cannot be. -/
theorem log_lost_after_iso :
    let entry : BootEntry := { kernelEntry with kind := .iso (.file "/debian.iso") }
    let own :=
      LoopConfig.default.ownership (.discovered 0 false .blank) [.accepting entry none] 0
    let driver : FatDriver := { fold := id, answer _ _ := .succeeds }
    let v := FatVolume.opened fun _ => none
    let flush : WriterOp := .trueAppend ⟨["log"], by decide⟩ [1]
    (flush.effect driver ⟨.owned, v⟩).1 = .ok () ∧
      (flush.effect driver ⟨own, v⟩).1 =
        .error (.failed (.unsupported "write requires a FAT volume")) ∧
      ¬ ∀ op : WriterOp, op.effect driver ⟨own, v⟩ = op.effect driver ⟨.owned, v⟩ := by
  intro entry own driver v flush
  have hok : (flush.effect driver ⟨.owned, v⟩).1 = .ok () := rfl
  have herror : (flush.effect driver ⟨own, v⟩).1 =
      .error (.failed (.unsupported "write requires a FAT volume")) := rfl
  refine ⟨hok, herror, fun h => ?_⟩
  rw [h flush, hok] at herror
  cases herror

end LoopConfig

end LamBoot
