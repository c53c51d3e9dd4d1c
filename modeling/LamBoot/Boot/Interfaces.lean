import LamBoot.Library.Ledger
import LamBoot.Pe.Load

/-!
# Installed protocol interfaces

The handles that `initrd.rs` and `pe_loader.rs` put into the firmware's handle database, over any
run of registrations, loads, starts that return and drops, where any call may fail.
-/

namespace LamBoot.Interfaces

open Pe

abbrev Handle := Nat

/-- The protocols that are installed. -/
inductive ProtocolGuid where
  | devicePath
  | loadFile2
  | loadedImage
deriving DecidableEq, Repr

/-- A protocol on a handle, with the address of the interface. -/
structure Interface where
  handle : Handle
  guid : ProtocolGuid
  address : Nat
deriving DecidableEq, Repr

/-! ### The firmware -/

/-- What the firmware decides: which of the calls fail, where there are pages, and which handle is
made for a first interface. That is a new one. -/
structure Firmware where
  fails : Nat → Bool
  anyPages : Nat → BitVec 64
  newHandle : Nat → Finset Interface → Handle
  fresh : ∀ n database, ∀ i ∈ database, i.handle ≠ newHandle n database

structure Services where
  database : Finset Interface
  /-- The calls so far. -/
  calls : Nat

abbrev FwM := StateM Services

/-- The handle is there and has no interface of the protocol yet. -/
def Takes (database : Finset Interface) (handle : Handle) (guid : ProtocolGuid) : Prop :=
  (∃ i ∈ database, i.handle = handle) ∧ ∀ i ∈ database, i.handle = handle → i.guid ≠ guid
deriving Decidable

def installProtocolInterface (fw : Firmware) (handle : Option Handle) (guid : ProtocolGuid)
    (address : Nat) : FwM (Option Handle) := fun s =>
  if fw.fails s.calls then (none, ⟨s.database, s.calls + 1⟩)
  else
    match handle with
    | none =>
      let h := fw.newHandle s.calls s.database
      (some h, ⟨insert ⟨h, guid, address⟩ s.database, s.calls + 1⟩)
    | some h =>
      if Takes s.database h guid then
        (some h, ⟨insert ⟨h, guid, address⟩ s.database, s.calls + 1⟩)
      else (none, ⟨s.database, s.calls + 1⟩)

def uninstallProtocolInterface (fw : Firmware) (i : Interface) : FwM Bool := fun s =>
  if fw.fails s.calls = false ∧ i ∈ s.database then (true, ⟨s.database.erase i, s.calls + 1⟩)
  else (false, ⟨s.database, s.calls + 1⟩)

def allocatePages (fw : Firmware) (address : Option (BitVec 64)) :
    FwM (Option (BitVec 64)) := fun s =>
  (if fw.fails s.calls then none else some (address.getD (fw.anyPages s.calls)),
    ⟨s.database, s.calls + 1⟩)

def freePages (fw : Firmware) : FwM Bool := fun s =>
  (!fw.fails s.calls, ⟨s.database, s.calls + 1⟩)

/-! ### The initrd -/

structure InitrdHandle where
  uefiHandle : Handle
  provider : Nat
  devpath : Nat
deriving DecidableEq, Repr

def InitrdHandle.register (fw : Firmware) (devpath provider : Nat) :
    FwM (Option InitrdHandle) := do
  let some uefiHandle ← installProtocolInterface fw none .devicePath devpath
    | return none
  let some _ ← installProtocolInterface fw (some uefiHandle) .loadFile2 provider
    | return none
  return some ⟨uefiHandle, provider, devpath⟩

def InitrdHandle.drop (fw : Firmware) (h : InitrdHandle) : FwM Unit := do
  -- in reverse order; what the calls answer is not looked at
  let _ ← uninstallProtocolInterface fw ⟨h.uefiHandle, .loadFile2, h.provider⟩
  let _ ← uninstallProtocolInterface fw ⟨h.uefiHandle, .devicePath, h.devpath⟩

/-! ### The native loader -/

structure LoadedImage where
  imageBase : BitVec 64
  memory : Bytes
  handle : Handle
  pagesAllocated : Nat
  protocolData : Nat

def allocateImagePages (fw : Firmware) (s : PeSummary) : FwM (PeM (BitVec 64)) := do
  if 0 < s.preferredBase then
    if let some base ← allocatePages fw (some (preferred s)) then return .ok base
  match ← allocatePages fw none with
  | some base => return .ok base
  | none => return Checked.refuse (.parseFailed "allocate_pages failed")

def fillMemory (s : PeSummary) (bytes : Bytes) (base : BitVec 64) : PeM Bytes := do
  let memory ← s.sections.foldlM (copySection bytes) (List.replicate (memorySize s) 0)
  relocateMemory s base memory

def acceptedHeaders (target : Target) (bytes : Bytes) : PeM PeSummary := do
  let summary ← parseHeaders bytes
  validateHeaders target summary bytes
  return summary

def loadPe (fw : Firmware) (target : Target) (bytes : Bytes) (protocolData : Nat) :
    FwM (PeM LoadedImage) := do
  match acceptedHeaders target bytes with
  | .error e => return .error e
  | .ok summary =>
    match ← allocateImagePages fw summary with
    | .error e => return .error e
    | .ok base =>
      match fillMemory summary bytes base with
      | .error e =>
        let _ ← freePages fw
        return .error e
      | .ok memory =>
        match ← installProtocolInterface fw none .loadedImage protocolData with
        | none =>
          let _ ← freePages fw
          return Checked.refuse (.parseFailed "install_protocol_interface failed")
        | some handle =>
          return .ok ⟨base, memory, handle, memorySize summary / 4096, protocolData⟩

def LoadedImage.drop (fw : Firmware) (image : LoadedImage) : FwM Unit := do
  if 0 < image.pagesAllocated ∧ image.imageBase ≠ 0 then
    let _ ← freePages fw

def startImage (fw : Firmware) (image : LoadedImage) (status : Nat) : FwM Nat := do
  image.drop fw
  return status

/-! ### Runs -/

/-- A value that is to account for interfaces. -/
inductive Value where
  | initrd (h : InitrdHandle)
  | image (loaded : LoadedImage)

def Value.interfaces : Value → Finset Interface
  | .initrd h => {⟨h.uefiHandle, .loadFile2, h.provider⟩, ⟨h.uefiHandle, .devicePath, h.devpath⟩}
  | .image loaded => {⟨loaded.handle, .loadedImage, loaded.protocolData⟩}

def Value.drop (fw : Firmware) : Value → FwM Unit
  | .initrd h => h.drop fw
  | .image loaded => loaded.drop fw

/-- The firmware, and the values that are alive. -/
structure World where
  services : Services
  live : List Value

inductive Event where
  | register (devpath provider : Nat)
  | load (target : Target) (bytes : Bytes) (protocolData : Nat)
  | start (i status : Nat)
  | drop (i : Nat)

def step (fw : Firmware) (w : World) : Event → World
  | .register devpath provider =>
    match InitrdHandle.register fw devpath provider w.services with
    | (some h, s) => ⟨s, w.live ++ [.initrd h]⟩
    | (none, s) => ⟨s, w.live⟩
  | .load target bytes protocolData =>
    match loadPe fw target bytes protocolData w.services with
    | (.ok image, s) => ⟨s, w.live ++ [.image image]⟩
    | (.error _, s) => ⟨s, w.live⟩
  | .start i status =>
    match w.live[i]? with
    | some (.image image) => ⟨(startImage fw image status w.services).2, w.live.eraseIdx i⟩
    | _ => w
  | .drop i =>
    match w.live[i]? with
    | some v => ⟨(v.drop fw w.services).2, w.live.eraseIdx i⟩
    | none => w

def World.initial : World :=
  ⟨⟨∅, 0⟩, []⟩

/-- What is installed is what the values that are alive own. -/
def World.Accounted (w : World) : Prop :=
  w.services.database = Ledger.owned Value.interfaces w.live
deriving Decidable

def World.ledger (w : World) : Ledger Interface Value :=
  ⟨w.services.database, w.live⟩

/-- A step that leaves no interface behind: no registration stops between its two interfaces, no
image is dropped, and what an initrd uninstalls is uninstalled. -/
def Clean (fw : Firmware) (w : World) : Event → Prop
  | .register _ _ =>
    fw.fails w.services.calls = true ∨ fw.fails (w.services.calls + 1) = false
  | .load _ _ _ => True
  | .start i _ => ∀ image, w.live[i]? ≠ some (.image image)
  | .drop i =>
    (∀ image, w.live[i]? ≠ some (.image image)) ∧
    ∀ h, w.live[i]? = some (.initrd h) →
      fw.fails w.services.calls = false ∧ fw.fails (w.services.calls + 1) = false

/-! ### What one step does -/

section Steps

variable {fw : Firmware} {w : World} {s t : Services} {guid : ProtocolGuid} {address : Nat}

lemma bind_of_eq {α β : Type} {x : FwM α} {f : α → FwM β} {a : α} (h : x s = (a, t)) :
    (x >>= f) s = f a t := by
  change f (x s).1 (x s).2 = f a t
  rw [h]

lemma install_of_fails {handle : Option Handle} (h : fw.fails s.calls = true) :
    installProtocolInterface fw handle guid address s = (none, ⟨s.database, s.calls + 1⟩) := by
  unfold installProtocolInterface
  exact if_pos h

lemma install_none (h : fw.fails s.calls = false) :
    installProtocolInterface fw none guid address s =
      (some (fw.newHandle s.calls s.database),
        ⟨insert ⟨fw.newHandle s.calls s.database, guid, address⟩ s.database, s.calls + 1⟩) := by
  rw [installProtocolInterface, if_neg (by simp [h])]

lemma install_some {handle : Handle} (h : fw.fails s.calls = false)
    (htakes : Takes s.database handle guid) :
    installProtocolInterface fw (some handle) guid address s =
      (some handle, ⟨insert ⟨handle, guid, address⟩ s.database, s.calls + 1⟩) := by
  rw [installProtocolInterface, if_neg (by simp [h])]
  exact if_pos htakes

lemma disjoint_of_newHandle {n : Nat} {interfaces : Finset Interface}
    (h : ∀ i ∈ interfaces, i.handle = fw.newHandle n s.database) :
    Disjoint interfaces s.database :=
  Finset.disjoint_left.mpr fun i hi hdb => fw.fresh n s.database i hdb (h i hi)

lemma takes_loadFile2 {n devpath : Nat} :
    Takes (insert ⟨fw.newHandle n s.database, .devicePath, devpath⟩ s.database)
      (fw.newHandle n s.database) .loadFile2 := by
  refine ⟨⟨_, Finset.mem_insert_self _ _, rfl⟩, fun i hi hhandle => ?_⟩
  rcases Finset.mem_insert.mp hi with rfl | hi
  · exact nofun
  · exact absurd hhandle (fw.fresh n s.database i hi)

lemma moves_register (w : World) (devpath provider : Nat) :
    ∃ left, Ledger.Moves Value.interfaces w.ledger left
        (step fw w (.register devpath provider)).ledger ∧
      (left = ∅ ↔ Clean fw w (.register devpath provider)) := by
  obtain ⟨⟨database, n⟩, live⟩ := w
  have hfresh : ∀ interfaces : Finset Interface,
      (∀ i ∈ interfaces, i.handle = fw.newHandle n database) → Disjoint interfaces database :=
    fun _ => disjoint_of_newHandle (s := ⟨database, n⟩)
  dsimp only [step]
  cases h1 : fw.fails n with
  | true =>
    have hrun : InitrdHandle.register fw devpath provider ⟨database, n⟩ =
        (none, ⟨database, n + 1⟩) := bind_of_eq (install_of_fails h1)
    rw [hrun]
    exact ⟨∅, .idle, iff_of_true rfl (.inl h1)⟩
  | false =>
    let h := fw.newHandle n database
    cases h2 : fw.fails (n + 1) with
    | true =>
      have hrun : InitrdHandle.register fw devpath provider ⟨database, n⟩ =
          (none, ⟨insert ⟨h, .devicePath, devpath⟩ database, n + 2⟩) :=
        (bind_of_eq (install_none h1)).trans (bind_of_eq (install_of_fails h2))
      have hinsert : insert ⟨h, .devicePath, devpath⟩ database =
          database ∪ {⟨h, .devicePath, devpath⟩} := by
        rw [Finset.union_comm, Finset.insert_eq]
      rw [hrun]
      refine ⟨{⟨h, .devicePath, devpath⟩}, .stray (hfresh _ (by simp [h])) hinsert, ?_⟩
      exact iff_of_false (Finset.singleton_ne_empty _) (by simp [Clean, h1, h2])
    | false =>
      have hrun : InitrdHandle.register fw devpath provider ⟨database, n⟩ =
          (some ⟨h, provider, devpath⟩, ⟨insert ⟨h, .loadFile2, provider⟩
            (insert ⟨h, .devicePath, devpath⟩ database), n + 2⟩) :=
        (bind_of_eq (install_none h1)).trans (bind_of_eq (install_some h2 takes_loadFile2))
      have hinsert : insert ⟨h, .loadFile2, provider⟩
          (insert ⟨h, .devicePath, devpath⟩ database) =
            database ∪ (Value.initrd ⟨h, provider, devpath⟩).interfaces := by
        ext i
        simp only [Value.interfaces, Finset.mem_insert, Finset.mem_union, Finset.mem_singleton]
        tauto
      rw [hrun]
      exact ⟨∅, .acquire (hfresh _ (by simp [Value.interfaces, h])) hinsert,
        iff_of_true rfl (.inr h2)⟩

variable (fw) in
lemma allocateImagePages_eq (summary : PeSummary) (s : Services) :
    ∃ r n, allocateImagePages fw summary s = (r, ⟨s.database, n⟩) := by
  have hcall : ∀ address n, ∃ r, allocatePages fw address ⟨s.database, n⟩ =
      (r, ⟨s.database, n + 1⟩) := fun _ _ => ⟨_, rfl⟩
  -- the fallback, after however many calls
  have hany : ∀ n, ∃ r m, (do
      match ← allocatePages fw none with
      | some base => return .ok base
      | none => return Checked.refuse (.parseFailed "allocate_pages failed") :
        FwM (PeM (BitVec 64))) ⟨s.database, n⟩ = (r, ⟨s.database, m⟩) := by
    intro n
    obtain ⟨r, hr⟩ := hcall none n
    rw [bind_of_eq hr]
    cases r <;> exact ⟨_, _, rfl⟩
  unfold allocateImagePages
  by_cases hbase : 0 < summary.preferredBase
  · obtain ⟨r, hr⟩ := hcall (some (preferred summary)) s.calls
    rw [if_pos hbase, bind_of_eq hr]
    cases r with
    | some base => exact ⟨_, _, rfl⟩
    | none => exact hany _
  · rw [if_neg hbase]
    exact hany _

/-- What is left in memory is the image that the loader makes for the pages it got. -/
lemma pe_loadPe_eq {target : Target} {bytes : Bytes} {summary : PeSummary}
    (h : acceptedHeaders target bytes = .ok summary) (base : BitVec 64) :
    Pe.loadPe target bytes base = fillMemory summary bytes base := by
  have hbind : Pe.loadPe target bytes base =
      acceptedHeaders target bytes >>= fun summary => fillMemory summary bytes base := by
    simp only [Pe.loadPe, acceptedHeaders, fillMemory, bind_assoc, pure_bind]
  rw [hbind, h]
  rfl

variable (fw) in
lemma loadPe_cases (target : Target) (bytes : Bytes) (protocolData : Nat) (s : Services) :
    (∃ e n, loadPe fw target bytes protocolData s = (.error e, ⟨s.database, n⟩)) ∨
    ∃ image m n, loadPe fw target bytes protocolData s =
        (.ok image, ⟨insert ⟨image.handle, .loadedImage, image.protocolData⟩ s.database, n⟩) ∧
      image.handle = fw.newHandle m s.database ∧
      Pe.loadPe target bytes image.imageBase = .ok image.memory := by
  unfold loadPe
  cases hheaders : acceptedHeaders target bytes with
  | error e => exact .inl ⟨e, s.calls, rfl⟩
  | ok summary =>
    obtain ⟨r, n, hpages⟩ := allocateImagePages_eq fw summary s
    dsimp only
    rw [bind_of_eq hpages]
    cases r with
    | error e => exact .inl ⟨e, n, rfl⟩
    | ok base =>
      dsimp only
      cases hmemory : fillMemory summary bytes base with
      | error e => exact .inl ⟨e, n + 1, rfl⟩
      | ok memory =>
        dsimp only
        cases hfails : fw.fails n with
        | true =>
          rw [bind_of_eq (install_of_fails hfails)]
          exact .inl ⟨_, n + 2, rfl⟩
        | false =>
          rw [bind_of_eq (install_none hfails)]
          exact .inr ⟨_, n, n + 1, rfl, rfl, (pe_loadPe_eq hheaders base).trans hmemory⟩

lemma moves_load (w : World) (target : Target) (bytes : Bytes) (protocolData : Nat) :
    Ledger.Moves Value.interfaces w.ledger ∅
      (step fw w (.load target bytes protocolData)).ledger := by
  dsimp only [step]
  rcases loadPe_cases fw target bytes protocolData w.services with
    ⟨e, n, hrun⟩ | ⟨image, m, n, hrun, hhandle, -⟩
  · rw [hrun]
    exact .idle
  · have hfresh : Disjoint (Value.image image).interfaces w.services.database :=
      disjoint_of_newHandle fun i hi => by rw [Finset.mem_singleton.mp hi, hhandle]
    rw [hrun]
    refine .acquire hfresh ?_
    rw [World.ledger, Value.interfaces, Finset.union_comm, Finset.insert_eq]

lemma moves_dropImage {i : Nat} {image : LoadedImage} (h : w.live[i]? = some (.image image)) :
    Ledger.Moves Value.interfaces w.ledger (Value.image image).interfaces
      (World.mk (image.drop fw w.services).2 (w.live.eraseIdx i)).ledger := by
  have hdrop : (image.drop fw w.services).2.database = w.services.database := by
    unfold LoadedImage.drop
    split_ifs <;> rfl
  refine .release h subset_rfl ?_
  rw [hdrop, Finset.sdiff_self, Finset.sdiff_empty]
  rfl

lemma uninstall_snd {i : Interface} (hi : i ∈ s.database) :
    (uninstallProtocolInterface fw i s).2 =
      ⟨s.database \ if fw.fails s.calls then ∅ else {i}, s.calls + 1⟩ := by
  unfold uninstallProtocolInterface
  cases hfails : fw.fails s.calls with
  | true => simp
  | false => simp [hi, Finset.erase_eq]

variable (fw) in
lemma moves_dropInitrd (hw : Ledger.Sound Value.interfaces w.ledger) {i : Nat} {h : InitrdHandle}
    (hh : w.live[i]? = some (.initrd h)) :
    ∃ left, Ledger.Moves Value.interfaces w.ledger left
        (World.mk (h.drop fw w.services).2 (w.live.eraseIdx i)).ledger ∧
      (left = ∅ ↔ fw.fails w.services.calls = false ∧ fw.fails (w.services.calls + 1) = false) := by
  let provider : Interface := ⟨h.uefiHandle, .loadFile2, h.provider⟩
  let devpath : Interface := ⟨h.uefiHandle, .devicePath, h.devpath⟩
  have hne : devpath ≠ provider := by simp [devpath, provider]
  have hmem : ∀ a ∈ (Value.initrd h).interfaces, a ∈ w.services.database := fun a =>
    hw.mem_registered (List.mem_of_getElem? hh)
  have hprovider : provider ∈ w.services.database :=
    hmem provider (Finset.mem_insert_self _ _)
  have hdevpath : devpath ∈ w.services.database :=
    hmem devpath (Finset.mem_insert_of_mem (Finset.mem_singleton_self _))
  let removed : Finset Interface := if fw.fails w.services.calls then ∅ else {provider}
  let removed' : Finset Interface := if fw.fails (w.services.calls + 1) then ∅ else {devpath}
  have hkept : devpath ∈ w.services.database \ removed := by
    refine Finset.mem_sdiff.mpr ⟨hdevpath, ?_⟩
    unfold removed
    split_ifs <;> simp [hne]
  have hdrop : (h.drop fw w.services).2.database =
      (w.services.database \ removed) \ removed' := by
    change (uninstallProtocolInterface fw devpath
      (uninstallProtocolInterface fw provider w.services).2).2.database = _
    rw [uninstall_snd hprovider, uninstall_snd hkept]
  have hinterfaces : (Value.initrd h).interfaces = {provider, devpath} := rfl
  have hremoved : removed ∪ removed' ⊆ (Value.initrd h).interfaces := by
    rw [hinterfaces]
    refine Finset.union_subset ?_ ?_
    · unfold removed
      split_ifs <;> simp
    · unfold removed'
      split_ifs <;> simp
  refine ⟨(Value.initrd h).interfaces \ (removed ∪ removed'),
    .release hh Finset.sdiff_subset ?_, ?_⟩
  · rw [hdrop, sdiff_sdiff, Finset.sdiff_sdiff_eq_self hremoved]
    rfl
  · -- an interface that was not removed stays
    rw [Finset.sdiff_eq_empty_iff_subset, hinterfaces, Finset.insert_subset_iff,
      Finset.singleton_subset_iff]
    unfold removed removed'
    cases fw.fails w.services.calls <;> cases fw.fails (w.services.calls + 1) <;>
      simp [hne, hne.symm]

lemma moves_step (hw : Ledger.Sound Value.interfaces w.ledger) (e : Event) :
    ∃ left, Ledger.Moves Value.interfaces w.ledger left (step fw w e).ledger ∧
      (left = ∅ ↔ Clean fw w e) := by
  cases e with
  | register devpath provider => exact moves_register w devpath provider
  | load target bytes protocolData =>
    exact ⟨∅, moves_load w target bytes protocolData, iff_of_true rfl trivial⟩
  | start i status =>
    dsimp only [step, Clean]
    rcases hv : w.live[i]? with _ | ⟨h | image⟩
    · exact ⟨∅, .idle, iff_of_true rfl nofun⟩
    · exact ⟨∅, .idle, iff_of_true rfl nofun⟩
    · refine ⟨_, moves_dropImage hv, ?_⟩
      exact iff_of_false (Finset.singleton_ne_empty _) fun h => h image rfl
  | drop i =>
    dsimp only [step, Clean]
    rcases hv : w.live[i]? with _ | ⟨h | image⟩
    · exact ⟨∅, .idle, iff_of_true rfl ⟨nofun, nofun⟩⟩
    · obtain ⟨left, hmoves, hleft⟩ := moves_dropInitrd fw hw hv
      refine ⟨left, hmoves, hleft.trans ?_⟩
      exact ⟨fun h => ⟨nofun, fun _ _ => h⟩, fun h => h.2 _ rfl⟩
    · refine ⟨_, moves_dropImage hv, ?_⟩
      exact iff_of_false (Finset.singleton_ne_empty _) fun h => h.1 image rfl

end Steps

/-- After a run, what is installed is what the values that are alive own just when every step was
clean. -/
theorem accounted_iff (fw : Firmware) (events : List Event) :
    (events.foldl (step fw) World.initial).Accounted ↔
      Ledger.Throughout (step fw) (Clean fw) World.initial events := by
  have hinitial : Ledger.Sound Value.interfaces World.initial.ledger :=
    ⟨Finset.Subset.refl _, List.Pairwise.nil⟩
  have hstep : ∀ w e, Ledger.Sound Value.interfaces w.ledger → ∃ left,
      Ledger.Moves Value.interfaces w.ledger left (step fw w e).ledger ∧
        (left = ∅ ↔ Clean fw w e) := fun _ e hw => moves_step hw e
  obtain ⟨hsound, hleaked⟩ := Ledger.leaked_foldl_eq_empty_iff hstep hinitial events
  have hempty : Ledger.leaked Value.interfaces World.initial.ledger = ∅ := rfl
  exact hsound.leaked_eq_empty_iff.symm.trans (hleaked.trans (and_iff_right hempty))

def countingFirmware (fails : Nat → Bool) : Firmware where
  fails := fails
  anyPages _ := 0
  newHandle _ database := database.sup Interface.handle + 1
  fresh _ _ _ hi :=
    (Nat.lt_succ_of_le (Finset.le_sup (f := Interface.handle) hi)).ne

/-- A registration whose second interface cannot be installed leaves its device path. -/
theorem not_accounted_failedRegistration :
    ¬ ([Event.register 0x1000 0x2000].foldl (step (countingFirmware (· == 1)))
      World.initial).Accounted := by
  decide

end LamBoot.Interfaces
