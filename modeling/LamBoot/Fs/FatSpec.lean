import LamBoot.Fs.Fat

/-!
# What the file operations do to a disk

One specification for each operation on a FAT volume: how the disk is left when the operation ends,
and how it may be left when the firmware refuses it or stops.
-/

namespace LamBoot

open Text Stateful Except

/-- From the disk `d`, a computation ends with a value and a disk that satisfy `post`, or stops
with a disk that satisfies `stopped`. -/
def Ends {α : Type} (d : Disk) (x : FatM α) (post : α → Disk → Prop) (stopped : Disk → Prop) :
    Prop :=
  Triple (fun m => m.disk = d) x (fun a m => post a m.disk) fun _ m => stopped m.disk

section Rules

variable {α β : Type} {d : Disk} {x : FatM α} {f : α → FatM β} {post post' : α → Disk → Prop}
  {stopped stopped' : Disk → Prop}

lemma Ends.imp (h : Ends d x post stopped) (hpost : ∀ a d', post a d' → post' a d')
    (hstopped : ∀ d', stopped d' → stopped' d') : Ends d x post' stopped' :=
  Triple.imp h (fun a m => hpost a m.disk) fun _ m => hstopped m.disk

lemma Ends.imp_stopped (h : Ends d x post stopped) (hstopped : ∀ d', stopped d' → stopped' d') :
    Ends d x post stopped' :=
  h.imp (fun _ _ => id) hstopped

lemma ends_pure {a : α} (h : post a d) : Ends d (pure a) post stopped :=
  triple_pure fun m hm => by rw [hm]; exact h

lemma ends_throw {e : Stop} (h : stopped d) : Ends d (throw e) post stopped :=
  triple_throw fun m hm => by rw [hm]; exact h

lemma ends_fsResult {r : Except FsError α} :
    Ends d (fsResult r) (fun a d' => d' = d ∧ r = .ok a) (· = d) := by
  cases r with
  | ok a => exact ends_pure ⟨rfl, rfl⟩
  | error e => exact ends_throw rfl

lemma Ends.media {m : Media} (h : Ends m.disk x post stopped) :
    Triple (· = m) x (fun a m' => post a m'.disk) fun _ m' => stopped m'.disk :=
  Triple.of_pre h fun _ hm => by rw [hm]

lemma Ends.bind {mid : α → Disk → Prop} {post : β → Disk → Prop} (hx : Ends d x mid stopped)
    (hf : ∀ a d', mid a d' → Ends d' (f a) post stopped) : Ends d (x >>= f) post stopped :=
  Triple.bind hx fun a m hm => (hf a m.disk hm).media

lemma ends_attempt {post : Except FsError α → Disk → Prop} (h : Ends d x (fun a => post (.ok a))
      fun d' => (∀ e, post (.error e) d') ∧ stopped d') :
    Ends d (attempt Stop.error? x) post stopped :=
  triple_attempt (Triple.imp_stopped h fun _ _ hs =>
    ⟨fun e _ => hs.1 e, fun _ => hs.2⟩)

end Rules

/-! ### Operations of the firmware -/

namespace FatDriver

variable {α : Type} {driver : FatDriver} {d : Disk} {op : FileOp} {file : FileHandle}

def Refuses (driver : FatDriver) (op : FileOp) : Prop :=
  ∃ clock, driver.answer clock op ≠ .succeeds

lemma ends_perform {partly : Nat → Disk → Disk} {result : Disk → Except Status (α × Disk)} :
    Ends d (driver.perform op partly result) (fun a d' => result d = .ok (a, d')) fun d' =>
      (d' = d ∧ ∃ status, result d = .error status) ∨
        (driver.Refuses op ∧ ∃ progress, d' = partly progress d) := by
  rintro m rfl
  cases ha : driver.answer m.clock op with
  | succeeds =>
    cases hr : result m.disk with
    | ok r =>
      rw [perform_of_ok ha hr]
    | error status =>
      rw [perform_of_error ha hr]
      exact .inl ⟨rfl, status, rfl⟩
  | fails status progress =>
    rw [perform_of_fails ha]
    exact .inr ⟨⟨m.clock, by rw [ha]; nofun⟩, progress, rfl⟩
  | halts progress =>
    rw [perform_of_halts ha]
    exact .inr ⟨⟨m.clock, by rw [ha]; nofun⟩, progress, rfl⟩

lemma ends_query_or {result : Disk → Except Status α} :
    Ends d (driver.query op result) (fun a d' => d' = d ∧ result d = .ok a) fun d' =>
      d' = d ∧ ((∀ a, result d ≠ .ok a) ∨ driver.Refuses op) := by
  refine Ends.imp ends_perform (fun a d' h => ?_) fun d' h => ?_
  · obtain ⟨b, hb, heq⟩ := map_eq_ok_iff.mp h
    cases heq
    exact ⟨rfl, hb⟩
  · rcases h with ⟨rfl, status, h⟩ | ⟨h, -, rfl⟩
    · refine ⟨rfl, .inl fun a ha => ?_⟩
      rw [ha] at h
      cases h
    · exact ⟨rfl, .inr h⟩

lemma ends_query {result : Disk → Except Status α} :
    Ends d (driver.query op result) (fun a d' => d' = d ∧ result d = .ok a) (· = d) :=
  Ends.imp_stopped ends_query_or fun _ h => h.1

lemma ends_queryFile {result : Bytes → Except Status α} :
    Ends d (driver.queryFile op file result)
      (fun a d' => d' = d ∧ ∃ content, d.content file.name = some content ∧
        result content = .ok a) (· = d) :=
  Ends.imp ends_query (fun _ _ h => ⟨h.1, onContent_eq_ok_iff.mp h.2⟩) fun _ => id

lemma ends_openVolume : Ends d driver.openVolume (fun _ d' => d' = d) (· = d) :=
  Ends.imp ends_query (fun _ _ h => h.1) fun _ => id

lemma ends_openFile {cstr : Text} {mode : FileMode} {node : FileNode}
    (hmode : mode ≠ .createReadWrite) :
    Ends d (driver.openFile cstr mode node)
      (fun file d' => d' = d ∧ file = ⟨driver.stored cstr, 0⟩ ∧ d (driver.stored cstr) ≠ none)
      (· = d) := by
  have h : Ends d (driver.query (.openFile cstr mode) (opened (driver.stored cstr)))
      (fun file d' => d' = d ∧ file = ⟨driver.stored cstr, 0⟩ ∧ d (driver.stored cstr) ≠ none)
      (· = d) := by
    refine Ends.imp ends_query (fun file d' h => ?_) fun _ => id
    obtain ⟨hd, rfl⟩ := opened_eq_ok_iff.mp h.2
    exact ⟨h.1, rfl, hd⟩
  cases mode with
  | read => exact h
  | readWrite => exact h
  | createReadWrite => exact absurd rfl hmode

lemma ends_create {cstr : Text} {node : FileNode} :
    Ends d (driver.openFile cstr .createReadWrite node)
      (fun file d' => d' = created (driver.stored cstr) node d ∧ file = ⟨driver.stored cstr, 0⟩)
      (fun d' => d' = d ∨ d' = created (driver.stored cstr) node d) := by
  rw [openFile]
  refine Ends.imp ends_perform (fun file d' h => ?_) fun d' h => ?_
  · simp only [ok.injEq, Prod.mk.injEq] at h
    exact ⟨h.2.symm, h.1.symm⟩
  · rcases h with h | ⟨-, progress, rfl⟩
    · exact .inl h.1
    · split_ifs
      · exact .inl rfl
      · exact .inr rfl

lemma ends_intoRegularFile :
    Ends d (driver.intoRegularFile file)
      (fun r d' => d' = d ∧ ((r = some file ∧ ∃ content, d.content file.name = some content) ∨
        (r = none ∧ (d.content file.name = none ∨ driver.Refuses .getPosition)))) (· = d) := by
  have hposition : Ends d (attempt Stop.error? (driver.getPosition file))
      (fun r d' => d' = d ∧ ((r.isOk = true ∧ ∃ content, d.content file.name = some content) ∨
        (r.isOk = false ∧ (d.content file.name = none ∨ driver.Refuses .getPosition))))
      (· = d) := by
    refine ends_attempt (Ends.imp ends_query_or (fun n d' h => ?_) fun d' h => ⟨fun e => ?_, h.1⟩)
    · exact ⟨h.1, .inl ⟨rfl, (positionIn_eq_ok_iff.mp h.2).1⟩⟩
    · refine ⟨h.1, .inr ⟨rfl, h.2.imp_left fun hn => ?_⟩⟩
      rw [Option.eq_none_iff_forall_ne_some]
      exact fun content hc => hn _ (positionIn_eq_ok_iff.mpr ⟨⟨content, hc⟩, rfl⟩)
  refine Ends.bind hposition fun r d' hr => ?_
  obtain ⟨rfl, hr⟩ := hr
  cases r with
  | ok n => exact ends_pure ⟨rfl, by simpa [Except.isOk, Except.toBool] using hr⟩
  | error e => exact ends_pure ⟨rfl, by simpa [Except.isOk, Except.toBool] using hr⟩

lemma ends_setPosition {position : Nat} :
    Ends d (driver.setPosition file position)
      (fun r d' => d' = d ∧ ∃ content, d.content file.name = some content ∧
        r = { file with position := seek content position }) (· = d) := by
  refine Ends.imp ends_queryFile (fun r d' h => ?_) fun _ => id
  obtain ⟨rfl, content, hc, hr⟩ := h
  exact ⟨rfl, content, hc, (ok.inj hr).symm⟩

lemma ends_fileSize :
    Ends d (driver.fileSize file)
      (fun size d' => d' = d ∧ ∃ content, d.content file.name = some content ∧
        size = content.length) (· = d) := by
  refine Ends.imp ends_queryFile (fun r d' h => ?_) fun _ => id
  obtain ⟨rfl, content, hc, hr⟩ := h
  exact ⟨rfl, content, hc, (ok.inj hr).symm⟩

lemma ends_read {len : Nat} :
    Ends d (driver.read file len)
      (fun bytes d' => d' = d ∧ ∃ content, d.content file.name = some content ∧
        bytes = (content.drop file.position).take len) (· = d) := by
  refine Ends.imp ends_queryFile (fun r d' h => ?_) fun _ => id
  obtain ⟨rfl, content, hc, hr⟩ := h
  split_ifs at hr
  exact ⟨rfl, content, hc, (ok.inj hr).symm⟩

lemma ends_write {data : Bytes} :
    Ends d (driver.write file data) (fun _ d' => d' = written file data d)
      (fun d' => ∃ progress, d' = written file (data.take progress) d) := by
  refine Ends.imp ends_perform (fun r d' h => ?_) fun d' h => ?_
  · simpa using h.symm
  · rcases h with ⟨-, status, h⟩ | ⟨-, h⟩
    · cases h
    · exact h

lemma ends_delete :
    Ends d (driver.delete file) (fun _ d' => d' = deleted file d)
      (fun d' => d' = d ∨ d' = deleted file d) := by
  refine Ends.imp ends_perform (fun r d' h => ?_) fun d' h => ?_
  · simpa using h.symm
  · rcases h with h | ⟨-, progress, rfl⟩
    · exact .inl h.1
    · split_ifs
      · exact .inl rfl
      · exact .inr rfl

end FatDriver

/-! ### Reading -/

def FatDriver.nameOf (driver : FatDriver) (path : PathBuf) : Text :=
  driver.stored (replaceChar '/' '\\' path.asStr)

variable {driver : FatDriver} {d : Disk} {path : PathBuf}

lemma stored_of_toUefiPath (driver : FatDriver) {cstr : Text} (h : toUefiPath path = .ok cstr) :
    driver.stored cstr = driver.nameOf path := by
  simp only [toUefiPath] at h
  split at h
  · rw [← ok.inj h, FatDriver.nameOf]
    split_ifs with hroot
    · rw [hroot]; rfl
    · rfl
  · cases h

lemma ends_regularOrErr {handle : FileHandle} :
    Ends d (regularOrErr driver handle)
      (fun file d' => d' = d ∧ file = handle ∧ ∃ content, d.content handle.name = some content)
      (· = d) := by
  refine Ends.bind FatDriver.ends_intoRegularFile fun r d' hr => ?_
  obtain ⟨rfl, ⟨rfl, hc⟩ | ⟨rfl, -⟩⟩ := hr
  · exact ends_pure ⟨rfl, rfl, hc⟩
  · exact ends_throw rfl

lemma ends_openFileRead :
    Ends d (openFileRead driver path)
      (fun file d' => d' = d ∧ file = ⟨driver.nameOf path, 0⟩ ∧ (toUefiPath path).isOk = true ∧
        ∃ content, d.content (driver.nameOf path) = some content) (· = d) := by
  refine Ends.bind ends_fsResult fun cstr d' h => ?_
  obtain ⟨rfl, hcstr⟩ := h
  refine Ends.bind (FatDriver.ends_openFile (by decide)) fun handle d'' h => ?_
  obtain ⟨rfl, rfl, -⟩ := h
  rw [stored_of_toUefiPath driver hcstr, hcstr]
  exact Ends.imp ends_regularOrErr (fun _ _ h => ⟨h.1, h.2.1, rfl, h.2.2⟩) fun _ => id

lemma ends_readThroughSfs :
    Ends d (readThroughSfs driver path)
      (fun bytes d' => d' = d ∧ (toUefiPath path).isOk = true ∧
        d.content (driver.nameOf path) = some bytes ∧ bytes.length ≤ maxBootFileBytes)
      (· = d) := by
  refine Ends.bind FatDriver.ends_openVolume fun _ d' h => ?_
  subst h
  refine Ends.bind ends_openFileRead fun file d'' h => ?_
  obtain ⟨rfl, rfl, hpath, content, hc⟩ := h
  refine Ends.bind FatDriver.ends_fileSize fun size d' h => ?_
  obtain ⟨rfl, content', hc', rfl⟩ := h
  obtain rfl : content = content' := by simpa [hc] using hc'
  refine Ends.bind ends_fsResult fun size d'' h => ?_
  obtain ⟨rfl, h⟩ := h
  obtain ⟨hle, rfl⟩ : content.length ≤ maxBootFileBytes ∧ size = content.length := by
    unfold checkedFullReadLen at h
    split_ifs at h with hlt
    exact ⟨by omega, (ok.inj h).symm⟩
  refine Ends.imp FatDriver.ends_read (fun bytes d' h => ?_) fun _ => id
  obtain ⟨rfl, content', hc', rfl⟩ := h
  obtain rfl : content = content' := by simpa [hc] using hc'
  simpa [hc, hpath] using hle

lemma ends_fatReadAt {offset len : Nat} :
    Ends d (fatReadAt driver path offset len)
      (fun bytes d' => d' = d ∧ ∃ content, d.content (driver.nameOf path) = some content ∧
        bytes = (content.drop (seek content offset)).take len) (· = d) := by
  refine Ends.bind FatDriver.ends_openVolume fun _ d' h => ?_
  subst h
  refine Ends.bind ends_openFileRead fun file d'' h => ?_
  obtain ⟨rfl, rfl, -⟩ := h
  refine Ends.bind FatDriver.ends_setPosition fun file d' h => ?_
  obtain ⟨rfl, content, hc, rfl⟩ := h
  refine Ends.imp FatDriver.ends_read (fun bytes d'' h => ?_) fun _ => id
  obtain ⟨rfl, content', hc', rfl⟩ := h
  obtain rfl : content = content' := by simpa [hc] using hc'
  exact ⟨rfl, content, hc, rfl⟩

/-! ### Writing -/

def Removed (name : Text) (d d' : Disk) : Prop :=
  d' = d ∨ (∃ content, d.content name = some content) ∧ d' = Function.update d name none

lemma ends_removeExisting {cstr : Text} :
    Ends d (removeExisting driver cstr) (fun _ => Removed (driver.stored cstr) d)
      (Removed (driver.stored cstr) d) := by
  have hopen : Ends d (attempt Stop.error? (driver.openFile cstr .readWrite (.file [])))
      (fun r d' => d' = d ∧ ∀ file, r = .ok file → file = ⟨driver.stored cstr, 0⟩)
      (Removed (driver.stored cstr) d) := by
    refine ends_attempt ((FatDriver.ends_openFile (by decide)).imp (fun file d' h => ?_)
      fun d' h => ?_)
    · exact ⟨h.1, fun file' h' => by rw [← ok.inj h', h.2.1]⟩
    · exact ⟨fun e => ⟨h, nofun⟩, .inl h⟩
  refine Ends.bind hopen fun r d' h => ?_
  obtain ⟨rfl, hr⟩ := h
  cases r with
  | error e => exact ends_pure (.inl rfl)
  | ok file =>
    obtain rfl := hr file rfl
    refine Ends.bind (Ends.imp_stopped FatDriver.ends_intoRegularFile fun _ => .inl)
      fun r d'' h => ?_
    obtain ⟨rfl, ⟨rfl, hc⟩ | ⟨rfl, -⟩⟩ := h
    · have hdelete : ∀ d', (d' = d'' ∨ d' = FatDriver.deleted ⟨driver.stored cstr, 0⟩ d'') →
          Removed (driver.stored cstr) d'' d' := fun d' h => h.imp_right fun h => ⟨hc, h⟩
      refine Ends.bind
        (ends_attempt (Ends.imp FatDriver.ends_delete (fun _ d' h => ?_) fun d' h => ?_))
        fun _ _ h => ends_pure h
      · exact hdelete d' (.inr h)
      · exact ⟨fun _ => hdelete d' h, hdelete d' h⟩
    · exact ends_pure (.inl rfl)

lemma ends_fatWrite_of_error {data : Bytes} (h : (toUefiPath path).isOk = false) :
    Ends d (fatWrite driver path data) (fun _ _ => False) (· = d) := by
  refine Ends.bind FatDriver.ends_openVolume fun _ d' hd => ?_
  subst hd
  cases hpath : toUefiPath path with
  | ok cstr => simp [hpath, Except.isOk, Except.toBool] at h
  | error e => exact ends_throw rfl

lemma ends_fatWrite_of_content_eq_none {data : Bytes}
    (hfree : d.content (driver.nameOf path) = none) :
    Ends d (fatWrite driver path data)
      (fun _ d' => d (driver.nameOf path) = none ∧
        d' = Function.update d (driver.nameOf path) (some (.file data)))
      (fun d' => d' = d ∨ d (driver.nameOf path) = none ∧
        ∃ n, d' = Function.update d (driver.nameOf path) (some (.file (data.take n)))) := by
  refine Ends.bind (Ends.imp_stopped FatDriver.ends_openVolume fun _ => .inl) fun _ d' h => ?_
  subst h
  refine Ends.bind (Ends.imp_stopped ends_fsResult fun _ => .inl) fun cstr d'' h => ?_
  obtain ⟨rfl, hcstr⟩ := h
  have hname := stored_of_toUefiPath driver hcstr
  rw [← hname] at hfree ⊢
  have hkept : ∀ d', Removed (driver.stored cstr) d'' d' → d' = d'' := by
    rintro d' (h | ⟨⟨content, hc⟩, -⟩)
    · exact h
    · simp [hfree] at hc
  refine Ends.bind (Ends.imp ends_removeExisting (fun _ => hkept) fun d' h => .inl (hkept d' h))
    fun _ d' h => ?_
  subst h
  cases hd : d' (driver.stored cstr) with
  | none =>
    refine Ends.bind (Ends.imp_stopped FatDriver.ends_create fun d'' h => ?_)
      fun handle d'' h => ?_
    · rw [FatDriver.created_of_none hd] at h
      exact h.imp_right fun h => ⟨rfl, 0, by simpa using h⟩
    · obtain ⟨rfl, rfl⟩ := h
      rw [FatDriver.created_of_none hd]
      refine Ends.bind (Ends.imp_stopped ends_regularOrErr fun d'' h => ?_) fun file d'' h => ?_
      · exact .inr ⟨rfl, 0, by simpa using h⟩
      · obtain ⟨rfl, rfl, -⟩ := h
        refine Ends.imp FatDriver.ends_write (fun _ d'' h => ⟨rfl, ?_⟩) fun d'' h => .inr ⟨rfl, ?_⟩
        · rw [h, FatDriver.written_new]
        · obtain ⟨n, rfl⟩ := h
          exact ⟨n, FatDriver.written_new⟩
  | some node =>
    refine Ends.bind (Ends.imp_stopped FatDriver.ends_create fun d'' h => ?_)
      fun handle d'' h => ?_
    · rw [FatDriver.created_of_some hd, or_self] at h
      exact .inl h
    · obtain ⟨rfl, rfl⟩ := h
      rw [FatDriver.created_of_some hd]
      refine Ends.bind (Ends.imp_stopped ends_regularOrErr fun _ => .inl) fun file d'' h => ?_
      obtain ⟨-, -, content, hc⟩ := h
      simp [hfree] at hc

lemma ends_deleteOrErr {file : FileHandle} :
    Ends d (deleteOrErr driver file) (fun _ d' => d' = FatDriver.deleted file d)
      (fun d' => d' = d ∨ d' = FatDriver.deleted file d) := by
  have hdelete : Ends d (attempt Stop.error? (driver.delete file))
      (fun r d' => if r.isOk then d' = FatDriver.deleted file d
        else d' = d ∨ d' = FatDriver.deleted file d)
      (fun d' => d' = d ∨ d' = FatDriver.deleted file d) :=
    ends_attempt (Ends.imp FatDriver.ends_delete (fun _ _ h => h) fun d' h => ⟨fun _ => h, h⟩)
  refine Ends.bind hdelete fun r d' h => ?_
  cases r with
  | ok u => exact ends_pure h
  | error e => exact ends_throw h

lemma ends_fatTrueAppend {data : Bytes} :
    Ends d (fatTrueAppend driver path data)
      (fun _ d' => d'.content (driver.nameOf path) =
        some ((d.content (driver.nameOf path)).getD [] ++ data)) fun _ => True := by
  refine Ends.bind (Ends.imp_stopped FatDriver.ends_openVolume fun _ _ => trivial) fun _ d' h => ?_
  subst h
  refine Ends.bind (Ends.imp_stopped ends_fsResult fun _ _ => trivial) fun cstr d' h => ?_
  obtain ⟨rfl, hcstr⟩ := h
  refine Ends.bind (Ends.imp_stopped FatDriver.ends_create fun _ _ => trivial) fun file d₁ h => ?_
  obtain ⟨rfl, rfl⟩ := h
  rw [stored_of_toUefiPath driver hcstr]
  refine Ends.bind (Ends.imp_stopped ends_regularOrErr fun _ _ => trivial) fun file d₂ h => ?_
  obtain ⟨rfl, rfl, content, hc⟩ := h
  have hbefore : (d'.content (driver.nameOf path)).getD [] = content := by
    cases hd : d' (driver.nameOf path) with
    | none =>
      rw [FatDriver.created_of_none hd, Disk.content_update_self] at hc
      rw [Disk.content, hd]
      exact Option.some.inj hc
    | some node =>
      rw [FatDriver.created_of_some hd] at hc
      rw [hc]
      rfl
  refine Ends.bind (Ends.imp_stopped FatDriver.ends_setPosition fun _ _ => trivial)
    fun file d₃ h => ?_
  obtain ⟨rfl, content', hc', rfl⟩ := h
  obtain rfl : content = content' := by simpa [hc] using hc'
  refine Ends.imp FatDriver.ends_write (fun _ d₄ h => ?_) fun _ _ => trivial
  rw [h, FatDriver.written, hc, hbefore]
  simp [writeAt, seek]

end LamBoot
