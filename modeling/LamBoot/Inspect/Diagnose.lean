import LamBoot.Inspect.Parse

/-!
# What the inspector concludes

The queries and the statistics of `trust_log.py`, the rules of `diagnose.py` and the attestation of
`audit_ext.py`.
-/

namespace LamBoot.Inspect

open List Text Python

/-! ### Queries -/

namespace ParseResult

variable (r : ParseResult)

def byEvent (name : Text) : List ParsedEvent :=
  r.events.filter (·.event = name)

def findVerifiedLoad : Option ParsedEvent :=
  (r.byEvent imageVerified).getLast?

def findLoadedNative : Option ParsedEvent :=
  (r.byEvent "image_loaded_native").getLast?

def first (name : Text) : Option ParsedEvent :=
  (r.byEvent name).head?

end ParseResult

/-- Whether the digests of the verified and the loaded image agree, if both are recorded. -/
def sha256VerifyVsLoadMatch (r : ParseResult) : Option Bool :=
  match r.findVerifiedLoad, r.findLoadedNative with
  | some verified, some loaded =>
    if verified.sha256 ≠ [] ∧ loaded.sha256 ≠ [] then some (verified.sha256 == loaded.sha256)
    else none
  | _, _ => none

/-! ### Findings -/

inductive Severity where
  | info
  | warning
  | error
  | critical
deriving DecidableEq, Repr

def Severity.rank : Severity → Nat
  | .info => 0
  | .warning => 1
  | .error => 2
  | .critical => 3

inductive FindingStatus where
  | warn
  | fail
  | info
deriving DecidableEq, Repr

structure Remediation where
  summary : Text
  command : Text := []
  docUrl : Text := []

structure Finding where
  id : Text
  category : Text := "boot"
  severity : Severity
  status : FindingStatus
  title : Text
  message : Text
  context : Dict := []
  remediation : Option Remediation := none

def orElse (s t : Text) : Text :=
  if s = [] then t else s

def degradedRec : Remediation where
  summary := "Secure Boot is off, so the kernel was not cryptographically verified. " ++
    "Enrol a MOK (Config 3) or use pre-enrolled OVMF VARS (Config 4) for real trust."
  docUrl := "https://lamboot.dev/secure-boot"

def ruleTrustToken (r : ParseResult) : List Finding :=
  match r.findVerifiedLoad with
  | none => []
  | some verified =>
    let via := verified.verifiedVia
    let base : Dict := [("seq", .int verified.seq), ("verified_via", .str via),
      ("sha256", .str verified.sha256)]
    if via = "degraded_trust_sb_off" then
      [{ id := "trust.sb_off"
         severity := .warning
         status := .warn
         title := "Kernel was not cryptographically verified (Secure Boot off)"
         message := "image_verified recorded degraded_trust_sb_off — firmware trusted the " ++
           "image, no shim/MOK verification occurred."
         context := base
         remediation := some degradedRec }]
    else if via ∈ (["security_override", "sb_disabled"] : List Text) then
      [{ id := "trust.sb_off"
         severity := .warning
         status := .warn
         title := "Kernel trust degraded (Secure Boot disabled / overridden)"
         message := "verified_via=" ++ via
         context := base
         remediation := some degradedRec }]
    else if via = "firmware_db_fallback" then
      [{ id := "trust.sb_direct"
         severity := .warning
         status := .warn
         title := "Image trusted directly via firmware db (not shim/MOK)"
         message := "verified_via=firmware_db_fallback — confirm the signing chain is intended."
         context := base }]
    else if via ∈ rejectedTokens then
      [{ id := "trust.shim_rejected"
         severity := .error
         status := .fail
         title := "Image verification was REJECTED"
         message := "verified_via=" ++ via ++
           " — the image was refused by the trust chain."
         context := base
         remediation := some
           { summary := "Check MOK enrolment and the kernel signature."
             command := "sudo lamboot-signing-keys status" } }]
    else []

def rulePreflight (r : ParseResult) : List Finding :=
  (r.byEvent "preflight_issue").map fun e =>
    { id := "boot.preflight_issue"
      severity := .error
      status := .fail
      title := "A boot entry failed preflight (red-✗)"
      message := orElse e.note "entry rejected before load"
      context := [("seq", .int e.seq), ("path", .str e.path), ("note", .str e.note)]
      remediation := some
        { summary := "Map the message to a fix: symlink unreadable -> upgrade the FS " ++
            "backend; driver missing -> deploy the <fs>_x64.efi driver; initrd " ++
            "not found -> regenerate the initramfs."
          command := "sudo lamboot-inspect trust-log --errors-only" } }

def ruleCrashloop (py : Python) (r : ParseResult) : List Finding :=
  match r.first "boot_start" with
  | none => []
  | some start =>
    match searchNumber py "crash_counter=" start.note with
    | none | some 0 => []
    | some n =>
      [{ id := "boot.crashloop"
         severity := .warning
         status := .warn
         title := "Previous boot(s) failed — crash counter is " ++ decimal n
         message := "Crash-loop recovery is engaged; a prior boot did not mark success."
         context := [("crash_counter", .int n)]
         remediation := some
           { summary := "Inspect the retained history for the failed boot."
             command := "lamboot-inspect history" } }]

def ruleNoEntries (py : Python) (r : ParseResult) : List Finding :=
  let foundZero := (r.first "bls_entries_found").any fun e => searchWord py "count=0" e.note
  let discZero := (r.first "entries_discovered").any fun e => searchWord py "total=0" e.note
  if foundZero || discZero then
    [{ id := "boot.no_entries"
       severity := .error
       status := .fail
       title := "No boot entries were discovered"
       message := "LamBoot found zero BLS entries to boot."
       remediation := some
         { summary := "Check BLS placement: /loader/entries on the ESP, with the /boot/ prefix " ++
             "for a no-separate-/boot layout."
           command := "lamboot-esp inventory" } }]
  else []

def ruleFirmwareFallback (r : ParseResult) : List Finding :=
  if r.byEvent "firmware_loadimage" ≠ [] ∧ r.findLoadedNative.isNone then
    [{ id := "boot.firmware_fallback"
       severity := .warning
       status := .warn
       title := "Booted via firmware LoadImage, not the native PE loader"
       message := "The native filesystem backend was unavailable for this layout."
       remediation := some
         { summary := "Confirm the native FS backend covers this /boot filesystem; " ++
             "otherwise a UEFI driver was used." } }]
  else []

def ruleMeasuredSkipped (r : ParseResult) : List Finding :=
  if (r.byEvent "kernel_measurement_skipped").any fun e => contains "no_tpm" e.note then
    [{ id := "trust.measured_skipped"
       severity := .info
       status := .info
       title := "Measured boot unavailable (no TPM)"
       message := "kernel/cmdline measurement was skipped — this host has no usable TPM."
       remediation := some
         { summary := "Add a vTPM to enable PCR measurement + attestation." } }]
  else []

def ruleKernelMismatch (r : ParseResult) : List Finding :=
  if sha256VerifyVsLoadMatch r = some false then
    let digest (e : Option ParsedEvent) : Json := (e.map fun e => Json.str e.sha256).getD .null
    [{ id := "audit.kernel_mismatch"
       severity := .error
       status := .fail
       title := "Loaded image differs from the verified image"
       message := "The sha256 recorded at image_verified does not match image_loaded_native — " ++
         "possible corruption or substitution."
       context := [("verified_sha256", digest r.findVerifiedLoad),
         ("loaded_sha256", digest r.findLoadedNative)]
       remediation := some
         { summary := "Re-verify and re-deploy the bootloader/kernel."
           command := "sudo lamboot-inspect verify" } }]
  else []

def ruleExplicitFailures (r : ParseResult) : List Finding :=
  failureEvents.flatMap fun name =>
    (r.byEvent name).map fun e =>
      { id := "boot.event_failed"
        severity := .error
        status := .fail
        title := "Failure event: " ++ e.event
        message := orElse e.note e.status
        context := [("seq", .int e.seq), ("event", .str e.event)] }

def evaluate (py : Python) (r : ParseResult) : List Finding :=
  ruleTrustToken r ++ rulePreflight r ++ ruleCrashloop py r ++ ruleNoEntries py r ++
    ruleFirmwareFallback r ++ ruleMeasuredSkipped r ++ ruleKernelMismatch r ++
    ruleExplicitFailures r

/-! ### The commands -/

def exitOk : Nat := 0
def exitPartial : Nat := 2
def exitUnsafe : Nat := 4

def exitCodeFor (findings : List Finding) (strict integrityViolation : Bool) : Nat :=
  if strict && integrityViolation then exitUnsafe
  else if findings.any fun f => f.severity = .error ∨ f.severity = .critical then exitPartial
  else exitOk

/-- `diagnose` of a log that could be read: what it shows, and its exit code. -/
def diagnose (py : Python) (strict : Bool) (floor : Severity) (r : ParseResult) :
    List Finding × Nat :=
  let violations := r.schemaViolations.length
  let integrityViolation := violations ≠ 0
  let chainBreak : Finding :=
    { id := "audit.chain_break"
      severity := .warning
      status := .warn
      title := "Trust-log integrity issue"
      message := decimal violations ++ " schema/integrity violation(s) — the " ++
        "log may be truncated or altered."
      remediation := some
        { summary := "Compare against retained history."
          command := "lamboot-inspect history" } }
  let findings := evaluate py r ++ if integrityViolation then [chainBreak] else []
  let shown := findings.filter fun f => floor.rank ≤ f.severity.rank
  (shown, exitCodeFor shown strict integrityViolation)

structure Measurement where
  event : Text
  pcr : Option Nat
deriving DecidableEq, Repr

structure Attestation where
  boot : Text
  loadedPath : Option Text
  loadedSha256 : Option Text
  verifiedVia : Option Text
  measuredBoot : Text
  measurements : List Measurement
  sourceSha256 : Option Text
deriving DecidableEq, Repr

def measurements (py : Python) (r : ParseResult) : List Measurement :=
  (["kernel_measured", "cmdline_measured"] : List Text).flatMap fun name =>
    (r.byEvent name).map fun e => ⟨name, searchNumber py "pcr=" e.note⟩

/-- The record that `attest` exports. -/
def attestation (py : Python) (r : ParseResult) : Attestation :=
  let loaded := r.findLoadedNative.or r.findVerifiedLoad
  let measured := measurements py r
  { boot := ((r.first "boot_start").map ParsedEvent.note).getD []
    loadedPath := loaded.map ParsedEvent.path
    loadedSha256 := loaded.map ParsedEvent.sha256
    verifiedVia := loaded.map ParsedEvent.verifiedVia
    measuredBoot := if measured = [] then "unavailable (no TPM)" else "available"
    measurements := measured
    sourceSha256 := r.sourceSha256 }

/-! ### The ids of the findings -/

section Ids

variable {py : Python} {r : ParseResult} {f : Finding}

def trustIds : List Text :=
  ["trust.sb_off", "trust.sb_direct", "trust.shim_rejected"]

lemma id_of_mem_ruleTrustToken (h : f ∈ ruleTrustToken r) : f.id ∈ trustIds := by
  unfold ruleTrustToken at h
  split at h
  · cases h
  · dsimp only at h
    split_ifs at h
    · rw [mem_singleton.mp h]
      exact mem_of_getElem? (i := 0) rfl
    · rw [mem_singleton.mp h]
      exact mem_of_getElem? (i := 0) rfl
    · rw [mem_singleton.mp h]
      exact mem_of_getElem? (i := 1) rfl
    · rw [mem_singleton.mp h]
      exact mem_of_getElem? (i := 2) rfl
    · cases h

lemma id_of_mem_rulePreflight (h : f ∈ rulePreflight r) : f.id = "boot.preflight_issue" := by
  obtain ⟨e, -, rfl⟩ := mem_map.mp h
  rfl

lemma id_of_mem_ruleCrashloop (h : f ∈ ruleCrashloop py r) : f.id = "boot.crashloop" := by
  unfold ruleCrashloop at h
  split at h
  · cases h
  · split at h
    · cases h
    · cases h
    · rw [mem_singleton.mp h]

lemma id_of_mem_ruleNoEntries (h : f ∈ ruleNoEntries py r) : f.id = "boot.no_entries" := by
  rw [ruleNoEntries] at h
  split_ifs at h
  · rw [mem_singleton.mp h]
  · cases h

lemma id_of_mem_ruleFirmwareFallback (h : f ∈ ruleFirmwareFallback r) :
    f.id = "boot.firmware_fallback" := by
  rw [ruleFirmwareFallback] at h
  split_ifs at h
  · rw [mem_singleton.mp h]
  · cases h

lemma id_of_mem_ruleMeasuredSkipped (h : f ∈ ruleMeasuredSkipped r) :
    f.id = "trust.measured_skipped" := by
  rw [ruleMeasuredSkipped] at h
  split_ifs at h
  · rw [mem_singleton.mp h]
  · cases h

lemma id_of_mem_ruleKernelMismatch (h : f ∈ ruleKernelMismatch r) :
    f.id = "audit.kernel_mismatch" := by
  rw [ruleKernelMismatch] at h
  split_ifs at h
  · rw [mem_singleton.mp h]
  · cases h

lemma id_of_mem_ruleExplicitFailures (h : f ∈ ruleExplicitFailures r) :
    f.id = "boot.event_failed" := by
  obtain ⟨name, -, h⟩ := mem_flatMap.mp h
  obtain ⟨e, -, rfl⟩ := mem_map.mp h
  rfl

lemma mem_ruleTrustToken_of_mem_evaluate (h : f ∈ evaluate py r) (hid : f.id ∈ trustIds) :
    f ∈ ruleTrustToken r := by
  have hne : ∀ id ∈ (["boot.preflight_issue", "boot.crashloop", "boot.no_entries",
      "boot.firmware_fallback", "trust.measured_skipped", "audit.kernel_mismatch",
      "boot.event_failed"] : List Text), id ∉ trustIds := by
    decide
  simp only [evaluate, mem_append] at h
  rcases h with ((((((h | h) | h) | h) | h) | h) | h) | h
  · exact h
  · exact absurd (id_of_mem_rulePreflight h ▸ hid) (hne _ (by decide))
  · exact absurd (id_of_mem_ruleCrashloop h ▸ hid) (hne _ (by decide))
  · exact absurd (id_of_mem_ruleNoEntries h ▸ hid) (hne _ (by decide))
  · exact absurd (id_of_mem_ruleFirmwareFallback h ▸ hid) (hne _ (by decide))
  · exact absurd (id_of_mem_ruleMeasuredSkipped h ▸ hid) (hne _ (by decide))
  · exact absurd (id_of_mem_ruleKernelMismatch h ▸ hid) (hne _ (by decide))
  · exact absurd (id_of_mem_ruleExplicitFailures h ▸ hid) (hne _ (by decide))

end Ids

end LamBoot.Inspect
