import LamBoot.Library.Text

/-!
# Trust events

The evidence records of `trust_log_pure.rs` and the vocabulary of their `verified_via` field.
-/

namespace LamBoot

open Text List

/-- One evidence record. -/
structure TrustEvent where
  event : Text
  path : Text := []
  size : Nat := 0
  sha256Hex : Text := []
  verifiedVia : Text := []
  status : Text := []
  note : Text := []
  verifierTag : Text := []
deriving DecidableEq, Repr

def vShimMok : Text := "shim_mok"
def vDegradedTrustSbOff : Text := "degraded_trust_sb_off"
def vDegradedTrustSbDirect : Text := "degraded_trust_sb_direct"
def vShimRejected : Text := "shim_rejected"
def vNativePeLoader : Text := "native_pe_loader"
def vFirmwareLoadimage : Text := "firmware_loadimage"

/-- `format!("\x7b:?\x7d")` of a string of printable characters: quoted, with the quote and the
backslash escaped. -/
def debugStr (s : Text) : Text :=
  '"' :: (s.flatMap fun c => if c = '"' ∨ c = '\\' then ['\\', c] else [c]) ++ ['"']

def hexEncode (digest : Bytes) : Text :=
  digest.flatMap fun b => [Nat.digitChar (b.toNat / 16), Nat.digitChar (b.toNat % 16)]

lemma hexDigits_injective :
    ∀ m < 256, ∀ n < 256, Nat.digitChar (m / 16) = Nat.digitChar (n / 16) →
      Nat.digitChar (m % 16) = Nat.digitChar (n % 16) → m = n := by
  have hdigit : ∀ i < 16, ∀ j < 16, Nat.digitChar i = Nat.digitChar j → i = j := by decide
  intro m hm n hn hhigh hlow
  have hdiv := hdigit _ (by omega) _ (by omega) hhigh
  have hmod := hdigit _ (by omega) _ (by omega) hlow
  omega

lemma hexEncode_injective : Function.Injective hexEncode := by
  intro s t h
  induction s generalizing t with
  | nil =>
    cases t with
    | nil => rfl
    | cons b t => exact nomatch h
  | cons a s ih =>
    cases t with
    | nil => exact nomatch h
    | cons b t =>
      simp only [hexEncode, flatMap_cons, cons_append, nil_append,
        cons.injEq] at h
      obtain ⟨hhigh, hlow, hrest⟩ := h
      have hab := hexDigits_injective _ a.toNat_lt _ b.toNat_lt hhigh hlow
      rw [UInt8.toNat_inj.mp hab, ih hrest]

/-- Decimal digits of a number, as `Display` writes them. -/
def decimal (n : Nat) : Text :=
  Nat.toDigits 10 n

lemma decimal_injective : Function.Injective decimal := by
  intro m n h
  rw [← Nat.ofDigitChars_toDigits (b := 10) (n := m) (by decide) (by decide),
    ← Nat.ofDigitChars_toDigits (b := 10) (n := n) (by decide) (by decide)]
  exact congrArg (Nat.ofDigitChars 10 · 0) h

end LamBoot
