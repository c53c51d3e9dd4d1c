import Mathlib.Tactic

/-!
# Computations with a trace

A computation that may stop early, together with the effects it had, in the order in which they
happened. `Reaches P x y` says that `x` comes down to `y` after effects that satisfy `P`, and is
how a long computation is taken apart.
-/

/-- A computation with effects `ω`, which ends with a value or stops with an `ε`. -/
structure Traced (ω ε α : Type) where
  trace : List ω
  result : Except ε α

namespace Traced

open List

variable {ω ε α β : Type}

/-- Continue with `f` unless the computation has stopped. -/
def andThen (x : Traced ω ε α) (f : α → Traced ω ε β) : Traced ω ε β :=
  match x.result with
  | .ok a => ⟨x.trace ++ (f a).trace, (f a).result⟩
  | .error e => ⟨x.trace, .error e⟩

instance : Monad (Traced ω ε) where
  pure a := ⟨[], .ok a⟩
  bind := andThen

def emit (e : ω) : Traced ω ε Unit :=
  ⟨[e], .ok ()⟩

def stop (e : ε) : Traced ω ε α :=
  ⟨[], .error e⟩

def ofExcept (r : Except ε α) : Traced ω ε α :=
  ⟨[], r⟩

/-- Run `handler` where the computation stopped with something the handler takes. -/
def recover (x : Traced ω ε α) (handler : ε → Option (Traced ω ε α)) : Traced ω ε α :=
  match x.result with
  | .ok _ => x
  | .error e =>
    match handler e with
    | some y => ⟨x.trace ++ y.trace, y.result⟩
    | none => x

/-! ### Computations after effects -/

/-- The computation `x` with the effects `q` before it. -/
def after (q : List ω) (x : Traced ω ε α) : Traced ω ε α :=
  ⟨q ++ x.trace, x.result⟩

section After

variable {q r : List ω} {e : ω} {x y z : Traced ω ε α} {f : α → Traced ω ε β}

@[simp] lemma trace_after : (after q x).trace = q ++ x.trace := rfl

@[simp] lemma result_after : (after q x).result = x.result := rfl

@[simp] lemma trace_pure {a : α} : (pure a : Traced ω ε α).trace = [] := rfl

@[simp] lemma result_pure {a : α} : (pure a : Traced ω ε α).result = .ok a := rfl

@[simp] lemma trace_stop {e : ε} : (stop e : Traced ω ε α).trace = [] := rfl

@[simp] lemma result_stop {e : ε} : (stop e : Traced ω ε α).result = .error e := rfl

@[simp] lemma after_nil : after [] x = x := rfl

@[simp] lemma after_after : after q (after r x) = after (q ++ r) x := by
  simp [after]

@[simp] lemma after_bind : after q x >>= f = after q (x >>= f) := by
  change andThen (after q x) f = after q (andThen x f)
  cases h : x.result <;> simp [andThen, after, h]

@[simp] lemma emit_bind {f : Unit → Traced ω ε β} : emit e >>= f = after [e] (f ()) := rfl

@[simp] lemma stop_bind {e : ε} : (stop e : Traced ω ε α) >>= f = stop e := rfl

@[simp] lemma ofExcept_ok {a : α} : (ofExcept (.ok a) : Traced ω ε α) = pure a := rfl

@[simp] lemma ofExcept_error {e : ε} : (ofExcept (.error e) : Traced ω ε α) = stop e := rfl

lemma emit_eq_after : (emit e : Traced ω ε Unit) = after [e] (pure ()) := rfl

instance : LawfulMonad (Traced ω ε) := by
  refine LawfulMonad.mk' _ ?_ (fun _ _ => rfl) ?_
  · rintro α ⟨t, _ | a⟩ <;> simp [Functor.map, andThen]
  · rintro α β γ ⟨t, _ | a⟩ f g
    · rfl
    · exact after_bind

variable {handler : ε → Option (Traced ω ε α)}

@[simp] lemma recover_after : recover (after q x) handler = after q (recover x handler) := by
  cases h : x.result with
  | ok a => simp [recover, after, h]
  | error e => cases hh : handler e <;> simp [recover, after, h, hh]

end After

/-! ### Reaching a computation -/

/-- `x` comes down to `y` after effects that all satisfy `P`. -/
def Reaches (P : ω → Prop) (x y : Traced ω ε α) : Prop :=
  ∃ q, (∀ e ∈ q, P e) ∧ x = after q y

section Reaches

variable {P : ω → Prop} {x y z : Traced ω ε α}

lemma Reaches.refl (x : Traced ω ε α) : Reaches P x x :=
  ⟨[], by simp, rfl⟩

lemma Reaches.trans (hxy : Reaches P x y) (hyz : Reaches P y z) : Reaches P x z := by
  obtain ⟨q, hq, rfl⟩ := hxy
  obtain ⟨r, hr, rfl⟩ := hyz
  refine ⟨q ++ r, fun e he => ?_, after_after⟩
  rcases mem_append.mp he with he | he
  · exact hq e he
  · exact hr e he

lemma Reaches.mono {Q : ω → Prop} (hPQ : ∀ e, P e → Q e) (h : Reaches P x y) :
    Reaches Q x y := by
  obtain ⟨q, hq, rfl⟩ := h
  exact ⟨q, fun e he => hPQ e (hq e he), rfl⟩

lemma Reaches.after {q : List ω} (hq : ∀ e ∈ q, P e) (h : Reaches P x y) :
    Reaches P (Traced.after q x) y :=
  Reaches.trans ⟨q, hq, rfl⟩ h

variable {f : α → Traced ω ε β}

lemma Reaches.bind (h : Reaches P x y) :
    Reaches P (x >>= f) (y >>= f) := by
  obtain ⟨q, hq, rfl⟩ := h
  exact ⟨q, hq, after_bind⟩

lemma Reaches.pure_bind {a : α} {y : Traced ω ε β}
    (hx : Reaches P x (pure a)) (h : Reaches P (f a) y) : Reaches P (x >>= f) y := by
  refine hx.bind.trans ?_
  rwa [LawfulMonad.pure_bind]

lemma Reaches.bind_stop {e : ε} (h : Reaches P x (stop e)) :
    Reaches P (x >>= f) (stop e) :=
  h.bind

lemma Reaches.forall_mem (h : Reaches P x y) (hy : y.trace = []) : ∀ e ∈ x.trace, P e := by
  obtain ⟨q, hq, rfl⟩ := h
  intro e he
  rw [trace_after, hy, append_nil] at he
  exact hq e he

end Reaches

/-! ### All effects -/

/-- Every effect of a computation satisfies `P`. -/
def Forall (P : ω → Prop) (x : Traced ω ε α) : Prop :=
  ∀ e ∈ x.trace, P e

section Forall

variable {P : ω → Prop} {x : Traced ω ε α}

lemma forall_pure {a : α} : Forall P (pure a : Traced ω ε α) := by
  simp [Forall]

lemma forall_stop {e : ε} : Forall P (stop e : Traced ω ε α) := by
  simp [Forall]

lemma forall_ofExcept {r : Except ε α} : Forall P (ofExcept r : Traced ω ε α) := by
  simp [Forall, ofExcept]

lemma forall_emit {e : ω} (h : P e) : Forall P (emit e : Traced ω ε Unit) := by
  simpa [Forall, emit] using h

lemma Forall.bind {f : α → Traced ω ε β} (hx : Forall P x) (hf : ∀ a, Forall P (f a)) :
    Forall P (x >>= f) := by
  intro e he
  change e ∈ (andThen x f).trace at he
  cases hr : x.result with
  | ok a =>
    simp only [andThen, hr, mem_append] at he
    rcases he with he | he
    · exact hx e he
    · exact hf a e he
  | error s =>
    simp only [andThen, hr] at he
    exact hx e he

lemma Forall.recover {handler : ε → Option (Traced ω ε α)} (hx : Forall P x)
    (hh : ∀ e y, handler e = some y → Forall P y) : Forall P (recover x handler) := by
  intro e he
  cases hr : x.result with
  | ok a =>
    simp only [Traced.recover, hr] at he
    exact hx e he
  | error s =>
    cases hs : handler s with
    | none =>
      simp only [Traced.recover, hr, hs] at he
      exact hx e he
    | some y =>
      simp only [Traced.recover, hr, hs, mem_append] at he
      rcases he with he | he
      · exact hx e he
      · exact hh s y hs e he

end Forall

/-! ### What is seen of the effects -/

section Seen

variable {γ : Type} (see : ω → Option γ)

/-- What a computation shows of its effects, in order. -/
def seen (x : Traced ω ε α) : List γ :=
  x.trace.filterMap see

variable {see} {x : Traced ω ε α}

@[simp] lemma seen_pure {a : α} : seen see (pure a : Traced ω ε α) = [] := rfl

@[simp] lemma seen_stop {e : ε} : seen see (stop e : Traced ω ε α) = [] := rfl

@[simp] lemma seen_after {q : List ω} : seen see (after q x) = q.filterMap see ++ seen see x :=
  filterMap_append

lemma seen_eq_nil_iff : seen see x = [] ↔ Forall (fun e => see e = none) x :=
  filterMap_eq_nil_iff

/-- What shows nothing may be dropped from the end of a computation. -/
lemma seen_bind_of_forall {f : α → Traced ω ε β}
    (hf : ∀ a, Forall (fun e => see e = none) (f a)) : seen see (x >>= f) = seen see x := by
  change seen see (andThen x f) = seen see x
  cases hr : x.result with
  | ok a =>
    have hnil : (f a).trace.filterMap see = [] := seen_eq_nil_iff.mpr (hf a)
    simp [seen, andThen, hr, filterMap_append, hnil]
  | error e => simp [seen, andThen, hr]

end Seen

end Traced
