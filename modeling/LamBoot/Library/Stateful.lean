import Mathlib.Tactic

/-!
# Computations over a state

Pre- and postconditions of computations that change a state and may stop early. A computation that
stops leaves the state as far as it got, so a triple has a postcondition for either end.
-/

namespace Stateful

variable {ε ε' σ τ α β : Type}

/-- From a state with `pre`, the computation ends with a value and a state that satisfy `post`, or
stops in a state that satisfies `stopped`. -/
def Triple (pre : σ → Prop) (x : EStateM ε σ α) (post : α → σ → Prop) (stopped : ε → σ → Prop) :
    Prop :=
  ∀ s, pre s →
    match x s with
    | .ok a t => post a t
    | .error e t => stopped e t

/-- Catch what `caught` takes, with the state that was left. -/
def attempt (caught : ε → Option ε') (x : EStateM ε σ α) : EStateM ε σ (Except ε' α) := fun s =>
  match x s with
  | .ok a t => .ok (.ok a) t
  | .error e t =>
    match caught e with
    | some e' => .ok (.error e') t
    | none => .error e t

def zoom (get : τ → σ) (set : τ → σ → τ) (x : EStateM ε σ α) : EStateM ε τ α := fun t =>
  match x (get t) with
  | .ok a s => .ok a (set t s)
  | .error e s => .error e (set t s)

def final (x : EStateM ε σ α) (s : σ) : σ :=
  match x s with
  | .ok _ t | .error _ t => t

def value? (x : EStateM ε σ α) (s : σ) : Option α :=
  match x s with
  | .ok a _ => some a
  | .error _ _ => none

lemma eq_ok_of_value? {x : EStateM ε σ α} {s : σ} {a : α} (h : value? x s = some a) :
    x s = .ok a (final x s) := by
  unfold value? at h
  unfold final
  cases hx : x s with
  | ok b t => simpa [hx] using h
  | error e t => simp [hx] at h

section Running

variable {x : EStateM ε σ α} {f : α → EStateM ε σ β} {s t : σ}

lemma bind_of_ok {a : α} (h : x s = .ok a t) : (x >>= f) s = f a t := by
  rw [show (x >>= f) s = EStateM.bind x f s from rfl, EStateM.bind, h]

lemma bind_of_error {e : ε} (h : x s = .error e t) : (x >>= f) s = .error e t := by
  rw [show (x >>= f) s = EStateM.bind x f s from rfl, EStateM.bind, h]

end Running

/-! ### Rules -/

section Rules

variable {pre pre' : σ → Prop} {post post' : α → σ → Prop} {stopped stopped' : ε → σ → Prop}
  {inv : σ → Prop} {x : EStateM ε σ α} {f : α → EStateM ε σ β}

lemma Triple.ok {s t : σ} {a : α} (h : Triple pre x post stopped) (hs : pre s)
    (hx : x s = .ok a t) : post a t := by
  simpa only [hx] using h s hs

lemma Triple.error {s t : σ} {e : ε} (h : Triple pre x post stopped) (hs : pre s)
    (hx : x s = .error e t) : stopped e t := by
  simpa only [hx] using h s hs

lemma triple_iff : Triple pre x post stopped ↔
    ∀ s, pre s → (∀ a t, x s = .ok a t → post a t) ∧ ∀ e t, x s = .error e t → stopped e t := by
  refine ⟨fun h s hs => ⟨fun a t => h.ok hs, fun e t => h.error hs⟩, fun h s hs => ?_⟩
  obtain ⟨hok, herror⟩ := h s hs
  cases hx : x s with
  | ok a t => exact hok a t hx
  | error e t => exact herror e t hx

lemma Triple.imp (h : Triple pre x post stopped) (hpost : ∀ a s, post a s → post' a s)
    (hstopped : ∀ e s, stopped e s → stopped' e s) : Triple pre x post' stopped' := by
  refine triple_iff.mpr fun s hs => ⟨fun a t hx => ?_, fun e t hx => ?_⟩
  · exact hpost a t (h.ok hs hx)
  · exact hstopped e t (h.error hs hx)

lemma Triple.imp_stopped (h : Triple pre x post stopped)
    (hstopped : ∀ e s, stopped e s → stopped' e s) : Triple pre x post stopped' :=
  h.imp (fun _ _ => id) hstopped

lemma Triple.of_pre (h : Triple pre x post stopped) (hpre : ∀ s, pre' s → pre s) :
    Triple pre' x post stopped :=
  fun s hs => h s (hpre s hs)

lemma Triple.final {P : σ → Prop} {s : σ} (h : Triple pre x (fun _ => P) (fun _ => P))
    (hs : pre s) : P (final x s) := by
  cases hx : x s with
  | ok a t => simpa only [Stateful.final, hx] using h.ok hs hx
  | error e t => simpa only [Stateful.final, hx] using h.error hs hx

lemma triple_pure {a : α} (h : ∀ s, pre s → post a s) : Triple pre (pure a) post stopped :=
  fun s hs => h s hs

lemma triple_throw {e : ε} (h : ∀ s, pre s → stopped e s) : Triple pre (throw e) post stopped :=
  fun s hs => h s hs

lemma Triple.bind {mid : α → σ → Prop} {post : β → σ → Prop} (hx : Triple pre x mid stopped)
    (hf : ∀ a t, mid a t → Triple (· = t) (f a) post stopped) :
    Triple pre (x >>= f) post stopped := by
  intro s hs
  cases h : x s with
  | ok a t => simpa only [bind_of_ok h] using hf a t (hx.ok hs h) t rfl
  | error e t => simpa only [bind_of_error h] using hx.error hs h

lemma triple_get {s : σ} :
    Triple (· = s) (get : EStateM ε σ σ) (fun a t => a = s ∧ t = s) stopped := by
  rintro _ rfl
  exact ⟨rfl, rfl⟩

lemma triple_set {s t : σ} :
    Triple (· = s) (set t : EStateM ε σ PUnit) (fun _ u => u = t) stopped :=
  fun _ _ => rfl

lemma triple_modify {s : σ} {g : σ → σ} :
    Triple (· = s) (modify g : EStateM ε σ PUnit) (fun _ t => t = g s) stopped := by
  rintro _ rfl
  rfl

lemma triple_attempt {caught : ε → Option ε'} {post : Except ε' α → σ → Prop}
    (h : Triple pre x (fun a => post (.ok a)) fun e s =>
      (∀ e', caught e = some e' → post (.error e') s) ∧ (caught e = none → stopped e s)) :
    Triple pre (attempt caught x) post stopped := by
  intro s hs
  cases hx : x s with
  | ok a t => simpa only [attempt, hx] using h.ok hs hx
  | error e t =>
    have he := h.error hs hx
    cases hc : caught e with
    | some e' => simpa only [attempt, hx, hc] using he.1 e' hc
    | none => simpa only [attempt, hx, hc] using he.2 hc

lemma triple_zoom {get : τ → σ} {set : τ → σ → τ} {t : τ} {post : α → τ → Prop}
    {stopped : ε → τ → Prop}
    (h : Triple (· = get t) x (fun a s => post a (set t s)) fun e s => stopped e (set t s)) :
    Triple (· = t) (zoom get set x) post stopped := by
  intro s hs
  subst hs
  cases hx : x (get s) with
  | ok a s => simpa only [zoom, hx] using h.ok rfl hx
  | error e s => simpa only [zoom, hx] using h.error rfl hx

end Rules

end Stateful
