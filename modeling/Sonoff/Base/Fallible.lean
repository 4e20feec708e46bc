import Mathlib.Tactic.Common

/-! # Programs that stop at their first failure

A program over a state ends with a value or with an error; what it has changed
before a failure stays changed. A triple says where it may end, for both endings,
and its rules follow the way a program is put together.
-/
namespace Sonoff.Fallible

variable {σ ε ε' α β : Type}

def require (b : Bool) (e : ε) : EStateM ε σ Unit := if b then pure () else throw e

def ofOption (o : Option α) (e : ε) : EStateM ε σ α :=
  match o with
  | some a => pure a
  | none => throw e

/-- After a failure the clean-up runs too; whatever comes of it, the failure is reported. -/
def orElseRun (m : EStateM ε σ α) (clean : EStateM ε' σ β) : EStateM ε σ α := fun s =>
  match m s with
  | .ok a t => .ok a t
  | .error e t =>
    match clean t with
    | .ok _ u => .error e u
    | .error _ u => .error e u

/-- The clean-up runs after the program, however that ends. -/
def thenAlways (m : EStateM ε σ α) (clean : σ → σ) : EStateM ε σ α := fun s =>
  match m s with
  | .ok a t => .ok a (clean t)
  | .error e t => .error e (clean t)

/-- From a state of `P` the program ends with a value and in a state of `Q`, or
with an error and in a state of `E`. -/
def Triple (P : σ → Prop) (m : EStateM ε σ α) (Q : α → σ → Prop) (E : ε → σ → Prop) : Prop :=
  ∀ s, P s → match m s with
    | .ok a t => Q a t
    | .error e t => E e t

namespace Triple
variable {P P' : σ → Prop} {Q Q' : α → σ → Prop} {E E' : ε → σ → Prop} {m : EStateM ε σ α}

theorem ok (h : Triple P m Q E) {s t : σ} {a : α} (hs : P s) (hm : m s = .ok a t) : Q a t := by
  have := h s hs
  rwa [hm] at this

theorem error (h : Triple P m Q E) {s t : σ} {e : ε} (hs : P s) (hm : m s = .error e t) :
    E e t := by
  have := h s hs
  rwa [hm] at this

theorem consequence (h : Triple P m Q E) (hP : ∀ s, P' s → P s) (hQ : ∀ a s, Q a s → Q' a s)
    (hE : ∀ e s, E e s → E' e s) : Triple P' m Q' E' := by
  intro s hs
  have := h s (hP s hs)
  split at this
  · exact hQ _ _ this
  · exact hE _ _ this

/-- What is known of every run that ends with a value. -/
theorem andOk {R : α → σ → Prop} (h : Triple P m Q E) (hR : ∀ s a t, P s → m s = .ok a t → R a t) :
    Triple P m (fun a t => Q a t ∧ R a t) E := by
  intro s hs
  have := h s hs
  cases hm : m s with
  | ok a t =>
    rw [hm] at this
    exact ⟨this, hR s a t hs hm⟩
  | error e t =>
    rw [hm] at this
    exact this

/-- A fact that is not about the state. -/
theorem given {p : Prop} (h : p → Triple P m Q E) : Triple (fun s => P s ∧ p) m Q E :=
  fun s hs => h hs.2 s hs.1

protected theorem pure {a : α} (h : ∀ s, P s → Q a s) : Triple P (pure a : EStateM ε σ α) Q E := h

protected theorem throw {e : ε} (h : ∀ s, P s → E e s) : Triple P (throw e : EStateM ε σ α) Q E := h

protected theorem bind {f : α → EStateM ε σ β} {R : β → σ → Prop} (h : Triple P m Q E)
    (hf : ∀ a, Triple (Q a) (f a) R E) : Triple P (m >>= f) R E := by
  intro s hs
  have := h s hs
  show match EStateM.bind m f s with | .ok b t => R b t | .error e t => E e t
  unfold EStateM.bind
  cases hm : m s with
  | ok a t =>
    rw [hm] at this
    exact hf a t this
  | error e t =>
    rw [hm] at this
    exact this

protected theorem require {b : Bool} {e : ε} {R : Unit → σ → Prop}
    (hok : ∀ s, P s → b = true → R () s)
    (herr : ∀ s, P s → b = false → E e s) : Triple P (require b e) R E := by
  intro s hs
  unfold Fallible.require
  cases hb : b with
  | true => exact hok s hs hb
  | false => exact herr s hs hb

protected theorem ofOption {o : Option α} {e : ε} (hok : ∀ s a, P s → o = some a → Q a s)
    (herr : ∀ s, P s → o = none → E e s) : Triple P (ofOption o e) Q E := by
  intro s hs
  cases o with
  | none => exact herr s hs rfl
  | some a => exact hok s a hs rfl

protected theorem adaptExcept {f : ε → ε'} {E' : ε' → σ → Prop}
    (h : Triple P m Q (fun e => E' (f e))) : Triple P (EStateM.adaptExcept f m) Q E' := by
  intro s hs
  have := h s hs
  unfold EStateM.adaptExcept
  cases hm : m s <;> rw [hm] at this <;> exact this

protected theorem orElseRun {clean : EStateM ε' σ β} {F : ε → σ → Prop} (h : Triple P m Q E)
    (hclean : ∀ e, Triple (E e) clean (fun _ => F e) (fun _ => F e)) :
    Triple P (orElseRun m clean) Q F := by
  intro s hs
  have := h s hs
  unfold Fallible.orElseRun
  cases hm : m s with
  | ok a t =>
    rw [hm] at this
    exact this
  | error e t =>
    rw [hm] at this
    have hc := hclean e t this
    dsimp only
    cases hm' : clean t <;> rw [hm'] at hc <;> exact hc

protected theorem modify {f : σ → σ} {R : PUnit → σ → Prop} (h : ∀ s, P s → R () (f s)) :
    Triple P (modify f : EStateM ε σ PUnit) R E := h

end Triple

/-- A property of the state that holds after the program, however that ends, if it holds before. -/
def Keeps (P : σ → Prop) (m : EStateM ε σ α) : Prop := Triple P m (fun _ => P) (fun _ => P)

namespace Keeps
variable {P : σ → Prop} {m : EStateM ε σ α}

protected theorem pure (a : α) : Keeps P (pure a : EStateM ε σ α) := fun _ h => h

protected theorem bind {f : α → EStateM ε σ β} (h : Keeps P m) (hf : ∀ a, Keeps P (f a)) :
    Keeps P (m >>= f) :=
  Triple.bind h hf

protected theorem require (b : Bool) (e : ε) : Keeps P (require b e : EStateM ε σ Unit) :=
  Triple.require (fun _ h _ => h) fun _ h _ => h

protected theorem ofOption (o : Option α) (e : ε) : Keeps P (ofOption o e : EStateM ε σ α) :=
  Triple.ofOption (fun _ _ h _ => h) fun _ h _ => h

protected theorem adaptExcept {f : ε → ε'} (h : Keeps P m) : Keeps P (EStateM.adaptExcept f m) :=
  Triple.adaptExcept h

/-- A program that keeps a property, on the way to a larger statement. -/
theorem triple {E : ε → σ → Prop} (h : Keeps P m) (hE : ∀ e s, P s → E e s) :
    Triple P m (fun _ => P) E :=
  Triple.consequence h (fun _ h => h) (fun _ _ h => h) hE

end Keeps

theorem bind_ok {m : EStateM ε σ α} {f : α → EStateM ε σ β} {s t : σ} {a : α} (h : m s = .ok a t) :
    (m >>= f) s = f a t := by
  show EStateM.bind m f s = _
  rw [EStateM.bind, h]

theorem bind_error {m : EStateM ε σ α} {f : α → EStateM ε σ β} {s t : σ} {e : ε}
    (h : m s = .error e t) : (m >>= f) s = .error e t := by
  show EStateM.bind m f s = _
  rw [EStateM.bind, h]

theorem bind_eq_ok {m : EStateM ε σ α} {f : α → EStateM ε σ β} {s t : σ} {b : β} :
    (m >>= f) s = .ok b t ↔ ∃ a u, m s = .ok a u ∧ f a u = .ok b t := by
  show EStateM.bind m f s = .ok b t ↔ _
  unfold EStateM.bind
  cases h : m s with
  | ok a u => simp
  | error e u => simp

theorem require_eq_ok {b : Bool} {e : ε} {s t : σ} {u : Unit} : require b e s = .ok u t ↔ b = true ∧
    s = t := by
  cases b with
  | true =>
    constructor
    · intro h
      cases h
      exact ⟨rfl, rfl⟩
    · rintro ⟨-, rfl⟩
      rfl
  | false => exact ⟨nofun, fun h => nomatch h.1⟩

theorem ofOption_eq_ok {o : Option α} {e : ε} {s t : σ} {a : α} :
    ofOption o e s = .ok a t ↔ o = some a ∧ s = t := by
  cases o with
  | none => exact ⟨nofun, fun h => nomatch h.1⟩
  | some b =>
    constructor
    · intro h
      cases h
      exact ⟨rfl, rfl⟩
    · rintro ⟨hb, rfl⟩
      cases hb
      rfl

theorem pure_eq_ok {s t : σ} {a b : α} : (pure a : EStateM ε σ α) s = .ok b t ↔ a = b ∧ s = t := by
  constructor
  · intro h
    cases h
    exact ⟨rfl, rfl⟩
  · rintro ⟨rfl, rfl⟩
    rfl

theorem adaptExcept_eq_ok {f : ε → ε'} {m : EStateM ε σ α} {s t : σ} {a : α} :
    EStateM.adaptExcept f m s = .ok a t ↔ m s = .ok a t := by
  unfold EStateM.adaptExcept
  cases h : m s <;> simp

end Sonoff.Fallible
