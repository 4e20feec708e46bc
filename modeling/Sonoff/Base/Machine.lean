import Mathlib.Data.List.Basic
import Mathlib.Tactic.Common

/-! # Labelled machines, their guarded runs and their invariants

A machine is a partial step function: the label resolves every choice of the
environment (which thread moves, which operation fails, which bytes arrive).
A guard restricts the steps a run may take; the unrestricted runs are those of
the guard that is always true.
-/
namespace Sonoff.Machine
variable {S T L K : Type*}

/-- The state after a list of labels, if every step of it is enabled. -/
def exec (step : S → L → Option S) : S → List L → Option S
  | s, [] => some s
  | s, l :: ls => (step s l).bind (fun t => exec step t ls)

/-- The states that steps within the guard reach from `init`. -/
inductive Reach (step : S → L → Option S) (ok : S → L → Prop) (init : S) : S → Prop
  | init : Reach step ok init init
  | step {s t : S} {l : L} : Reach step ok init s → ok s l → step s l = some t →
      Reach step ok init t

def anyStep (_ : S) (_ : L) : Prop := True

variable {step : S → L → Option S} {ok ok' : S → L → Prop} {init : S}

/-- The invariant rule: what holds at the start and survives every step within
the guard holds of every reachable state. -/
theorem Reach.invariant {P : S → Prop} (h0 : P init)
    (hs : ∀ s l t, P s → ok s l → step s l = some t → P t)
    {t : S} (h : Reach step ok init t) : P t := by
  induction h with
  | init => exact h0
  | step _ hl he ih => exact hs _ _ _ ih hl he

/-- The invariant rule on top of facts already known of every reachable state. -/
theorem Reach.invariant_of {P Q : S → Prop} (hq : ∀ s, Reach step ok init s → Q s) (h0 : P init)
    (hs : ∀ s l t, Q s → P s → ok s l → step s l = some t → P t)
    {t : S} (h : Reach step ok init t) : P t := by
  induction h with
  | init => exact h0
  | step hr hl he ih => exact hs _ _ _ (hq _ hr) ih hl he

/-- And with those facts of the state behind the step as well. -/
theorem Reach.invariant_along {P Q : S → Prop} (hq : ∀ s, Reach step ok init s → Q s) (h0 : P init)
    (hs : ∀ s l t, Q s → Q t → P s → ok s l → step s l = some t → P t)
    {t : S} (h : Reach step ok init t) : P t := by
  induction h with
  | init => exact h0
  | step hr hl he ih => exact hs _ _ _ (hq _ hr) (hq _ (.step hr hl he)) ih hl he

theorem Reach.mono (hok : ∀ s l, ok s l → ok' s l) {t : S} (h : Reach step ok init t) :
    Reach step ok' init t := by
  induction h with
  | init => exact .init
  | step _ hl he ih => exact .step ih (hok _ _ hl) he

theorem Reach.trans {t u : S} (h : Reach step ok init t) (h' : Reach step ok t u) :
    Reach step ok init u := by
  induction h' with
  | init => exact h
  | step _ hl he ih => exact .step ih hl he

/-- A component of a larger machine that every step either leaves alone or moves
by a step of its own is itself on a run. -/
theorem Reach.project {step' : T → K → Option T} {okT : T → K → Prop} {initT : T} (f : T → S)
    (h0 : f initT = init)
    (hs : ∀ s l t, okT s l → step' s l = some t →
      f t = f s ∨ ∃ k, ok (f s) k ∧ step (f s) k = some (f t))
    {t : T} (h : Reach step' okT initT t) : Reach step ok init (f t) := by
  induction h with
  | init => exact h0 ▸ .init
  | step _ hl he ih =>
    rcases hs _ _ _ hl he with h | ⟨k,hk,hstep⟩
    · exact h ▸ ih
    · exact .step ih hk hstep

/-- An explicit list of labels gives a reachable state of the unrestricted runs. -/
theorem reach_of_exec {t : S} {ls : List L} (h : exec step init ls = some t) :
    Reach step anyStep init t := by
  suffices hh : ∀ s, Reach step anyStep init s → exec step s ls = some t →
    Reach step anyStep init t from hh init .init h
  clear h
  induction ls with
  | nil =>
    intro s hs he
    exact Option.some.inj he ▸ hs
  | cons l ls ih =>
    intro s hs he
    obtain ⟨u,hu,hrest⟩ := Option.bind_eq_some_iff.mp he
    exact ih u (.step hs trivial hu) hrest

def execWithin (step : S → L → Option S) (ok : S → L → Prop) [∀ s l, Decidable (ok s l)] :
    S → List L → Option S
  | s, [] => some s
  | s, l :: ls => if ok s l then (step s l).bind (fun t => execWithin step ok t ls) else none

theorem Reach.execWithin [∀ s l, Decidable (ok s l)] {s t : S} (hs : Reach step ok init s)
    {ls : List L} (h : execWithin step ok s ls = some t) : Reach step ok init t := by
  induction ls generalizing s with
  | nil => exact Option.some.inj h ▸ hs
  | cons l ls ih =>
    unfold Machine.execWithin at h
    split at h
    case isTrue hok =>
      obtain ⟨u,hu,hrest⟩ := Option.bind_eq_some_iff.mp h
      exact ih (.step hs hok hu) hrest
    case isFalse => cases h

/-- What the steps of a run add up to, as far as it goes. -/
def tally (step : S → L → Option S) (f : S → L → ℕ) : S → List L → ℕ
  | _, [] => 0
  | s, l :: ls =>
    match step s l with
    | none => 0
    | some t => f s l + tally step f t ls

/-- A quantity that every step balances is balanced over a run. -/
theorem exec_tally {f g : S → L → ℕ} {q : S → ℕ}
    (hs : ∀ s l t, step s l = some t → q t + f s l = q s + g s l)
    {s t : S} {ls : List L} (h : exec step s ls = some t) :
    q t + tally step f s ls = q s + tally step g s ls := by
  induction ls generalizing s with
  | nil =>
    cases h
    rfl
  | cons l ls ih =>
    obtain ⟨u, hu, hrest⟩ := Option.bind_eq_some_iff.mp h
    have hone := hs s l u hu
    have hall := ih hrest
    simp only [tally, hu]
    omega

section Answers

variable {A : Type*}

/-- The answers to a list of calls, up to the first call that has none. -/
def answers (step : S → L → Option (A × S)) : S → List L → List (Option A)
  | _, [] => []
  | s, l :: ls =>
    match step s l with
    | none => [none]
    | some (a, t) => some a :: answers step t ls

/-- Two machines that keep a relation, call by call, give the same answers. -/
theorem answers_eq {stepS : S → L → Option (A × S)} {stepT : T → L → Option (A × T)}
    {R : S → T → Prop} {okL : L → Prop}
    (hstep : ∀ s t l, okL l → R s t → (stepS s l = none ∧ stepT t l = none) ∨
      ∃ a s' t', stepS s l = some (a, s') ∧ stepT t l = some (a, t') ∧ R s' t')
    {s : S} {t : T} (h : R s t) {ls : List L} (hls : ∀ l ∈ ls, okL l) :
    answers stepS s ls = answers stepT t ls := by
  induction ls generalizing s t with
  | nil => rfl
  | cons l ls ih =>
    rcases hstep s t l (hls l List.mem_cons_self) h with ⟨hs, ht⟩ | ⟨a, s', t', hs, ht, h'⟩
    · simp only [answers, hs, ht]
    · simp only [answers, hs, ht]
      rw [ih h' fun x hx => hls x (List.mem_cons_of_mem _ hx)]

end Answers

end Sonoff.Machine
