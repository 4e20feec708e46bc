import Sonoff.Base.Machine

/-! # Threads over shared data

Each thread moves from one control point to the next and changes the shared data
with it. Two rules: assertions at the control points that no other thread's step
breaks hold in every reachable state, and threads that follow the discipline of
one mutex are never two in their critical sections.
-/
namespace Sonoff.Threads
open Machine

variable {I P X L M : Type*}

/-- The shared data and the control point of every thread. -/
structure Config (I P X : Type*) where
  shared : X
  pcs : I → P

section Moves
variable [DecidableEq I]

def Config.move (s : Config I P X) (i : I) (r : P × X) : Config I P X :=
  ⟨r.2, fun j => if j = i then r.1 else s.pcs j⟩

@[simp] theorem Config.move_shared (s : Config I P X) (i : I) (r : P × X) :
    (s.move i r).shared = r.2 := rfl

@[simp] theorem Config.move_self (s : Config I P X) (i : I) (r : P × X) :
    (s.move i r).pcs i = r.1 := if_pos rfl

theorem Config.move_other (s : Config I P X) {i j : I} (h : j ≠ i) (r : P × X) :
    (s.move i r).pcs j = s.pcs j := if_neg h

/-- What holds of the mover at its new point and of the others where they stand
holds of all. -/
theorem Config.move_forall (A : I → P → Prop) {s : Config I P X} {i : I} {r : P × X} (hi : A i r.1)
    (hj : ∀ j, j ≠ i → A j (s.pcs j)) (j : I) : A j ((s.move i r).pcs j) := by
  by_cases h : j = i
  · subst h
    rwa [Config.move_self]
  · rw [Config.move_other s h]
    exact hj j h

def step (next : I → P → X → L → Option (P × X)) (s : Config I P X) (l : I × L) :
    Option (Config I P X) :=
  (next l.1 (s.pcs l.1) s.shared l.2).map (s.move l.1)

theorem step_some {next : I → P → X → L → Option (P × X)} {s t : Config I P X} {l : I × L}
    (h : step next s l = some t) : ∃ r, next l.1 (s.pcs l.1) s.shared l.2 = some r ∧
      t = s.move l.1 r := by
  obtain ⟨r,hr,ht⟩ := Option.map_eq_some_iff.mp h
  exact ⟨r, hr, ht.symm⟩

variable {next : I → P → X → L → Option (P × X)} {ok : Config I P X → I × L → Prop}
  {init : Config I P X}

/-- Assertions at the control points, with an invariant of the whole: every step
establishes the mover's next assertion and leaves the others' valid. -/
theorem assertions {A : I → P → X → Prop} {J Q : Config I P X → Prop}
    (hq : ∀ s, Reach (step next) ok init s → Q s) (hA : ∀ i, A i (init.pcs i) init.shared)
    (hJ : J init) (hs : ∀ s i l r, Q s → J s → (∀ j, A j (s.pcs j) s.shared) → ok s (i, l) →
      next i (s.pcs i) s.shared l = some r →
      J (s.move i r) ∧ A i r.1 r.2 ∧ ∀ j, j ≠ i → A j (s.pcs j) r.2)
    {s : Config I P X} (h : Reach (step next) ok init s) : J s ∧ ∀ i, A i (s.pcs i) s.shared := by
  refine @Reach.invariant_of _ _ _ _ _ (fun s => J s ∧ ∀ i, A i (s.pcs i) s.shared) Q hq ⟨hJ,hA⟩ ?_
    _ h
  rintro s ⟨i,l⟩ t hqs ⟨hjs,has⟩ hok hstep
  obtain ⟨r,hr,rfl⟩ := step_some hstep
  obtain ⟨hj,hi,ho⟩ := hs s i l r hqs hjs has hok hr
  exact ⟨hj, fun j => Config.move_forall (fun j p => A j p r.2) hi ho j⟩

/-- A run of one thread, the others standing still. -/
def runThread (next : I → P → X → L → Option (P × X)) (i : I) : P × X → List L → Option (P × X)
  | r, [] => some r
  | r, l :: ls => (next i r.1 r.2 l).bind fun r => runThread next i r ls

omit [DecidableEq I] in
theorem runThread_append (i : I) (r : P × X) (ls ks : List L) :
    runThread next i r (ls ++ ks) =
      (runThread next i r ls).bind (fun r => runThread next i r ks) := by
  induction ls generalizing r with
  | nil => rfl
  | cons l ls ih =>
    simp only [List.cons_append, runThread, Option.bind_assoc]
    exact congrArg _ (funext fun r => ih r)

theorem exec_runThread {s : Config I P X} {i : I} {ls : List L} {r : P × X}
    (h : runThread next i (s.pcs i, s.shared) ls = some r) :
    ∃ t, exec (step next) s (ls.map (Prod.mk i)) = some t ∧ t.pcs i = r.1 ∧ t.shared = r.2 := by
  induction ls generalizing s with
  | nil =>
    cases h
    exact ⟨s, rfl, rfl, rfl⟩
  | cons l ls ih =>
    obtain ⟨r',hr',hrest⟩ := Option.bind_eq_some_iff.mp h
    obtain ⟨t,ht,hp,hx⟩ := @ih (s.move i r') (by rw [Config.move_self]; exact hrest)
    refine ⟨t, ?_, hp, hx⟩
    simp only [List.map_cons, exec, step, hr', Option.map_some, Option.bind_some]
    exact ht

theorem exec_others {s t : Config I P X} {i : I} {ls : List L}
    (h : exec (step next) s (ls.map (Prod.mk i)) = some t) {j : I} (hj : j ≠ i) :
    t.pcs j = s.pcs j := by
  induction ls generalizing s with
  | nil =>
    cases h
    rfl
  | cons l ls ih =>
    obtain ⟨u,hu,hrest⟩ := Option.bind_eq_some_iff.mp h
    obtain ⟨r,_,rfl⟩ := step_some hu
    rw [ih hrest, Config.move_other s hj]

end Moves

/-- How a program uses its mutex: where it is stored, who holds a mutex, which
control points lie in the critical section and which wait for a mutex. -/
structure Lock (I P X M : Type*) where
  stored : X → Option M
  holder : X → M → Option I
  critical : P → Prop
  waits : P → Option M

namespace Lock
variable (k : Lock I P X M)

/-- The threads in the critical section are the holder of the stored mutex. -/
structure Owned (s : Config I P X) : Prop where
  critical : ∀ i, k.critical (s.pcs i) ↔ ∃ m, k.stored s.shared = some m ∧
    k.holder s.shared m = some i
  waits : ∀ i m, k.waits (s.pcs i) = some m → k.stored s.shared = some m

/-- The moves of a thread that follows the discipline. -/
inductive Disciplined (i : I) (p : P) (x : X) (q : P) (y : X) : Prop
  | outside : k.stored y = k.stored x → k.holder y = k.holder x → (k.critical q ↔ k.critical p) →
      (∀ m, k.waits q = some m → k.stored x = some m) → Disciplined i p x q y
  | create {m : M} : k.stored x = none → k.stored y = some m → k.holder y m = none → ¬k.critical q →
      k.waits q = none → Disciplined i p x q y
  | acquire {m : M} : k.waits p = some m → k.holder x m = none → k.holder y m = some i →
      k.stored y = k.stored x → k.critical q → k.waits q = none → Disciplined i p x q y
  | release {m : M} : k.critical p → k.stored x = some m → k.holder y m = none →
      k.stored y = k.stored x → ¬k.critical q → k.waits q = none → Disciplined i p x q y

variable {k} {s : Config I P X}

/-- Two threads in the critical section are the same thread. -/
theorem Owned.exclusive (h : k.Owned s) {i j : I} (hi : k.critical (s.pcs i))
    (hj : k.critical (s.pcs j)) : i = j := by
  obtain ⟨m,hm,hmi⟩ := (h.critical i).mp hi
  obtain ⟨n,hn,hnj⟩ := (h.critical j).mp hj
  rw [hm] at hn
  cases hn
  exact Option.some.inj (hmi.symm.trans hnj)

/-- A free mutex is one that no thread is in the critical section of. -/
theorem Owned.free (h : k.Owned s) {m : M} (hm : k.stored s.shared = some m)
    (hfree : ∀ i, ¬k.critical (s.pcs i)) : k.holder s.shared m = none := by
  cases hh : k.holder s.shared m with
  | none => rfl
  | some i => exact absurd ((h.critical i).mpr ⟨m,hm,hh⟩) (hfree i)

/-- The discipline never drops a stored mutex. -/
theorem Disciplined.stored {i : I} {p q : P} {x y : X} (h : k.Disciplined i p x q y)
    (hx : k.stored x ≠ none) : k.stored y ≠ none := by
  cases h with
  | outside hst _ _ _ => rwa [hst]
  | create hno _ _ _ _ => exact absurd hno hx
  | acquire _ _ _ hst _ _ => rwa [hst]
  | release _ _ _ hst _ _ => rwa [hst]

theorem Owned.move [DecidableEq I] (h : k.Owned s) {i : I} {r : P × X}
    (hd : k.Disciplined i (s.pcs i) s.shared r.1 r.2) :
    k.Owned (s.move i r) := by
  have hcrit := h.critical
  have hwait := h.waits
  cases hd with
  | outside hst hho hc hw =>
    refine ⟨?_, ?_⟩
    · simp only [Config.move_shared, hst, hho]
      refine Config.move_forall
        (fun j p => k.critical p ↔ ∃ m, k.stored s.shared = some m ∧ k.holder s.shared m = some j)
        ?_ (fun j _ => hcrit j)
      rw [hc]
      exact hcrit i
    · simp only [Config.move_shared, hst]
      exact Config.move_forall
        (fun _ p => ∀ m, k.waits p = some m → k.stored s.shared = some m) hw (fun j _ => hwait j)
  | @create m hno hst hho hc hw =>
    refine ⟨?_, ?_⟩
    · simp only [Config.move_shared, hst, Option.some.injEq, exists_eq_left', hho, reduceCtorEq,
        iff_false]
      refine Config.move_forall (fun _ p => ¬k.critical p) hc (fun j _ hj => ?_)
      obtain ⟨n,hn,_⟩ := (hcrit j).mp hj
      rw [hno] at hn
      cases hn
    · simp only [Config.move_shared, hst]
      refine Config.move_forall
        (fun _ p => ∀ n, k.waits p = some n → some m = some n) ?_ (fun j _ n hn => ?_)
      · rw [hw]
        exact nofun
      · have := hwait j n hn
        rw [hno] at this
        cases this
  | @acquire m hp hfree hho hst hc hw =>
    have hm := hwait i m hp
    have hnone : ∀ j, ¬k.critical (s.pcs j) := by
      intro j hj
      obtain ⟨n,hn,hnj⟩ := (hcrit j).mp hj
      rw [hm] at hn
      cases hn
      rw [hfree] at hnj
      cases hnj
    refine ⟨?_, ?_⟩
    · simp only [Config.move_shared, hst, hm, Option.some.injEq, exists_eq_left', hho]
      refine Config.move_forall (fun j p => k.critical p ↔ i = j) (iff_of_true hc rfl) ?_
      exact fun j hj => iff_of_false (hnone j) (fun h => hj h.symm)
    · simp only [Config.move_shared, hst]
      refine Config.move_forall
        (fun _ p => ∀ n, k.waits p = some n → k.stored s.shared = some n) ?_ (fun j _ => hwait j)
      rw [hw]
      exact nofun
  | @release m hp hm hho hst hc hw =>
    refine ⟨?_, ?_⟩
    · simp only [Config.move_shared, hst, hm, Option.some.injEq, exists_eq_left', hho, reduceCtorEq,
        iff_false]
      exact Config.move_forall (fun _ p => ¬k.critical p) hc (fun j hj hcj =>
        hj (h.exclusive hcj hp))
    · simp only [Config.move_shared, hst]
      refine Config.move_forall
        (fun _ p => ∀ n, k.waits p = some n → k.stored s.shared = some n) ?_ (fun j _ => hwait j)
      rw [hw]
      exact nofun

end Lock

end Sonoff.Threads
