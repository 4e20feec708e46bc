import Mathlib.Algebra.Ring.Int.Defs
import Mathlib.Tactic.Common
import Sonoff.Base.Bytes
import Sonoff.Base.Threads

/-! # Holding off the power save

A throughput test holds off the power save of the station while it runs. The holds are
counted in a critical section, which decides on the call to the SDK; the call itself comes
later. A release that has decided may be overtaken by a hold, and its call then switches the
power save on under the hold.
-/
namespace Sonoff.NetTest
open Bytes Machine Threads

inductive PsRequest
  | disable
  | enable
  deriving DecidableEq, Repr

structure PsDecision where
  request : PsRequest
  number : ℕ
  deriving DecidableEq, Repr

/-- A caller outside of the two functions, or behind the critical section of one. -/
inductive PsPc
  | idle
  | decided (call : Option PsDecision)
  deriving DecidableEq, Repr

/-- The count of the holds and the SDK's power save. The decisions so far and the holds less
the releases are only recorded. -/
structure PsShared where
  wifiPsHoldCount : ℕ
  powerSave : Bool
  decisions : ℕ
  balance : ℤ
  deriving DecidableEq, Repr

inductive PsLabel
  | hold
  | release
  /-- The rest of the function, with the answer of the SDK. -/
  | finish (ok : Bool)
  deriving DecidableEq, Repr

def PsShared.decideOn (x : PsShared) (call : Bool) (request : PsRequest) : PsPc × PsShared :=
  if call then (.decided (some ⟨request, x.decisions + 1⟩), { x with decisions := x.decisions + 1 })
  else (.decided none, x)

def snfNetTestWifiPsHold (x : PsShared) : PsPc × PsShared :=
  let disablePs := x.wifiPsHoldCount = 0
  { x with wifiPsHoldCount := u32Add x.wifiPsHoldCount 1, balance := x.balance + 1 }.decideOn
    disablePs .disable

def snfNetTestWifiPsRelease (x : PsShared) : PsPc × PsShared :=
  if x.wifiPsHoldCount > 0 then
    let count := u32Sub x.wifiPsHoldCount 1
    { x with wifiPsHoldCount := count, balance := x.balance - 1 }.decideOn (count = 0) .enable
  else x.decideOn false .enable

/-- The call to the SDK; one that fails changes nothing. -/
def sdkCall (x : PsShared) (call : Option PsDecision) (ok : Bool) : PsShared :=
  match call with
  | some decision => if ok then { x with powerSave := decision.request = .enable } else x
  | none => x

variable {I : Type*}

def psNext (_ : I) (pc : PsPc) (x : PsShared) (l : PsLabel) : Option (PsPc × PsShared) :=
  match pc, l with
  | .idle, .hold => some (snfNetTestWifiPsHold x)
  | .idle, .release => some (snfNetTestWifiPsRelease x)
  | .decided call, .finish ok => some (.idle, sdkCall x call ok)
  | _, _ => none

def psBoot : Config I PsPc PsShared := ⟨⟨0, true, 0, 0⟩, fun _ => .idle⟩

def PsPc.outstanding : PsPc → Option PsDecision
  | .idle => none
  | .decided call => call

def sdkSucceeds (_ : Config I PsPc PsShared) (l : I × PsLabel) : Prop := l.2 ≠ .finish false

/-- The last outstanding call has not been overtaken by an odd number of decisions, and the
holds are fewer than the counter counts. -/
def InTime (s : Config I PsPc PsShared) (l : I × PsLabel) : Prop :=
  (l.2 = .hold → s.shared.wifiPsHoldCount ≠ 4294967295) ∧
  ∀ decision ∈ (s.pcs l.1).outstanding, (∀ j, j ≠ l.1 → (s.pcs j).outstanding = none) →
    (s.shared.decisions - decision.number) % 2 = 0

/-- While no call is in progress, the power save is off exactly under a hold. -/
def PowerSaveMatches (s : Config I PsPc PsShared) : Prop :=
  (∀ i, s.pcs i = .idle) → (s.shared.powerSave = false ↔ 0 < s.shared.wifiPsHoldCount)

/-- The count is that of the holds, and the last decision was a disable exactly under a hold. -/
structure Counted (x : PsShared) : Prop where
  count : (x.wifiPsHoldCount : ℤ) = x.balance
  lt : x.wifiPsHoldCount < 4294967296
  last : x.decisions % 2 = 1 ↔ 0 < x.wifiPsHoldCount

structure DecidedAt (x : PsShared) (decision : PsDecision) : Prop where
  le : decision.number ≤ x.decisions
  request : decision.request = .disable ↔ decision.number % 2 = 1

/-- The outcomes of a critical section: a change of the count between two that ask for the
same, or a decision. -/
inductive PsMove (x : PsShared) : PsPc × PsShared → Prop
  | same {y : PsShared} (hcounted : Counted y) (hdecisions : y.decisions = x.decisions)
      (hpowerSave : y.powerSave = x.powerSave) : PsMove x (.decided none, y)
  | decided {y : PsShared} {request : PsRequest} (hcounted : Counted y)
      (hdecisions : y.decisions = x.decisions + 1)
      (hnumbered : DecidedAt y ⟨request, x.decisions + 1⟩) :
      PsMove x (.decided (some ⟨request, x.decisions + 1⟩), y)

variable {x : PsShared} {s t : Config I PsPc PsShared} {i : I}

/-- A change of the count that is decided on exactly when it starts or ends the holds. -/
theorem decideOn_move {n : ℕ} {balance : ℤ} {call : Bool} {request : PsRequest} (h : Counted x)
    (hcount : (n : ℤ) = balance) (hlt : n < 4294967296)
    (hcall : call = true ↔ ¬(0 < n ↔ 0 < x.wifiPsHoldCount))
    (hrequest : call = true → (request = .disable ↔ 0 < n)) :
    PsMove x ({ x with wifiPsHoldCount := n, balance := balance }.decideOn call request) := by
  have hlast := h.last
  unfold PsShared.decideOn
  cases call with
  | false =>
    have hsame : 0 < n ↔ 0 < x.wifiPsHoldCount := not_not.mp fun hne =>
      Bool.false_ne_true (hcall.mpr hne)
    exact .same ⟨hcount, hlt, hlast.trans hsame.symm⟩ rfl rfl
  | true =>
    have hchange := hcall.mp rfl
    have hparity : (x.decisions + 1) % 2 = 1 ↔ 0 < n := by omega
    exact .decided ⟨hcount, hlt, hparity⟩ rfl ⟨Nat.le_refl _, (hrequest rfl).trans hparity.symm⟩

theorem hold_move (h : Counted x) (hmax : x.wifiPsHoldCount ≠ 4294967295) :
    PsMove x (snfNetTestWifiPsHold x) := by
  have hcount := h.count
  have hlt := h.lt
  have hadd : u32Add x.wifiPsHoldCount 1 = x.wifiPsHoldCount + 1 := u32Add_eq (by omega)
  unfold snfNetTestWifiPsHold
  dsimp only
  rw [hadd]
  apply decideOn_move h
  · push_cast
    omega
  · omega
  · rw [decide_eq_true_iff]
    omega
  · intro _
    exact iff_of_true rfl (Nat.succ_pos _)

theorem release_move (h : Counted x) : PsMove x (snfNetTestWifiPsRelease x) := by
  have hcount := h.count
  have hlt := h.lt
  unfold snfNetTestWifiPsRelease
  by_cases hpos : x.wifiPsHoldCount > 0
  · have hsub : u32Sub x.wifiPsHoldCount 1 = x.wifiPsHoldCount - 1 := u32Sub_eq hpos hlt
    dsimp only
    rw [if_pos hpos, hsub]
    apply decideOn_move h
    · omega
    · omega
    · rw [decide_eq_true_iff]
      omega
    · intro hcall
      exact iff_of_false (by simp) (Nat.not_lt.mpr (Nat.le_of_eq (of_decide_eq_true hcall)))
  · rw [if_neg hpos]
    exact .same h rfl rfl

theorem psNext_cases {p : PsPc} {l : PsLabel} {r : PsPc × PsShared} (h : psNext i p x l = some r) :
    p = .idle ∧ l = .hold ∧ r = snfNetTestWifiPsHold x ∨
    p = .idle ∧ l = .release ∧ r = snfNetTestWifiPsRelease x ∨
    ∃ call ok, p = .decided call ∧ l = .finish ok ∧ r = (.idle, sdkCall x call ok) := by
  cases p with
  | idle =>
    cases l with
    | hold => exact .inl ⟨rfl, rfl, (Option.some.inj h).symm⟩
    | release => exact .inr (.inl ⟨rfl, rfl, (Option.some.inj h).symm⟩)
    | finish ok => cases h
  | decided call =>
    cases l with
    | hold => cases h
    | release => cases h
    | finish ok => exact .inr (.inr ⟨call, ok, rfl, rfl, (Option.some.inj h).symm⟩)

structure Settled (s : Config I PsPc PsShared) : Prop where
  counted : Counted s.shared
  last : (∀ i, (s.pcs i).outstanding = none) →
    (s.shared.powerSave = false ↔ s.shared.decisions % 2 = 1)

def Awaits (p : PsPc) (x : PsShared) : Prop := ∀ decision ∈ p.outstanding, DecidedAt x decision

theorem DecidedAt.mono {y : PsShared} {decision : PsDecision} (h : DecidedAt x decision)
    (hle : x.decisions ≤ y.decisions) : DecidedAt y decision := ⟨Nat.le_trans h.le hle, h.request⟩

theorem Awaits.mono {p : PsPc} {y : PsShared} (h : Awaits p x) (hle : x.decisions ≤ y.decisions) :
    Awaits p y :=
  fun decision hmem => (h decision hmem).mono hle

section Steps
variable [DecidableEq I]

/-- What was outstanding before a step of an idle caller is so behind it. -/
theorem outstanding_before {r : PsPc × PsShared} (hidle : s.pcs i = .idle)
    (hnone : ∀ j, ((s.move i r).pcs j).outstanding = none) (j : I) :
    (s.pcs j).outstanding = none := by
  by_cases hj : j = i
  · rw [hj, hidle]
    rfl
  · have hother := hnone j
    rwa [Config.move_other s hj] at hother

theorem PsMove.settled {r : PsPc × PsShared} (h : PsMove s.shared r) (hs : Settled s)
    (hawaits : ∀ j, Awaits (s.pcs j) s.shared) (hidle : s.pcs i = .idle) :
    Settled (s.move i r) ∧ Awaits r.1 r.2 ∧ ∀ j, j ≠ i → Awaits (s.pcs j) r.2 := by
  cases h with
  | same hcounted hdecisions hpowerSave =>
    refine ⟨⟨hcounted, ?_⟩, ?_, ?_⟩
    · intro hnone
      simp only [Config.move_shared, hdecisions, hpowerSave]
      exact hs.last (outstanding_before hidle hnone)
    · intro decision hmem
      cases hmem
    · intro j _
      exact (hawaits j).mono (Nat.le_of_eq hdecisions.symm)
  | decided hcounted hdecisions hnumbered =>
    refine ⟨⟨hcounted, ?_⟩, ?_, ?_⟩
    · intro hnone
      have hself := hnone i
      rw [Config.move_self] at hself
      cases hself
    · intro decision hmem
      cases hmem
      exact hnumbered
    · intro j _
      exact (hawaits j).mono (by dsimp only; omega)

theorem sdkCall_counted (h : Counted x) (call : Option PsDecision) (ok : Bool) :
    Counted (sdkCall x call ok) := by
  cases call with
  | none => exact h
  | some decision =>
    cases ok with
    | false => exact h
    | true => exact ⟨h.count, h.lt, h.last⟩

theorem sdkCall_decisions (x : PsShared) (call : Option PsDecision) (ok : Bool) :
    (sdkCall x call ok).decisions = x.decisions := by
  cases call with
  | none => rfl
  | some decision =>
    cases ok with
    | false => rfl
    | true => rfl

/-- A call that is overtaken by an even number of decisions is the same as the last one. -/
theorem sdkCall_powerSave {decision : PsDecision} (h : DecidedAt x decision) :
    (x.decisions - decision.number) % 2 = 0 ↔
      ((sdkCall x (some decision) true).powerSave = false ↔ x.decisions % 2 = 1) := by
  have hle := h.le
  have hrequest : (sdkCall x (some decision) true).powerSave = false ↔ decision.number % 2 = 1 := by
    rw [← h.request]
    cases hreq : decision.request with
    | disable => simp [sdkCall, hreq]
    | enable => simp [sdkCall, hreq]
  rw [hrequest]
  omega

theorem finish_settled {call : Option PsDecision} (hs : Settled s)
    (hawaits : ∀ j, Awaits (s.pcs j) s.shared)
    (hpc : s.pcs i = .decided call) (hin : InTime s (i, .finish true)) :
    Settled (s.move i (.idle, sdkCall s.shared call true)) := by
  refine ⟨sdkCall_counted hs.counted call true, ?_⟩
  intro hnone
  have hothers : ∀ j, j ≠ i → (s.pcs j).outstanding = none := by
    intro j hj
    have hother := hnone j
    rwa [Config.move_other s hj] at hother
  rw [Config.move_shared, sdkCall_decisions]
  cases call with
  | none =>
    apply hs.last
    intro j
    by_cases hj : j = i
    · rw [hj, hpc]
      rfl
    · exact hothers j hj
  | some decision =>
    have hmem : decision ∈ (s.pcs i).outstanding := by
      rw [hpc]
      rfl
    exact (sdkCall_powerSave (hawaits i decision hmem)).mp (hin.2 decision hmem hothers)

omit [DecidableEq I] in
theorem psBoot_settled : Settled (psBoot : Config I PsPc PsShared) := by
  constructor
  · constructor
    · rfl
    · simp [psBoot]
    · simp [psBoot]
  · intro _
    simp [psBoot]

theorem inTime_settled
    (h : Reach (step psNext) (fun s l => sdkSucceeds s l ∧ InTime s l) psBoot s) :
    Settled s ∧ ∀ i, Awaits (s.pcs i) s.shared := by
  refine @assertions _ _ _ _ _ _ _ _ (fun _ => Awaits) Settled (fun _ => True) (fun _ _ => trivial)
    ?_ ?_ ?_ _ h
  · intro i decision hmem
    cases hmem
  · exact psBoot_settled
  · rintro s i l r _ hs hawaits ⟨hsucceeds, hin⟩ hnext
    obtain ⟨hidle, rfl, rfl⟩ | ⟨hidle, rfl, rfl⟩ | ⟨call, ok, hpc, rfl, rfl⟩ := psNext_cases hnext
    · exact (hold_move hs.counted (hin.1 rfl)).settled hs hawaits hidle
    · exact (release_move hs.counted).settled hs hawaits hidle
    · cases ok with
      | false => exact absurd rfl hsucceeds
      | true =>
        refine ⟨finish_settled hs hawaits hpc hin, ?_, ?_⟩
        · intro decision hmem
          cases hmem
        · intro j _
          exact (hawaits j).mono (Nat.le_of_eq (sdkCall_decisions _ _ _).symm)

theorem all_idle {y : PsShared} (hothers : ∀ j, j ≠ i → s.pcs j = .idle) (j : I) :
    (s.move i (.idle, y)).pcs j = .idle :=
  @Config.move_forall _ _ _ _ (fun _ p => p = PsPc.idle) s i (.idle, y) rfl hothers j

/-- A last call that is not in time leaves the power save against the count. -/
theorem overtaken_mismatch {decision : PsDecision} (hs : Settled s)
    (hawaits : Awaits (s.pcs i) s.shared)
    (hpc : s.pcs i = .decided (some decision)) (hothers : ∀ j, j ≠ i → s.pcs j = .idle)
    (hlate : ¬InTime s (i, .finish true)) :
    ¬PowerSaveMatches (s.move i (.idle, sdkCall s.shared (some decision) true)) := by
  intro hmatches
  have hidle := hmatches (all_idle hothers)
  rw [Config.move_shared] at hidle
  apply hlate
  refine ⟨fun h => (by cases h), ?_⟩
  intro decision' hmem _
  rw [hpc] at hawaits hmem
  cases hmem
  exact (sdkCall_powerSave (hawaits decision rfl)).mpr (hidle.trans hs.counted.last.symm)

/-- And so does a hold that the counter does not count. -/
theorem uncounted_mismatch (hs : Settled s) (hidle : ∀ j, s.pcs j = .idle)
    (hfull : s.shared.wifiPsHoldCount = 4294967295) {r : PsPc × PsShared}
    (hr : snfNetTestWifiPsHold s.shared = r) :
    r.1 = .decided none ∧ ¬PowerSaveMatches ((s.move i r).move i (.idle, r.2)) := by
  have hlast := hs.last fun j => (by rw [hidle j]; rfl)
  have hoff : s.shared.powerSave = false := hlast.mpr (hs.counted.last.mpr (by omega))
  have hne : s.shared.wifiPsHoldCount ≠ 0 := by omega
  have hwrap : u32Add s.shared.wifiPsHoldCount 1 = 0 := by
    unfold u32Add
    omega
  unfold snfNetTestWifiPsHold PsShared.decideOn at hr
  dsimp only at hr
  rw [hwrap, if_neg (by simpa using hne)] at hr
  subst hr
  refine ⟨rfl, ?_⟩
  intro hmatches
  have hcount := (hmatches (all_idle ?_)).mp hoff
  · exact absurd hcount (Nat.lt_irrefl 0)
  · intro j hj
    rw [Config.move_other s hj]
    exact hidle j

/-- In the runs whose calls are in time the SDK is left with what the count asks for, and
the count is that of the holds, of which there are never fewer than none. -/
theorem power_save_matches
    (h : Reach (step psNext) (fun s l => sdkSucceeds s l ∧ InTime s l) psBoot s) :
    PowerSaveMatches s ∧ (s.shared.wifiPsHoldCount : ℤ) = s.shared.balance ∧
      0 ≤ s.shared.balance := by
  obtain ⟨hs,_⟩ := inTime_settled h
  refine ⟨?_, hs.counted.count, hs.counted.count ▸ Int.natCast_nonneg _⟩
  intro hidle
  have hnone : ∀ i, (s.pcs i).outstanding = none := by
    intro i
    rw [hidle i]
    rfl
  exact (hs.last hnone).trans hs.counted.last

end Steps

def nestedHolds : List (Bool × PsLabel) :=
  [(true, .hold), (false, .hold), (true, .finish true), (true, .release), (false, .finish true),
    (true, .finish true), (false, .release), (false, .finish true)]

/-- A last release decides to enable, a new hold decides to disable and does so, and only
then the release enables. -/
def overtakenRelease : List (Bool × PsLabel) :=
  [(true, .hold), (true, .finish true), (true, .release), (false, .hold), (false, .finish true),
    (true, .finish true)]

instance (s : Config Bool PsPc PsShared) (l : Bool × PsLabel) : Decidable (sdkSucceeds s l) :=
  inferInstanceAs (Decidable (l.2 ≠ .finish false))

instance (s : Config Bool PsPc PsShared) (l : Bool × PsLabel) : Decidable (InTime s l) :=
  inferInstanceAs (Decidable (_ ∧ _))

theorem power_save_matches_nested :
    ∃ s, execWithin (step psNext) (fun s l => sdkSucceeds s l ∧ InTime s l) psBoot nestedHolds =
      some s ∧ PowerSaveMatches s ∧ (s.shared.wifiPsHoldCount : ℤ) = s.shared.balance ∧
      0 ≤ s.shared.balance :=
  ⟨_, rfl, @power_save_matches _ _ _ (@Reach.execWithin _ _ _ _ _ _ _ _ .init nestedHolds rfl)⟩

/-- A hold is left with the power save on and no call in progress. -/
theorem power_save_overtaken :
    ¬∀ {I : Type} [DecidableEq I] {s : Config I PsPc PsShared}, Reach (step psNext) sdkSucceeds
      psBoot s → PowerSaveMatches s ∧ (s.shared.wifiPsHoldCount : ℤ) = s.shared.balance ∧
      0 ≤ s.shared.balance := by
  intro hall
  have hrun : ∃ s, execWithin (step psNext) sdkSucceeds psBoot overtakenRelease = some s ∧
      (∀ i, s.pcs i = .idle) ∧ s.shared.powerSave = true ∧ s.shared.wifiPsHoldCount = 1 :=
    ⟨_, rfl, by decide, rfl, rfl⟩
  obtain ⟨s,hs,hidle,hpowerSave,hcount⟩ := hrun
  have hmatches := (hall (Reach.execWithin .init hs)).1 hidle
  rw [hpowerSave, hcount] at hmatches
  exact absurd (hmatches.mpr (by decide)) (by decide)

end Sonoff.NetTest
