import Mathlib.Tactic.MkIffOfInductiveProp
import Sonoff.Wifi.Adapter

/-! # The recorded mode and the interfaces

Flags and interfaces are those of the recorded mode as long as every change that fails is
taken back. Taking back can fail, and a change from both interfaces to none that has stopped
the station is not taken back.
-/
namespace Sonoff.Wifi
open Machine

variable {answers : SdkAnswers} {s t : SnfWifiAdapterState} {mode : SnfWifiMode}

@[mk_iff] structure Consistent (s : SnfWifiAdapterState) : Prop where
  staStarted : s.staStarted = s.mode.hasSta
  apStarted : s.apStarted = s.mode.hasAp
  staRuns : s.staRuns = s.mode.hasSta
  apRuns : s.apRuns = s.mode.hasAp

instance : Decidable (Consistent s) := decidable_of_iff _ (consistent_iff s).symm

@[mk_iff] structure SameMode (s t : SnfWifiAdapterState) : Prop where
  mode : t.mode = s.mode
  staStarted : t.staStarted = s.staStarted
  apStarted : t.apStarted = s.apStarted

def SdkAnswers.startsSta (answers : SdkAnswers) : Bool := answers.staSplitInit = .ok &&
    answers.staSplitStart = .ok
def SdkAnswers.stopsSta (answers : SdkAnswers) : Bool := answers.staStop = .ok
def SdkAnswers.startsAp (answers : SdkAnswers) : Bool := answers.apStart = .ok
def SdkAnswers.stopsAp (answers : SdkAnswers) : Bool := answers.apStop = .ok

/-- A call that the SDK answers with an error reports one and changes nothing. -/
theorem snfStartSta_cases (answers : SdkAnswers) :
    (answers.startsSta = true ∧
      ∀ s, snfStartSta answers s = (.ok, { s with staStarted := true, staRuns := true })) ∨
    (answers.startsSta = false ∧ ∃ error, error ≠ .ok ∧
      ∀ s, snfStartSta answers s = (error, s)) := by
  unfold snfStartSta SdkAnswers.startsSta
  by_cases hinit : answers.staSplitInit = .ok
  · by_cases hstart : answers.staSplitStart = .ok
    · exact Or.inl (by simp [hinit, hstart])
    · exact Or.inr ⟨by simp [hstart], _, mt snfMapSdkError_eq_ok.mp hstart, by simp [hinit, hstart]⟩
  · exact Or.inr ⟨by simp [hinit], _, mt snfMapSdkError_eq_ok.mp hinit, by simp [hinit]⟩

theorem snfStartAp_cases (answers : SdkAnswers) :
    (answers.startsAp = true ∧
      ∀ s, snfStartAp answers s = (.ok, { s with apStarted := true, apRuns := true })) ∨
    (answers.startsAp = false ∧ ∃ error, error ≠ .ok ∧ ∀ s, snfStartAp answers s = (error, s)) := by
  unfold snfStartAp SdkAnswers.startsAp
  by_cases hstart : answers.apStart = .ok
  · exact Or.inl (by simp [hstart])
  · exact Or.inr ⟨by simp [hstart], _, mt snfMapSdkError_eq_ok.mp hstart, by simp [hstart]⟩

theorem snfStopSta_cases (answers : SdkAnswers) :
    (answers.stopsSta = true ∧ ∀ s : SnfWifiAdapterState, s.staStarted = true →
      snfStopSta answers s = (.ok, { s with staStarted := false, staRuns := false })) ∨
    (answers.stopsSta = false ∧ ∃ error, error ≠ .ok ∧
      ∀ s : SnfWifiAdapterState, s.staStarted = true →
      snfStopSta answers s = (error, s)) := by
  unfold snfStopSta SdkAnswers.stopsSta
  by_cases hstop : answers.staStop = .ok
  · exact Or.inl (by simp +contextual [hstop])
  · exact Or.inr ⟨by simp [hstop], _, mt snfMapSdkError_eq_ok.mp hstop, by simp +contextual [hstop]⟩

theorem snfStopAp_cases (answers : SdkAnswers) :
    (answers.stopsAp = true ∧ ∀ s : SnfWifiAdapterState, s.apStarted = true →
      snfStopAp answers s = (.ok, { s with apStarted := false, apRuns := false })) ∨
    (answers.stopsAp = false ∧ ∃ error, error ≠ .ok ∧
      ∀ s : SnfWifiAdapterState, s.apStarted = true →
      snfStopAp answers s = (error, s)) := by
  unfold snfStopAp SdkAnswers.stopsAp
  by_cases hstop : answers.apStop = .ok
  · exact Or.inl (by simp +contextual [hstop])
  · exact Or.inr ⟨by simp [hstop], _, mt snfMapSdkError_eq_ok.mp hstop, by simp +contextual [hstop]⟩

/-- A change of mode that stops between its two steps: the second one fails, and the first
one cannot be taken back or, on the way from both interfaces to none, is not taken back. -/
def LeftHalfway (answers : SdkAnswers) : SnfWifiMode → SnfWifiMode → Bool
  | .none, .apSta => answers.startsSta && !answers.startsAp && !answers.stopsSta
  | .sta, .ap => answers.startsAp && !answers.stopsSta && !answers.stopsAp
  | .ap, .sta => answers.startsSta && !answers.stopsAp && !answers.stopsSta
  | .apSta, .none => answers.stopsSta && !answers.stopsAp
  | _, _ => false

@[mk_iff] structure KeepsMode (s : SnfWifiAdapterState)
    (result : SnfWifiAdapterErr × SnfWifiAdapterState) : Prop where
  consistent : Consistent result.2
  unchanged : result.1 ≠ .ok → SameMode s result.2

def stateOf (scan : Bool) (mode : SnfWifiMode) : SnfWifiAdapterState :=
  ⟨true, mode.hasSta, mode.hasAp, scan, mode, mode.hasSta, mode.hasAp⟩

/-- One change of mode keeps its promise unless it is left halfway. The cases are the two
modes; in each of them the calls that it makes succeed or fail. -/
theorem changeMode_keeps (answers : SdkAnswers) (scan : Bool) {old mode : SnfWifiMode}
    (hne : mode ≠ old) : KeepsMode (stateOf scan old) (changeMode answers mode (stateOf scan old)) ↔
    LeftHalfway answers old mode = false := by
  have hstartSta := snfStartSta_cases answers
  have hstartAp := snfStartAp_cases answers
  have hstopSta := snfStopSta_cases answers
  have hstopAp := snfStopAp_cases answers
  rw [keepsMode_iff, consistent_iff, sameMode_iff]
  unfold changeMode stateOf LeftHalfway
  cases old with
  | none =>
    cases mode with
    | none => exact absurd rfl hne
    | sta =>
      rcases hstartSta with ⟨ha,ha'⟩ | ⟨ha,e,he,ha'⟩ <;>
        simp [*, SnfWifiMode.hasSta, SnfWifiMode.hasAp]
    | ap =>
      rcases hstartAp with ⟨hb,hb'⟩ | ⟨hb,e',he',hb'⟩ <;>
        simp [*, SnfWifiMode.hasSta, SnfWifiMode.hasAp]
    | apSta =>
      rcases hstartSta with ⟨ha,ha'⟩ | ⟨ha,e,he,ha'⟩ <;>
        rcases hstartAp with ⟨hb,hb'⟩ | ⟨hb,e',he',hb'⟩ <;>
        rcases hstopSta with ⟨hc,hc'⟩ | ⟨hc,e₃,he₃,hc'⟩ <;>
          simp [*, SnfWifiMode.hasSta, SnfWifiMode.hasAp]
  | sta =>
    cases mode with
    | none =>
      rcases hstopSta with ⟨hc,hc'⟩ | ⟨hc,e₃,he₃,hc'⟩ <;>
        simp [*, SnfWifiMode.hasSta, SnfWifiMode.hasAp]
    | sta => exact absurd rfl hne
    | ap =>
      rcases hstartAp with ⟨hb,hb'⟩ | ⟨hb,e',he',hb'⟩ <;>
        rcases hstopSta with ⟨hc,hc'⟩ | ⟨hc,e₃,he₃,hc'⟩ <;>
        rcases hstopAp with ⟨hd,hd'⟩ | ⟨hd,e₄,he₄,hd'⟩ <;>
          simp [*, SnfWifiMode.hasSta, SnfWifiMode.hasAp]
    | apSta =>
      rcases hstartAp with ⟨hb,hb'⟩ | ⟨hb,e',he',hb'⟩ <;>
        simp [*, SnfWifiMode.hasSta, SnfWifiMode.hasAp]
  | ap =>
    cases mode with
    | none =>
      rcases hstopAp with ⟨hd,hd'⟩ | ⟨hd,e₄,he₄,hd'⟩ <;>
        simp [*, SnfWifiMode.hasSta, SnfWifiMode.hasAp]
    | sta =>
      rcases hstartSta with ⟨ha,ha'⟩ | ⟨ha,e,he,ha'⟩ <;>
        rcases hstopAp with ⟨hd,hd'⟩ | ⟨hd,e₄,he₄,hd'⟩ <;>
        rcases hstopSta with ⟨hc,hc'⟩ | ⟨hc,e₃,he₃,hc'⟩ <;>
          simp [*, SnfWifiMode.hasSta, SnfWifiMode.hasAp]
    | ap => exact absurd rfl hne
    | apSta =>
      rcases hstartSta with ⟨ha,ha'⟩ | ⟨ha,e,he,ha'⟩ <;>
        simp [*, SnfWifiMode.hasSta, SnfWifiMode.hasAp]
  | apSta =>
    cases mode with
    | none =>
      rcases hstopSta with ⟨hc,hc'⟩ | ⟨hc,e₃,he₃,hc'⟩ <;>
        rcases hstopAp with ⟨hd,hd'⟩ | ⟨hd,e₄,he₄,hd'⟩ <;>
        simp [*, SnfWifiMode.hasSta, SnfWifiMode.hasAp]
    | sta =>
      rcases hstopAp with ⟨hd,hd'⟩ | ⟨hd,e₄,he₄,hd'⟩ <;>
        simp [*, SnfWifiMode.hasSta, SnfWifiMode.hasAp]
    | ap =>
      rcases hstopSta with ⟨hc,hc'⟩ | ⟨hc,e₃,he₃,hc'⟩ <;>
        simp [*, SnfWifiMode.hasSta, SnfWifiMode.hasAp]
    | apSta => exact absurd rfl hne

theorem SnfWifiMode.ofInt_toInt (mode : SnfWifiMode) : ofInt mode.toInt = some mode := by
  cases mode <;> rfl

/-- A consistent state of an adapter that is set up is that of its mode. -/
theorem Consistent.eq_stateOf (h : Consistent s) (hinit : s.init = true) :
    s = stateOf s.scanStarted s.mode := by
  obtain ⟨init,staStarted,apStarted,scan,mode,staRuns,apRuns⟩ := s
  obtain ⟨hsta,hap,hstaRuns,hapRuns⟩ := h
  dsimp only at hinit hsta hap hstaRuns hapRuns
  rw [hinit, hsta, hap, hstaRuns, hapRuns]
  rfl

inductive AdapterCall
  | init (answers : InitAnswers)
  | setMode (mode : ℤ) (answers : SdkAnswers)
  deriving DecidableEq, Repr

def adapterStep (s : SnfWifiAdapterState) : AdapterCall → Option SnfWifiAdapterState
  | .init answers => some (snfWifiAdapterInit answers s).2
  | .setMode mode answers => some (snfWifiAdapterSetMode answers mode s).2

def finishes (s : SnfWifiAdapterState) : AdapterCall → Bool
  | .init _ => true
  | .setMode mode answers =>
    !s.init || (SnfWifiMode.ofInt mode).all fun mode => !LeftHalfway answers s.mode mode

theorem sameMode_refl (s : SnfWifiAdapterState) : SameMode s s := ⟨rfl, rfl, rfl⟩

/-- A call that does not reach the SDK keeps its promise. -/
theorem keepsMode_self (h : Consistent s) (error : SnfWifiAdapterErr) : KeepsMode s (error, s) :=
  ⟨h, fun _ => sameMode_refl s⟩

theorem setMode_keeps (h : Consistent s) (mode : ℤ) (answers : SdkAnswers) :
    KeepsMode s (snfWifiAdapterSetMode answers mode s) ↔
      finishes s (.setMode mode answers) = true := by
  unfold snfWifiAdapterSetMode snfInitStateGet finishes
  cases hinit : s.init with
  | false => exact iff_of_true (keepsMode_self h _) rfl
  | true =>
    rw [if_neg (by decide)]
    dsimp only
    cases SnfWifiMode.ofInt mode with
    | none => exact iff_of_true (keepsMode_self h _) rfl
    | some mode =>
      dsimp only
      by_cases hsame : mode = s.mode
      · rw [if_pos hsame, hsame]
        refine iff_of_true (keepsMode_self h _) ?_
        cases s.mode <;> rfl
      · have hkeeps := changeMode_keeps answers s.scanStarted hsame
        rw [← h.eq_stateOf hinit] at hkeeps
        rw [if_neg hsame, hkeeps]
        simp

structure FlagsOnly (s t : SnfWifiAdapterState) : Prop where
  init : t.init = s.init
  scanStarted : t.scanStarted = s.scanStarted
  mode : t.mode = s.mode

theorem FlagsOnly.refl (s : SnfWifiAdapterState) : FlagsOnly s s := ⟨rfl, rfl, rfl⟩

theorem FlagsOnly.trans {u : SnfWifiAdapterState} (h : FlagsOnly s t) (h' : FlagsOnly t u) :
    FlagsOnly s u :=
  ⟨h'.init.trans h.init, h'.scanStarted.trans h.scanStarted, h'.mode.trans h.mode⟩

theorem snfStartSta_flags (answers : SdkAnswers) (s : SnfWifiAdapterState) :
    FlagsOnly s (snfStartSta answers s).2 := by
  unfold snfStartSta
  split_ifs <;> exact ⟨rfl, rfl, rfl⟩

theorem snfStartAp_flags (answers : SdkAnswers) (s : SnfWifiAdapterState) :
    FlagsOnly s (snfStartAp answers s).2 := by
  unfold snfStartAp
  split_ifs <;> exact ⟨rfl, rfl, rfl⟩

theorem snfStopSta_flags (answers : SdkAnswers) (s : SnfWifiAdapterState) :
    FlagsOnly s (snfStopSta answers s).2 := by
  unfold snfStopSta
  split_ifs <;> exact ⟨rfl, rfl, rfl⟩

theorem snfStopAp_flags (answers : SdkAnswers) (s : SnfWifiAdapterState) :
    FlagsOnly s (snfStopAp answers s).2 := by
  unfold snfStopAp
  split_ifs <;> exact ⟨rfl, rfl, rfl⟩

/-- A call that is made or not. -/
theorem ite_flags {call : SnfWifiAdapterErr × SnfWifiAdapterState} (needed : Bool)
    (h : FlagsOnly s call.2) : FlagsOnly s (if needed then call else (.ok, s)).2 := by
  split
  · exact h
  · exact .refl s

theorem ite_rollback {call : SnfWifiAdapterState} (made : Bool) (h : FlagsOnly s call) :
    FlagsOnly s (if made then call else s) := by
  split
  · exact h
  · exact .refl s

/-- A change of mode fails and leaves the recorded mode, or succeeds and records the new one. -/
theorem changeMode_cases (answers : SdkAnswers) (mode : SnfWifiMode) (s : SnfWifiAdapterState) :
    ∃ u, FlagsOnly s u ∧ ((changeMode answers mode s).1 ≠ .ok ∧ (changeMode answers mode s).2 = u ∨
      changeMode answers mode s = (.ok, { u with mode := mode })) := by
  unfold changeMode
  have h1 := ite_flags (mode.hasSta && !s.staStarted) (snfStartSta_flags answers s)
  dsimp only
  generalize (if mode.hasSta && !s.staStarted then snfStartSta answers s else (.ok, s)) = p at h1 ⊢
  split
  · exact ⟨p.2, h1, Or.inl ⟨‹_›, rfl⟩⟩
  · have h2 := h1.trans (ite_flags (mode.hasAp && !p.2.apStarted) (snfStartAp_flags answers p.2))
    generalize (if mode.hasAp && !p.2.apStarted then snfStartAp answers p.2 else (.ok, p.2)) =
      q at h2 ⊢
    split
    · exact ⟨_, h2.trans (ite_rollback _ (snfStopSta_flags answers q.2)), Or.inl ⟨‹_›, rfl⟩⟩
    · have h3 := h2.trans
        (ite_flags (!mode.hasSta && q.2.staStarted) (snfStopSta_flags answers q.2))
      generalize (if !mode.hasSta && q.2.staStarted then snfStopSta answers q.2 else (.ok, q.2)) =
        r at h3 ⊢
      split
      · exact ⟨_, h3.trans (ite_rollback _ (snfStopAp_flags answers r.2)), Or.inl ⟨‹_›, rfl⟩⟩
      · have h4 := h3.trans (ite_flags (!mode.hasAp && r.2.apStarted) (snfStopAp_flags answers r.2))
        generalize (if !mode.hasAp && r.2.apStarted then snfStopAp answers r.2 else (.ok, r.2)) =
          u at h4 ⊢
        split
        · exact ⟨_, h4.trans (ite_rollback _ (snfStopSta_flags answers u.2)), Or.inl ⟨‹_›, rfl⟩⟩
        · exact ⟨u.2, h4, Or.inr rfl⟩

/-- From every state: success records the mode, failure none. -/
theorem setMode_mode (answers : SdkAnswers) (mode : SnfWifiMode) (s : SnfWifiAdapterState) :
    ((snfWifiAdapterSetMode answers mode.toInt s).1 = .ok →
      (snfWifiAdapterSetMode answers mode.toInt s).2.mode = mode) ∧
    ((snfWifiAdapterSetMode answers mode.toInt s).1 ≠ .ok →
      (snfWifiAdapterSetMode answers mode.toInt s).2.mode = s.mode) := by
  unfold snfWifiAdapterSetMode
  rw [SnfWifiMode.ofInt_toInt]
  by_cases hinit : snfInitStateGet s ≠ .ok
  · rw [if_pos hinit]
    exact ⟨fun h => absurd h hinit, fun _ => rfl⟩
  · rw [if_neg hinit]
    dsimp only
    by_cases hsame : mode = s.mode
    · rw [if_pos hsame]
      exact ⟨fun _ => hsame.symm, fun _ => rfl⟩
    · rw [if_neg hsame]
      obtain ⟨u,hu,⟨herror,h⟩ | h⟩ := changeMode_cases answers mode s
      · exact ⟨fun hok => absurd hok herror, fun _ => h ▸ hu.mode⟩
      · rw [h]
        exact ⟨fun _ => rfl, fun hne => absurd rfl hne⟩

theorem setMode_init (answers : SdkAnswers) (mode : ℤ) (s : SnfWifiAdapterState) :
    (snfWifiAdapterSetMode answers mode s).2.init = s.init := by
  unfold snfWifiAdapterSetMode
  split_ifs
  · rfl
  · split
    · rfl
    case h_2 mode _ =>
      split_ifs
      · rfl
      · obtain ⟨u,hu,⟨-,h⟩ | h⟩ := changeMode_cases answers mode s
        · exact h ▸ hu.init
        · rw [h]
          exact hu.init

/-- An adapter that is not set up is as it was at the start. -/
structure AdapterFacts (s : SnfWifiAdapterState) : Prop where
  consistent : Consistent s
  boot : s.init = false → s = .boot

theorem adapterFacts_step {call : AdapterCall} (h : AdapterFacts s) (hf : finishes s call = true)
    (hstep : adapterStep s call = some t) : AdapterFacts t := by
  cases call with
  | init answers =>
    obtain rfl := Option.some.inj hstep
    cases hinit : s.init with
    | true =>
      have hsame : (snfWifiAdapterInit answers s).2 = s := by rw [snfWifiAdapterInit, if_pos hinit]
      exact hsame.symm ▸ h
    | false =>
      have hboot : AdapterFacts .boot := ⟨by decide, fun _ => rfl⟩
      rw [h.boot hinit, snfWifiAdapterInit, if_neg (by decide)]
      split_ifs
      · exact hboot
      · exact hboot
      · exact hboot
      · exact ⟨by decide, nofun⟩
  | setMode mode answers =>
    obtain rfl := Option.some.inj hstep
    refine ⟨((setMode_keeps h.consistent mode answers).mpr hf).consistent, fun hinit => ?_⟩
    rw [setMode_init] at hinit
    unfold snfWifiAdapterSetMode snfInitStateGet
    rw [hinit, if_pos rfl, if_pos (by decide)]
    exact h.boot hinit

theorem reach_adapterFacts (h : Reach adapterStep (fun s call => finishes s call = true) .boot s) :
    AdapterFacts s :=
  h.invariant ⟨by decide, fun _ => rfl⟩ fun _ _ _ hs hf hstep => adapterFacts_step hs hf hstep

/-- As long as no change of mode is left halfway, flags and interfaces are those of the recorded
mode; and a call on the way keeps them so, and changes nothing when it fails, where it is not
left halfway and only there. -/
theorem adapter_mode_consistent
    (h : Reach adapterStep (fun s call => finishes s call = true) .boot s) :
    Consistent s ∧ ∀ mode answers,
      KeepsMode s (snfWifiAdapterSetMode answers mode s) ↔
        finishes s (.setMode mode answers) = true :=
  ⟨(reach_adapterFacts h).consistent, setMode_keeps (reach_adapterFacts h).consistent⟩

/-- Set up, both interfaces, a failing way back to the station alone, then the AP alone. -/
theorem adapter_mode_consistent_run : ∃ s,
    execWithin adapterStep (fun s call => finishes s call = true) .boot
      [.init ⟨.ok, false, .ok, .ok⟩, .setMode 3 .allOk,
        .setMode 1 { SdkAnswers.allOk with apStop := .busy },
        .setMode 2 .allOk] = some s ∧ s.mode = .ap ∧ Consistent s := by
  obtain ⟨s,hs⟩ := Option.isSome_iff_exists.mp
    (show (execWithin adapterStep (fun s call => finishes s call = true) .boot
    [.init ⟨.ok, false, .ok, .ok⟩, .setMode 3 .allOk,
      .setMode 1 { SdkAnswers.allOk with apStop := .busy },
      .setMode 2 .allOk]).isSome = true by decide +kernel)
  have hmode : (some s).map SnfWifiAdapterState.mode = some .ap := by
    rw [← hs]
    decide +kernel
  exact ⟨s, hs, Option.some.inj hmode, (adapter_mode_consistent (Reach.init.execWithin hs)).1⟩

/-- From both interfaces to none: the station stops and the AP does not. The call fails and
leaves the station stopped in a mode that has one. -/
theorem adapter_mode_inconsistent : ¬ ∀ s, Reach adapterStep anyStep .boot s →
    Consistent s ∧ ∀ mode answers, KeepsMode s (snfWifiAdapterSetMode answers mode s) := by
  intro hall
  have hreach : Reach adapterStep anyStep .boot ⟨true, false, true, false, .apSta, false, true⟩ :=
    reach_of_exec (show exec adapterStep .boot [.init ⟨.ok, false, .ok, .ok⟩, .setMode 3 .allOk,
      .setMode 0 { SdkAnswers.allOk with apStop := .busy }] = _ by decide +kernel)
  exact absurd (hall _ hreach).1 (by decide)

end Sonoff.Wifi
