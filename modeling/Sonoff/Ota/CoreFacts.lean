import Sonoff.Ota.CoreCallers
import Sonoff.Ota.SessionRecord

/-! # The reachable states of the core

What is known of every reachable core, and how a session comes to its end.
-/
namespace Sonoff.Ota
open Bytes AesGcm NorFlash OtaParse Threads Machine

variable {G : Type} {sdk : Sdk G} {core core' : OtaState G} {i : ThreadId} {k : ℕ} {flash : Flash}
  {p q : OtaPc} {x y : OtaSystem G} {label : OtaLabel}

structure CoreFacts (core : OtaState G) : Prop where
  owned : (otaMutex G).Owned core
  whole : Whole core
  asserted : ∀ i, Asserted i (core.pcs i) core.shared
  ofTask : ∀ i, (core.pcs i).ofTask = i.isTask
  accounting : Accounting core
  commit : CommitInvariant core
  record : SessionRecord core

theorem reach_coreFacts (h : Reach (otaStep sdk) keepsMutex (otaBoot G flash) core) :
    CoreFacts core where
  owned := reach_owned h
  whole := (reach_asserted h).1
  asserted := (reach_asserted h).2
  ofTask := reach_ofTask h
  accounting := reach_accounting h
  commit := reach_commitInvariant h
  record := reach_sessionRecord h

/-- A callback belongs to the running session. -/
theorem CoreFacts.running (h : CoreFacts core) (hlive : (core.pcs (.task k)).live = true) :
    core.shared.taskHandle = some k := by
  obtain ⟨u,hu,hx⟩ := (h.asserted (.task k)).of_live hlive
  cases hu
  exact hx

/-- A session that is not receiving was there before the step. -/
theorem CoreFacts.sameSession (hf : CoreFacts core)
    (h : otaStep sdk core (i, label) = some core') (hx : core'.shared.taskHandle = some k)
    (hst : core'.shared.core.info.state ≠ .receiving) : core.shared.taskHandle = some k := by
  obtain ⟨r,hr,rfl⟩ := step_some h
  rw [Config.move_shared] at hx hst
  cases (otaNext_move hr).record (hf.asserted i) with
  | keep hh _ _ _ _ => exact hh ▸ hx
  | idle _ hno _ _ _ =>
    rw [hno] at hx
    cases hx
  | spawn config hp _ hy =>
    have ha := hf.asserted i
    dsimp only at hp hy
    rw [hp] at ha
    rw [hy] at hst
    refine absurd ?_ hst
    show core.shared.core.info.state = .receiving
    rw [ha.2.info]

theorem Asserted.of_starting (h : Asserted i p x) (hp : p.starting = true) :
    x.taskHandle = none := by
  cases p with
  | startPrepare config => exact h.taskHandle
  | startQueue config => exact h.taskHandle
  | startInit config => exact h.taskHandle
  | startTask config => exact h.1
  | _ => cases hp

/-- A start goes on to its session only from a check that found none. -/
theorem OtaMove.starting (h : OtaMove sdk i p x q y) (hq : q.starting = true) :
    p.starting = true ∨ ((∃ config, p = .check (.start config)) ∧ x.taskHandle = none) := by
  cases h with
  | pc hpc =>
    cases hpc with
    | keepQueue config _ => exact Or.inl rfl
    | check request =>
      cases request with
      | start config =>
        simp only [otaCheck] at hq
        split at hq
        · cases hq
        · exact Or.inr ⟨⟨config, rfl⟩, not_not.mp ‹_›⟩
      | _ =>
        simp only [otaCheck] at hq
        repeat' split at hq
        all_goals cases hq
    | «return» next => cases next <;> cases hq
    | _ => cases hq
  | prepare x config sizeKnown => exact Or.inl rfl
  | queue config _ => exact Or.inl rfl
  | init x config => exact Or.inl rfl
  | sent request event _ =>
    unfold afterSend at hq
    split at hq <;> cases hq
  | data event bytes results _ _ hd =>
    obtain ⟨core,out,_,rfl,_⟩ := otaHandleDataEvent_result hd
    cases hq
  | _ => cases hq

/-- A task that has notified the end goes on to its teardown. -/
theorem OtaMove.ending (h : OtaMove sdk i p x q y) (hm : x.mutex ≠ none) (hp : p.ending = true) :
    q.ending = true ∨ y.taskHandle = none := by
  cases h with
  | pc hpc =>
    cases hpc with
    | «return» next =>
      cases next with
      | exit => exact Or.inl rfl
      | _ => cases hp
    | exitNoMutex hno => exact absurd hno hm
    | exitWait m _ => exact Or.inl rfl
    | _ => cases hp
  | exitTaken m _ => exact Or.inl rfl
  | teardown x => exact Or.inr rfl
  | _ => cases hp

/-- The end is notified out of a timeout, an event or a commit, with a state that is no longer
active. -/
theorem OtaMove.reachesEnd (h : OtaMove sdk i p x q y) (hq : q.ending = true) :
    (p.ending = true ∧ y.core.info.state = x.core.info.state) ∨
    (q = .callback .exit ∧ snfOtaStateIsActive y.core.info.state = false ∧
      ((p = .timeout ∧ x.core.info.state = .receiving) ∨
        (∃ event, p = .handle event ∧ event.id ≠ .imageApply) ∨
        ∃ event, p = .commit event)) := by
  cases h with
  | pc hpc =>
    cases hpc with
    | «return» next =>
      cases next with
      | exit => exact Or.inl ⟨rfl, rfl⟩
      | _ => cases hq
    | exitWait m _ => exact Or.inl ⟨rfl, rfl⟩
    | check request =>
      have hasks := @otaCheck_asks _ i x request
      generalize otaCheck i x request = pc at hq hasks
      cases pc with
      | callback | exitLock | exitTake | teardown => cases hasks
      | _ => cases hq
    | _ => cases hq
  | prepare x config sizeKnown => split at hq <;> cases hq
  | sent request event _ =>
    unfold afterSend at hq
    split at hq <;> cases hq
  | exitTaken m _ => exact Or.inl ⟨rfl, rfl⟩
  | timedOut hst => exact Or.inr ⟨rfl, rfl, Or.inl ⟨rfl, hst⟩⟩
  | data event bytes results hid _ hd =>
    obtain ⟨core,out,hres,rfl,rfl⟩ := otaHandleDataEvent_result hd
    have hhandled : ∃ first, OtaPc.handle event = .handle first ∧ first.id ≠ .imageApply :=
      ⟨event, rfl, by rw [hid]; rintro ⟨⟩⟩
    suffices hend : _ ∧
      snfOtaStateIsActive out.state = false from Or.inr ⟨hend.1, hend.2, Or.inr (Or.inl hhandled)⟩
    cases hres with
    | refused _ _ _ _ _ => exact ⟨rfl, rfl⟩
    | failed _ _ _ _ _ => exact ⟨rfl, rfl⟩
    | accepted _ _ _ _ _ =>
      rcases acceptedOutcome_cases core with ⟨_,hout⟩ | ⟨_,hout⟩ | ⟨_,error,hout⟩ <;>
        rw [hout] at hq ⊢
      · cases hq
      · cases hq
      · exact ⟨rfl, rfl⟩
  | abort x event hid =>
    exact Or.inr ⟨rfl, rfl, Or.inr (Or.inl ⟨event, rfl, by rw [hid]; rintro ⟨⟩⟩)⟩
  | commitFailed x event => exact Or.inr ⟨rfl, rfl, Or.inr (Or.inr ⟨event, rfl⟩)⟩
  | _ => cases hq

theorem OtaMove.inactive (h : OtaMove sdk i p x q y) (hq : q.ending = true) :
    (p.ending = true ∧ y.core.info.state = x.core.info.state)
      ∨ q = .callback .exit ∧ snfOtaStateIsActive y.core.info.state = false :=
  (h.reachesEnd hq).imp_right fun hend => ⟨hend.1, hend.2.1⟩

def EndsInactive (core : OtaState G) : Prop :=
  ∀ k, core.shared.taskHandle = some k → (core.pcs (.task k)).ending = true →
    snfOtaStateIsActive core.shared.core.info.state = false

theorem EndsInactive.step (h : EndsInactive core) (hf : CoreFacts core)
    (hstep : otaStep sdk core (i, label) = some core') : EndsInactive core' := by
  obtain ⟨r,hr,rfl⟩ := step_some hstep
  have hmove := otaNext_move hr
  intro k hx he
  rw [Config.move_shared] at hx ⊢
  have hback : core.shared.taskHandle = some k := by
    cases hmove.record (hf.asserted i) with
    | keep hh _ _ _ _ => exact hh ▸ hx
    | idle _ hno _ _ _ =>
      rw [hno] at hx
      cases hx
    | spawn config hp hq _ =>
      have ha := hf.asserted i
      dsimp only at hp hq
      rw [hp] at ha
      by_cases hi : ThreadId.task k = i
      · subst hi
        rw [Config.move_self, hq] at he
        cases he
      · rw [Config.move_other _ hi] at he
        have hlive : (core.pcs (.task k)).live = true := by
          generalize core.pcs (.task k) = pc at he ⊢
          cases pc with
          | receive | timeout | handle | callback | commit | reboot | exitLock | exitTake
          | teardown => rfl
          | _ => cases he
        exact nomatch (hf.running hlive).symm.trans ha.1
  by_cases hi : i = .task k
  · subst hi
    rw [Config.move_self] at he
    rcases hmove.inactive he with ⟨hp,hst⟩ | ⟨-,hst⟩
    · rw [hst]
      exact h k hback hp
    · exact hst
  · rw [Config.move_other _ (Ne.symm hi)] at he
    rw [(hmove.outsider (hf.asserted i) hback hi).state]
    exact h k hback he

/-- A session that has become inactive stays so to its end. -/
theorem CoreFacts.active_back (hf : CoreFacts core) (he : EndsInactive core)
    (hstep : otaStep sdk core (i, label) = some core') (hs : core.shared.taskHandle ≠ none)
    (ht : core'.shared.taskHandle ≠ none)
    (ha : snfOtaStateIsActive core'.shared.core.info.state = true) :
    snfOtaStateIsActive core.shared.core.info.state = true := by
  by_contra hno
  obtain ⟨k,hk⟩ := Option.ne_none_iff_exists'.mp hs
  have hending : (core.pcs (.task k)).ending = true := by
    by_contra hp
    exact hno (hf.accounting.active k hk (eq_false_of_ne_true hp))
  have he' := he.step hf hstep
  obtain ⟨r,hr,rfl⟩ := step_some hstep
  have hmove := otaNext_move hr
  by_cases hi : i = .task k
  · subst hi
    rcases hmove.ending (hf.whole.locked hs) hending with hq | hend
    · have hkept : (core.move (.task k) r).shared.taskHandle = some k := by
        cases hmove.record (hf.asserted (.task k)) with
        | keep hh _ _ _ _ => exact hh.trans hk
        | idle _ hend _ _ _ => exact absurd hend ht
        | spawn config hp _ _ =>
          dsimp only at hp
          rw [hp] at hending
          cases hending
      rw [he' k hkept (by rwa [Config.move_self])] at ha
      cases ha
    · exact ht hend
  · rw [Config.move_shared, (hmove.outsider (hf.asserted i) hk hi).state] at ha
    exact hno ha

/-- The steps of a task that has not notified its end keep the session. -/
theorem CoreFacts.task_step (hf : CoreFacts core) (hx : core.shared.taskHandle = some k)
    (hstep : otaStep sdk core (.task k, label) = some core')
    (hp : (core.pcs (.task k)).ending = false) :
    core'.shared.taskHandle = some k ∧ core'.shared.session = core.shared.session ∧
      core'.shared.core.config = core.shared.core.config ∧
      ((core'.pcs (.task k)).ending = true → core'.pcs (.task k) = .callback .exit) := by
  obtain ⟨r,hr,rfl⟩ := step_some hstep
  have hmove := otaNext_move hr
  have hofTask : (core.pcs (.task k)).ofTask = true := hf.ofTask (.task k)
  have ha := hf.asserted (.task k)
  rw [Config.move_self, Config.move_shared]
  cases hmove.record ha with
  | keep hh hsession hconfig _ _ =>
    refine ⟨hh.trans hx, hsession, hconfig, fun hq => ?_⟩
    rcases hmove.inactive hq with ⟨he,-⟩ | ⟨hq,-⟩
    · exact nomatch he.symm.trans hp
    · exact hq
  | idle hcrit _ _ _ _ =>
    dsimp only at hcrit
    generalize core.pcs (.task k) = pc at hp hofTask ha hcrit
    cases pc with
    | teardown => cases hp
    | exitUnlock =>
      obtain ⟨t,ht,-,hne⟩ := ha
      cases ht
      exact absurd hx hne
    | check | startPrepare | startQueue | startInit | startTask | send | count | unlock =>
      cases hofTask
    | _ => cases hcrit
  | spawn config hp' _ _ =>
    dsimp only at hp'
    rw [hp'] at hofTask
    cases hofTask

theorem reach_endsInactive (h : Reach (otaStep sdk) keepsMutex (otaBoot G flash) core) :
    EndsInactive core := by
  refine @Reach.invariant_of _ _ _ _ _ EndsInactive CoreFacts (fun _ hs => reach_coreFacts hs) nofun
    ?_ core h
  rintro s ⟨i,label⟩ t hf hs _ hstep
  exact hs.step hf hstep

end Sonoff.Ota
