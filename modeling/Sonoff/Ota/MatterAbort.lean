import Sonoff.Ota.FirstReport
import Sonoff.Ota.VerifiedSession

/-! # A Matter abort ends its session

`snfOtaMatterAbort` decides on the mirror of the session's state. While a session of Matter is
under way the mirror shows an active state, once the first callback has stored one.
-/
namespace Sonoff.Ota
open Bytes AesGcm NorFlash OtaParse Threads Machine

variable {G : Type} {sdk : Sdk G} {s t : ChannelState G} {i : ThreadId} {k n : ℕ} {flash : Flash}
  {p q : OtaPc} {x y : OtaSystem G} {label : OtaLabel} {l : ChannelLabel}

/-- The session has ended, or its task has notified the end. -/
def Over (core : OtaState G) (n : ℕ) : Prop :=
  core.shared.session = n → ∀ k, core.shared.taskHandle = some k →
    (core.pcs (.task k)).ending = true

/-- The running session was started by Matter, and its task has not notified the end. -/
def matterUnderway (s : ChannelState G) : Bool :=
  match s.core.shared.taskHandle with
  | none => false
  | some k =>
    s.core.shared.core.config.eventCallback = some Channel.matter.callback &&
      !(s.core.pcs (.task k)).ending

def unheard (s : ChannelState G) : Bool :=
  match s.core.shared.taskHandle with
  | none => false
  | some k => s.core.shared.core.config.eventCallback = some Channel.matter.callback &&
      timesNotified s.core.shared.session s.core.shared.history ≤ (s.callbacks k).storing

def reportsToCome (s : ChannelState G) : Bool :=
  match s.core.shared.taskHandle with
  | none => false
  | some k => s.core.shared.core.config.eventCallback = some Channel.matter.callback &&
      (!(s.core.pcs (.task k)).ending || (s.callbacks k).storing ≠ 0)

/-- An abort comes behind the first report of the session, and no start resets the mirror while an
earlier session is still to report. -/
def matterTimely (s : ChannelState G) : Bool :=
  match s.matter with
  | .abortCheck => !unheard s
  | .startState _ => !reportsToCome s
  | _ => true

def applyFits (s : ChannelState G) (i : ThreadId) : Bool :=
  match s.core.pcs i with
  | .send .apply _ =>
    match s.core.shared.eventQueue with
    | none => true
    | some events => events.length < snfOtaEventQueueLength
  | _ => true

def abortsTimely (s : ChannelState G) : ChannelLabel → Prop
  | .core i label => keepsMutex s.core (i, label) ∧ applyFits s i = true
  | .matter _ => matterTimely s = true
  | _ => True

instance (s : ChannelState G) : (l : ChannelLabel) → Decidable (abortsTimely s l)
  | .core i label =>
    inferInstanceAs (Decidable (keepsMutex s.core (i, label) ∧ applyFits s i = true))
  | .matter _ => inferInstanceAs (Decidable (matterTimely s = true))
  | .callback _ | .http _ => inferInstanceAs (Decidable True)

theorem abortsTimely.mutex (s : ChannelState G) (l : ChannelLabel) (h : abortsTimely s l) :
    keepsOneMutex s l := by
  cases l with
  | core i label => exact h.1
  | _ => trivial

/-- A session that is over stays so, and no start creates it again. -/
theorem Over.step {core core' : OtaState G} (h : Over core n) (hf : CoreFacts core) {j : ThreadId}
    {config : SnfOtaConfig} (hstarted : .started j n config ∈ core.shared.history)
    (hstep : otaStep sdk core (i, label) = some core') :
    Over core' n ∧ .started j n config ∈ core'.shared.history := by
  obtain ⟨r,hr,rfl⟩ := step_some hstep
  have hmove := otaNext_move hr
  cases hmove.record (hf.asserted i) with
  | keep hh hsession _ hsame _ =>
    refine ⟨fun hs k hk => ?_, (hsame j n config).mpr hstarted⟩
    rw [Config.move_shared] at hs hk
    have hk' := hh ▸ hk
    have hending := h (hsession ▸ hs) k hk'
    by_cases hi : ThreadId.task k = i
    · subst hi
      rw [Config.move_self]
      rcases hmove.ending (hf.whole.locked (by rw [hk']; nofun)) hending with he | hno
      · exact he
      · rw [hk] at hno
        cases hno
    · rwa [Config.move_other _ hi]
  | idle _ hno hhist _ _ =>
    refine ⟨fun _ k hk => ?_, hhist ▸ hstarted⟩
    rw [Config.move_shared, hno] at hk
    cases hk
  | spawn config' hp _ hy =>
    refine ⟨fun hs => ?_, ?_⟩
    · rw [Config.move_shared, hy] at hs
      rw [← show core.shared.session = n from hs] at hstarted
      exact absurd hstarted (hf.record.starting i config' hp j config)
    · rw [Config.move_shared, hy]
      exact List.mem_cons_of_mem _ hstarted

def OtaPc.willApply (pc : OtaPc) : Prop := pc.applying = true ∨ pc = .unlock .apply .ok ∨
    pc = .idle (some .ok)

/-- Where the callback stands, its APPLY has not been refused. -/
def CallbackPc.accepted (pc : CallbackPc) (applyPc : OtaPc) : Prop :=
  match pc with
  | .applying _ => applyPc.willApply
  | .storeFailed _ | .storeApplyFailed => False
  | _ => True

def AppliesAccepted (s : ChannelState G) :
    Prop := ∀ k, (s.callbacks k).accepted (s.core.pcs (applyClient k))

theorem CallbackPc.accepted_of_notified (core : OtaState G) (k : ℕ) (applyPc : OtaPc) :
    (ChannelState.notified core k).accepted applyPc := by
  unfold ChannelState.notified
  split <;> trivial

/-- The step of the callback's own client. -/
theorem OtaPc.willApply.next {events : List SnfOtaEvent} (h : otaNext sdk i p x label = some (q, y))
    (hp : p.willApply) (hidle : ∀ call, label ≠ .invoke call) (hhandle : x.taskHandle ≠ none)
    (hst : x.core.info.state = .verifySuccess)
    (hm : x.mutex ≠ none) (hq : x.eventQueue = some events)
    (hroom : ∀ event, p = .send .apply event → events.length < snfOtaEventQueueLength) :
    q.willApply := by
  rcases hp with hp | rfl | rfl
  · rcases otaNext_applying h hp hhandle hst hm hq with hgo | ⟨hgo,-⟩ | ⟨⟨event,hsend⟩,-,hfull⟩
    · exact Or.inl hgo
    · exact Or.inr (Or.inl hgo)
    · exact absurd (hroom event hsend) hfull
  · cases label with
    | proceed success =>
      simp only [otaNext] at h
      obtain ⟨z,-,hz⟩ := Option.map_eq_some_iff.mp h
      cases hz
      exact Or.inr (Or.inr rfl)
    | _ => cases h
  · cases label with
    | invoke call => exact absurd rfl (hidle call)
    | _ => cases h

theorem AppliesAccepted.core_step {core : OtaState G} (h : AppliesAccepted s) (hf : ChannelFacts s)
    (hstep : otaStep sdk s.core (i, label) = some core) (hidle : ∀ call, label ≠ .invoke call)
    (hroom : applyFits s i = true) (k : ℕ) :
    (s.callbacks k).accepted (core.pcs (applyClient k)) := by
  obtain ⟨r,hr,rfl⟩ := step_some hstep
  have hk := h k
  by_cases hi : applyClient k = i
  · subst hi
    rw [Config.move_self]
    cases hc : s.callbacks k with
    | applying channel =>
      rw [hc] at hk
      obtain ⟨⟨next,hpc⟩,-,hst⟩ := (hf.reports k).inside channel .verifySuccess (by rw [hc]; rfl)
      have hx := hf.core.running (k := k) (by rw [hpc]; rfl)
      have hhandle : s.core.shared.taskHandle ≠ none := by
        rw [hx]
        nofun
      obtain ⟨events,hq⟩ := Option.ne_none_iff_exists'.mp (hf.core.whole.running k hx).2
      refine OtaPc.willApply.next hr hk hidle hhandle hst (hf.core.whole.locked hhandle) hq ?_
      intro event hsend
      dsimp only at hsend
      simp only [applyFits, hsend, hq] at hroom
      exact of_decide_eq_true hroom
    | storeFailed channel =>
      rw [hc] at hk
      exact hk
    | storeApplyFailed =>
      rw [hc] at hk
      exact hk
    | _ => trivial
  · rwa [Config.move_other _ hi]

/-- The callback's own steps. -/
theorem CallbackMove.accepted (h : CallbackMove sdk s k t)
    (hs : (s.callbacks k).accepted (s.core.pcs (applyClient k))) :
    (t.callbacks k).accepted (t.core.pcs (applyClient k)) := by
  cases h with
  | apply channel s' hpc hs' =>
    obtain ⟨ret,-,rfl⟩ := invoke_some hs'
    rw [ChannelState.setCallback_self]
    refine Or.inl ?_
    show ((s.core.move _ _).pcs (applyClient k)).applying = true
    rw [Config.move_self]
    rfl
  | applyFailed channel ret hpc hret hne =>
    rw [hpc] at hs
    unfold ChannelState.returned at hret
    rcases hs with hgo | hgo | hgo
    · split at hret
      case h_1 hidle =>
        rw [hidle] at hgo
        cases hgo
      · cases hret
    · rw [hgo] at hret
      cases hret
    · rw [hgo] at hret
      exact absurd (Option.some.inj hret).symm hne
  | failed channel hpc =>
    rw [hpc] at hs
    exact hs.elim
  | failedError hpc =>
    rw [hpc] at hs
    exact hs.elim
  | size channel state data hpc =>
    rw [ChannelState.setCallback_self]
    split <;> trivial
  | percent channel state data hpc =>
    rw [ChannelState.setCallback_self]
    split <;> trivial
  | _ =>
    rw [ChannelState.setCallback_self]
    trivial

theorem AppliesAccepted.step (h : AppliesAccepted s) (hf : ChannelFacts s) (hok : abortsTimely s l)
    (hstep : channelStep sdk s l = some t) : AppliesAccepted t := by
  intro j
  cases l with
  | core i label =>
    cases coreStep_move hstep with
    | client n _ core hidle hcore => exact h.core_step hf hcore hidle hok.2 j
    | task k _ core _ _ hcore =>
      by_cases hjk : j = k
      · subst hjk
        rw [ChannelState.setCallback_self]
        exact CallbackPc.accepted_of_notified _ _ _
      · rw [ChannelState.setCallback_other _ hjk]
        exact h.core_step hf hcore (fun call hc => by subst hc; cases hstep) hok.2 j
  | callback k =>
    have hmove := callbackStep_move hstep
    by_cases hjk : j = k
    · subst hjk
      exact hmove.accepted (h j)
    · rw [(hmove.reports (hf.reports k)).2 j hjk,
        hmove.pcs (fun hi => hjk (applyClient_injective hi))]
      exact h j
  | http event =>
    have hmove := httpStep_move hstep
    rw [hmove.callbacks, hmove.pcs (applyClient_ne_channel j .http)]
    exact h j
  | matter event =>
    have hmove := matterStep_move hstep
    rw [hmove.callbacks, hmove.pcs (applyClient_ne_channel j .matter)]
    exact h j

theorem matterUnderway_iff : matterUnderway s = true ↔ ∃ k, s.core.shared.taskHandle = some k ∧
    s.core.shared.core.config.eventCallback = some Channel.matter.callback ∧
      (s.core.pcs (.task k)).ending = false := by
  unfold matterUnderway
  cases hx : s.core.shared.taskHandle with
  | none => exact iff_of_false nofun (fun ⟨k,hk,_⟩ => nomatch hk)
  | some k =>
    simp only [Bool.and_eq_true, decide_eq_true_eq, Bool.not_eq_true']
    refine ⟨fun ⟨hc,he⟩ => ⟨k, rfl, hc, he⟩, ?_⟩
    rintro ⟨j,hj,hc,he⟩
    cases hj
    exact ⟨hc, he⟩

theorem unheard_iff (hx : s.core.shared.taskHandle = some k)
    (hc : s.core.shared.core.config.eventCallback = some Channel.matter.callback) :
    unheard s = true ↔ timesNotified s.core.shared.session s.core.shared.history ≤
      (s.callbacks k).storing := by
  simp only [unheard, hx, hc, decide_true, Bool.true_and, decide_eq_true_eq]

theorem reportsToCome_iff : reportsToCome s = true ↔ ∃ k, s.core.shared.taskHandle = some k ∧
    s.core.shared.core.config.eventCallback = some Channel.matter.callback ∧
      ((s.core.pcs (.task k)).ending = false ∨ (s.callbacks k).storing ≠ 0) := by
  unfold reportsToCome
  cases hx : s.core.shared.taskHandle with
  | none => exact iff_of_false nofun (fun ⟨k,hk,_⟩ => nomatch hk)
  | some k =>
    simp only [Bool.and_eq_true, Bool.or_eq_true, decide_eq_true_eq, Bool.not_eq_true']
    refine ⟨fun ⟨hc,he⟩ => ⟨k, rfl, hc, he⟩, ?_⟩
    rintro ⟨j,hj,hc,he⟩
    cases hj
    exact ⟨hc, he⟩

theorem matterUnderway.toCome (h : matterUnderway s = true) : reportsToCome s = true := by
  obtain ⟨k,hx,hc,he⟩ := matterUnderway_iff.mp h
  exact reportsToCome_iff.mpr ⟨k, hx, hc, Or.inl he⟩

/-- What a step of the core does to the callbacks. -/
theorem CoreMove.callbacks (h : CoreMove sdk s i label t) (k : ℕ) :
    (i ≠ .task k ∧ t.callbacks k = s.callbacks k) ∨
    (i = .task k ∧ s.callbacks k = .returned ∧ t.callbacks k = ChannelState.notified t.core k) := by
  cases h with
  | client n _ core _ _ => exact Or.inl ⟨nofun, rfl⟩
  | task j _ core hreturned _ _ =>
    by_cases hk : k = j
    · subst hk
      exact Or.inr ⟨rfl, hreturned, ChannelState.setCallback_self _ _ _⟩
    · refine Or.inl ⟨fun hj => hk (ThreadId.task.inj hj).symm, ?_⟩
      exact ChannelState.setCallback_other _ hk _

section Core
variable (hf : ChannelFacts s) (hstep : channelStep sdk s (.core i label) = some t)
include hf hstep

/-- A session of Matter under way was so before, and has stored no state since. Or its start has
just created it. -/
theorem ChannelFacts.underway_back (hn : NotifiedStarted s.core) (h : matterUnderway t = true) :
    (matterUnderway s = true ∧ (unheard s = true → unheard t = true)) ∨
      (s.core.pcs Channel.matter.client).starting = true ∧ unheard t = true := by
  obtain ⟨k,hx,hc,he⟩ := matterUnderway_iff.mp h
  obtain ⟨hcore,-⟩ := coreStep_core hstep
  obtain ⟨⟨q,y⟩,hr,hmove⟩ := step_some hcore
  have hhistory : t.core.shared.history = y.history := by rw [hmove, Config.move_shared]
  have hcallbacks := (coreStep_move hstep).callbacks k
  rcases hf.session_back hcore
    (by rw [hx]; nofun) with ⟨hh,hsession,hconfig⟩ | ⟨channel,imageSize,rfl,hp,hconfig⟩
  · have hx' := hh ▸ hx
    have hc' := hconfig ▸ hc
    refine Or.inl ⟨matterUnderway_iff.mpr ⟨k, hx', hc', ?_⟩, fun hunheard => ?_⟩
    · by_cases hi : ThreadId.task k = i
      · subst hi
        rw [hmove, Config.move_self] at he
        by_contra hending
        rcases (otaNext_move hr).ending (hf.core.whole.locked (by rw [hx']; nofun))
          (eq_true_of_ne_false hending) with hq | hno
        · rw [he] at hq
          cases hq
        · rw [hmove] at hx
          exact nomatch hx.symm.trans hno
      · rwa [hmove, Config.move_other _ hi] at he
    · have hcount := (unheard_iff hx' hc').mp hunheard
      rw [unheard_iff hx hc, hsession]
      cases (otaNext_move hr).notice with
      | quiet hquiet hq =>
        rw [hhistory, hquiet]
        rcases hcallbacks with ⟨-,hsame⟩ | ⟨rfl,hreturned,-⟩
        · rwa [hsame]
        · rw [hreturned] at hcount
          exact Nat.le_trans hcount (Nat.zero_le _)
      | notice next state data rest hlive _ hq hnoticed hrest =>
        obtain ⟨j,rfl,hj⟩ := (hf.core.asserted i).of_live hlive
        cases hx'.symm.trans hj
        rcases hcallbacks with ⟨hne,-⟩ | ⟨-,hreturned,hnotified⟩
        · exact absurd rfl hne
        · rw [hc'] at hnoticed
          rw [hnotified, notified_matter (by rw [hmove, Config.move_self]; exact hq)
            (hhistory.trans hnoticed)]
          rw [hreturned] at hcount
          rw [hhistory, hnoticed, timesNotified_cons, hrest, if_pos rfl, Nat.le_zero.mp hcount]
          rfl
  · refine Or.inr ?_
    have hmatter : channel = .matter := by
      cases channel
      · rw [hconfig] at hc
        cases hc
      · rfl
    subst hmatter
    refine ⟨by rw [hp]; rfl, (unheard_iff hx hc).mpr ?_⟩
    obtain ⟨config,hp',rfl⟩ : ∃ config, s.core.pcs Channel.matter.client = .startTask config ∧
        y = snfOtaStartTask Channel.matter.client s.core.shared config := by
      cases (otaNext_move hr).record (hf.core.asserted Channel.matter.client) with
      | keep hh _ _ _ _ =>
        rw [hmove, Config.move_shared, hh,
          ((hf.core.asserted _).of_starting (by rw [hp]; rfl))] at hx
        cases hx
      | idle _ hno _ _ _ =>
        rw [hmove, Config.move_shared, hno] at hx
        cases hx
      | spawn config hp' _ hy => exact ⟨config, hp', hy⟩
    have hzero := hn _ (hf.core.record.starting _ config hp')
    rw [hmove, Config.move_shared]
    show timesNotified s.core.shared.session (_ :: s.core.shared.history) ≤ _
    exact Nat.le_trans (Nat.le_of_eq ((List.countP_cons_of_neg Bool.false_ne_true).trans hzero))
      (Nat.zero_le _)

/-- A session of Matter that is still to report was so before, or its start has just created it. -/
theorem ChannelFacts.toCome_back (h : reportsToCome t = true) :
    reportsToCome s = true ∨ (s.core.pcs Channel.matter.client).starting = true := by
  obtain ⟨k,hx,hc,he⟩ := reportsToCome_iff.mp h
  obtain ⟨hcore,-⟩ := coreStep_core hstep
  obtain ⟨r,hr,hmove⟩ := step_some hcore
  rcases hf.session_back hcore
    (by rw [hx]; nofun) with ⟨hh,-,hconfig⟩ | ⟨channel,imageSize,rfl,hp,hconfig⟩
  · have hx' := hh ▸ hx
    refine Or.inl (reportsToCome_iff.mpr ⟨k, hx', hconfig ▸ hc, ?_⟩)
    rcases (coreStep_move hstep).callbacks k with ⟨hi,hsame⟩ | ⟨rfl,-,hnotified⟩
    · rwa [hmove, Config.move_other _ (Ne.symm hi), hsame] at he
    · -- A task that has notified its end enters no callback any more.
      by_contra hno
      have hending := eq_true_of_ne_false fun hp => hno (Or.inl hp)
      rcases (otaNext_move hr).ending (hf.core.whole.locked (by rw [hx']; nofun))
        hending with hq | hgone
      · rcases he with he | he
        · rw [hmove, Config.move_self, hq] at he
          cases he
        · cases (otaNext_move hr).notice with
          | quiet _ hquiet =>
            rw [hnotified, notified_quiet (by rw [hmove, Config.move_self]; exact hquiet)] at he
            exact he rfl
          | notice _ _ _ _ _ hbegun _ _ _ =>
            rw [hending] at hbegun
            cases hbegun
      · rw [hmove, Config.move_shared, hgone] at hx
        cases hx
  · refine Or.inr ?_
    rw [hconfig] at hc
    cases channel with
    | http => cases hc
    | matter =>
      rw [hp]
      rfl

end Core

def OtaPc.unadmitted : OtaPc → Bool
  | .params _ | .createMutex _ | .lock _ | .take _ _ | .check _ => true
  | _ => false

def ChannelState.matterReset (s : ChannelState G) : Bool :=
  match s.matter with
  | .startReceived _ | .startPercent _ | .start _ => true
  | .starting => (s.core.pcs Channel.matter.client).unadmitted
  | _ => false

theorem OtaMove.unadmitted (h : OtaMove sdk i p x q y) (hq : q.unadmitted = true) :
    p.unadmitted = true ∨ ∃ ret, p = .idle ret := by
  cases h with
  | pc hpc =>
    cases hpc with
    | invoke ret call _ => exact Or.inr ⟨ret, rfl⟩
    | check request => exact Or.inl rfl
    | «return» next => cases next <;> cases hq
    | first | request | wait => exact Or.inl rfl
    | _ => cases hq
  | mutex x config => exact Or.inl rfl
  | taken m request _ => exact Or.inl rfl
  | prepare x config sizeKnown => split at hq <;> cases hq
  | sent request event _ =>
    unfold afterSend at hq
    split at hq <;> cases hq
  | data event bytes results _ _ hd =>
    obtain ⟨core,out,-,rfl,-⟩ := otaHandleDataEvent_result hd
    cases hq
  | _ => cases hq

structure MatterMirror (s : ChannelState G) : Prop where
  underway : matterUnderway s = true → (unheard s = true ∧ (s.mirror .matter).state = .idle) ∨
    snfOtaStateIsActive (s.mirror .matter).state = true
  starting : (s.core.pcs Channel.matter.client).starting = true → (s.mirror .matter).state = .idle
  reset : s.matterReset = true → (s.mirror .matter).state = .idle ∧ reportsToCome s = false
  aborting : s.matter.aborts = true → (s.mirror .matter).state ≠ .idle

theorem matterUnderway_congr (hshared : t.core.shared = s.core.shared)
    (htasks : ∀ k, t.core.pcs (.task k) = s.core.pcs (.task k)) :
    matterUnderway t = matterUnderway s := by
  unfold matterUnderway
  rw [hshared]
  split
  · rfl
  · rw [htasks]

theorem reportsToCome_congr (hshared : t.core.shared = s.core.shared)
    (htasks : ∀ k, t.core.pcs (.task k) = s.core.pcs (.task k))
    (hcallbacks : t.callbacks = s.callbacks) : reportsToCome t = reportsToCome s := by
  unfold reportsToCome
  rw [hshared, hcallbacks]
  split
  · rfl
  · rw [htasks]

theorem unheard_congr (hshared : t.core.shared = s.core.shared)
    (hcallbacks : t.callbacks = s.callbacks) : unheard t = unheard s := by
  unfold unheard
  rw [hshared, hcallbacks]

theorem ChannelState.matterReset_congr (hmatter : t.matter = s.matter)
    (hpcs : t.core.pcs Channel.matter.client = s.core.pcs Channel.matter.client) :
    t.matterReset = s.matterReset := by
  unfold ChannelState.matterReset
  rw [hmatter, hpcs]

/-- No session is being created for a start that is not admitted. -/
theorem ChannelFacts.reset_not_starting (hf : ChannelFacts s) (h : s.matterReset = true) :
    (s.core.pcs Channel.matter.client).starting = false := by
  by_contra hp
  have hp := eq_true_of_ne_false hp
  unfold ChannelState.matterReset at h
  rw [hf.calls.matter_starting hp] at h
  generalize s.core.pcs Channel.matter.client = pc at h hp
  cases pc with
  | startPrepare config | startQueue config | startInit config | startTask config => cases h
  | _ => cases hp

/-- The steps of the core leave the mirror. -/
theorem MatterMirror.core_step (h : MatterMirror s) (hf : ChannelFacts s)
    (hn : NotifiedStarted s.core) (hstep : channelStep sdk s (.core i label) = some t) :
    MatterMirror t := by
  have hmirror := (coreStep_move hstep).mirror
  have hmatter := (coreStep_move hstep).channels.2.1
  obtain ⟨hcore,hidle⟩ := coreStep_core hstep
  obtain ⟨r,hr,hmove⟩ := step_some hcore
  have hback : t.matterReset = true → s.matterReset = true := by
    intro ht
    by_cases hi : Channel.matter.client = i
    · subst hi
      obtain ⟨call,hasks⟩ := hf.core.client_asks hcore hidle
      unfold ChannelState.matterReset at ht ⊢
      rw [hmatter, hmove, Config.move_self] at ht
      generalize s.matter = point at ht ⊢
      cases point with
      | starting =>
        rcases (otaNext_move hr).unadmitted ht with hp | ⟨ret,hp⟩
        · exact hp
        · dsimp only at hp
          rw [hp] at hasks
          cases hasks
      | _ => exact ht
    · rwa [ChannelState.matterReset_congr hmatter (by rw [hmove, Config.move_other _ hi])] at ht
  refine ⟨fun hu => ?_, fun hs => ?_, fun hreset => ?_, ?_⟩
  · rw [hmirror]
    rcases hf.underway_back hstep hn hu with ⟨hs,hunheard⟩ | ⟨hs,hunheard⟩
    · exact (h.underway hs).imp_left fun ⟨hno,hm⟩ => ⟨hunheard hno, hm⟩
    · exact Or.inl ⟨hunheard, h.starting hs⟩
  · rw [hmirror]
    rcases channelStep_starting hstep hs with hp | ⟨-,⟨config,hp⟩,-⟩
    · exact h.starting hp
    · refine (h.reset ?_).1
      have hcalling := hf.calls.matter (.start (some config)) (by rw [hp]; rfl)
      unfold ChannelState.matterReset
      rw [hp]
      generalize s.matter = point at hcalling
      cases point with
      | starting => rfl
      | writing expected =>
        obtain ⟨_,_,hcall,-⟩ := hcalling
        cases hcall
      | aborting => cases hcalling
      | _ => exact hcalling.elim
  · have hreset := hback hreset
    rw [hmirror]
    refine ⟨(h.reset hreset).1, eq_false_of_ne_true fun hcome => ?_⟩
    rcases hf.toCome_back hstep hcome with hs | hs
    · rw [(h.reset hreset).2] at hs
      cases hs
    · rw [hf.reset_not_starting hreset] at hs
      cases hs
  · rw [hmirror, hmatter]
    exact h.aborting

/-- A callback of the session's task that stores no state of Matter leaves it unheard. -/
theorem ChannelFacts.unheard_callback (hf : ChannelFacts s) (hmove : CallbackMove sdk s k t)
    (hno : ∀ state data, s.callbacks k ≠ .storeState .matter state data) (h : unheard s = true)
    (hu : matterUnderway s = true) : unheard t = true := by
  obtain ⟨hshared,-⟩ := hmove.stepped.shared nofun
  obtain ⟨j,hx,hc,-⟩ := matterUnderway_iff.mp hu
  have hcount := (unheard_iff hx hc).mp h
  rw [unheard_iff (by rw [hshared]; exact hx) (by rw [hshared]; exact hc), hshared]
  by_cases hj : j = k
  · subst hj
    have hzero : (s.callbacks j).storing = 0 := by
      cases hpc : s.callbacks j with
      | storeState channel state data =>
        obtain ⟨-,hcallback,-⟩ := (hf.reports j).inside channel state (by rw [hpc]; rfl)
        cases channel with
        | http =>
          rw [hc] at hcallback
          cases hcallback
        | matter => exact absurd hpc (hno state data)
      | _ => rfl
    exact Nat.le_trans hcount (Nat.le_trans (Nat.le_of_eq hzero) (Nat.zero_le _))
  · rwa [(hmove.reports (hf.reports k)).2 j hj]

theorem CallbackMove.toCome_back (hmove : CallbackMove sdk s k t) (hf : ChannelFacts s)
    (h : reportsToCome t = true) : reportsToCome s = true := by
  obtain ⟨hshared,htasks⟩ := hmove.stepped.shared nofun
  obtain ⟨j,hx,hc,he⟩ := reportsToCome_iff.mp h
  rw [hshared] at hx hc
  rw [htasks] at he
  refine reportsToCome_iff.mpr ⟨j, hx, hc, he.imp_right fun hstoring => ?_⟩
  by_cases hj : j = k
  · subst hj
    exact absurd hmove.storing hstoring
  · rwa [(hmove.reports (hf.reports k)).2 j hj] at hstoring

/-- A callback stores the state of its own session, which is active until it ends. -/
theorem MatterMirror.callback_step (h : MatterMirror s) (hf : ChannelFacts s)
    (ha : AppliesAccepted s) (hmove : CallbackMove sdk s k t) : MatterMirror t := by
  obtain ⟨hshared,htasks⟩ := hmove.stepped.shared nofun
  have hmatter : t.matter = s.matter := hmove.channels.2.1
  have hpcs : t.core.pcs Channel.matter.client = s.core.pcs Channel.matter.client :=
    hmove.pcs (Ne.symm (applyClient_ne_channel k .matter))
  rcases hmove.mirror_state .matter with ⟨hsame,hno⟩ | ⟨state,data,hpc,hstored⟩ | ⟨hfailed,-⟩
  · refine ⟨fun hu => ?_, ?_, ?_, ?_⟩
    · rw [matterUnderway_congr hshared htasks] at hu
      rw [hsame]
      exact (h.underway hu).imp_left fun ⟨hunheard,hm⟩ =>
        ⟨hf.unheard_callback hmove hno hunheard hu, hm⟩
    · rw [hpcs, hsame]
      exact h.starting
    · rw [ChannelState.matterReset_congr hmatter hpcs, hsame]
      intro hreset
      refine ⟨(h.reset hreset).1, eq_false_of_ne_true fun hcome => ?_⟩
      exact nomatch (h.reset hreset).2.symm.trans (hmove.toCome_back hf hcome)
    · rw [hmatter, hsame]
      exact h.aborting
  · obtain ⟨⟨next,hin⟩,hcallback,hstate⟩ := (hf.reports k).inside .matter state (by rw [hpc]; rfl)
    have hx := hf.core.running (k := k) (by rw [hin]; rfl)
    rw [← hstored] at hstate
    refine ⟨fun hu => Or.inr ?_, fun hs => ?_, fun hreset => ?_, fun _ => ?_⟩
    · rw [matterUnderway_congr hshared htasks] at hu
      obtain ⟨j,hj,-,he⟩ := matterUnderway_iff.mp hu
      rw [← hstate]
      exact hf.core.accounting.active j hj he
    · rw [hpcs] at hs
      exact nomatch hx.symm.trans ((hf.core.asserted Channel.matter.client).of_starting hs)
    · rw [ChannelState.matterReset_congr hmatter hpcs] at hreset
      have hcome : reportsToCome s = true :=
        reportsToCome_iff.mpr ⟨k, hx, hcallback, Or.inr (by rw [hpc]; nofun)⟩
      rw [(h.reset hreset).2] at hcome
      cases hcome
    · rw [hstored]
      exact (hf.reports k).begun .matter state (by rw [hpc]; rfl)
  · have hk := ha k
    rw [hfailed] at hk
    exact hk.elim

theorem MatterMove.client_starting (h : MatterMove sdk s t)
    (ht : (t.core.pcs Channel.matter.client).starting = true) :
    (s.core.pcs Channel.matter.client).starting = true := by
  cases h with
  | start _ s' _ hs | write _ _ s' _ hs | abort s' _ hs =>
    obtain ⟨ret,-,rfl⟩ := invoke_some hs
    rw [show (ChannelState.matterAt { s with core := s.core.move _ _ } _).core =
      s.core.move Channel.matter.client _ from rfl,
      Config.move_self] at ht
    cases ht
  | _ => exact ht

/-- Matter comes to a start by the resets. -/
theorem MatterMove.matterReset (h : MatterMove sdk s t) (ht : t.matterReset = true) :
    s.matterReset = true ∨ (t.mirror .matter).state = .idle ∧
      ∃ imageSize, s.matter = .startState imageSize := by
  cases h with
  | reset pc f hr =>
    generalize hp : s.matter = old at hr
    cases hr with
    | state imageSize =>
      exact Or.inr ⟨by rw [ChannelState.matterAt, ChannelState.setMirror_self], imageSize, rfl⟩
    | received imageSize | percent imageSize =>
      refine Or.inl ?_
      unfold ChannelState.matterReset
      rw [hp]
  | look pc hl =>
    generalize hp : s.matter = old at hl
    cases hl <;> cases ht
  | start imageSize s' hp hs =>
    refine Or.inl ?_
    unfold ChannelState.matterReset
    rw [hp]
  | write _ _ s' _ hs | abort s' _ hs => cases ht
  | written expected ret _ _ =>
    by_cases hret : ret = .ok
    · rw [if_pos hret] at ht
      cases ht
    · rw [if_neg hret] at ht
      cases ht
  | _ => cases ht

theorem MatterMirror.matter_step (h : MatterMirror s) (hmove : MatterMove sdk s t)
    (event : MatterEvent) (htimely : matterTimely s = true) : MatterMirror t := by
  obtain ⟨hshared,htasks⟩ := (hmove.stepped event).shared nofun
  have hcome : reportsToCome t = reportsToCome s :=
    reportsToCome_congr hshared htasks hmove.callbacks
  have hunderway := matterUnderway_congr hshared htasks
  have hunheard := unheard_congr hshared hmove.callbacks
  have hreset : t.matterReset = true →
    ((t.mirror .matter).state = (s.mirror .matter).state → (t.mirror .matter).state = .idle)
      ∧ reportsToCome t = false := by
    intro ht
    rw [hcome]
    rcases hmove.matterReset ht with hs | ⟨hidle,imageSize,hs⟩
    · exact ⟨fun hsame => hsame.trans (h.reset hs).1, (h.reset hs).2⟩
    · exact ⟨fun _ => hidle, by simpa only [matterTimely, hs, Bool.not_eq_true'] using htimely⟩
  rcases hmove.mirror_state with ⟨hsame,haborts⟩ | ⟨hidle,haborts,imageSize,hp⟩ | ⟨hsame,hactive⟩
  · refine ⟨?_, ?_, fun ht => ⟨(hreset ht).1 hsame, (hreset ht).2⟩, ?_⟩
    · rw [hunderway, hunheard, hsame]
      exact h.underway
    · rw [hsame]
      exact fun hs => h.starting (hmove.client_starting hs)
    · rw [hsame]
      exact fun ha => h.aborting (haborts ha)
  · refine ⟨fun hu => ?_, fun _ => hidle, fun ht => ⟨hidle, (hreset ht).2⟩, ?_⟩
    · have hs := matterUnderway.toCome (hunderway ▸ hu)
      simp only [matterTimely, hp, hs, Bool.not_true, Bool.false_eq_true] at htimely
    · rw [haborts]
      nofun
  · refine ⟨fun _ => Or.inr (hsame ▸ hactive), ?_, fun ht => ⟨(hreset ht).1 hsame, (hreset ht).2⟩,
      ?_⟩
    · rw [hsame]
      exact fun hs => h.starting (hmove.client_starting hs)
    · rw [hsame]
      rintro - hidle
      rw [hidle] at hactive
      cases hactive

theorem MatterMirror.step (h : MatterMirror s) (hf : ChannelFacts s) (hn : NotifiedStarted s.core)
    (ha : AppliesAccepted s) (hok : abortsTimely s l) (hstep : channelStep sdk s l = some t) :
    MatterMirror t := by
  cases l with
  | core i label => exact h.core_step hf hn hstep
  | callback k => exact h.callback_step hf ha (callbackStep_move hstep)
  | http event =>
    have hmove := httpStep_move hstep
    obtain ⟨hshared,htasks⟩ := (hmove.stepped event).shared nofun
    have hpcs : t.core.pcs Channel.matter.client = s.core.pcs Channel.matter.client :=
      hmove.pcs nofun
    refine ⟨?_, ?_, ?_, ?_⟩
    · rw [matterUnderway_congr hshared htasks, unheard_congr hshared hmove.callbacks,
        hmove.mirror_matter]
      exact h.underway
    · rw [hpcs, hmove.mirror_matter]
      exact h.starting
    · rw [ChannelState.matterReset_congr hmove.matter hpcs,
        reportsToCome_congr hshared htasks hmove.callbacks,
        hmove.mirror_matter]
      exact h.reset
    · rw [hmove.matter, hmove.mirror_matter]
      exact h.aborting
  | matter event => exact h.matter_step (matterStep_move hstep) event hok

/-- Behind an abort that returned 0 no session of Matter is under way. -/
def AbortEffective (s : ChannelState G) : Prop := s.matter = .idle (some (.abort 0)) →
    matterUnderway s = false

theorem MatterMirror.not_underway (h : MatterMirror s)
    (hinactive : snfOtaStateIsActive (s.mirror .matter).state = false)
    (hheard : (s.mirror .matter).state = .idle → unheard s = false) : matterUnderway s = false := by
  by_contra hu
  rcases h.underway (eq_true_of_ne_false hu) with ⟨hunheard,hm⟩ | hm
  · rw [hheard hm] at hunheard
    cases hunheard
  · rw [hinactive] at hm
    cases hm

theorem MatterMove.abortEffective (hmove : MatterMove sdk s t) (h : MatterMirror s)
    (htimely : matterTimely s = true) (hret : t.matter = .idle (some (.abort 0))) :
    matterUnderway s = false := by
  cases hmove with
  | reset pc f hr =>
    generalize hp : s.matter = old at hr
    cases hr <;> cases hret
  | look pc hl =>
    generalize hp : s.matter = old at hl
    cases hl <;> cases hret
  | start _ s' _ hs | write _ _ s' _ hs | abort s' _ hs => cases hret
  | written expected ret _ _ =>
    simp only [ChannelState.matterAt] at hret
    split at hret <;> cases hret
  | inactive hp hinactive =>
    simp only [matterTimely, hp, Bool.not_eq_true'] at htimely
    exact h.not_underway hinactive fun _ => htimely
  | abortEnd hp =>
    have hne := h.aborting (by rw [hp]; rfl)
    refine h.not_underway ?_ (fun hidle => absurd hidle hne)
    by_contra hactive
    simp only [ChannelState.matterAborted, ChannelState.matterAt,
      if_pos (eq_true_of_ne_false hactive)] at hret
    cases hret
  | _ => cases hret

theorem AbortEffective.step (h : AbortEffective s) (hf : ChannelFacts s)
    (hn : NotifiedStarted s.core) (hm : MatterMirror s)
    (hok : abortsTimely s l) (hstep : channelStep sdk s l = some t) : AbortEffective t := by
  intro hret
  cases l with
  | core i label =>
    have hmatter := (coreStep_move hstep).channels.2.1
    by_contra hu
    rcases hf.underway_back hstep hn (eq_true_of_ne_false hu) with ⟨hs,-⟩ | ⟨hs,-⟩
    · rw [h (hmatter ▸ hret)] at hs
      cases hs
    · rw [hmatter, hf.calls.matter_starting hs] at hret
      cases hret
  | callback k =>
    have hmove := callbackStep_move hstep
    obtain ⟨hshared,htasks⟩ := hmove.stepped.shared nofun
    rw [matterUnderway_congr hshared htasks]
    exact h (hmove.channels.2.1 ▸ hret)
  | http event =>
    have hmove := httpStep_move hstep
    obtain ⟨hshared,htasks⟩ := (hmove.stepped event).shared nofun
    rw [matterUnderway_congr hshared htasks]
    exact h (hmove.matter ▸ hret)
  | matter event =>
    have hmove := matterStep_move hstep
    obtain ⟨hshared,htasks⟩ := (hmove.stepped event).shared nofun
    rw [matterUnderway_congr hshared htasks]
    exact hmove.abortEffective hm hok hret

structure AbortFacts (s : ChannelState G) : Prop where
  applies : AppliesAccepted s
  mirror : MatterMirror s
  effective : AbortEffective s

theorem channelBoot_abortFacts (flash : Flash) : AbortFacts (channelBoot G flash) :=
  ⟨fun _ => trivial, ⟨nofun, fun _ => rfl, nofun, nofun⟩, nofun⟩

theorem reach_abortFacts (h : Reach (channelStep sdk) abortsTimely (channelBoot G flash) s) :
    AbortFacts s := by
  refine @Reach.invariant_of _ _ _ _ _ AbortFacts (fun s => ChannelFacts s ∧ NotifiedStarted s.core)
    (fun s hs => ⟨reach_channelFacts abortsTimely.mutex hs,
      reach_notifiedStarted (reach_core abortsTimely.mutex hs)⟩)
    (channelBoot_abortFacts flash) ?_ s h
  rintro s l t ⟨hf,hn⟩ hs hok hstep
  exact ⟨hs.applies.step hf hok hstep, hs.mirror.step hf hn hs.applies hok hstep,
    hs.effective.step hf hn hs.mirror hok hstep⟩

/-- A session of Matter that is not under way is over. -/
theorem ChannelFacts.over (hf : ChannelFacts s) (hno : matterUnderway s = false)
    {config : SnfOtaConfig}
    (hstarted : .started Channel.matter.client n config ∈ s.core.shared.history) :
    Over s.core n := by
  rintro rfl k hk
  by_contra he
  obtain ⟨channel,imageSize,hconfig,hrunning⟩ := hf.installed (by rw [hk]; nofun)
  obtain ⟨hclient,-⟩ := hf.core.record.unique _ _ _ _ _ hstarted hrunning
  have hmatter : channel = .matter := by
    cases channel
    · cases ThreadId.client.inj hclient
    · rfl
  subst hmatter
  have hu : matterUnderway s = true :=
    matterUnderway_iff.mpr ⟨k, hk, by rw [hconfig]; rfl, eq_false_of_ne_true he⟩
  rw [hno] at hu
  cases hu

theorem reach_over (h : Reach (channelStep sdk) abortsTimely (channelBoot G flash) s)
    (hover : Over s.core n) {config : SnfOtaConfig}
    (hstarted : .started i n config ∈ s.core.shared.history)
    (hst : Reach (channelStep sdk) abortsTimely s t) : Over t.core n := by
  refine (@Reach.invariant_of _ _ _ _ _ (fun t => Over t.core n ∧
    .started i n config ∈ t.core.shared.history) ChannelFacts
    (fun t ht => reach_channelFacts abortsTimely.mutex (h.trans ht)) ⟨hover, hstarted⟩ ?_ t hst).1
  rintro s l t hf ⟨hover,hstarted⟩ _ hstep
  rcases channelStep_stepped hstep with hcore | ⟨j,label,hcore⟩
  · rw [hcore]
    exact ⟨hover, hstarted⟩
  · exact hover.step hf.core hstarted hcore.step

/-- The task stands between its last notification and its teardown. -/
def TearingDown (core : OtaState G) (k : ℕ) : Prop :=
  core.shared.taskHandle = some k ∧ (core.pcs (.task k)).ending = true

instance (core : OtaState G) (k : ℕ) : Decidable (TearingDown core k) :=
  inferInstanceAs (Decidable (_ ∧ _))

def OtaPc.stepsLeft : OtaPc → ℕ
  | .callback .exit => 4
  | .exitLock => 3
  | .exitTake _ => 2
  | .teardown => 1
  | _ => 0

theorem OtaMove.stepsLeft (h : OtaMove sdk i p x q y) (hp : p.ending = true)
    (hy : y.taskHandle ≠ none) : q.stepsLeft < p.stepsLeft := by
  cases h with
  | pc hpc =>
    cases hpc with
    | «return» next =>
      cases next with
      | exit => exact Nat.lt_succ_self _
      | _ => cases hp
    | exitNoMutex hno => exact Nat.zero_lt_succ _
    | exitWait m _ => exact Nat.lt_succ_self _
    | _ => cases hp
  | exitTaken m _ => exact Nat.lt_succ_self _
  | teardown x => exact absurd rfl hy
  | _ => cases hp

/-- Each step of the task brings it nearer to the teardown. -/
theorem TearingDown.step {core core' : OtaState G} (h : TearingDown core k) (hf : CoreFacts core)
    (hstep : otaStep sdk core (.task k, label) = some core') : core'.shared.taskHandle = none ∨
      TearingDown core' k ∧ (core'.pcs (.task k)).stepsLeft < (core.pcs (.task k)).stepsLeft := by
  obtain ⟨⟨q,y⟩,hr,rfl⟩ := step_some hstep
  have hmove := otaNext_move hr
  by_cases hy : y.taskHandle = none
  · exact Or.inl hy
  · rcases hmove.ending (hf.whole.locked (by rw [h.1]; nofun)) h.2 with hq | hno
    · refine Or.inr ⟨⟨?_, by rwa [Config.move_self]⟩, ?_⟩
      · cases hmove.record (hf.asserted (.task k)) with
        | keep hh _ _ _ _ => exact hh.trans h.1
        | idle _ hno _ _ _ => exact absurd hno hy
        | spawn config hp _ _ =>
          have hending := h.2
          dsimp only at hp
          rw [hp] at hending
          cases hending
      · rw [Config.move_self]
        exact hmove.stepsLeft h.2 hy
    · exact absurd hno hy

/-- Where an abort has returned 0, the sessions that Matter has started are over: none is active.
A later start finds one busy just between its last notification and its teardown, to which its
task goes on without waiting for anything but the mutex. -/
theorem matter_abort_effective {config : SnfOtaConfig}
    (h : Reach (channelStep sdk) abortsTimely (channelBoot G flash) s)
    (hret : s.matter = .idle (some (.abort 0)))
    (hstarted : .started Channel.matter.client n config ∈ s.core.shared.history) :
    (s.core.shared.session = n → s.core.shared.taskHandle ≠ none →
      snfOtaStateIsActive s.core.shared.core.info.state = false) ∧
    ∀ t, Reach (channelStep sdk) abortsTimely s t → Over t.core n ∧
      (t.core.shared.session = n → ∀ i config', t.core.pcs i = .check (.start config') →
        (otaCheck i t.core.shared (.start config') = .unlock (.start config') .errBusy ↔
          ∃ k, TearingDown t.core k)) ∧
      ∀ k label core, TearingDown t.core k → otaStep sdk t.core (.task k, label) = some core →
        core.shared.taskHandle = none ∨
          TearingDown core k ∧
            (core.pcs (.task k)).stepsLeft < (t.core.pcs (.task k)).stepsLeft := by
  have hf := reach_channelFacts abortsTimely.mutex h
  have hover := hf.over ((reach_abortFacts h).effective hret) hstarted
  refine ⟨fun hs hx => ?_, fun t hst => ?_⟩
  · obtain ⟨k,hk⟩ := Option.ne_none_iff_exists'.mp hx
    exact hf.inactive k hk (hover hs k hk)
  · have hover' := reach_over h hover hstarted hst
    refine ⟨hover', fun hs i config' hpc => ⟨fun hbusy => ?_, ?_⟩, fun k label core hk hstep => ?_⟩
    · cases hx : t.core.shared.taskHandle with
      | none =>
        simp only [otaCheck, hx, ne_eq, not_true_eq_false, if_false] at hbusy
        cases hbusy
      | some k => exact ⟨k, hx, hover' hs k hx⟩
    · rintro ⟨k,hk,-⟩
      simp only [otaCheck, hk, ne_eq, reduceCtorEq, not_false_eq_true, if_true]
    · exact hk.step (reach_channelFacts abortsTimely.mutex (h.trans hst)).core hstep

def matterStarts : List ChannelLabel :=
  .matter (.callStart 101) :: matterSteps 4 ++ coreSteps Channel.matter.client 10 ++ matterSteps 1

/-- Half of the package is written, received and reported, and then the session is aborted. -/
def matterAborts : List ChannelLabel :=
  matterStarts ++ coreSteps (.task 0) 1 ++ .matter (.callWrite 0 50) :: matterSteps 1
    ++ coreSteps Channel.matter.client 7 ++ matterSteps 1 ++ coreSteps (.task 0) 1
    ++ .core (.task 0) (.process (bytePackage.take 50) []) :: callbackSteps 0 3 ++ matterSteps 1
    ++ .matter .callAbort :: matterSteps 2 ++ coreSteps Channel.matter.client 6 ++ matterSteps 1
    ++ coreSteps (.task 0) 3 ++ callbackSteps 0 3 ++ matterSteps 2

theorem matter_abort_effective_half :
    ∃ s config, execWithin (channelStep softSdk) abortsTimely (channelBoot Unit blankFlash)
      matterAborts = some s ∧ s.matter = .idle (some (.abort 0)) ∧
      .started Channel.matter.client 1 config ∈ s.core.shared.history
      ∧ (s.core.shared.session = 1 → s.core.shared.taskHandle ≠ none →
        snfOtaStateIsActive s.core.shared.core.info.state = false)
      ∧ ∀ t, Reach (channelStep softSdk) abortsTimely s t → Over t.core 1 ∧
        (t.core.shared.session = 1 → ∀ i config', t.core.pcs i = .check (.start config') →
          (otaCheck i t.core.shared (.start config') = .unlock (.start config') .errBusy ↔
            ∃ k, TearingDown t.core k)) ∧
        ∀ k label core, TearingDown t.core k → otaStep softSdk t.core (.task k, label) = some core →
          core.shared.taskHandle = none ∨
            TearingDown core k ∧
              (core.pcs (.task k)).stepsLeft < (t.core.pcs (.task k)).stepsLeft := by
  have hrun : (execWithin (channelStep softSdk) abortsTimely (channelBoot Unit blankFlash)
    matterAborts).map (fun s => decide (s.matter = .idle (some (.abort 0)) ∧
        .started Channel.matter.client 1 (Channel.matter.config 101) ∈ s.core.shared.history)) =
          some true := by
    decide +kernel
  obtain ⟨s,hs,hview⟩ := Option.map_eq_some_iff.mp hrun
  obtain ⟨hret,hstarted⟩ := of_decide_eq_true hview
  exact ⟨s, Channel.matter.config 101, hs, hret, hstarted,
    matter_abort_effective (Reach.execWithin .init hs) hret hstarted⟩

/-- Nothing has been received when the session is aborted: the mirror is still IDLE. -/
def matterAbortsEarly : List ChannelLabel := matterStarts ++ .matter .callAbort :: matterSteps 1

def uploadFindsBusy : List ChannelLabel :=
  .http (.request uploadHead) :: httpSteps 5 ++ coreSteps Channel.http.client 5 ++ httpSteps 1

/-- The abort has returned 0, and an upload that starts then finds the session of Matter busy. -/
def RefusedBehind (s : ChannelState Unit) : Prop :=
  s.matter = .idle (some (.abort 0)) ∧
    .started Channel.matter.client 1 (Channel.matter.config 101) ∈ s.core.shared.history ∧
    (exec (channelStep softSdk) s uploadFindsBusy).any
      (fun t => t.http.pc = .idle (some (.startFailed .errBusy)) ∧ t.core.shared.session = 1) = true

instance (s : ChannelState Unit) : Decidable (RefusedBehind s) :=
  inferInstanceAs (Decidable (_ ∧ _ ∧ _))

/-- In front of the first report the session goes on receiving. Behind a report an abort ends it,
and yet a start is refused that looks before the teardown. -/
theorem matter_abort_ineffective :
    (∃ s, exec (channelStep softSdk) (channelBoot Unit blankFlash) matterAbortsEarly = some s ∧
      RefusedBehind s ∧ s.core.shared.taskHandle = some 0 ∧
      s.core.shared.core.info.state = .receiving) ∧
    ∃ s, exec (channelStep softSdk) (channelBoot Unit blankFlash) matterAborts = some s ∧
      RefusedBehind s ∧ TearingDown s.core 0 := by
  have hearly : (exec (channelStep softSdk) (channelBoot Unit blankFlash) matterAbortsEarly).map
      (fun s =>
      decide (RefusedBehind s ∧ s.core.shared.taskHandle = some 0 ∧
        s.core.shared.core.info.state = .receiving)) =
        some true := by
    decide +kernel
  have hlate : (exec (channelStep softSdk) (channelBoot Unit blankFlash) matterAborts).map (fun s =>
      decide (RefusedBehind s ∧ TearingDown s.core 0)) = some true := by
    decide +kernel
  obtain ⟨s,hs,hview⟩ := Option.map_eq_some_iff.mp hearly
  obtain ⟨t,ht,hview'⟩ := Option.map_eq_some_iff.mp hlate
  exact ⟨⟨s, hs, of_decide_eq_true hview⟩, t, ht, of_decide_eq_true hview'⟩

end Sonoff.Ota
