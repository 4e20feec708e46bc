import Sonoff.Ota.ChannelCore
import Sonoff.Ota.CoreFacts

/-! # While a callback runs

A callback runs inside its own task, so the session, its state and its counters stay what they
were when it was called.
-/
namespace Sonoff.Ota
open Bytes AesGcm NorFlash OtaParse Threads Machine

variable {G : Type} {sdk : Sdk G} {s t : ChannelState G} {i : ThreadId} {k : ℕ} {flash : Flash}

theorem CoreStep.outsider {l : ChannelLabel} {label : OtaLabel} (h : CoreStep sdk s t l i label)
    (hf : CoreFacts s.core) (hx : s.core.shared.taskHandle = some k) (hi : i ≠ .task k) :
    Outsider (s.core.pcs i) s.core.shared t.core.shared ∧
      t.core.pcs (.task k) = s.core.pcs (.task k) := by
  obtain ⟨r,hr,ht⟩ := step_some h.step
  rw [ht]
  exact ⟨(otaNext_move hr).outsider (hf.asserted i) hx hi, Config.move_other _ (Ne.symm hi) r⟩

/-- A task that enters its callback has just notified. -/
theorem OtaMove.callback {p q : OtaPc} {x y : OtaSystem G} (h : OtaMove sdk i p x q y)
    {next : AfterNotify} (hq : q = .callback next) :
    ∃ z state errorCode, y = otaNotify z state errorCode ∧ state ≠ .idle := by
  cases h with
  | pc hpc =>
    cases hpc with
    | «return» other => cases other <;> cases hq
    | check request =>
      have hasks := @otaCheck_asks _ i x request
      rw [hq] at hasks
      cases hasks
    | _ => cases hq
  | prepare x config sizeKnown => split at hq <;> cases hq
  | sent request event _ =>
    have hasks := afterSend_asks request event .ok
    rw [hq] at hasks
    cases hasks
  | timedOut _ => exact ⟨_, _, _, rfl, nofun⟩
  | data event bytes results _ _ hd =>
    obtain ⟨core,out,hres,_,rfl⟩ := otaHandleDataEvent_result hd
    refine ⟨_, _, _, rfl, ?_⟩
    cases hres with
    | refused _ _ _ _ _ => exact nofun
    | failed _ _ _ _ _ => exact nofun
    | accepted _ _ _ _ _ =>
      rcases acceptedOutcome_cases core with ⟨_,hout⟩ | ⟨_,hout⟩ | ⟨_,error,hout⟩ <;> rw [hout] <;>
        exact nofun
  | apply x event _ => exact ⟨_, _, _, rfl, nofun⟩
  | abort x event _ => exact ⟨_, _, _, rfl, nofun⟩
  | committed x event => exact ⟨_, _, _, rfl, nofun⟩
  | commitFailed x event => exact ⟨_, _, _, rfl, nofun⟩
  | _ => cases hq

def CallbackPc.reports : CallbackPc → Option (Channel × SnfOtaState)
  | .returned => none
  | .storeState channel state _ | .storeSize channel state _ | .storePercent channel state _ =>
    some (channel, state)
  | .storeError state _ => some (.http, state)
  | .apply channel | .applying channel | .storeFailed channel => some (channel, .verifySuccess)
  | .storeApplyFailed => some (.http, .verifySuccess)

def CallbackPc.pending : CallbackPc → Option SnfOtaEventData
  | .storeState _ _ data | .storeSize _ _ data => some data
  | _ => none

structure Reports (core : OtaState G) (k : ℕ) (pc : CallbackPc) : Prop where
  inside : ∀ channel state, pc.reports = some (channel, state) →
    (∃ next, core.pcs (.task k) = .callback next) ∧
    core.shared.core.config.eventCallback = some channel.callback ∧
      core.shared.core.info.state = state
  sized : ∀ data, pc.pending = some data → data.receivedSize = core.shared.core.info.receivedSize
  begun : ∀ channel state, pc.reports = some (channel, state) → state ≠ .idle

theorem Reports.returned (core : OtaState G) (k : ℕ) :
    Reports core k .returned := ⟨nofun, nofun, nofun⟩

/-- A callback step within the same report. -/
theorem Reports.advance {core : OtaState G} {pc pc' : CallbackPc} (h : Reports core k pc)
    (hr : pc'.reports = none ∨ pc'.reports = pc.reports)
    (hp : pc'.pending = none ∨ pc'.pending = pc.pending) :
    Reports core k pc' where
  inside channel state hc := by
    rcases hr with hr | hr
    · rw [hr] at hc
      cases hc
    · exact h.inside channel state (hr ▸ hc)
  sized data hd := by
    rcases hp with hp | hp
    · rw [hp] at hd
      cases hd
    · exact h.sized data (hp ▸ hd)
  begun channel state hc := by
    rcases hr with hr | hr
    · rw [hr] at hc
      cases hc
    · exact h.begun channel state (hr ▸ hc)

theorem Reports.outside {core core' : OtaState G} {pc : CallbackPc} {p : OtaPc}
    (h : Reports core k pc) (ho : Outsider p core.shared core'.shared)
    (hpc : core'.pcs (.task k) = core.pcs (.task k)) : Reports core' k pc where
  inside channel state hc := by
    rw [hpc, ho.configured, ho.state]
    exact h.inside channel state hc
  sized data hd := by
    rw [ho.received]
    exact h.sized data hd
  begun := h.begun

/-- A notification at the head of the history is that of a task that has just entered its callback.
-/
theorem reports_storeState {label : OtaLabel} {core core' : OtaState G}
    (h : otaStep sdk core (.task k, label) = some core')
    {next : AfterNotify} (hpc : core'.pcs (.task k) = .callback next) (channel : Channel)
    {session : ℕ} {state : SnfOtaState} {data : SnfOtaEventData} {rest : List Observation}
    (hhist : core'.shared.history = .notified session (some channel.callback) state data :: rest) :
    Reports core' k (.storeState channel state data) := by
  obtain ⟨r,hr,rfl⟩ := step_some h
  rw [Config.move_self] at hpc
  obtain ⟨z,state',errorCode,hz,hbegun⟩ := (otaNext_move hr).callback hpc
  rw [Config.move_shared, hz] at hhist
  obtain ⟨hhead,-⟩ := List.cons.inj hhist
  obtain ⟨-,hcallback,hstate,hdata⟩ := Observation.notified.inj hhead
  refine ⟨?_, ?_, ?_⟩
  · rintro channel' state'' hc
    cases hc
    rw [Config.move_self, Config.move_shared, hz]
    exact ⟨⟨next, hpc⟩, hcallback, hstate⟩
  · rintro data' hd
    cases hd
    rw [Config.move_shared, hz, ← hdata]
    rfl
  · rintro channel' state'' hc
    cases hc
    exact hstate ▸ hbegun

/-- What a task's step calls. -/
theorem notified_reports {label : OtaLabel} {core core' : OtaState G}
    (h : otaStep sdk core (.task k, label) = some core') :
    Reports core' k (ChannelState.notified core' k) := by
  unfold ChannelState.notified
  split
  · exact reports_storeState h ‹_› .http ‹_›
  · exact reports_storeState h ‹_› .matter ‹_›
  · exact .returned _ _

def CallbackReports (s : ChannelState G) : Prop := ∀ k, Reports s.core k (s.callbacks k)

theorem CallbackMove.reports (h : CallbackMove sdk s k t) (hs : Reports s.core k (s.callbacks k)) :
    Reports s.core k (t.callbacks k) ∧ ∀ j, j ≠ k → t.callbacks j = s.callbacks j := by
  have hset : ∀ {z : ChannelState G} {pc : CallbackPc}, z.callbacks = s.callbacks →
      (pc.reports = none ∨ pc.reports = (s.callbacks k).reports) →
      (pc.pending = none ∨ pc.pending = (s.callbacks k).pending) →
      Reports s.core k ((z.setCallback k pc).callbacks k) ∧
        ∀ j, j ≠ k → (z.setCallback k pc).callbacks j = s.callbacks j := by
    intro z pc hz hr hp
    refine ⟨?_, fun j hj => ?_⟩
    · rw [ChannelState.setCallback_self]
      exact hs.advance hr hp
    · rw [ChannelState.setCallback_other _ hj, hz]
  cases h with
  | state channel state data hpc =>
    exact hset rfl (Or.inr (by rw [hpc]; rfl)) (Or.inr (by rw [hpc]; rfl))
  | size channel state data hpc =>
    refine hset rfl (Or.inr ?_) (Or.inl ?_)
    · rw [hpc]
      cases channel <;> rfl
    · cases channel <;> rfl
  | error state data hpc => exact hset rfl (Or.inr (by rw [hpc]; rfl)) (Or.inl rfl)
  | percent channel state data hpc =>
    refine hset rfl ?_ (Or.inl ?_)
    · split
      case isTrue hst =>
        rw [hpc, hst]
        exact Or.inr rfl
      case isFalse => exact Or.inl rfl
    · split <;> rfl
  | apply channel s' hpc hs' =>
    obtain ⟨ret,-,rfl⟩ := invoke_some hs'
    exact hset rfl (Or.inr (by rw [hpc]; rfl)) (Or.inl rfl)
  | applied channel hpc _ => exact hset rfl (Or.inl rfl) (Or.inl rfl)
  | applyFailed channel ret hpc _ _ => exact hset rfl (Or.inr (by rw [hpc]; rfl)) (Or.inl rfl)
  | failed channel hpc =>
    cases channel
    · exact hset rfl (Or.inr (by rw [hpc]; rfl)) (Or.inl rfl)
    · exact hset rfl (Or.inl rfl) (Or.inl rfl)
  | failedError hpc => exact hset rfl (Or.inl rfl) (Or.inl rfl)

theorem HttpMove.callbacks (h : HttpMove sdk s t) : t.callbacks = s.callbacks := by
  cases h with
  | start s' _ hs | write _ _ _ s' _ hs | abort _ s' _ hs =>
    obtain ⟨ret,-,rfl⟩ := invoke_some hs
    rfl
  | _ => rfl

theorem MatterMove.callbacks (h : MatterMove sdk s t) : t.callbacks = s.callbacks := by
  cases h with
  | start _ s' _ hs | write _ _ s' _ hs | abort s' _ hs =>
    obtain ⟨ret,-,rfl⟩ := invoke_some hs
    rfl
  | _ => rfl

/-- A report stays what it is while others than its task move. -/
theorem Reports.stepped {l : ChannelLabel} {pc : CallbackPc} (h : Reports s.core k pc)
    (hf : CoreFacts s.core) (hs : Beside sdk s t l k) (hrun : pc.reports ≠ none) :
    Reports t.core k pc := by
  rcases hs with hcore | ⟨i,label,hi,hcore⟩
  · rw [hcore]
    exact h
  · obtain ⟨⟨channel,state⟩,hc⟩ := Option.ne_none_iff_exists'.mp hrun
    obtain ⟨⟨next,hpc⟩,-,-⟩ := h.inside channel state hc
    have hx := hf.running (k := k) (by rw [hpc]; rfl)
    obtain ⟨ho,hpc'⟩ := hcore.outsider hf hx hi
    exact h.outside ho hpc'

theorem CallbackReports.step {l : ChannelLabel} (h : CallbackReports s) (hf : CoreFacts s.core)
    (hstep : channelStep sdk s l = some t) : CallbackReports t := by
  have hkeep : ∀ j pc, Reports s.core j pc → (∀ label, l ≠ .core (.task j) label) →
      Reports t.core j pc := by
    intro j pc hj hother
    by_cases hrun : pc.reports = none
    · have hpc : pc = .returned := by
        cases pc with
        | returned => rfl
        | _ => cases hrun
      rw [hpc]
      exact .returned _ _
    · exact hj.stepped hf ((channelStep_stepped hstep).beside hother) hrun
  intro j
  cases l with
  | core i label =>
    cases coreStep_move hstep with
    | client n _ core hno hcore => exact hkeep j _ (h j) nofun
    | task k _ core hreturned _ hcore =>
      by_cases hjk : j = k
      · subst hjk
        rw [ChannelState.setCallback_self]
        exact notified_reports hcore
      · rw [ChannelState.setCallback_other _ hjk]
        refine hkeep j _ (h j) ?_
        rintro label' hlabel
        cases hlabel
        exact hjk rfl
  | callback k =>
    obtain ⟨hk,hother⟩ := (callbackStep_move hstep).reports (h k)
    by_cases hjk : j = k
    · subst hjk
      exact hkeep j _ hk nofun
    · rw [hother j hjk]
      exact hkeep j _ (h j) nofun
  | http event =>
    rw [(httpStep_move hstep).callbacks]
    exact hkeep j _ (h j) nofun
  | matter event =>
    rw [(matterStep_move hstep).callbacks]
    exact hkeep j _ (h j) nofun

variable {ok : ChannelState G → ChannelLabel → Prop}

theorem reach_callbackReports (hok : ∀ s l, ok s l → keepsOneMutex s l)
    (h : Reach (channelStep sdk) ok (channelBoot G flash) s) : CallbackReports s := by
  refine @Reach.invariant_of _ _ _ _ _ CallbackReports (fun s => CoreFacts s.core)
    (fun s hs => reach_coreFacts (reach_core hok hs)) (fun k => .returned _ _) ?_ s h
  intro s l t hf hs _ hstep
  exact hs.step hf hstep

def StartedAsAsked (core : OtaState G) : Prop :=
  ∀ i n config, Observation.started i n config ∈ core.shared.history → i.may (.start (some config))

theorem StartedAsAsked.step {core core' : OtaState G} {label : OtaLabel} (h : StartedAsAsked core)
    (hf : CoreFacts core) (hasks : Asks ThreadId.may core)
    (hstep : otaStep sdk core (i, label) = some core') : StartedAsAsked core' := by
  obtain ⟨r,hr,rfl⟩ := step_some hstep
  intro j n config hstarted
  rw [Config.move_shared] at hstarted
  cases (otaNext_move hr).record (hf.asserted i) with
  | keep _ _ _ hsame _ => exact h j n config ((hsame j n config).mp hstarted)
  | idle _ _ hhist _ _ => exact h j n config (hhist ▸ hstarted)
  | spawn config' hp _ hy =>
    dsimp only at hp hy
    rw [hy] at hstarted
    rcases List.mem_cons.mp hstarted with he | he
    · obtain ⟨rfl,rfl,rfl⟩ := Observation.started.inj he
      exact hasks j _ (by rw [hp]; rfl)
    · exact h j n config he

theorem may_start {config : SnfOtaConfig} (h : i.may (.start (some config))) :
    ∃ channel imageSize, i = Channel.client channel ∧
      config = Channel.config channel imageSize := by
  match i, h with
  | .client 0, ⟨imageSize,h⟩ => exact ⟨.http, imageSize, rfl, h⟩
  | .client 1, ⟨imageSize,h⟩ => exact ⟨.matter, imageSize, rfl, h⟩
  | .client (n + 2), h => cases h

variable (hok : ∀ s l, ok s l → keepsOneMutex s l)
include hok

theorem reach_startedAsAsked (h : Reach (channelStep sdk) ok (channelBoot G flash) s) :
    StartedAsAsked s.core := by
  refine @Reach.invariant_of _ _ _ _ _ (fun s => StartedAsAsked s.core) (fun s => CoreFacts s.core ∧
    Asks ThreadId.may s.core) (fun s hs => ⟨reach_coreFacts (reach_core hok hs), reach_asks hs⟩)
    nofun ?_ s h
  rintro s l t ⟨hf,hasks⟩ hs _ hstep
  rcases channelStep_stepped hstep with hcore | ⟨i,label,hcore⟩
  · exact hcore ▸ hs
  · exact hs.step hf hasks hcore.step

/-- The running session was started by a channel and reports to it. -/
theorem reach_installed (h : Reach (channelStep sdk) ok (channelBoot G flash) s)
    (hx : s.core.shared.taskHandle ≠ none) :
    ∃ channel imageSize, s.core.shared.core.config = Channel.config channel imageSize ∧
      .started channel.client s.core.shared.session (Channel.config channel imageSize) ∈
        s.core.shared.history := by
  obtain ⟨i,hi⟩ := (reach_coreFacts (reach_core hok h)).record.running hx
  obtain ⟨channel,imageSize,rfl,hconfig⟩ := may_start (reach_startedAsAsked hok h i _ _ hi)
  exact ⟨channel, imageSize, hconfig, hconfig ▸ hi⟩

end Sonoff.Ota
