import Sonoff.Ota.Admission
import Sonoff.Ota.ChannelCalls
import Sonoff.Utils.SoftSdk

/-! # A verified session does not get stuck

The callback of a successful verification calls `snfOtaApply`. From then on the queue holds an
event that ends the session, or the task has it in hand.
-/
namespace Sonoff.Ota
open Bytes AesGcm NorFlash OtaParse Threads Machine

variable {G : Type} {sdk : Sdk G} {s t : ChannelState G} {i : ThreadId} {k : ℕ} {flash : Flash}
  {p q : OtaPc} {x y : OtaSystem G} {label : OtaLabel}

def EndsQueued (x : OtaSystem G) : Prop := ∃ events, x.eventQueue = some events ∧
    ∃ event ∈ events, event.id ≠ .imageData

def OtaPc.endsInHand (pc : OtaPc) : Prop := ∃ event, pc = .handle event ∧ event.id ≠ .imageData

def CallbackPc.beforeApply : CallbackPc → Bool
  | .storeState _ _ _ | .storeSize _ _ _ | .storeError _ _ | .storePercent _ _ _ | .apply _ => true
  | _ => false

def CallbackPc.isApplying : CallbackPc → Bool
  | .applying _ => true
  | _ => false

def OtaPc.applying : OtaPc → Bool
  | .params .apply | .lock .apply | .take _ .apply | .check .apply => true
  | .send .apply event => event.id = .imageApply
  | _ => false

/-- The callback of the verification has yet to queue its APPLY event. -/
structure ApplyDue (s : ChannelState G) (k : ℕ) : Prop where
  inside : s.core.pcs (.task k) = .callback .receive
  due : (s.callbacks k).beforeApply = true ∨
    (s.callbacks k).isApplying = true ∧ (s.core.pcs (applyClient k)).applying = true

/-- What brings a verified session to its end. -/
def WillEnd (s : ChannelState G) (k : ℕ) : Prop :=
  EndsQueued s.core.shared ∨ ApplyDue s k ∨ (s.core.pcs (.task k)).endsInHand

theorem EndsQueued.kept (h : EndsQueued x) (hq : y.eventQueue = x.eventQueue) : EndsQueued y := by
  obtain ⟨events,he,hend⟩ := h
  exact ⟨events, hq.trans he, hend⟩

theorem EndsQueued.outside (h : EndsQueued x) (ho : Outsider p x y) : EndsQueued y := by
  rcases ho.queue with hq | ⟨events,request,event,-,hx,hy⟩
  · exact h.kept hq
  · obtain ⟨events',he,e,hmem,hid⟩ := h
    rw [hx] at he
    cases he
    exact ⟨_, hy, e, List.mem_append_left _ hmem, hid⟩

/-- In a verified session no data event is left. -/
theorem CoreFacts.verified_queue {core : OtaState G} (h : CoreFacts core)
    (hx : core.shared.taskHandle = some k) (hst : core.shared.core.info.state = .verifySuccess) :
    ∃ events, core.shared.eventQueue = some events ∧ ∀ event ∈ events, event.id ≠ .imageData := by
  obtain ⟨events,hq⟩ := Option.ne_none_iff_exists'.mp (h.whole.running k hx).2
  obtain ⟨extra,hu,hb⟩ := h.accounting.balanced k events hx hq (by rw [hst]; rfl)
  have hacc : QueueAccounted core events extra :=
    .of_balanced h.commit hq hu (by simp only [handled, hx]; exact hb)
  exact ⟨events, hq, fun event he => hacc.verified hst event (List.mem_append_right _ he)⟩

/-- A call of `snfOtaApply` in a verified session moves on to its event, which is queued where the
queue has room. -/
theorem otaNext_applying {events : List SnfOtaEvent} (h : otaNext sdk i p x label = some (q, y))
    (hp : p.applying = true) (hhandle : x.taskHandle ≠ none)
    (hst : x.core.info.state = .verifySuccess) (hm : x.mutex ≠ none)
    (hq : x.eventQueue = some events) :
    q.applying = true ∨ (q = .unlock .apply .ok ∧ EndsQueued y) ∨
      ((∃ event, p = .send .apply event) ∧ y = x ∧ ¬events.length < snfOtaEventQueueLength) := by
  obtain ⟨m,hm⟩ := Option.ne_none_iff_exists'.mp hm
  unfold OtaPc.applying at hp
  split at hp
  · cases label with
    | proceed success =>
      simp only [otaNext, otaParams] at h
      cases h
      exact Or.inl rfl
    | _ => cases h
  · cases label with
    | proceed success =>
      simp only [otaNext, hm] at h
      cases h
      exact Or.inl rfl
    | _ => cases h
  · cases label with
    | proceed success =>
      simp only [otaNext] at h
      split at h <;> cases h
      exact Or.inl rfl
    | _ => cases h
  · cases label with
    | proceed success =>
      simp only [otaNext, otaCheck, if_neg hhandle, hst, ne_eq, not_true_eq_false, if_false] at h
      cases h
      exact Or.inl rfl
    | _ => cases h
  case h_5 event =>
    have hid : event.id = .imageApply := of_decide_eq_true hp
    cases label with
    | proceed success =>
      simp only [otaNext, otaQueueEventSend, hq] at h
      split at h <;> cases h
      · refine Or.inr (Or.inl ⟨if_neg ?_, _, rfl, event,
          List.mem_append_right _ (List.mem_singleton.mpr rfl), ?_⟩)
        · rw [hid]
          rintro ⟨-,⟨⟩⟩
        · rw [hid]
          rintro ⟨⟩
      · exact Or.inr (Or.inr ⟨⟨event, rfl⟩, rfl, ‹_›⟩)
    | _ => cases h
  · cases hp

theorem task_ne_applyClient (j k : ℕ) : ThreadId.task j ≠ applyClient k := nofun

/-- The callback's own steps. -/
theorem CallbackMove.applyDue (h : CallbackMove sdk s k t) (hr : Reports s.core k (s.callbacks k))
    (hst : s.core.shared.core.info.state = .verifySuccess) (hdue : ApplyDue s k) :
    ApplyDue t k := by
  have hstate : ∀ {channel state}, (s.callbacks k).reports = some (channel, state) →
      state = .verifySuccess :=
    fun hc => ((hr.inside _ _ hc).2.2).symm.trans hst
  have hset : ∀ {z : ChannelState G} {pc : CallbackPc}, z.core = s.core → pc.beforeApply = true →
      ApplyDue (z.setCallback k pc) k := by
    intro z pc hz hpc
    refine ⟨?_, Or.inl ?_⟩
    · show z.core.pcs (.task k) = _
      rw [hz]
      exact hdue.inside
    · rw [ChannelState.setCallback_self]
      exact hpc
  have hreturned : ∀ {channel ret}, s.callbacks k = .applying channel →
      s.returned (applyClient k) = some ret → False := by
    intro channel ret hpc hret
    rcases hdue.due with hd | ⟨-,hd⟩
    · rw [hpc] at hd
      cases hd
    · unfold ChannelState.returned at hret
      split at hret
      case h_1 hidle =>
        rw [hidle] at hd
        cases hd
      · cases hret
  cases h with
  | state channel state data hpc => exact hset rfl rfl
  | size channel state data hpc => exact hset rfl (by split <;> rfl)
  | error state data hpc => exact hset rfl rfl
  | percent channel state data hpc =>
    have hv : state = .verifySuccess := @hstate channel state (by rw [hpc]; rfl)
    rw [if_pos hv]
    exact hset rfl rfl
  | apply channel s' hpc hs' =>
    obtain ⟨ret,-,rfl⟩ := invoke_some hs'
    refine ⟨?_, Or.inr ⟨?_, ?_⟩⟩
    · show (s.core.move _ _).pcs (.task k) = _
      rw [Config.move_other _ (task_ne_applyClient k k)]
      exact hdue.inside
    · rw [ChannelState.setCallback_self]
      rfl
    · show ((s.core.move _ _).pcs (applyClient k)).applying = true
      rw [Config.move_self]
      rfl
  | applied channel hpc hret => exact (hreturned hpc hret).elim
  | applyFailed channel ret hpc hret _ => exact (hreturned hpc hret).elim
  | failed channel hpc =>
    have hd := hdue.due
    rw [hpc] at hd
    rcases hd with hd | ⟨hd,-⟩ <;> cases hd
  | failedError hpc =>
    have hd := hdue.due
    rw [hpc] at hd
    rcases hd with hd | ⟨hd,-⟩ <;> cases hd

/-- The steps of the others. -/
theorem CoreStep.applyDue {l : ChannelLabel} (h : CoreStep sdk s t l i label)
    (hf : CoreFacts s.core) (hx : s.core.shared.taskHandle = some k)
    (hst : s.core.shared.core.info.state = .verifySuccess) (hi : i ≠ .task k)
    (hcallback : t.callbacks k = s.callbacks k) (hdue : ApplyDue s k) :
    ApplyDue t k ∨ EndsQueued t.core.shared := by
  obtain ⟨ho,hpc⟩ := h.outsider hf hx hi
  have hinside : t.core.pcs (.task k) = .callback .receive := hpc.trans hdue.inside
  rcases hdue.due with hd | ⟨hc,hd⟩
  · exact Or.inl ⟨hinside, Or.inl (hcallback ▸ hd)⟩
  · obtain ⟨r,hr,hmove⟩ := step_some h.step
    by_cases happly : i = applyClient k
    · subst happly
      have hhandle : s.core.shared.taskHandle ≠ none := by
        rw [hx]
        nofun
      obtain ⟨events,hq,hnodata⟩ := hf.verified_queue hx hst
      rcases otaNext_applying hr hd hhandle hst (hf.whole.locked hhandle)
        hq with hgo | ⟨-,hend⟩ | ⟨-,hsame,hfull⟩
      · refine Or.inl ⟨hinside, Or.inr ⟨hcallback ▸ hc, ?_⟩⟩
        rwa [hmove, Config.move_self]
      · exact Or.inr (by rwa [hmove])
      · -- A full queue holds nothing but events that end the session.
        refine Or.inr ?_
        rw [hmove, Config.move_shared, hsame]
        cases events with
        | nil => exact absurd (Nat.succ_pos _) hfull
        | cons e rest => exact ⟨_, hq, e, List.mem_cons_self, hnodata e List.mem_cons_self⟩
    · refine Or.inl ⟨hinside, Or.inr ⟨hcallback ▸ hc, ?_⟩⟩
      rwa [hmove, Config.move_other _ (Ne.symm happly)]

/-- The task's own steps, with no callback running. -/
theorem OtaMove.willEnd (h : OtaMove sdk i p x q y) (ha : Asserted i p x)
    (hx : x.taskHandle = some k) (hst : y.core.info.state = .verifySuccess)
    (hend : x.core.info.state = .verifySuccess → EndsQueued x ∨ p.endsInHand) :
    EndsQueued y ∨ q.endsInHand ∨ y.taskHandle = none ∨
      q = .callback .receive ∧
        ∃ data rest, y.history = .notified x.session x.core.config.eventCallback .verifySuccess
          data :: rest := by
  have hnone : x.taskHandle ≠ none := by
    rw [hx]
    nofun
  have hother : (∀ event, p ≠ .handle event) → y.core.info.state = x.core.info.state →
    y.eventQueue = x.eventQueue →
      EndsQueued y := by
    intro hp hs hq
    rcases hend (hs ▸ hst) with he | ⟨event,he,-⟩
    · exact he.kept hq
    · exact absurd he (hp event)
  cases h with
  | pc hpc =>
    refine Or.inl (hother ?_ rfl rfl)
    rintro event rfl
    cases hpc
  | mutex x config => exact Or.inl (hother nofun rfl rfl)
  | mutexFailed x config => exact Or.inl (hother nofun rfl rfl)
  | taken m request _ => exact Or.inl (hother nofun rfl rfl)
  | exitTaken m _ => exact Or.inl (hother nofun rfl rfl)
  | given request ret hu =>
    have hsame := otaUnlock_sameSession hu
    exact Or.inl (hother nofun (by rw [hsame.core]) hsame.eventQueue)
  | exitGiven hu =>
    have hsame := otaUnlock_sameSession hu
    exact Or.inl (hother nofun (by rw [hsame.core]) hsame.eventQueue)
  | prepare x config sizeKnown => exact absurd ha.taskHandle hnone
  | queue config _ => exact absurd ha.taskHandle hnone
  | init x config => exact absurd ha.taskHandle hnone
  | task x config => exact absurd ha.1 hnone
  | taskFailed x config => exact absurd ha.1 hnone
  | teardown x => exact Or.inr (Or.inr (Or.inl rfl))
  | @sent x events request event hq =>
    rcases hend hst with he | ⟨_,hp,-⟩
    · refine Or.inl (he.outside (p := .send request event) ?_)
      exact ⟨rfl, rfl, rfl, rfl, rfl, rfl, rfl, Or.inr ⟨_, request, event, rfl, hq, rfl⟩⟩
    · cases hp
  | count x request len => exact Or.inl (hother nofun rfl rfl)
  | @receive x event rest hq =>
    rcases hend hst with ⟨events,he,e,hmem,hid⟩ | ⟨_,hp,-⟩
    · rw [hq] at he
      cases he
      rcases List.mem_cons.mp hmem with rfl | hmem
      · exact Or.inr (Or.inl ⟨e, rfl, hid⟩)
      · exact Or.inl ⟨rest, rfl, e, hmem, hid⟩
    · cases hp
  | waited _ => exact Or.inl (hother nofun rfl rfl)
  | timedOut _ => cases hst
  | data event bytes results _ _ hd =>
    obtain ⟨core,out,hres,rfl,rfl⟩ := otaHandleDataEvent_result hd
    have hout : out.state = .verifySuccess := hst
    cases hres with
    | refused _ _ _ _ _ => cases hout
    | failed _ _ _ _ _ => cases hout
    | accepted nextErase hc hconf _ _ =>
      have hret : (acceptedOutcome core).ret = 0 := by
        rcases acceptedOutcome_cases core with ⟨_,hcase⟩ | ⟨_,hcase⟩ | ⟨_,error,hcase⟩
        · rw [hcase]
        · rw [hcase]
        · rw [hcase] at hout
          cases hout
      rw [if_pos hret, hout]
      refine Or.inr (Or.inr (Or.inr ⟨rfl, otaEventData core.info (acceptedOutcome core).errorCode,
        .consumed x.session event bytes :: x.history, ?_⟩))
      rw [← hconf]
      rfl
  | apply x event _ => cases hst
  | abort x event _ => cases hst
  | committed x event => cases hst
  | commitFailed x event => cases hst

def VerifiedEnds (s : ChannelState G) : Prop :=
  ∀ k, s.core.shared.taskHandle = some k → s.core.shared.core.info.state = .verifySuccess →
    WillEnd s k

/-- The step of the running task, whose callback has returned. -/
theorem ChannelFacts.task_willEnd {core : OtaState G} (hf : ChannelFacts s)
    (hstep : otaStep sdk s.core (.task k, label) = some core)
    (hreturned : s.callbacks k = .returned)
    (hx : s.core.shared.taskHandle = some k) (hxt : core.shared.taskHandle = some k)
    (hst : core.shared.core.info.state = .verifySuccess)
    (hs : s.core.shared.core.info.state = .verifySuccess → WillEnd s k) :
    WillEnd ({ s with core := core }.setCallback k (ChannelState.notified core k)) k := by
  obtain ⟨r,hr,rfl⟩ := step_some hstep
  have hend : s.core.shared.core.info.state = .verifySuccess →
      EndsQueued s.core.shared ∨ (s.core.pcs (.task k)).endsInHand := by
    intro hv
    rcases hs hv with he | hdue | he
    · exact Or.inl he
    · have hd := hdue.due
      rw [hreturned] at hd
      rcases hd with hd | ⟨hd,-⟩ <;> cases hd
    · exact Or.inr he
  have hcore : ∀ pc,
    (ChannelState.setCallback { s with core := s.core.move (.task k) r } k pc).core =
      s.core.move (.task k) r := fun _ => rfl
  unfold WillEnd
  rw [hcore, Config.move_self, Config.move_shared]
  rw [Config.move_shared] at hxt hst
  rcases (otaNext_move hr).willEnd (hf.core.asserted (.task k)) hx hst
    hend with he | he | hno | ⟨hq,data,rest,hhist⟩
  · exact Or.inl he
  · exact Or.inr (Or.inr he)
  · rw [hno] at hxt
    cases hxt
  · obtain ⟨channel,imageSize,hconfig,-⟩ := hf.installed (by rw [hx]; nofun)
    refine Or.inr (Or.inl ⟨?_, Or.inl ?_⟩)
    · rw [hcore, Config.move_self]
      exact hq
    · rw [ChannelState.setCallback_self]
      unfold ChannelState.notified
      rw [Config.move_self, Config.move_shared]
      rw [hq, hhist, hconfig]
      cases channel <;> rfl

theorem VerifiedEnds.step {l : ChannelLabel} (h : VerifiedEnds s) (hf : ChannelFacts s)
    (hstep : channelStep sdk s l = some t) : VerifiedEnds t := by
  intro k hx hst
  -- Beside the task the queue only grows, and the callback moves by its own steps.
  have hother : Beside sdk s t l k →
      (ApplyDue s k → s.core.shared.core.info.state = .verifySuccess →
        s.core.shared.taskHandle = some k →
        ApplyDue t k ∨ EndsQueued t.core.shared) → WillEnd t k := by
    intro hbeside hdue
    have hkept : s.core.shared.taskHandle = some k ∧
      s.core.shared.core.info.state = .verifySuccess ∧
        t.core.pcs (.task k) = s.core.pcs (.task k) ∧
          (EndsQueued s.core.shared → EndsQueued t.core.shared) := by
      rcases hbeside with hcore | ⟨i,label,hi,hcore⟩
      · rw [hcore] at hx hst ⊢
        exact ⟨hx, hst, rfl, id⟩
      · have hx' := hf.core.sameSession hcore.step hx (hst.trans_ne nofun)
        obtain ⟨ho,hpc⟩ := hcore.outsider hf.core hx' hi
        exact ⟨hx', ho.state ▸ hst, hpc, fun he => he.outside ho⟩
    obtain ⟨hx',hst',hpc,hends⟩ := hkept
    rcases h k hx' hst' with he | hd | he
    · exact Or.inl (hends he)
    · rcases hdue hd hst' hx' with hd | he
      · exact Or.inr (Or.inl hd)
      · exact Or.inl he
    · exact Or.inr (Or.inr (hpc ▸ he))
  have hframe : t.callbacks k = s.callbacks k → Beside sdk s t l k → WillEnd t k := by
    intro hcallback hbeside
    refine hother hbeside (fun hdue hst' hx' => ?_)
    rcases hbeside with hcore | ⟨i,label,hi,hcore⟩
    · exact Or.inl ⟨hcore ▸ hdue.inside, hcallback ▸ hcore ▸ hdue.due⟩
    · exact hcore.applyDue hf.core hx' hst' hi hcallback hdue
  have hstepped := channelStep_stepped hstep
  cases l with
  | core i label =>
    cases coreStep_move hstep with
    | client n _ core _ _ => exact hframe rfl (hstepped.beside nofun)
    | task j _ core hreturned _ hcore =>
      by_cases hjk : j = k
      · subst hjk
        have hx' := hf.core.sameSession hcore hx (hst.trans_ne nofun)
        exact hf.task_willEnd hcore hreturned hx' hx hst (h j hx')
      · refine hframe (ChannelState.setCallback_other _ (Ne.symm hjk) _) (hstepped.beside ?_)
        rintro label' hlabel
        cases hlabel
        exact hjk rfl
  | callback j =>
    have hmove := callbackStep_move hstep
    by_cases hjk : j = k
    · subst hjk
      exact hother (hstepped.beside nofun) (fun hdue hst' _ =>
        Or.inl (hmove.applyDue (hf.reports j) hst' hdue))
    · exact hframe ((hmove.reports (hf.reports j)).2 k (Ne.symm hjk)) (hstepped.beside nofun)
  | http event => exact hframe (by rw [(httpStep_move hstep).callbacks]) (hstepped.beside nofun)
  | matter event => exact hframe (by rw [(matterStep_move hstep).callbacks]) (hstepped.beside nofun)

theorem coreStep_proceed (hreturned : s.callbacks k = .returned) (success : Bool) :
    coreStep sdk s (.task k) (.proceed success) =
      (otaStep sdk s.core (.task k, .proceed success)).map fun core =>
      { s with core := core }.setCallback k (ChannelState.notified core k) := by
  simp only [coreStep, hreturned, ne_eq, not_true_eq_false, if_false]
  cases s.core.pcs (.task k) <;> rfl

/-- An event that is no data event ends a verified session. -/
theorem otaNext_handle {event : SnfOtaEvent} (hid : event.id ≠ .imageData) :
    ∃ r, otaNext sdk i (.handle event) x (.proceed true) = some r ∧
      (r.2.core.info.state = .apply ∨ r.2.core.info.state = .abort) := by
  cases hc : event.id with
  | imageData => exact absurd hc hid
  | imageApply => exact ⟨otaHandleApply x event, by simp only [otaNext, hc], Or.inl rfl⟩
  | abort => exact ⟨otaHandleAbort x event, by simp only [otaNext, hc], Or.inr rfl⟩

/-- The task takes the first event and handles it. -/
theorem exec_handles {event : SnfOtaEvent} {rest : List SnfOtaEvent}
    (hreturned : s.callbacks k = .returned)
    (hpc : s.core.pcs (.task k) = .receive) (hq : s.core.shared.eventQueue = some (event :: rest))
    (hid : event.id ≠ .imageData) :
    ∃ t, exec (channelStep sdk) s [.core (.task k) (.proceed true),
      .core (.task k) (.proceed true)] = some t ∧
      (t.core.shared.core.info.state = .apply ∨ t.core.shared.core.info.state = .abort) := by
  have htake : otaStep sdk s.core (.task k, .proceed true) =
      some (s.core.move (.task k) (.handle event, s.core.shared.setQueue (some rest))) := by
    simp only [otaStep, Threads.step, hpc, otaNext, hq, Option.map_some]
  have hidle : ChannelState.notified
    (s.core.move (.task k) (.handle event, s.core.shared.setQueue (some rest))) k =
      .returned := by
    simp only [ChannelState.notified, Config.move_self]
  obtain ⟨r,hr,hstate⟩ :=
    @otaNext_handle _ sdk (.task k) (s.core.shared.setQueue (some rest)) event hid
  have hhandle : otaStep sdk
    (s.core.move (.task k) (.handle event, s.core.shared.setQueue (some rest)))
      (.task k, .proceed true) =
        some ((s.core.move (.task k) (.handle event, s.core.shared.setQueue (some rest))).move
          (.task k) r) := by
    simp only [otaStep, Threads.step, Config.move_self, Config.move_shared, hr, Option.map_some]
  simp only [exec, channelStep, coreStep_proceed hreturned, htake, hidle, Option.map_some,
    Option.bind_some]
  rw [coreStep_proceed (ChannelState.setCallback_self _ _ _)]
  simp only [ChannelState.setCallback, hhandle, Option.map_some, Option.bind_some]
  exact ⟨_, rfl, hstate⟩

variable {ok : ChannelState G → ChannelLabel → Prop}

theorem reach_verifiedEnds (hok : ∀ s l, ok s l → keepsOneMutex s l)
    (h : Reach (channelStep sdk) ok (channelBoot G flash) s) : VerifiedEnds s := by
  refine @Reach.invariant_of _ _ _ _ _ VerifiedEnds ChannelFacts (fun s hs =>
    reach_channelFacts hok hs) nofun ?_ s h
  intro s l t hf hs _ hstep
  exact hs.step hf hstep

/-- Where the task waits in a verified session, the next event is an APPLY or an ABORT, and the
task's next two steps commit or abort. -/
theorem verified_session_ends (h : Reach (channelStep sdk) keepsOneMutex (channelBoot G flash) s)
    (hpc : s.core.pcs (.task k) = .receive) (hst : s.core.shared.core.info.state = .verifySuccess) :
    ∃ event rest, s.core.shared.eventQueue = some (event :: rest) ∧
      (event.id = .imageApply ∨ event.id = .abort) ∧
      ∃ t, exec (channelStep sdk) s [.core (.task k) (.proceed true),
        .core (.task k) (.proceed true)] = some t ∧
        (t.core.shared.core.info.state = .apply ∨ t.core.shared.core.info.state = .abort) := by
  have hf := reach_channelFacts (fun _ _ hl => hl) h
  have hx := hf.core.running (k := k) (by rw [hpc]; rfl)
  have hreturned : s.callbacks k = .returned := by
    by_contra hrun
    have hreports : (s.callbacks k).reports ≠ none := by
      intro hnone
      cases hc : s.callbacks k with
      | returned =>
        rw [hc] at hnone hrun
        exact hrun rfl
      | _ =>
        rw [hc] at hnone hrun
        cases hnone
    obtain ⟨⟨channel,state⟩,hc⟩ := Option.ne_none_iff_exists'.mp hreports
    obtain ⟨⟨next,hin⟩,-,-⟩ := (hf.reports k).inside channel state hc
    rw [hpc] at hin
    cases hin
  obtain ⟨events,hq,hnodata⟩ := hf.core.verified_queue hx hst
  have hend : EndsQueued s.core.shared := by
    rcases reach_verifiedEnds (fun _ _ hl => hl) h k hx hst with he | hdue | ⟨event,he,-⟩
    · exact he
    · have := hpc.symm.trans hdue.inside
      cases this
    · rw [hpc] at he
      cases he
  obtain ⟨events',hq',event,hmem,-⟩ := hend
  rw [hq] at hq'
  cases hq'
  cases events with
  | nil => cases hmem
  | cons first rest =>
    have hid := hnodata first List.mem_cons_self
    refine ⟨first, rest, hq, ?_, exec_handles hreturned hpc hq hid⟩
    cases hc : first.id
    · exact absurd hc hid
    · exact Or.inl rfl
    · exact Or.inr rfl

def httpSteps (n : ℕ) : List ChannelLabel := List.replicate n (.http .step)
def matterSteps (n : ℕ) : List ChannelLabel := List.replicate n (.matter .step)
def callbackSteps (k n : ℕ) : List ChannelLabel := List.replicate n (.callback k)
def coreSteps (i : ThreadId) (n : ℕ) :
    List ChannelLabel := List.replicate n (.core i (.proceed true))

def uploadHead : List UInt8 := [80, 79, 83, 84, 13, 10] ++ httpContentLength ++ [58, 49, 48, 49] ++
    httpHeaderEnd

/-- Matter starts a session and writes the package, which the task verifies. -/
def matterVerifies : List ChannelLabel :=
  .matter (.callStart 101) :: matterSteps 4 ++ coreSteps Channel.matter.client 10 ++ matterSteps 1
    ++ coreSteps (.task 0) 1 ++ .matter (.callWrite 0 101) :: matterSteps 1 ++
      coreSteps Channel.matter.client 7
    ++ matterSteps 1 ++ coreSteps (.task 0) 1 ++ [.core (.task 0) (.process bytePackage [])]

def matterApplies : List ChannelLabel :=
  matterVerifies ++ callbackSteps 0 4 ++ coreSteps (applyClient 0) 6 ++ callbackSteps 0 1 ++
    coreSteps (.task 0) 1

theorem verified_session_ends_byte :
    ∃ s, execWithin (channelStep softSdk) keepsOneMutex (channelBoot Unit blankFlash)
      matterApplies = some s ∧ s.core.pcs (.task 0) = .receive ∧
      s.core.shared.core.info.state = .verifySuccess
      ∧ ∃ event rest, s.core.shared.eventQueue = some (event :: rest) ∧
        (event.id = .imageApply ∨ event.id = .abort) ∧
        ∃ t, exec (channelStep softSdk) s [.core (.task 0) (.proceed true),
          .core (.task 0) (.proceed true)] = some t ∧
          (t.core.shared.core.info.state = .apply ∨ t.core.shared.core.info.state = .abort) := by
  have hrun : (execWithin (channelStep softSdk) keepsOneMutex (channelBoot Unit blankFlash)
    matterApplies).map (fun s => (s.core.pcs (.task 0), s.core.shared.core.info.state)) =
    some (.receive, .verifySuccess) := by
    decide +kernel
  obtain ⟨s,hs,hview⟩ := Option.map_eq_some_iff.mp hrun
  obtain ⟨hpc,hst⟩ := Prod.mk.inj hview
  exact ⟨s, hs, hpc, hst, verified_session_ends (Reach.execWithin .init hs) hpc hst⟩

/-- The first starts of both channels find no mutex. Matter's session is verified when the other
start fails to create its mutex and stores NULL over the one in use. -/
def mutexLost : List ChannelLabel :=
  .http (.request uploadHead) :: httpSteps 5 ++ coreSteps Channel.http.client 1 ++ matterVerifies
    ++ [.core Channel.http.client (.proceed false)] ++ httpSteps 1 ++ callbackSteps 0 4 ++
      coreSteps (applyClient 0) 2
    ++ callbackSteps 0 2 ++ coreSteps (.task 0) 1

def uploadRefused : List ChannelLabel :=
  .http (.request uploadHead) :: httpSteps 5 ++ coreSteps Channel.http.client 6 ++ httpSteps 1

/-- The APPLY is refused for want of a mutex. The task waits in VERIFY_SUCCESS with an empty queue,
and the core stays busy. -/
theorem verified_session_stuck :
    ∃ s, exec (channelStep softSdk) (channelBoot Unit blankFlash) (mutexLost ++ uploadRefused) =
      some s ∧ s.core.pcs (.task 0) = .receive ∧ s.callbacks 0 = .returned ∧
      s.core.shared.core.info.state = .verifySuccess
      ∧ s.core.shared.eventQueue = some [] ∧ s.http.pc = .idle (some (.startFailed .errBusy)) := by
  have hrun : (exec (channelStep softSdk) (channelBoot Unit blankFlash)
    (mutexLost ++ uploadRefused)).map
      (fun s => decide (s.core.pcs (.task 0) = .receive ∧ s.callbacks 0 = .returned
        ∧ s.core.shared.core.info.state = .verifySuccess ∧ s.core.shared.eventQueue = some []
        ∧ s.http.pc = .idle (some (.startFailed .errBusy)))) = some true := by
    decide +kernel
  obtain ⟨s,hs,hview⟩ := Option.map_eq_some_iff.mp hrun
  exact ⟨s, hs, of_decide_eq_true hview⟩

end Sonoff.Ota
