import Mathlib.Data.List.Count
import Sonoff.Ota.ChannelCalls

/-! # The first report of a session

The task of a session notifies when it enters its callback, and its callback then stores the state.
A session has reported once one of its callbacks has done so.
-/
namespace Sonoff.Ota
open Bytes AesGcm NorFlash OtaParse Threads Machine

variable {G : Type} {sdk : Sdk G} {core core' : OtaState G} {s t : ChannelState G} {i : ThreadId}
  {k n : ℕ} {flash : Flash} {label : OtaLabel} {l : ChannelLabel} {p q : OtaPc} {x y : OtaSystem G}

def Observation.notifies (n : ℕ) : Observation → Bool
  | .notified m _ _ _ => m = n
  | _ => false

def timesNotified (n : ℕ) (history : List Observation) :
    ℕ := history.countP (Observation.notifies n)

/-- What a move does to the notifications: it enters a callback with one, or there is none. -/
inductive NoticeMove (p : OtaPc) (x : OtaSystem G) (q : OtaPc) (y : OtaSystem G) : Prop
  | quiet (hquiet : ∀ n, timesNotified n y.history = timesNotified n x.history)
      (hq : ∀ next, q ≠ .callback next) : NoticeMove p x q y
  | notice (next : AfterNotify) (state : SnfOtaState) (data : SnfOtaEventData)
      (rest : List Observation) (hp : p.live = true) (hbegun : p.ending = false)
      (hq : q = .callback next)
      (hhistory : y.history = .notified x.session x.core.config.eventCallback state data :: rest)
      (hrest : ∀ n, timesNotified n rest = timesNotified n x.history) : NoticeMove p x q y

theorem PcMove.not_callback (h : PcMove i x p q) (next : AfterNotify) : q ≠ .callback next := by
  cases h with
  | check request =>
    rintro hq
    have hasks := @otaCheck_asks _ i x request
    rw [hq] at hasks
    cases hasks
  | «return» other => cases other <;> exact nofun
  | _ => exact nofun

theorem otaHandleDataEvent_notice {event : SnfOtaEvent} {bytes : List UInt8}
    {results : List OpResult} (h : otaHandleDataEvent sdk x event bytes results = some (q, y)) :
    NoticeMove (.handle event) x q y := by
  obtain ⟨core,out,hres,rfl,rfl⟩ := otaHandleDataEvent_result h
  have hconf : core.config = x.core.config := by
    cases hres with
    | refused _ hconf _ _ _ => exact hconf
    | failed _ _ _ hconf _ => exact hconf
    | accepted _ _ hconf _ _ => exact hconf
  refine .notice _ out.state (otaEventData core.info out.errorCode)
    (.consumed x.session event bytes :: x.history)
    rfl rfl rfl ?_ fun _ => List.countP_cons_of_neg Bool.false_ne_true
  rw [← hconf]
  rfl

/-- The inversion of a step for the notifications. -/
theorem OtaMove.notice (h : OtaMove sdk i p x q y) : NoticeMove p x q y := by
  have hkeep : y.history = x.history → (∀ next, q ≠ .callback next) → NoticeMove p x q y :=
    fun hsame hq => .quiet (fun n => by rw [hsame]) hq
  cases h with
  | pc hpc => exact hkeep rfl hpc.not_callback
  | given request ret hu => exact hkeep (otaUnlock_sameSession hu).history nofun
  | exitGiven hu => exact hkeep (otaUnlock_sameSession hu).history nofun
  | prepare x config sizeKnown =>
    refine hkeep (snfOtaStartPrepare_record x config sizeKnown).2 ?_
    split <;> exact nofun
  | task x config => exact .quiet (fun _ => List.countP_cons_of_neg Bool.false_ne_true) nofun
  | sent request event _ =>
    refine hkeep rfl ?_
    unfold afterSend
    split <;> exact nofun
  | timedOut _ => exact .notice _ _ _ _ rfl rfl rfl rfl fun _ => rfl
  | data event bytes results _ _ hd => exact otaHandleDataEvent_notice hd
  | apply x event _ => exact .notice _ _ _ _ rfl rfl rfl rfl fun _ => rfl
  | abort x event _ =>
    exact .notice _ _ _ _ rfl rfl rfl rfl fun _ => List.countP_cons_of_neg Bool.false_ne_true
  | committed x event =>
    exact .notice _ _ _ _ rfl rfl rfl rfl fun _ => List.countP_cons_of_neg Bool.false_ne_true
  | commitFailed x event =>
    exact .notice _ _ _ _ rfl rfl rfl rfl fun _ => List.countP_cons_of_neg Bool.false_ne_true
  | _ => exact hkeep rfl nofun

def NotifiedStarted (core : OtaState G) : Prop :=
  ∀ n, (∀ i config, .started i n config ∉ core.shared.history) →
    timesNotified n core.shared.history = 0

theorem timesNotified_cons (n m : ℕ) (callback : Option SnfOtaEventCallback) (state : SnfOtaState)
    (data : SnfOtaEventData) (rest : List Observation) :
    timesNotified n (.notified m callback state data :: rest) = timesNotified n rest + if m = n then
      1 else 0 := by
  simp only [timesNotified, List.countP_cons, Observation.notifies, decide_eq_true_eq]

theorem NotifiedStarted.step (h : NotifiedStarted core) (hf : CoreFacts core)
    (hstep : otaStep sdk core (i, label) = some core') : NotifiedStarted core' := by
  obtain ⟨r,hr,rfl⟩ := step_some hstep
  have hmove := otaNext_move hr
  intro n hn
  rw [Config.move_shared] at hn ⊢
  have hback : ∀ j config, .started j n config ∉ core.shared.history := by
    intro j config hj
    refine hn j config ?_
    cases hmove.record (hf.asserted i) with
    | keep _ _ _ hsame _ => exact (hsame j n config).mpr hj
    | idle _ _ hhist _ _ => exact hhist ▸ hj
    | spawn config' _ _ hy =>
      rw [hy]
      exact List.mem_cons_of_mem _ hj
  cases hmove.notice with
  | quiet hquiet _ => rw [hquiet, h n hback]
  | notice next state data rest hp _ _ hhistory hrest =>
    rw [hhistory, timesNotified_cons, hrest, h n hback, Nat.zero_add]
    refine if_neg ?_
    rintro rfl
    obtain ⟨k,-,hx⟩ := (hf.asserted i).of_live hp
    obtain ⟨j,hj⟩ := hf.record.running (by rw [hx]; nofun)
    exact hback j _ hj

theorem reach_notifiedStarted (h : Reach (otaStep sdk) keepsMutex (otaBoot G flash) core) :
    NotifiedStarted core := by
  refine @Reach.invariant_of _ _ _ _ _ NotifiedStarted CoreFacts (fun _ hs => reach_coreFacts hs)
    (fun _ _ => rfl) ?_ core h
  rintro s ⟨i,label⟩ t hf hs _ hstep
  exact hs.step hf hstep

/-- The report that a callback is still to make: it stores the state first. -/
def CallbackPc.storing : CallbackPc → ℕ
  | .storeState _ _ _ => 1
  | _ => 0

theorem CallbackMove.storing (h : CallbackMove sdk s k t) : (t.callbacks k).storing = 0 := by
  have hset : ∀ {z : ChannelState G} {pc : CallbackPc}, pc.storing = 0 →
      ((z.setCallback k pc).callbacks k).storing = 0 := by
    intro z pc hpc
    rwa [ChannelState.setCallback_self]
  cases h with
  | size channel _ _ _ => exact hset (by split <;> rfl)
  | percent _ _ _ _ => exact hset (by split <;> rfl)
  | failed channel _ => exact hset (by split <;> rfl)
  | _ => exact hset rfl

theorem notified_quiet (h : ∀ next, core.pcs (.task k) ≠ .callback next) :
    (ChannelState.notified core k).storing = 0 := by
  unfold ChannelState.notified
  split
  · exact absurd ‹core.pcs (.task k) = _› (h _)
  · exact absurd ‹core.pcs (.task k) = _› (h _)
  · rfl

theorem notified_matter {next : AfterNotify} {state : SnfOtaState} {data : SnfOtaEventData}
    {rest : List Observation} (hpc : core.pcs (.task k) = .callback next)
    (hhistory : core.shared.history = .notified n (some Channel.matter.callback) state data ::
      rest) :
    ChannelState.notified core k = .storeState .matter state data := by
  simp only [ChannelState.notified, hpc, hhistory, Channel.callback]

end Sonoff.Ota
