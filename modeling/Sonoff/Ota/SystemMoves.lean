import Sonoff.Ota.System

/-! # What one step of the core can do

The inversion of the step function, one constructor for each way a thread moves
on, and the discipline of the mutex: while no `snfOtaStart` stores a mutex over
a stored one, at most one thread is in the critical section.
-/
namespace Sonoff.Ota
open Bytes AesGcm NorFlash OtaParse Threads Machine

variable {G : Type}

inductive PcMove (i : ThreadId) (x : OtaSystem G) : OtaPc → OtaPc → Prop
  | invoke (ret : Option SnfOtaRet) (call : OtaCall) :
      call.inRange = true → PcMove i x (.idle ret) (.params call)
  | refuse (call : OtaCall) (ret : SnfOtaRet) : otaParams call = .error ret →
      PcMove i x (.params call) (.idle (some ret))
  | first (call : OtaCall) (config : SnfOtaConfig) : otaParams call = .ok (.start config) →
      x.mutex = none → PcMove i x (.params call) (.createMutex config)
  | request (call : OtaCall) (request : OtaRequest) : otaParams call = .ok request →
      PcMove i x (.params call) (.lock request)
  | noMutex (request : OtaRequest) : PcMove i x (.lock request) (.idle (some .errState))
  | wait (request : OtaRequest) (m : ℕ) :
      x.mutex = some m → PcMove i x (.lock request) (.take m request)
  | check (request : OtaRequest) : PcMove i x (.check request) (otaCheck i x request)
  | keepQueue (config : SnfOtaConfig) :
      x.eventQueue ≠ none → PcMove i x (.startQueue config) (.startInit config)
  | noQueue (config : SnfOtaConfig) : x.eventQueue = none →
      PcMove i x (.startQueue config) (.unlock (.start config) .errNoMemory)
  | sendFailed (request : OtaRequest) (event : SnfOtaEvent) (ret : SnfOtaRet) : ret ≠ .ok →
      PcMove i x (.send request event) (.unlock request ret)
  | run (t : ℕ) : i = .task t → t < x.taskCount → PcMove i x .created .receive
  | elapse : x.eventQueue = some [] → PcMove i x .receive .timeout
  | waitAgain : x.core.info.state ≠ .receiving → PcMove i x .timeout .receive
  | return (next : AfterNotify) : PcMove i x (.callback next) next.pc
  | restart : PcMove i x .reboot .receive
  | exitNoMutex : x.mutex = none → PcMove i x .exitLock .deleted
  | exitWait (m : ℕ) : x.mutex = some m → PcMove i x .exitLock (.exitTake m)

inductive OtaMove (sdk : Sdk G) (i : ThreadId) : OtaPc → OtaSystem G → OtaPc → OtaSystem G → Prop
  | pc {x : OtaSystem G} {p q : OtaPc} : PcMove i x p q → OtaMove sdk i p x q x
  | mutex (x : OtaSystem G) (config : SnfOtaConfig) :
      OtaMove sdk i (.createMutex config) x (.lock (.start config)) (x.createMutex true)
  | mutexFailed (x : OtaSystem G) (config : SnfOtaConfig) :
      OtaMove sdk i (.createMutex config) x (.idle (some .errNoMemory)) (x.createMutex false)
  | taken {x : OtaSystem G} (m : ℕ) (request : OtaRequest) : x.holder m = none →
      OtaMove sdk i (.take m request) x (.check request) (x.setHolder m (some i))
  | exitTaken {x : OtaSystem G} (m : ℕ) : x.holder m = none →
      OtaMove sdk i (.exitTake m) x .teardown (x.setHolder m (some i))
  | given {x y : OtaSystem G} (request : OtaRequest) (ret : SnfOtaRet) : otaUnlock i x = some y →
      OtaMove sdk i (.unlock request ret) x (.idle (some ret)) y
  | exitGiven {x y : OtaSystem G} : otaUnlock i x = some y → OtaMove sdk i .exitUnlock x .deleted y
  | prepare (x : OtaSystem G) (config : SnfOtaConfig) (sizeKnown : Bool) :
      OtaMove sdk i (.startPrepare config) x
        (if (snfOtaStartPrepare x config sizeKnown).1 = .ok then .startQueue config
          else .unlock (.start config) (snfOtaStartPrepare x config sizeKnown).1)
        (snfOtaStartPrepare x config sizeKnown).2
  | queue {x : OtaSystem G} (config : SnfOtaConfig) : x.eventQueue = none →
      OtaMove sdk i (.startQueue config) x (.startInit config) (x.setQueue (some []))
  | init (x : OtaSystem G) (config : SnfOtaConfig) :
      OtaMove sdk i (.startInit config) x (.startTask config) (snfOtaStartInit x config)
  | task (x : OtaSystem G) (config : SnfOtaConfig) :
      OtaMove sdk i (.startTask config) x (.unlock (.start config) .ok) (snfOtaStartTask i x config)
  | taskFailed (x : OtaSystem G) (config : SnfOtaConfig) :
      OtaMove sdk i (.startTask config) x (.unlock (.start config) .errNoMemory)
        (otaClearSessionLocked (x.setQueue none))
  | sent {x : OtaSystem G} {events : List SnfOtaEvent} (request : OtaRequest)
      (event : SnfOtaEvent) :
      x.eventQueue = some events →
      OtaMove sdk i (.send request event) x (afterSend request event .ok)
        (x.setQueue (some (events ++ [event])))
  | count (x : OtaSystem G) (request : OtaRequest) (len : ℕ) :
      OtaMove sdk i (.count request len) x (.unlock request .ok) (addQueued x len)
  | receive {x : OtaSystem G} {event : SnfOtaEvent} {rest : List SnfOtaEvent} :
      x.eventQueue = some (event :: rest) →
      OtaMove sdk i .receive x (.handle event) (x.setQueue (some rest))
  | waited {x : OtaSystem G} : x.core.info.state = .receiving →
      OtaMove sdk i .timeout x .receive (setTimeoutCount x (x.core.info.timeoutCount + 1))
  | timedOut {x : OtaSystem G} : x.core.info.state = .receiving →
      OtaMove sdk i .timeout x (.callback .exit)
        (otaNotify (setTimeoutCount x (x.core.info.timeoutCount + 1)) .failed .timeout)
  | data {x : OtaSystem G} {q : OtaPc} {y : OtaSystem G} (event : SnfOtaEvent) (bytes : List UInt8)
      (results : List OpResult) : event.id = .imageData → bytes.length = event.size →
      otaHandleDataEvent sdk x event bytes results = some (q, y) →
        OtaMove sdk i (.handle event) x q y
  | apply (x : OtaSystem G) (event : SnfOtaEvent) : event.id = .imageApply →
      OtaMove sdk i (.handle event) x (.callback (.commit event))
        (otaNotify (setTimeoutCount x 0) .apply .none)
  | abort (x : OtaSystem G) (event : SnfOtaEvent) : event.id = .abort →
      OtaMove sdk i (.handle event) x (.callback .exit)
        (otaNotify ((setTimeoutCount x 0).observe (.aborted x.session event)) .abort .aborted)
  | committed (x : OtaSystem G) (event : SnfOtaEvent) :
      OtaMove sdk i (.commit event) x (.callback .reboot)
        (otaNotify (x.observe (.committed x.session event true)) .success .none)
  | commitFailed (x : OtaSystem G) (event : SnfOtaEvent) :
      OtaMove sdk i (.commit event) x (.callback .exit)
        (otaNotify (x.observe (.committed x.session event false)) .failed .applyFailed)
  | teardown (x : OtaSystem G) : OtaMove sdk i .teardown x .exitUnlock (otaTaskTeardown x)

variable {sdk : Sdk G} {i : ThreadId} {p q : OtaPc} {x y : OtaSystem G} {label : OtaLabel}

theorem otaHandleTimeout_move (x : OtaSystem G) :
    OtaMove sdk i .timeout x (otaHandleTimeout x).1 (otaHandleTimeout x).2 := by
  unfold otaHandleTimeout
  split
  case isTrue hst =>
    exact .pc (.waitAgain hst)
  case isFalse hst =>
    dsimp only
    split
    · exact .waited (not_not.mp hst)
    · exact .timedOut (not_not.mp hst)

theorem otaQueueEventSend_move (request : OtaRequest) (event : SnfOtaEvent) (x : OtaSystem G) :
    OtaMove sdk i (.send request event) x (afterSend request event (otaQueueEventSend x event).1)
      (otaQueueEventSend x event).2 := by
  unfold otaQueueEventSend
  split
  · exact .pc (.sendFailed request event .errState (by simp))
  case h_2 events hq =>
    split
    · exact .sent request event hq
    · exact .pc (.sendFailed request event .errQueueFull (by simp))

theorem otaHandleCommit_move (x : OtaSystem G) (event : SnfOtaEvent) (success : Bool) :
    OtaMove sdk i (.commit event) x (otaHandleCommit x event success).1
      (otaHandleCommit x event success).2 := by
  cases success
  · exact .commitFailed x event
  · exact .committed x event

/-- The inversion of the step function. -/
theorem otaNext_move (h : otaNext sdk i p x label = some (q, y)) : OtaMove sdk i p x q y := by
  unfold otaNext at h
  split at h
  case h_1 ret call =>
    split at h <;> cases h
    exact .pc (.invoke ret call ‹_›)
  case h_2 call _ =>
    split at h
    · cases h
      exact .pc (.refuse call _ ‹_›)
    case h_2 config hcall =>
      split at h <;> cases h
      · exact .pc (.first call config hcall ‹_›)
      · exact .pc (.request call _ hcall)
    · cases h
      exact .pc (.request call _ ‹_›)
  case h_3 config success =>
    cases success <;> cases h
    · exact .mutexFailed x config
    · exact .mutex x config
  case h_4 request _ =>
    split at h <;> cases h
    · exact .pc (.noMutex request)
    · exact .pc (.wait request _ ‹_›)
  case h_5 m request _ =>
    split at h <;> cases h
    exact .taken m request ‹_›
  case h_6 request _ =>
    cases h
    exact .pc (.check request)
  case h_7 config success =>
    cases h
    exact .prepare x config success
  case h_8 config success =>
    split at h
    case isTrue =>
      cases h
      exact .pc (.keepQueue config ‹_›)
    case isFalse hq =>
      split at h <;> cases h
      · exact .queue config (not_not.mp hq)
      · exact .pc (.noQueue config (not_not.mp hq))
  case h_9 config _ =>
    cases h
    exact .init x config
  case h_10 config success =>
    split at h
    · cases h
      exact .task x config
    · split at h <;> cases h
      exact .taskFailed x config
  case h_11 request event _ =>
    cases h
    exact otaQueueEventSend_move request event x
  case h_12 request len _ =>
    cases h
    exact .count x request len
  case h_13 request ret _ =>
    obtain ⟨z,hz,hr⟩ := Option.map_eq_some_iff.mp h
    cases hr
    exact .given request ret hz
  case h_14 =>
    split at h
    · split at h <;> cases h
      exact .pc (.run _ rfl ‹_›)
    · cases h
  case h_15 =>
    split at h <;> cases h
    exact .receive ‹_›
  case h_16 =>
    split at h <;> cases h
    exact .pc (.elapse ‹_›)
  case h_17 =>
    have hmove := @otaHandleTimeout_move _ sdk i x
    rwa [Option.some.inj h] at hmove
  case h_18 event bytes results =>
    split at h
    case isTrue hc =>
      exact .data event bytes results hc.1 hc.2 h
    case isFalse => cases h
  case h_19 event _ =>
    split at h <;> cases h
    · exact .apply x event ‹_›
    · exact .abort x event ‹_›
  case h_20 next _ =>
    cases h
    exact .pc (.return next)
  case h_21 event success =>
    have hmove := @otaHandleCommit_move _ sdk i x event success
    rwa [Option.some.inj h] at hmove
  case h_22 =>
    cases h
    exact .pc .restart
  case h_23 =>
    split at h <;> cases h
    · exact .pc (.exitNoMutex ‹_›)
    · exact .pc (.exitWait _ ‹_›)
  case h_24 m _ =>
    split at h <;> cases h
    exact .exitTaken m ‹_›
  case h_25 =>
    cases h
    exact .teardown x
  case h_26 =>
    obtain ⟨z,hz,hr⟩ := Option.map_eq_some_iff.mp h
    cases hr
    exact .exitGiven hz
  case h_27 => cases h

def OtaPc.critical : OtaPc → Bool
  | .check _ | .startPrepare _ | .startQueue _ | .startInit _ | .startTask _ | .send _ _ | .count _
      _
  | .unlock _ _ | .teardown | .exitUnlock => true
  | _ => false

def OtaPc.waits : OtaPc → Option ℕ
  | .take m _ => some m
  | .exitTake m => some m
  | _ => none

def otaMutex (G : Type) : Lock ThreadId OtaPc (OtaSystem G) ℕ where
  stored := OtaSystem.mutex
  holder := OtaSystem.holder
  critical := fun pc => pc.critical = true
  waits := OtaPc.waits

def OtaPc.createsMutex : OtaPc → Bool
  | .createMutex _ => true
  | _ => false

/-- No `snfOtaStart` stores a mutex over an already stored one. -/
def keepsMutex (s : OtaState G) (label : ThreadId × OtaLabel) : Prop :=
  (s.pcs label.1).createsMutex = true → s.shared.mutex = none

instance (s : OtaState G) (label : ThreadId × OtaLabel) : Decidable (keepsMutex s label) := by
  unfold keepsMutex
  infer_instance

structure SameSession (x y : OtaSystem G) : Prop where
  taskHandle : y.taskHandle = x.taskHandle
  eventQueue : y.eventQueue = x.eventQueue
  core : y.core = x.core
  taskCount : y.taskCount = x.taskCount
  session : y.session = x.session
  history : y.history = x.history

theorem SameSession.refl (x : OtaSystem G) : SameSession x x := ⟨rfl,rfl,rfl,rfl,rfl,rfl⟩

theorem otaUnlock_sameSession (h : otaUnlock i x = some y) : SameSession x y := by
  unfold otaUnlock at h
  split at h
  · cases h
    exact .refl x
  · split at h
    · cases h
      exact ⟨rfl,rfl,rfl,rfl,rfl,rfl⟩
    · split at h <;> cases h
      exact .refl x

/-- The run information after a data event, up to its notification. -/
def handledInfo (info : SnfOtaInfo) (received nextErase : ℕ) : SnfOtaInfo :=
  { info with receivedSize := received, nextEraseOffset := nextErase, timeoutCount := 0 }

inductive EventResult (x : OtaSystem G) (event : SnfOtaEvent) (bytes : List UInt8) :
    OtaCore G → OtaOutcome → Prop
  | refused {core : OtaCore G} : (¬Continues x.core.info ⟨event.offset, some bytes⟩ bytes) →
      core.config = x.core.config → core.parser = x.core.parser →
        core.flash.log = x.core.flash.log →
      core.info = handledInfo x.core.info x.core.info.receivedSize x.core.info.nextEraseOffset →
      EventResult x event bytes core refusal
  | failed {core : OtaCore G} (error : SnfOtaErrorCode) (nextErase : ℕ) :
      Continues x.core.info ⟨event.offset, some bytes⟩ bytes → core.config = x.core.config →
      core.info = handledInfo x.core.info x.core.info.receivedSize nextErase →
      EventResult x event bytes core ⟨.failed, error, -1⟩
  | accepted {core : OtaCore G} (nextErase : ℕ) :
      Continues x.core.info ⟨event.offset, some bytes⟩ bytes →
      core.config = x.core.config → (x.core.flash.Succeeded → core.flash.Succeeded) →
      core.info = handledInfo x.core.info (u32Add x.core.info.receivedSize bytes.length) nextErase →
      EventResult x event bytes core (acceptedOutcome core)

/-- The inversion of a data event's step. -/
theorem otaHandleDataEvent_result {event : SnfOtaEvent} {bytes : List UInt8}
    {results : List OpResult} (h : otaHandleDataEvent sdk x event bytes results = some (q, y)) :
    ∃ core out, EventResult x event bytes core out
      ∧ q = .callback (if out.ret = 0 then .receive else .exit)
      ∧ y = otaNotify ((x.observe (.consumed x.session event bytes)).setCore core) out.state
        out.errorCode := by
  unfold otaHandleDataEvent at h
  obtain ⟨r,hr,he⟩ := Option.map_eq_some_iff.mp h
  cases he
  refine ⟨r.1, r.2, ?_, rfl, rfl⟩
  have hcont : ∀ {data : List UInt8}, Continues { x.core.info with timeoutCount := 0 }
    ⟨event.offset, some bytes⟩ data →
      data = bytes ∧ Continues x.core.info ⟨event.offset, some bytes⟩ bytes := by
    intro data hc
    have hd : data = bytes := (Option.some.inj hc.bytes).symm
    subst hd
    exact ⟨rfl, hc.receiving, hc.bytes, hc.nonempty, hc.offset, hc.fits⟩
  obtain ⟨core,out⟩ := r
  have hres := otaHandleData_result hr
  generalize hcore₀ : OtaCore.setFlash _ _ = core₀ at hres
  have hinfo₀ : core₀.info = { x.core.info with timeoutCount := 0 } := by rw [← hcore₀]; rfl
  have hconf₀ : core₀.config = x.core.config := by rw [← hcore₀]; rfl
  have hsucc₀ : x.core.flash.Succeeded → core₀.flash.Succeeded := by rw [← hcore₀]; exact id
  have hpar₀ : core₀.parser = x.core.parser := by rw [← hcore₀]; rfl
  have hlog₀ : core₀.flash.log = x.core.flash.log := by rw [← hcore₀]; rfl
  cases hres with
  | refused hno =>
    rw [hinfo₀] at hno
    refine .refused (fun hc => hno bytes ?_) hconf₀ hpar₀ hlog₀ hinfo₀
    exact ⟨hc.receiving, hc.bytes, hc.nonempty, hc.offset, hc.fits⟩
  | @failed data w hc himg hne =>
    rw [hinfo₀] at hc
    have hframe := otaHandleImage_frame himg
    refine .failed _ w.2.info.nextEraseOffset (hcont hc).2 (hframe.config.trans hconf₀) ?_
    rw [hframe.info, hinfo₀]
    rfl
  | @accepted data w hc himg hok =>
    rw [hinfo₀] at hc
    obtain ⟨rfl,hc'⟩ := hcont hc
    have hframe := otaHandleImage_frame himg
    refine .accepted w.2.info.nextEraseOffset hc' (hframe.config.trans hconf₀) (fun h =>
      hframe.succeeded hok (hsucc₀ h)) ?_
    simp only [OtaCore.addReceived]
    rw [hframe.info, hinfo₀]
    rfl

theorem afterSend_critical (request : OtaRequest) (event : SnfOtaEvent) (ret : SnfOtaRet) :
    (afterSend request event ret).critical = true ∧ (afterSend request event ret).waits = none := by
  unfold afterSend
  split <;> exact ⟨rfl, rfl⟩

theorem otaCheck_critical (i : ThreadId) (x : OtaSystem G) (request : OtaRequest) :
    (otaCheck i x request).critical = true ∧ (otaCheck i x request).waits = none := by
  unfold otaCheck
  cases request <;> dsimp only <;> repeat (split; exact ⟨rfl, rfl⟩)
  all_goals exact ⟨rfl, rfl⟩

theorem AfterNotify.pc_critical (next : AfterNotify) :
    next.pc.critical = false ∧ next.pc.waits = none := by
  cases next <;> exact ⟨rfl, rfl⟩

theorem disciplined_outside (hm : y.mutex = x.mutex) (hh : y.holder = x.holder)
    (hc : q.critical = p.critical)
    (hw : ∀ m, q.waits = some m → x.mutex = some m) : (otaMutex G).Disciplined i p x q y :=
  .outside hm hh (by simp only [otaMutex, hc]) hw

theorem PcMove.disciplined (h : PcMove i x p q) : (otaMutex G).Disciplined i p x q x := by
  cases h with
  | wait request m hm => exact disciplined_outside rfl rfl rfl (fun n hn => hn ▸ hm)
  | exitWait m hm => exact disciplined_outside rfl rfl rfl (fun n hn => hn ▸ hm)
  | check request =>
    obtain ⟨hc,hw⟩ := otaCheck_critical i x request
    exact disciplined_outside rfl rfl hc (by rw [hw]; exact nofun)
  | «return» next =>
    obtain ⟨hc,hw⟩ := next.pc_critical
    exact disciplined_outside rfl rfl hc (by rw [hw]; exact nofun)
  | _ => exact disciplined_outside rfl rfl rfl nofun

theorem otaUnlock_owned {m : ℕ} (hm : x.mutex = some m) (hi : x.holder m = some i) :
    otaUnlock i x = some (x.setHolder m none) := by
  simp only [otaUnlock, hm, hi, if_true]

theorem snfOtaStartPrepare_mutex (x : OtaSystem G) (config : SnfOtaConfig) (sizeKnown : Bool) :
    (snfOtaStartPrepare x config sizeKnown).2.mutex = x.mutex
      ∧ (snfOtaStartPrepare x config sizeKnown).2.holder = x.holder := by
  unfold snfOtaStartPrepare
  split
  · exact ⟨rfl, rfl⟩
  · split
    · exact ⟨rfl, rfl⟩
    · split <;> exact ⟨rfl, rfl⟩

variable {s : OtaState G}

/-- Every step within the guard follows the discipline. -/
theorem OtaMove.disciplined (h : OtaMove sdk i (s.pcs i) s.shared q y)
    (howned : (otaMutex G).Owned s)
    (hkeep : (s.pcs i).createsMutex = true → s.shared.mutex = none) :
    (otaMutex G).Disciplined i (s.pcs i) s.shared q y := by
  have hcrit := howned.critical i
  simp only [otaMutex] at hcrit
  generalize s.pcs i = p at *
  generalize s.shared = x at *
  cases h with
  | pc hpc => exact hpc.disciplined
  | mutex x config =>
    refine @Lock.Disciplined.create _ _ _ _ (otaMutex G) i _ x _ _ x.mutexCount (hkeep rfl) rfl ?_
      nofun rfl
    exact if_pos rfl
  | mutexFailed x config => exact disciplined_outside (hkeep rfl).symm rfl rfl nofun
  | @taken x m request hfree =>
    exact @Lock.Disciplined.acquire _ _ _ _ (otaMutex G) i _ x _ _ m rfl hfree (if_pos rfl) rfl rfl
      rfl
  | @exitTaken x m hfree =>
    exact @Lock.Disciplined.acquire _ _ _ _ (otaMutex G) i _ x _ _ m rfl hfree (if_pos rfl) rfl rfl
      rfl
  | @given x y request ret hu =>
    obtain ⟨m,hm,hi⟩ := hcrit.mp rfl
    rw [otaUnlock_owned hm hi] at hu
    cases hu
    exact @Lock.Disciplined.release _ _ _ _ (otaMutex G) i _ x _ _ m rfl hm (if_pos rfl) rfl nofun
      rfl
  | @exitGiven x y hu =>
    obtain ⟨m,hm,hi⟩ := hcrit.mp rfl
    rw [otaUnlock_owned hm hi] at hu
    cases hu
    exact @Lock.Disciplined.release _ _ _ _ (otaMutex G) i _ x _ _ m rfl hm (if_pos rfl) rfl nofun
      rfl
  | prepare x config sizeKnown =>
    obtain ⟨hm,hh⟩ := snfOtaStartPrepare_mutex x config sizeKnown
    split <;> exact disciplined_outside hm hh rfl nofun
  | sent request event _ =>
    obtain ⟨hc,hw⟩ := afterSend_critical request event .ok
    exact disciplined_outside rfl rfl hc (by rw [hw]; exact nofun)
  | data event bytes results _ _ hd =>
    obtain ⟨core,out,_,rfl,rfl⟩ := otaHandleDataEvent_result hd
    exact disciplined_outside rfl rfl rfl nofun
  | _ => exact disciplined_outside rfl rfl rfl nofun

theorem otaBoot_owned (flash : Flash) : (otaMutex G).Owned (otaBoot G flash) := by
  refine ⟨fun i => ?_, fun i m hm => ?_⟩ <;> cases i
  · exact iff_of_false nofun nofun
  · exact iff_of_false nofun nofun
  · cases hm
  · cases hm

/-- In every run within the guard the mutex protects its critical section. -/
theorem reach_owned {flash : Flash} (h : Reach (otaStep sdk) keepsMutex (otaBoot G flash) s) :
    (otaMutex G).Owned s := by
  refine h.invariant (otaBoot_owned flash) ?_
  rintro s ⟨i,label⟩ t hs hok hstep
  obtain ⟨r,hr,rfl⟩ := step_some hstep
  exact hs.move ((otaNext_move hr).disciplined hs hok)

end Sonoff.Ota
