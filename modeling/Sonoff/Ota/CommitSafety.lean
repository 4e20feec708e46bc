import Sonoff.Ota.QueueAccounting

/-! # Only a verified session commits

An APPLY event is admitted in a verified session. From its admission to its
commit the session stays verified and complete, whatever else is called.
-/
namespace Sonoff.Ota
open Bytes AesGcm NorFlash OtaParse Threads Machine

variable {G : Type}

/-- The session is complete, its flash operations succeeded and its verification
has succeeded. -/
structure Sealed (x : OtaSystem G) : Prop where
  verified : Verified x.core
  succeeded : x.core.flash.Succeeded
  notified : ∃ callback data, Observation.notified x.session callback .verifySuccess data ∈
    x.history

/-- The event was admitted in this session, after its verification, and nothing
has changed since. -/
structure Committable (x : OtaSystem G) (event : SnfOtaEvent) : Prop where
  sealed : Sealed x
  state : x.core.info.state ≠ .receiving
  session : event.session = x.session
  admitted : event.admitted = .verifySuccess

def OtaPc.applies : OtaPc → Option SnfOtaEvent
  | .send _ event => if event.id = .imageApply then some event else none
  | .handle event => if event.id = .imageApply then some event else none
  | .callback (.commit event) => some event
  | .commit event => some event
  | _ => none

def verifiedState (state : SnfOtaState) : Bool := state == .verifySuccess || state == .apply ||
    state == .success

structure CommitInvariant (s : OtaState G) : Prop where
  sealed : verifiedState s.shared.core.info.state = true → Sealed s.shared
  receiving : s.shared.taskHandle ≠ none → s.shared.core.info.state = .receiving →
    s.shared.core.flash.Succeeded
  queued : ∀ events, s.shared.eventQueue = some events → ∀ event ∈ events, event.id = .imageApply →
    Committable s.shared event
  held : ∀ i event, (s.pcs i).applies = some event → Committable s.shared event

structure SameSeal (x y : OtaSystem G) : Prop where
  config : y.core.config = x.core.config
  parser : y.core.parser = x.core.parser
  received : y.core.info.receivedSize = x.core.info.receivedSize
  total : y.core.info.totalSize = x.core.info.totalSize
  log : y.core.flash.log = x.core.flash.log
  session : y.session = x.session
  history : ∀ o ∈ x.history, o ∈ y.history

variable {sdk : Sdk G} {s : OtaState G} {i j : ThreadId} {p q : OtaPc} {x y : OtaSystem G} {t : ℕ}
  {event : SnfOtaEvent}

theorem SameSession.sameSeal (h : SameSession x y) : SameSeal x y :=
  ⟨by rw [h.core], by rw [h.core], by rw [h.core], by rw [h.core], by rw [h.core], h.session,
    fun o ho => by rwa [h.history]⟩

theorem Sealed.same (h : SameSeal x y) (hs : Sealed x) : Sealed y := by
  obtain ⟨⟨hall,hpass⟩,hsucc,callback,data,hmem⟩ := hs
  refine ⟨⟨?_, ?_⟩, ?_, callback, data, ?_⟩
  · rw [h.received, h.total]
    exact hall
  · rw [h.config, h.parser]
    exact hpass
  · intro e he
    rw [h.log] at he
    exact hsucc e he
  · rw [h.session]
    exact h.history _ hmem

theorem Committable.same (h : SameSeal x y) (hst : y.core.info.state ≠ .receiving)
    (hc : Committable x event) : Committable y event :=
  ⟨hc.sealed.same h, hst, hc.session.trans h.session.symm, hc.admitted⟩

theorem applies_move {P : SnfOtaEvent → Prop} (hq : ∀ event, q.applies = some event → P event)
    (hj : ∀ j, j ≠ i → ∀ event, (s.pcs j).applies = some event → P event) (j : ThreadId)
    (event : SnfOtaEvent) : ((s.move i (q, y)).pcs j).applies = some event → P event :=
  Config.move_forall (fun _ (p : OtaPc) => ∀ event, p.applies = some event → P event) hq hj j event

/-- Whoever has an APPLY event in hand is the task or in the critical section. -/
theorem Asserted.applies (h : Asserted i p x) (ha : p.applies = some event) :
    x.taskHandle ≠ none ∧ (p.critical = true ∨ p.live = true) := by
  have hlive : p.live = true → x.taskHandle ≠ none := by
    intro hl
    obtain ⟨t,_,ht⟩ := h.of_live hl
    simp [ht]
  cases p with
  | send request e => exact ⟨h.1, Or.inl rfl⟩
  | handle e => exact ⟨hlive rfl, Or.inr rfl⟩
  | callback next => exact ⟨hlive rfl, Or.inr rfl⟩
  | commit e => exact ⟨hlive rfl, Or.inr rfl⟩
  | _ => cases ha

section Steps
variable (hinv : CommitInvariant s)
include hinv

/-- The steps that leave the session sealed as it is, or advance a verified one. -/
theorem CommitInvariant.steer (hseal : SameSeal s.shared y)
    (hqueue : ∀ events, y.eventQueue = some events →
      ∀ event ∈ events, event.id = .imageApply → Committable s.shared event)
    (hq : ∀ event, q.applies = some event → Committable s.shared event)
    (hsealed : verifiedState y.core.info.state = true → Sealed s.shared)
    (hreceiving : y.core.info.state = .receiving → s.shared.core.info.state = .receiving)
    (hhandle : y.taskHandle = s.shared.taskHandle)
    (hstate : s.shared.core.info.state ≠ .receiving → y.core.info.state ≠ .receiving) :
    CommitInvariant (s.move i (q, y)) := by
  refine ⟨fun hv => (hsealed hv).same hseal, ?_, ?_, ?_⟩
  · intro hne hst
    rw [Config.move_shared, hhandle] at hne
    intro e he
    rw [Config.move_shared, hseal.log] at he
    exact hinv.receiving hne (hreceiving hst) e he
  · intro events hev event he hid
    have hc := hqueue events hev event he hid
    exact hc.same hseal (hstate hc.state)
  · exact applies_move (fun event ha => (hq event ha).same hseal (hstate (hq event ha).state))
      (fun j _ event ha => (hinv.held j event ha).same hseal (hstate (hinv.held j event ha).state))

/-- While input is received no APPLY event is about. -/
theorem CommitInvariant.receiving_none (hst : s.shared.core.info.state = .receiving) :
    (∀ events, s.shared.eventQueue = some events → ∀ event ∈ events, event.id ≠ .imageApply)
      ∧ ∀ i, (s.pcs i).applies = none := by
  refine ⟨fun events hev event he hid => (hinv.queued events hev event he hid).state hst, fun i =>
    ?_⟩
  cases ha : (s.pcs i).applies with
  | none => rfl
  | some event => exact absurd hst (hinv.held i event ha).state

/-- The end of the reception. -/
theorem CommitInvariant.received (hst : s.shared.core.info.state = .receiving)
    (hqueue : y.eventQueue = s.shared.eventQueue)
    (hq : q.applies = none) (hsealed : verifiedState y.core.info.state = true → Sealed y)
    (hsucc : y.core.info.state = .receiving → y.core.flash.Succeeded) :
    CommitInvariant (s.move i (q, y)) := by
  obtain ⟨hnoq,hnoh⟩ := hinv.receiving_none hst
  refine ⟨hsealed, fun _ => hsucc, ?_, ?_⟩
  · intro events hev event he hid
    rw [Config.move_shared, hqueue] at hev
    exact absurd hid (hnoq events hev event he)
  · refine applies_move (fun event ha => ?_) (fun j _ event ha => ?_)
    · rw [hq] at ha
      cases ha
    · rw [hnoh j] at ha
      cases ha

end Steps

/-- Without a session no APPLY event is about. -/
theorem CommitInvariant.idle (hqueue : y.eventQueue = none ∨ y.eventQueue = some [])
    (hq : q.applies = none) (hothers : ∀ j, j ≠ i → (s.pcs j).applies = none)
    (hstate : verifiedState y.core.info.state = false)
    (hsucc : y.taskHandle ≠ none → y.core.flash.Succeeded) : CommitInvariant (s.move i (q, y)) := by
  refine ⟨fun hv => ?_, fun hne _ => hsucc hne, ?_, ?_⟩
  · rw [Config.move_shared, hstate] at hv
    cases hv
  · intro events hev event he
    rw [Config.move_shared] at hev
    rcases hqueue with hn | hn <;> rw [hn] at hev <;> cases hev
    cases he
  · refine applies_move (fun event ha => ?_) (fun j hj event ha => ?_)
    · rw [hq] at ha
      cases ha
    · rw [hothers j hj] at ha
      cases ha

theorem applies_none_of_handle (ha : ∀ j, Asserted j (s.pcs j) s.shared)
    (hno : s.shared.taskHandle = none) (j : ThreadId) : (s.pcs j).applies = none := by
  cases h : (s.pcs j).applies with
  | none => rfl
  | some event => exact absurd hno ((ha j).applies h).1

theorem otaCheck_applies {request : OtaRequest} (h : (otaCheck i x request).applies = some event) :
    x.core.info.state = .verifySuccess ∧ event.session = x.session ∧
      event.admitted = .verifySuccess := by
  unfold otaCheck at h
  cases request with
  | apply =>
    dsimp only at h
    split at h
    · cases h
    · split at h
      case isTrue => cases h
      case isFalse hst =>
        cases h
        exact ⟨not_not.mp hst, rfl, not_not.mp hst⟩
  | start config =>
    dsimp only at h
    split at h <;> cases h
  | write offset data len =>
    dsimp only at h
    split at h
    · cases h
    · split at h <;> cases h
  | abort =>
    dsimp only at h
    split at h <;> cases h

theorem afterSend_applies (request : OtaRequest) (event : SnfOtaEvent) :
    (afterSend request event .ok).applies = none := by
  unfold afterSend
  split <;> rfl

theorem PcMove.applies (h : PcMove i s.shared (s.pcs i) q) (hinv : CommitInvariant s)
    (hq : q.applies = some event) : Committable s.shared event := by
  have hheld := hinv.held i
  generalize s.pcs i = p at *
  cases h with
  | check request =>
    obtain ⟨hst,hsession,hadm⟩ := otaCheck_applies hq
    exact ⟨hinv.sealed (by rw [hst]; rfl), by rw [hst]; exact nofun, hsession, hadm⟩
  | «return» next =>
    cases next with
    | commit e => exact hheld event hq
    | _ => cases hq
  | _ => cases hq

theorem CommitInvariant.same (hinv : CommitInvariant s) (hs : SameSession s.shared y)
    (hq : ∀ event, q.applies = some event → Committable s.shared event) :
    CommitInvariant (s.move i (q, y)) :=
  hinv.steer hs.sameSeal (fun events hev => hinv.queued events (hs.eventQueue ▸ hev)) hq
    (fun h => hinv.sealed (by rwa [hs.core] at h)) (fun h => by rwa [hs.core] at h) hs.taskHandle
    (fun h => by rwa [hs.core])

theorem commitInvariant_data {bytes : List UInt8} {results : List OpResult}
    (hinv : CommitInvariant s)
    (hd : otaHandleDataEvent sdk s.shared event bytes results = some (q, y))
    (hhandle : s.shared.taskHandle ≠ none) : CommitInvariant (s.move i (q, y)) := by
  obtain ⟨core,out,hres,rfl,rfl⟩ := otaHandleDataEvent_result hd
  have hnone : (OtaPc.callback (if out.ret = 0 then .receive else .exit)).applies = none := by
    split <;> rfl
  cases hres with
  | refused hno hconf hpar hlog hinfo =>
    refine hinv.steer ⟨hconf, hpar, ?_, ?_, hlog, rfl, fun o ho => ?_⟩ hinv.queued ?_ nofun
      nofun rfl nofun
    · show core.info.receivedSize = _
      rw [hinfo]
      rfl
    · show core.info.totalSize = _
      rw [hinfo]
      rfl
    · exact List.mem_cons_of_mem _ (List.mem_cons_of_mem _ ho)
    · intro e he
      rw [hnone] at he
      cases he
  | failed error nextErase hc _ _ => exact hinv.received hc.receiving rfl hnone nofun nofun
  | accepted nextErase hc hconf hsucc hinfo =>
    have hs := hsucc (hinv.receiving hhandle hc.receiving)
    refine hinv.received hc.receiving rfl hnone ?_ (fun _ => hs)
    intro hv
    rcases acceptedOutcome_cases core with ⟨_,hout⟩ | ⟨hver,hout⟩ | ⟨_,error,hout⟩
    · rw [hout] at hv
      cases hv
    · rw [hout]
      exact ⟨hver, hs, _, _, List.mem_cons_self⟩
    · rw [hout] at hv
      cases hv

/-- The step lemma of the commit invariant. -/
theorem OtaMove.commitInvariant (h : OtaMove sdk i (s.pcs i) s.shared q y)
    (howned : (otaMutex G).Owned s)
    (ha : ∀ j, Asserted j (s.pcs j) s.shared) (hinv : CommitInvariant s) :
    CommitInvariant (s.move i (q, y)) := by
  have hi := ha i
  have hheld := hinv.held i
  have htask : (s.pcs i).live = true → ∃ t, i = .task t ∧ s.shared.taskHandle = some t := hi.of_live
  generalize hp : s.pcs i = p at h hi hheld htask
  generalize hx : s.shared = x at h hi
  cases h with
  | pc hpc =>
    subst hx
    subst hp
    exact hinv.same (.refl _) (fun event hq => hpc.applies hinv hq)
  | mutex x config =>
    subst hx
    exact hinv.same ⟨rfl,rfl,rfl,rfl,rfl,rfl⟩ (fun _ h => nomatch h)
  | mutexFailed x config =>
    subst hx
    exact hinv.same ⟨rfl,rfl,rfl,rfl,rfl,rfl⟩ (fun _ h => nomatch h)
  | taken m request _ =>
    subst hx
    exact hinv.same ⟨rfl,rfl,rfl,rfl,rfl,rfl⟩ (fun _ h => nomatch h)
  | exitTaken m _ =>
    subst hx
    exact hinv.same ⟨rfl,rfl,rfl,rfl,rfl,rfl⟩ (fun _ h => nomatch h)
  | given request ret hu =>
    subst hx
    exact hinv.same (otaUnlock_sameSession hu) (fun _ h => nomatch h)
  | exitGiven hu =>
    subst hx
    exact hinv.same (otaUnlock_sameSession hu) (fun _ h => nomatch h)
  | prepare x config sizeKnown =>
    subst hx
    have hno : s.shared.taskHandle = none := hi.taskHandle
    have hframe := (snfOtaStartPrepare_frame s.shared config sizeKnown).1
    refine .idle (Or.inl ?_) (by split <;> rfl) (fun j _ => applies_none_of_handle ha hno j) ?_
      (fun hne => absurd (hframe.trans hno) hne)
    · rcases snfOtaStartPrepare_result s.shared config sizeKnown hi with ⟨_,hr⟩ | ⟨_,hr⟩ <;>
        exact hr.eventQueue
    · rcases snfOtaStartPrepare_result s.shared config sizeKnown hi with ⟨_,hr⟩ | ⟨_,hr⟩ <;>
        rw [hr.info] <;> rfl
  | queue config _ =>
    subst hx
    have hno : s.shared.taskHandle = none := hi.taskHandle
    exact .idle (Or.inr rfl) rfl (fun j _ => applies_none_of_handle ha hno j)
      (by rw [show (s.shared.setQueue (some [])).core = s.shared.core from rfl, hi.info]; rfl)
      (fun hne => absurd hno hne)
  | init x config =>
    subst hx
    have hno : s.shared.taskHandle = none := hi.taskHandle
    exact .idle (Or.inr hi.eventQueue) rfl (fun j _ => applies_none_of_handle ha hno j) rfl
      (fun hne => absurd hno hne)
  | task x config =>
    subst hx
    obtain ⟨hno,hfresh⟩ := hi
    refine .idle (Or.inr hfresh.eventQueue) rfl (fun j _ => applies_none_of_handle ha hno j) ?_
      (fun _ e he => ?_)
    · show verifiedState s.shared.core.info.state = false
      rw [hfresh.info]
      rfl
    · have he : e ∈ s.shared.core.flash.log := he
      rw [hfresh.log] at he
      cases he
  | taskFailed x config =>
    subst hx
    exact .idle (Or.inl rfl) rfl (fun j _ => applies_none_of_handle ha hi.1 j) rfl (fun hne =>
      absurd rfl hne)
  | teardown x =>
    subst hx
    obtain ⟨t,rfl,ht⟩ := htask rfl
    refine .idle (Or.inl rfl) rfl (fun j hj => ?_) rfl (fun hne => absurd rfl hne)
    cases hap : (s.pcs j).applies with
    | none => rfl
    | some event =>
      rcases ((ha j).applies hap).2 with hcrit | hlive
      · exact absurd (howned.exclusive hcrit
          (show (s.pcs (.task t)).critical = true by rw [hp]; rfl)) hj
      · obtain ⟨u,hju,hu⟩ := (ha j).of_live hlive
        rw [ht] at hu
        cases hu
        exact absurd hju hj
  | @sent x events request event hq =>
    subst hx
    refine hinv.steer ⟨rfl,rfl,rfl,rfl,rfl,rfl,fun _ h => h⟩ ?_ ?_ hinv.sealed id rfl id
    · intro events' hev e he hid
      cases hev
      rcases List.mem_append.mp he with he | he
      · exact hinv.queued events hq e he hid
      · cases List.mem_singleton.mp he
        exact hheld _ (if_pos hid)
    · intro e he
      rw [afterSend_applies] at he
      cases he
  | count x request len =>
    subst hx
    exact hinv.steer ⟨rfl,rfl,rfl,rfl,rfl,rfl,fun _ h => h⟩ hinv.queued (fun _ h => nomatch h)
      hinv.sealed id rfl id
  | @receive x event rest hq =>
    subst hx
    refine hinv.steer ⟨rfl,rfl,rfl,rfl,rfl,rfl,fun _ h => h⟩ ?_ ?_ hinv.sealed id rfl id
    · intro events hev e he
      cases hev
      exact hinv.queued _ hq e (List.mem_cons_of_mem _ he)
    · intro e he
      simp only [OtaPc.applies, Option.ite_none_right_eq_some, Option.some.injEq] at he
      obtain ⟨hid,rfl⟩ := he
      exact hinv.queued _ hq event List.mem_cons_self hid
  | waited hst =>
    subst hx
    exact hinv.steer ⟨rfl,rfl,rfl,rfl,rfl,rfl,fun _ h => h⟩ hinv.queued (fun _ h => nomatch h)
      hinv.sealed id rfl id
  | timedOut hst =>
    subst hx
    exact hinv.received hst rfl rfl nofun nofun
  | data event bytes results hid hlen hd =>
    subst hx
    obtain ⟨t,_,ht⟩ := htask rfl
    exact commitInvariant_data hinv hd (by simp [ht])
  | apply x event hid =>
    subst hx
    have hc := hheld event (if_pos hid)
    exact hinv.steer ⟨rfl,rfl,rfl,rfl,rfl,rfl,fun _ h => List.mem_cons_of_mem _ h⟩ hinv.queued
      (fun e he => by cases he; exact hc) (fun _ => hc.sealed) nofun rfl nofun
  | abort x event _ =>
    subst hx
    exact hinv.steer
      ⟨rfl,rfl,rfl,rfl,rfl,rfl,fun _ h => List.mem_cons_of_mem _ (List.mem_cons_of_mem _ h)⟩
      hinv.queued (fun _ h => nomatch h) nofun nofun rfl nofun
  | committed x event =>
    subst hx
    have hc := hheld event rfl
    exact hinv.steer
      ⟨rfl,rfl,rfl,rfl,rfl,rfl,fun _ h => List.mem_cons_of_mem _ (List.mem_cons_of_mem _ h)⟩
      hinv.queued (fun _ h => nomatch h) (fun _ => hc.sealed) nofun rfl nofun
  | commitFailed x event =>
    subst hx
    exact hinv.steer
      ⟨rfl,rfl,rfl,rfl,rfl,rfl,fun _ h => List.mem_cons_of_mem _ (List.mem_cons_of_mem _ h)⟩
      hinv.queued (fun _ h => nomatch h) nofun nofun rfl nofun

theorem otaBoot_commitInvariant (flash : Flash) : CommitInvariant (otaBoot G flash) := by
  refine ⟨nofun, fun hne => absurd rfl hne, nofun, fun i event h => ?_⟩
  cases i <;> cases h

theorem reach_commitInvariant {flash : Flash}
    (h : Reach (otaStep sdk) keepsMutex (otaBoot G flash) s) :
    CommitInvariant s := by
  refine @Reach.invariant_of _ _ _ _ _ CommitInvariant
    (fun s => (otaMutex G).Owned s ∧ ∀ i, Asserted i (s.pcs i) s.shared)
    (fun s hs => ⟨reach_owned hs, (reach_asserted hs).2⟩) (otaBoot_commitInvariant flash) ?_ s h
  rintro s ⟨i,label⟩ t ⟨howned,ha⟩ hinv _ hstep
  obtain ⟨r,hr,rfl⟩ := step_some hstep
  exact (otaNext_move hr).commitInvariant howned ha hinv

/-- The commit is only executed in a session that has received all its input,
all of whose erases and writes succeeded, whose verification has succeeded, and
for an event admitted in this session after that. -/
theorem commit_safe {flash : Flash} (h : Reach (otaStep sdk) keepsMutex (otaBoot G flash) s)
    (hi : s.pcs i = .commit event) : Committable s.shared event :=
  (reach_commitInvariant h).held i event (by rw [hi]; rfl)

def calls (i : ThreadId) (call : OtaCall) (n : ℕ) :
    List (ThreadId × OtaLabel) := (i, .invoke call) :: proceeds i n

def firstSession : List (ThreadId × OtaLabel) :=
  calls (.client 0) (.start (some rawByte)) 10 ++ proceeds (.task 0) 1

def writtenByte : List (ThreadId × OtaLabel) :=
  calls (.client 0) (.write 0 (some 1) 1) 7 ++ proceeds (.task 0) 1 ++ (.task 0, .process [7] []) ::
    proceeds (.task 0) 1

def appliedByte : List (ThreadId × OtaLabel) :=
  firstSession ++ writtenByte ++ calls (.client 0) .apply 6 ++ proceeds (.task 0) 3

theorem commit_safe_first_session :
    ∃ s event, execWithin (otaStep softSdk) keepsMutex (otaBoot Unit blankFlash) appliedByte =
      some s ∧ s.pcs (.task 0) = .commit event ∧ Committable s.shared event :=
  ⟨_, _, rfl, rfl, @commit_safe _ softSdk _ (.task 0) _ blankFlash
    (@Reach.execWithin _ _ _ _ _ _ _ _ .init appliedByte rfl) rfl⟩

/-- Two first starts leave two tasks on one queue. One has taken the APPLY event
when the other takes an ABORT and ends the session; a new session starts. -/
def staleApply : List (ThreadId × OtaLabel) :=
  twoFirstStarts ++ proceeds (.client 0) 1 ++ proceeds (.client 1) 2 ++ proceeds (.client 0) 1
    ++ proceeds (.task 0) 1 ++ proceeds (.task 1) 1 ++ writtenByte
    ++ calls (.client 0) .apply 6 ++ calls (.client 1) .abort 6 ++ proceeds (.task 0) 1 ++
      proceeds (.task 1) 7
    ++ proceeds (.task 0) 2 ++ calls (.client 0) (.start (some rawByte)) 9

/-- The task left over from the ended session commits in the new one, which has
not received a byte. -/
theorem commit_unsafe :
    ∃ s event, exec (otaStep softSdk) (otaBoot Unit blankFlash) staleApply = some s
      ∧ s.pcs (.task 0) = .commit event ∧ ¬Committable s.shared event := by
  refine ⟨_, _, rfl, rfl, fun h => ?_⟩
  exact absurd h.sealed.verified.1 (by decide)

end Sonoff.Ota
