import Mathlib.Data.List.Chain
import Sonoff.Ota.Admission
import Sonoff.Ota.SessionRecord

/-! # The order of notifications

The states that one session passes to its callback follow the documented diagram.
The states between two notifications are those that fit the task's control point;
a data event that would be refused is never admitted, and an APPLY event is only
handled in a verified session.
-/
namespace Sonoff.Ota
open Bytes AesGcm NorFlash OtaParse Threads Machine

variable {G : Type}

/-- The edges of the documented state diagram between the states of a session; the
clean-up that leads back to IDLE is not notified. -/
def documentedTransition : SnfOtaState → SnfOtaState → Bool
  | .receiving, .receiving | .receiving, .verifySuccess | .receiving, .verifyFailed | .receiving,
      .failed
  | .receiving, .abort | .verifySuccess, .abort | .verifySuccess, .apply | .apply,
      .success | .apply, .failed => true
  | _, _ => false

structure Notification where
  callback : Option SnfOtaEventCallback
  state : SnfOtaState
  data : SnfOtaEventData
  deriving DecidableEq, Repr

def Observation.notification (session : ℕ) : Observation → Option Notification
  | .notified k callback state data => if k = session then some ⟨callback, state, data⟩ else none
  | _ => none

def notificationsOf (session : ℕ) (history : List Observation) : List Notification :=
  history.reverse.filterMap (Observation.notification session)

def passedOf (session : ℕ) (history : List Observation) : List Notification :=
  (notificationsOf session history).filter fun note => note.callback.isSome

/-- The states of a session: RECEIVING from its start, then those notified. -/
def statePath (notes : List Notification) :
    List SnfOtaState := .receiving :: notes.map Notification.state

/-- What a session of this configuration may notify. -/
structure NotificationProtocol (config : SnfOtaConfig) (notes : List Notification) : Prop where
  registered : ∀ note ∈ notes, note.callback = config.eventCallback
  path : (statePath notes).IsChain (fun a b => documentedTransition a b = true)
  monotone : notes.Pairwise (fun a b => a.data.receivedSize ≤ b.data.receivedSize)
  bounded : ∀ note ∈ notes, note.data.receivedSize ≤ note.data.totalSize ∧
    note.data.totalSize = config.imageInfo.size

theorem notificationsOf_cons (k : ℕ) (o : Observation) (history : List Observation) :
    notificationsOf k (o :: history) = notificationsOf k history ++ (o.notification k).toList := by
  simp only [notificationsOf, List.reverse_cons, List.filterMap_append]
  cases h : o.notification k <;> simp [h]

theorem statePath_append (notes : List Notification) (note : Notification) :
    statePath (notes ++ [note]) = statePath notes ++ [note.state] := by
  simp [statePath]

theorem NotificationProtocol.nil (config : SnfOtaConfig) : NotificationProtocol config [] :=
  ⟨nofun, .singleton _, .nil, nofun⟩

theorem NotificationProtocol.append {config : SnfOtaConfig} {notes : List Notification}
    {note : Notification} {state : SnfOtaState} (h : NotificationProtocol config notes)
    (hlast : (statePath notes).getLast? = some state)
    (hstep : documentedTransition state note.state = true)
    (hcallback : note.callback = config.eventCallback)
    (hmono : ∀ n ∈ notes, n.data.receivedSize ≤ note.data.receivedSize)
    (hbound : note.data.receivedSize ≤ note.data.totalSize ∧
      note.data.totalSize = config.imageInfo.size) :
    NotificationProtocol config (notes ++ [note]) := by
  refine ⟨?_, ?_, ?_, ?_⟩
  · exact List.forall_mem_append.mpr ⟨h.registered, List.forall_mem_singleton.mpr hcallback⟩
  · rw [statePath_append, List.isChain_append]
    refine ⟨h.path, .singleton _, fun a ha b hb => ?_⟩
    rw [hlast] at ha
    cases ha
    cases hb
    exact hstep
  · rw [List.pairwise_append]
    refine ⟨h.monotone, List.pairwise_singleton _ _, fun a ha b hb => ?_⟩
    cases List.mem_singleton.mp hb
    exact hmono a ha
  · exact List.forall_mem_append.mpr ⟨h.bounded, List.forall_mem_singleton.mpr hbound⟩

theorem failed_no_transition {a : SnfOtaState} (h : snfOtaStateIsFailed a = true)
    (b : SnfOtaState) : documentedTransition a b = false := by
  cases a with
  | receiving | verifySuccess | apply => cases h
  | _ => rfl

/-- No notification follows that of a failed state. -/
theorem NotificationProtocol.terminal {config : SnfOtaConfig} {before after : List Notification}
    {note : Notification} (h : NotificationProtocol config (before ++ note :: after))
    (hf : snfOtaStateIsFailed note.state = true) :
    after = [] := by
  cases after with
  | nil => rfl
  | cons next rest =>
    have hpath := h.path
    have hsplit : statePath (before ++ note :: next :: rest) =
        statePath before ++ note.state :: next.state :: rest.map Notification.state := by
          simp [statePath]
    rw [hsplit, List.isChain_append] at hpath
    have hstep := (List.isChain_cons_cons.mp hpath.2.1).1
    rw [failed_no_transition hf] at hstep
    cases hstep

structure SameRecord (a b : List Observation) : Prop where
  notes : ∀ k, notificationsOf k b = notificationsOf k a
  started : SameStarts a b

theorem SameRecord.refl (a : List Observation) : SameRecord a a := ⟨fun _ => rfl, .refl a⟩

theorem SameRecord.observe {a : List Observation} {o : Observation}
    (hn : ∀ k, o.notification k = none)
    (hs : ∀ i k config, o ≠ .started i k config) : SameRecord a (o :: a) := by
  refine ⟨fun k => ?_, (SameStarts.refl a).observe hs⟩
  rw [notificationsOf_cons, hn k]
  exact List.append_nil _

def OtaPc.fits : OtaPc → SnfOtaState → Bool
  | .created, state | .receive, state | .timeout, state | .handle _, state | .callback .receive,
      state =>
    state == .receiving || state == .verifySuccess
  | .callback (.commit _), state | .commit _, state => state == .apply
  | .callback .reboot, state | .reboot, state => state == .success
  | .callback .exit, state | .exitLock, state | .exitTake _, state | .teardown, state =>
    snfOtaStateIsFailed state
  | _, _ => false

structure Notified (x : OtaSystem G) : Prop where
  last : (statePath (notificationsOf x.session x.history)).getLast? = some x.core.info.state
  reached : ∀ note ∈ notificationsOf x.session x.history, note.data.receivedSize ≤
    x.core.info.receivedSize
  bounded : x.core.info.receivedSize ≤ x.core.info.totalSize
  total : x.core.info.totalSize = x.core.config.imageInfo.size

structure NotificationInvariant (s : OtaState G) : Prop where
  sessions : ∀ i k config, .started i k config ∈ s.shared.history →
    NotificationProtocol config (notificationsOf k s.shared.history)
  begun : ∀ k, notificationsOf k s.shared.history ≠ [] →
    ∃ i config, .started i k config ∈ s.shared.history
  current : ∀ t, s.shared.taskHandle = some t →
    Notified s.shared ∧ (s.pcs (.task t)).fits s.shared.core.info.state = true

variable {sdk : Sdk G} {s : OtaState G} {i j : ThreadId} {p q : OtaPc} {x y z : OtaSystem G} {t : ℕ}
  {event : SnfOtaEvent}

structure SameNotified (x y : OtaSystem G) : Prop where
  taskHandle : y.taskHandle = x.taskHandle
  session : y.session = x.session
  history : y.history = x.history
  config : y.core.config = x.core.config
  state : y.core.info.state = x.core.info.state
  received : y.core.info.receivedSize = x.core.info.receivedSize
  total : y.core.info.totalSize = x.core.info.totalSize

theorem SameSession.sameNotified (h : SameSession x y) : SameNotified x y :=
  ⟨h.taskHandle, h.session,
    h.history, by rw [h.core], by rw [h.core], by rw [h.core], by rw [h.core]⟩

theorem Notified.same (h : SameNotified x y) (hn : Notified x) : Notified y := by
  obtain ⟨hla,hre,hbo,hto⟩ := hn
  refine ⟨?_, ?_, ?_, ?_⟩
  · rwa [h.session, h.history, h.state]
  · rwa [h.session, h.history, h.received]
  · rwa [h.received, h.total]
  · rwa [h.total, h.config]

/-- Without a session the next task has not run yet. -/
theorem unborn_created (ha : ∀ j, Asserted j (s.pcs j) s.shared)
    (hof : ∀ j, (s.pcs j).ofTask = j.isTask)
    (hno : s.shared.taskHandle = none) : s.pcs (.task s.shared.taskCount) = .created := by
  have hi := ha (.task s.shared.taskCount)
  have ho := hof (.task s.shared.taskCount)
  by_cases hl : (s.pcs (.task s.shared.taskCount)).live = true
  · obtain ⟨t,_,ht⟩ := hi.of_live hl
    rw [hno] at ht
    cases ht
  · cases hp : s.pcs (.task s.shared.taskCount) with
    | created => rfl
    | exitUnlock =>
      rw [hp] at hi
      obtain ⟨t,ht,hlt,_⟩ := hi
      cases ht
      exact absurd hlt (Nat.lt_irrefl _)
    | deleted =>
      rw [hp] at hi
      obtain ⟨t,ht,hlt,_⟩ := hi
      cases ht
      exact absurd hlt (Nat.lt_irrefl _)
    | receive | timeout | handle | callback | commit | reboot | exitLock | exitTake | teardown =>
      rw [hp] at hl
      exact absurd rfl hl
    | _ =>
      rw [hp] at ho
      cases ho

section Steps
variable (hinv : NotificationInvariant s)
include hinv

/-- The steps that notify nothing. -/
theorem NotificationInvariant.frame (hs : SameNotified s.shared y)
    (hfits : ∀ state, (s.pcs i).fits state = true → q.fits state = true) :
    NotificationInvariant (s.move i (q, y)) := by
  refine ⟨?_, ?_, ?_⟩
  · rw [Config.move_shared, hs.history]
    exact hinv.sessions
  · rw [Config.move_shared, hs.history]
    exact hinv.begun
  · intro t ht
    rw [Config.move_shared, hs.taskHandle] at ht
    obtain ⟨hn,hf⟩ := hinv.current t ht
    refine ⟨hn.same hs, ?_⟩
    rw [Config.move_shared, hs.state]
    by_cases hti : .task t = i
    · subst hti
      rw [Config.move_self]
      exact hfits _ hf
    · rwa [Config.move_other s hti]

/-- The steps of a start and of a teardown: no session is left, or none yet. -/
theorem NotificationInvariant.idle (hh : y.taskHandle = none)
    (hhist : y.history = s.shared.history) : NotificationInvariant (s.move i (q, y)) := by
  refine ⟨?_, ?_, ?_⟩
  · rw [Config.move_shared, hhist]
    exact hinv.sessions
  · rw [Config.move_shared, hhist]
    exact hinv.begun
  · intro t ht
    rw [Config.move_shared, hh] at ht
    cases ht

/-- A notification of the running session. -/
theorem NotificationInvariant.notify (hrec : SessionRecord s) {state : SnfOtaState}
    {errorCode : SnfOtaErrorCode} (hi : i = .task t) (hx : s.shared.taskHandle = some t)
    (hh : z.taskHandle = s.shared.taskHandle)
    (hsession : z.session = s.shared.session) (hrecord : SameRecord s.shared.history z.history)
    (hconfig : z.core.config = s.shared.core.config)
    (htotal : z.core.info.totalSize = s.shared.core.info.totalSize)
    (hle : s.shared.core.info.receivedSize ≤ z.core.info.receivedSize)
    (hbound : z.core.info.receivedSize ≤ z.core.info.totalSize)
    (hstep : documentedTransition s.shared.core.info.state state = true)
    (hq : q.fits state = true) :
    NotificationInvariant (s.move i (q, otaNotify z state errorCode)) := by
  subst hi
  obtain ⟨hn,_⟩ := hinv.current t hx
  have hrunning : s.shared.taskHandle ≠ none := by simp [hx]
  have hstarted : SameStarts s.shared.history (otaNotify z state errorCode).history :=
    hrecord.started.notify
  have hnote : ∀ k, notificationsOf k (otaNotify z state errorCode).history =
    notificationsOf k s.shared.history ++
      if z.session = k then
          [⟨z.core.config.eventCallback, state, otaEventData z.core.info errorCode⟩] else [] := by
    intro k
    rw [← hrecord.notes]
    refine (notificationsOf_cons k _ z.history).trans (congrArg _ ?_)
    by_cases hk : z.session = k
    · simp only [Observation.notification, hk, if_true, Option.toList_some]
    · simp only [Observation.notification, hk, if_false, Option.toList_none]
  have hmono : ∀ n ∈ notificationsOf s.shared.session s.shared.history,
      n.data.receivedSize ≤ z.core.info.receivedSize := fun n h => (hn.reached n h).trans hle
  refine ⟨?_, ?_, ?_⟩
  · intro j k config hstart
    have hold := (hstarted j k config).mp hstart
    have hproto := hinv.sessions j k config hold
    rw [Config.move_shared, hnote]
    by_cases hks : z.session = k
    · rw [if_pos hks]
      rw [hsession] at hks
      subst hks
      cases hrec.only hrunning hold
      refine hproto.append hn.last hstep (by rw [hconfig]) hmono ⟨hbound, ?_⟩
      exact htotal.trans hn.total
    · rwa [if_neg hks, List.append_nil]
  · intro k hne
    rw [Config.move_shared, hnote] at hne
    by_cases hks : z.session = k
    · obtain ⟨j,hj⟩ := hrec.running hrunning
      rw [← hks, hsession]
      exact ⟨j, _, (hstarted j _ _).mpr hj⟩
    · rw [if_neg hks, List.append_nil] at hne
      obtain ⟨j,config,hj⟩ := hinv.begun k hne
      exact ⟨j, config, (hstarted j k config).mpr hj⟩
  · intro u hu
    have hu : z.taskHandle = some u := hu
    rw [hh, hx] at hu
    cases hu
    have hnote' := hnote s.shared.session
    rw [if_pos hsession] at hnote'
    refine ⟨⟨?_, ?_, hbound, ?_⟩, ?_⟩
    · show (statePath (notificationsOf z.session _)).getLast? = some state
      rw [hsession, Config.move_shared, hnote', statePath_append, List.getLast?_concat]
    · show ∀ note ∈ notificationsOf z.session _, note.data.receivedSize ≤ z.core.info.receivedSize
      rw [hsession, Config.move_shared, hnote']
      exact List.forall_mem_append.mpr ⟨hmono, List.forall_mem_singleton.mpr (Nat.le_refl _)⟩
    · show z.core.info.totalSize = z.core.config.imageInfo.size
      rw [htotal, hconfig]
      exact hn.total
    · rw [Config.move_self]
      exact hq

/-- A new session has notified nothing yet. -/
theorem NotificationInvariant.spawn (hrec : SessionRecord s) {config : SnfOtaConfig}
    (hp : s.pcs i = .startTask config)
    (ha : ∀ j, Asserted j (s.pcs j) s.shared) (hof : ∀ j, (s.pcs j).ofTask = j.isTask) :
    NotificationInvariant
      (s.move i (.unlock (.start config) .ok, snfOtaStartTask i s.shared config)) := by
  have hi := ha i
  rw [hp] at hi
  obtain ⟨hno,hfresh⟩ := hi
  have hnotes : ∀ k, notificationsOf k (snfOtaStartTask i s.shared config).history =
      notificationsOf k s.shared.history := fun k =>
    (notificationsOf_cons k _ s.shared.history).trans (List.append_nil _)
  have hempty : notificationsOf s.shared.session s.shared.history = [] := by
    by_contra hne
    obtain ⟨j,config',hj⟩ := hinv.begun _ hne
    exact hrec.starting i config hp j config' hj
  refine ⟨?_, ?_, ?_⟩
  · intro j k config' hstart
    rw [Config.move_shared, hnotes]
    rcases List.mem_cons.mp hstart with hnew | hold
    · cases hnew
      rw [hempty]
      exact .nil config
    · exact hinv.sessions j k config' hold
  · intro k hne
    rw [Config.move_shared, hnotes] at hne
    obtain ⟨j,config',hj⟩ := hinv.begun k hne
    exact ⟨j, config', List.mem_cons_of_mem _ hj⟩
  · intro t ht
    cases ht
    have hinfo : (snfOtaStartTask i s.shared config).core.info =
        { SnfOtaInfo.zero with totalSize := config.imageInfo.size, state := .receiving } :=
          hfresh.info
    have hconf : (snfOtaStartTask i s.shared config).core.config = config := hfresh.configured
    refine ⟨⟨?_, ?_, ?_, ?_⟩, ?_⟩
    · show (statePath (notificationsOf s.shared.session _)).getLast? = _
      rw [Config.move_shared, hnotes, hempty, hinfo]
      rfl
    · show ∀ note ∈ notificationsOf s.shared.session _, _
      rw [Config.move_shared, hnotes, hempty]
      exact nofun
    · rw [Config.move_shared, hinfo]
      exact Nat.zero_le _
    · rw [Config.move_shared, hinfo, hconf]
    · have hborn : s.pcs (.task s.shared.taskCount) = .created := unborn_created ha hof hno
      rw [Config.move_shared, hinfo, Config.move_other s, hborn]
      · rfl
      · rintro rfl
        rw [hp] at hborn
        cases hborn

end Steps

theorem PcMove.fits (h : PcMove i x p q) (hreboot : p ≠ .reboot)
    (hexit : p = .exitLock → x.mutex ≠ none)
    {state : SnfOtaState} (hp : p.fits state = true) : q.fits state = true := by
  cases h with
  | run t _ _ => exact hp
  | elapse _ => exact hp
  | waitAgain _ => exact hp
  | «return» next => cases next <;> exact hp
  | restart => exact absurd rfl hreboot
  | exitNoMutex hno => exact absurd hno (hexit rfl)
  | exitWait m _ => exact hp
  | _ => cases hp

/-- A data event of the running session ends in one of the transitions of RECEIVING. -/
theorem notificationInvariant_data {bytes : List UInt8} {results : List OpResult}
    (hinv : NotificationInvariant s)
    (hrec : SessionRecord s)
    (hd : otaHandleDataEvent sdk s.shared event bytes results = some (q, y)) (hi : i = .task t)
    (hx : s.shared.taskHandle = some t) (hlt : s.shared.core.info.totalSize < 4294967296)
    (hc : Continues s.shared.core.info ⟨event.offset, some bytes⟩ bytes) :
    NotificationInvariant (s.move i (q, y)) := by
  obtain ⟨core,out,hres,rfl,rfl⟩ := otaHandleDataEvent_result hd
  have hbound := (hinv.current t hx).1.bounded
  have hnotify : core.config = s.shared.core.config →
    core.info.totalSize = s.shared.core.info.totalSize →
      s.shared.core.info.receivedSize ≤ core.info.receivedSize →
        core.info.receivedSize ≤ core.info.totalSize →
      documentedTransition .receiving out.state = true →
      (OtaPc.callback (if out.ret = 0 then .receive else .exit)).fits out.state = true →
      NotificationInvariant (s.move i (.callback (if out.ret = 0 then .receive else .exit),
        otaNotify ((s.shared.observe (.consumed s.shared.session event bytes)).setCore core)
          out.state out.errorCode)) := by
    intro hconf htotal hle hb hstep hq
    refine hinv.notify hrec hi hx rfl rfl (.observe (fun _ => rfl) nofun) hconf htotal hle hb ?_ hq
    rw [hc.receiving]
    exact hstep
  cases hres with
  | refused hno _ _ _ _ => exact absurd hc hno
  | failed error nextErase _ hconf hinfo =>
    refine hnotify hconf ?_ ?_ ?_ rfl rfl <;> rw [hinfo]
    · rfl
    · exact Nat.le_refl _
    · exact hbound
  | accepted nextErase _ hconf _ hinfo =>
    have hfits := hc.fits
    have hreceived : core.info.receivedSize = s.shared.core.info.receivedSize + bytes.length := by
      rw [hinfo]
      exact u32Add_eq (by omega)
    have htotal : core.info.totalSize = s.shared.core.info.totalSize := by rw [hinfo]; rfl
    refine hnotify hconf htotal (by omega) (by omega) ?_ ?_
    · rcases acceptedOutcome_cases core with ⟨_,hout⟩ | ⟨_,hout⟩ | ⟨_,error,hout⟩ <;> rw [hout] <;>
        rfl
    · rcases acceptedOutcome_cases core with ⟨_,hout⟩ | ⟨_,hout⟩ | ⟨_,error,hout⟩ <;> rw [hout] <;>
        rfl

/-- The step lemma of the notifications. -/
theorem OtaMove.notificationInvariant (h : OtaMove sdk i (s.pcs i) s.shared q y) (hw : Whole s)
    (ha : ∀ j, Asserted j (s.pcs j) s.shared) (hof : ∀ j, (s.pcs j).ofTask = j.isTask)
    (hrec : SessionRecord s) (hcommit : CommitInvariant s)
    (hlt : s.shared.core.info.totalSize < 4294967296)
    (hdata : ∀ event bytes, s.pcs i = .handle event → event.id = .imageData →
      bytes.length = event.size → Continues s.shared.core.info ⟨event.offset, some bytes⟩ bytes)
    (hreboot : s.pcs i ≠ .reboot) (hinv : NotificationInvariant s) :
    NotificationInvariant (s.move i (q, y)) := by
  have hi := ha i
  have hheld := hcommit.held i
  have hlive : (s.pcs i).live = true → ∃ t, i = .task t ∧ s.shared.taskHandle = some t ∧
      s.shared.core.info.receivedSize ≤ s.shared.core.info.totalSize ∧
      (s.pcs i).fits s.shared.core.info.state = true := by
    intro hlive
    obtain ⟨t,rfl,hh⟩ := hi.of_live hlive
    obtain ⟨hn,hf⟩ := hinv.current t hh
    exact ⟨t, rfl, hh, hn.bounded, hf⟩
  generalize hp : s.pcs i = p at h hi hheld hlive hreboot hdata
  generalize hx : s.shared = x at h hi hdata
  cases h with
  | pc hpc =>
    subst hx
    refine hinv.frame (SameSession.refl _).sameNotified ?_
    rw [hp]
    refine fun state hst => hpc.fits hreboot (fun he => ?_) hst
    rw [he] at hlive
    obtain ⟨t,_,ht,_,_⟩ := hlive rfl
    exact hw.locked (by simp [ht])
  | mutex x config =>
    subst hx
    exact hinv.frame ⟨rfl,rfl,rfl,rfl,rfl,rfl,rfl⟩ (hp ▸ nofun)
  | mutexFailed x config =>
    subst hx
    exact hinv.frame ⟨rfl,rfl,rfl,rfl,rfl,rfl,rfl⟩ (hp ▸ nofun)
  | taken m request _ =>
    subst hx
    exact hinv.frame ⟨rfl,rfl,rfl,rfl,rfl,rfl,rfl⟩ (hp ▸ nofun)
  | exitTaken m _ =>
    subst hx
    exact hinv.frame ⟨rfl,rfl,rfl,rfl,rfl,rfl,rfl⟩ (hp ▸ fun _ h => h)
  | given request ret hu =>
    subst hx
    exact hinv.frame (otaUnlock_sameSession hu).sameNotified (hp ▸ nofun)
  | exitGiven hu =>
    subst hx
    exact hinv.frame (otaUnlock_sameSession hu).sameNotified (hp ▸ nofun)
  | prepare x config sizeKnown =>
    subst hx
    exact hinv.idle ((snfOtaStartPrepare_frame s.shared config sizeKnown).1.trans hi.taskHandle)
      (snfOtaStartPrepare_record s.shared config sizeKnown).2
  | queue config _ =>
    subst hx
    exact hinv.idle hi.taskHandle rfl
  | init x config =>
    subst hx
    exact hinv.idle hi.taskHandle rfl
  | task x config =>
    subst hx
    exact hinv.spawn hrec hp ha hof
  | taskFailed x config =>
    subst hx
    exact hinv.idle rfl rfl
  | teardown x =>
    subst hx
    exact hinv.idle rfl rfl
  | sent request event _ =>
    subst hx
    exact hinv.frame ⟨rfl,rfl,rfl,rfl,rfl,rfl,rfl⟩ (hp ▸ nofun)
  | count x request len =>
    subst hx
    exact hinv.frame ⟨rfl,rfl,rfl,rfl,rfl,rfl,rfl⟩ (hp ▸ nofun)
  | receive _ =>
    subst hx
    exact hinv.frame ⟨rfl,rfl,rfl,rfl,rfl,rfl,rfl⟩ (hp ▸ fun _ h => h)
  | waited _ =>
    subst hx
    exact hinv.frame ⟨rfl,rfl,rfl,rfl,rfl,rfl,rfl⟩ (hp ▸ fun _ h => h)
  | timedOut hst =>
    subst hx
    obtain ⟨t,ht,hh,hbound,_⟩ := hlive rfl
    exact hinv.notify hrec ht hh rfl rfl (.refl _) rfl rfl (Nat.le_refl _) hbound (by rw [hst]; rfl)
      rfl
  | data event bytes results hid hlen hd =>
    subst hx
    obtain ⟨t,ht,hh,_,_⟩ := hlive rfl
    exact notificationInvariant_data hinv hrec hd ht hh hlt (hdata event bytes rfl hid hlen)
  | apply x event hid =>
    subst hx
    obtain ⟨t,ht,hh,hbound,hf⟩ := hlive rfl
    have hst : s.shared.core.info.state = .verifySuccess := by
      have hne := (hheld event (if_pos hid)).state
      generalize s.shared.core.info.state = state at *
      cases state with
      | verifySuccess => rfl
      | receiving => exact absurd rfl hne
      | _ => cases hf
    exact hinv.notify hrec ht hh rfl rfl (.refl _) rfl rfl (Nat.le_refl _) hbound (by rw [hst]; rfl)
      rfl
  | abort x event _ =>
    subst hx
    obtain ⟨t,ht,hh,hbound,hf⟩ := hlive rfl
    refine hinv.notify hrec ht hh rfl rfl (.observe (fun _ => rfl) nofun) rfl rfl (Nat.le_refl _)
      hbound ?_ rfl
    generalize s.shared.core.info.state = state at *
    cases state with
    | receiving | verifySuccess => rfl
    | _ => cases hf
  | committed x event =>
    subst hx
    obtain ⟨t,ht,hh,hbound,hf⟩ := hlive rfl
    have hst : s.shared.core.info.state = .apply := eq_of_beq hf
    exact hinv.notify hrec ht hh rfl rfl (.observe (fun _ => rfl) nofun) rfl rfl (Nat.le_refl _)
      hbound (by rw [hst]; rfl) rfl
  | commitFailed x event =>
    subst hx
    obtain ⟨t,ht,hh,hbound,hf⟩ := hlive rfl
    have hst : s.shared.core.info.state = .apply := eq_of_beq hf
    exact hinv.notify hrec ht hh rfl rfl (.observe (fun _ => rfl) nofun) rfl rfl (Nat.le_refl _)
      hbound (by rw [hst]; rfl) rfl

theorem otaBoot_notificationInvariant (flash : Flash) : NotificationInvariant (otaBoot G flash) :=
  ⟨nofun, fun _ h => absurd rfl h, nofun⟩

/-- The reboot after a successful commit does not return. -/
def rebootEnds (s : OtaState G) (label : ThreadId × OtaLabel) : Prop := s.pcs label.1 ≠ .reboot

instance (s : OtaState G) (label : ThreadId × OtaLabel) : Decidable (rebootEnds s label) := by
  unfold rebootEnds
  infer_instance

/-- The runs in which the mutex is kept and the reboot does not return. -/
def keepsProtocol (s : OtaState G) (label : ThreadId × OtaLabel) :
    Prop := keepsMutex s label ∧ rebootEnds s label

instance (s : OtaState G) (label : ThreadId × OtaLabel) : Decidable (keepsProtocol s label) := by
  unfold keepsProtocol
  infer_instance

theorem reach_notificationInvariant {flash : Flash}
    (h : Reach (otaStep sdk) keepsProtocol (otaBoot G flash) s) :
    NotificationInvariant s := by
  refine @Reach.invariant_of _ _ _ _ _ NotificationInvariant (fun s =>
    Reach (otaStep sdk) keepsMutex (otaBoot G flash) s)
    (fun s hs => hs.mono (fun _ _ hl => hl.1)) (otaBoot_notificationInvariant flash) ?_ s h
  rintro s ⟨i,label⟩ t hs hinv ⟨_,hreboot⟩ hstep
  obtain ⟨r,hr,rfl⟩ := step_some hstep
  obtain ⟨hw,ha⟩ := reach_asserted hs
  exact (otaNext_move hr).notificationInvariant hw ha (reach_ofTask hs) (reach_sessionRecord hs)
    (reach_commitInvariant hs) (reach_accounting hs).total ((queue_accounted hs).2 i) hreboot hinv

/-- A session that has a callback passes it everything that it notifies. -/
theorem NotificationProtocol.passed {config : SnfOtaConfig} {k : ℕ} {history : List Observation}
    (h : NotificationProtocol config (notificationsOf k history)) :
    passedOf k history = if config.eventCallback = none then [] else notificationsOf k history := by
  by_cases hnone : config.eventCallback = none
  · rw [if_pos hnone]
    refine List.filter_eq_nil_iff.mpr ?_
    intro note hnote
    simp [h.registered note hnote, hnone]
  · rw [if_neg hnone]
    refine List.filter_eq_self.mpr ?_
    intro note hnote
    rw [h.registered note hnote]
    exact Option.isSome_iff_ne_none.mpr hnone

/-- What a session notifies is a path of the documented diagram with growing
sizes within its total, and ends with the first failed state; its callback gets
all of it. Every notification belongs to a session that a start began. -/
theorem notification_protocol {flash : Flash}
    (h : Reach (otaStep sdk) keepsProtocol (otaBoot G flash) s) :
    (∀ i k config, .started i k config ∈ s.shared.history →
      NotificationProtocol config (notificationsOf k s.shared.history)
      ∧ passedOf k s.shared.history =
        (if config.eventCallback = none then [] else notificationsOf k s.shared.history)
      ∧ ∀ before note after, notificationsOf k s.shared.history = before ++ note :: after →
        snfOtaStateIsFailed note.state = true → after = [])
    ∧ ∀ k, notificationsOf k s.shared.history ≠ [] →
      ∃ i config, .started i k config ∈ s.shared.history := by
  have hinv := reach_notificationInvariant h
  refine ⟨?_, hinv.begun⟩
  intro i k config hstart
  have hproto := hinv.sessions i k config hstart
  refine ⟨hproto, hproto.passed, ?_⟩
  intro before note after heq hfailed
  exact (heq ▸ hproto).terminal hfailed

def notifiedByte : SnfOtaConfig := { rawByte with eventCallback := some .otaMatterEventCallback }

/-- One session: its byte is written and verified, and the callback applies it. -/
def notifiedSession : List (ThreadId × OtaLabel) :=
  calls (.client 0) (.start (some notifiedByte)) 10 ++ proceeds (.task 0) 1
    ++ calls (.client 0) (.write 0 (some 1) 1) 7 ++ proceeds (.task 0) 1 ++
      [(.task 0, .process [7] [])]
    ++ calls (.client 1) .apply 6 ++ proceeds (.task 0) 5

theorem notification_protocol_first_session :
    ∃ s, execWithin (otaStep softSdk) keepsProtocol (otaBoot Unit blankFlash) notifiedSession =
      some s ∧ (passedOf 1 s.shared.history).map (fun note =>
      (note.state, note.data.receivedSize)) =
        [(.verifySuccess, 1), (.apply, 1), (.success, 1)]
      ∧ NotificationProtocol notifiedByte (passedOf 1 s.shared.history) := by
  have hrun : (execWithin (otaStep softSdk) keepsProtocol (otaBoot Unit blankFlash)
      notifiedSession).map (fun s =>
      (decide (.started (.client 0) 1 notifiedByte ∈ s.shared.history),
        (passedOf 1 s.shared.history).map fun note => (note.state, note.data.receivedSize))) =
      some (true, [(.verifySuccess, 1), (.apply, 1), (.success, 1)]) := by decide
  obtain ⟨s, hs, hseen⟩ := Option.map_eq_some_iff.mp hrun
  obtain ⟨hstart, hnotes⟩ := Prod.mk.inj hseen
  obtain ⟨hproto, hpassed, -⟩ :=
    (notification_protocol (Reach.execWithin .init hs)).1 (.client 0) 1 notifiedByte
    (of_decide_eq_true hstart)
  refine ⟨s, hs, hnotes, ?_⟩
  rw [hpassed]
  exact hproto

/-- Two first starts leave two tasks on one queue. The callback applies the image
and a client aborts; one task takes the APPLY and the other the ABORT. -/
def notifiedBehindAbort : List (ThreadId × OtaLabel) :=
  calls (.client 0) (.start (some notifiedByte)) 1 ++ calls (.client 1) (.start (some notifiedByte))
    1 ++ proceeds (.client 0) 4 ++ proceeds (.client 1) 4 ++ proceeds (.client 0) 3 ++
    proceeds (.client 1) 3 ++ proceeds (.client 0) 1 ++ proceeds (.client 1) 2 ++
    proceeds (.client 0) 1 ++ proceeds (.task 0) 1 ++ proceeds (.task 1) 1
    ++ calls (.client 0) (.write 0 (some 1) 1) 7 ++ proceeds (.task 0) 1 ++
      [(.task 0, .process [7] [])]
    ++ calls (.client 2) .apply 6 ++ proceeds (.task 0) 1 ++ calls (.client 1) .abort 6
    ++ proceeds (.task 0) 1 ++ proceeds (.task 1) 2 ++ proceeds (.task 0) 1

/-- The callback gets ABORT and then APPLY. -/
theorem notification_protocol_broken :
    ∃ s, execWithin (otaStep softSdk) rebootEnds (otaBoot Unit blankFlash) notifiedBehindAbort =
      some s ∧ .started (.client 1) 2 notifiedByte ∈ s.shared.history
      ∧ (passedOf 2 s.shared.history).map (fun note => (note.state, note.data.receivedSize))
        = [(.verifySuccess, 1), (.abort, 1), (.apply, 1)]
      ∧ ¬NotificationProtocol notifiedByte (passedOf 2 s.shared.history) := by
  refine ⟨_, rfl, by decide, by decide, ?_⟩
  intro h
  exact absurd h.path (by decide)

end Sonoff.Ota
