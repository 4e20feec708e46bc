import Sonoff.Ota.Admission
import Sonoff.Ota.SessionRecord

/-! # An accepted abort is final

The ABORT event stands in the queue behind what was accepted before it. The task
handles the queue in order and ends with the ABORT, so what is accepted later is
dropped with the queue.
-/
namespace Sonoff.Ota
open Bytes AesGcm NorFlash OtaParse Threads Machine

variable {G : Type}

def SnfOtaEvent.isData (event : SnfOtaEvent) : Bool := event.id == .imageData

def Observation.consumedEvent (session : ℕ) : Observation → Option SnfOtaEvent
  | .consumed k event _ => if k = session then some event else none
  | _ => none

/-- The data events that a session has handed to its handler, in their order. -/
def consumedEvents (session : ℕ) (history : List Observation) : List SnfOtaEvent :=
  history.reverse.filterMap (Observation.consumedEvent session)

def Observation.commit (session : ℕ) : Observation → Option (SnfOtaEvent × Bool)
  | .committed k event success => if k = session then some (event, success) else none
  | _ => none

def commitsOf (session : ℕ) (history : List Observation) : List (SnfOtaEvent × Bool) :=
  history.reverse.filterMap (Observation.commit session)

def Observation.abort (session : ℕ) : Observation → Option SnfOtaEvent
  | .aborted k event => if k = session then some event else none
  | _ => none

def abortsOf (session : ℕ) (history : List Observation) : List SnfOtaEvent :=
  history.reverse.filterMap (Observation.abort session)

def OtaPc.commits : OtaPc → Bool
  | .callback (.commit _) | .commit _ => true
  | _ => false

def pendingEvents (s : OtaState G) : List SnfOtaEvent := handled s ++ s.shared.eventQueue.getD []

/-- An APPLY event has been accepted and is pending or about to commit. -/
def ApplyAccepted (s : OtaState G) : Prop :=
  (∃ event ∈ pendingEvents s, event.id = .imageApply)
    ∨ ∃ t, s.shared.taskHandle = some t ∧ (s.pcs (.task t)).commits = true

/-- The session runs and its task has not failed it. -/
def Underway (s : OtaState G) (session t : ℕ) : Prop :=
  s.shared.taskHandle = some t ∧ s.shared.session = session ∧ (s.pcs (.task t)).ending = false

/-- The task's own steps lead to its end, the session cleared, and then a valid
start succeeds. -/
def Clears (sdk : Sdk G) (s : OtaState G) (t : ℕ) : Prop :=
  ∃ n u, exec (otaStep sdk) s ((List.replicate n (.proceed true)).map (Prod.mk (.task t))) = some u
    ∧ u.pcs (.task t) = .deleted ∧ AtRest u.shared
    ∧ ∀ i ret config, u.pcs i = .idle ret → Startable G config u.shared.core.flash.length →
      CanStart sdk u i config

/-- What an abort accepted in the state `s` promises of a later state `t`. -/
structure AbortFinal (sdk : Sdk G) (s t : OtaState G) : Prop where
  /-- Only what was pending is still handed to the handler. -/
  data : ∃ done, consumedEvents s.shared.session t.shared.history =
      consumedEvents s.shared.session s.shared.history ++ done
    ∧ done <+: (pendingEvents s).filter SnfOtaEvent.isData
  commit : commitsOf s.shared.session t.shared.history = commitsOf s.shared.session s.shared.history
    ∨ ApplyAccepted s
  pending : ∀ u, Underway t s.shared.session u → ∃ event ∈ pendingEvents t, event.id = .abort
  aborts : ∀ u, Underway t s.shared.session u →
    abortsOf s.shared.session t.shared.history = abortsOf s.shared.session s.shared.history
  ended : t.shared.taskHandle = none → (∀ i, (t.pcs i).critical = false) → AtRest t.shared
    ∧ ∀ i ret config, t.pcs i = .idle ret → Startable G config t.shared.core.flash.length →
      CanStart sdk t i config
  cleared : ∀ u, t.shared.taskHandle = some u → (t.pcs (.task u)).ending = true →
    (∀ i, i ≠ .task u → (t.pcs i).critical = false) → Clears sdk t u

theorem filterMap_reverse_cons {α β : Type*} (f : α → Option β) (a : α) (l : List α) :
    (a :: l).reverse.filterMap f = l.reverse.filterMap f ++ (f a).toList := by
  rw [List.reverse_cons, List.filterMap_append]
  cases h : f a <;> simp [h]

structure SameTrace (session : ℕ) (a b : List Observation) : Prop where
  consumed : consumedEvents session b = consumedEvents session a
  commits : commitsOf session b = commitsOf session a
  aborts : abortsOf session b = abortsOf session a

variable {sdk : Sdk G} {s s₁ : OtaState G} {i j : ThreadId} {p q : OtaPc} {x y z : OtaSystem G}
  {t k : ℕ} {event : SnfOtaEvent} {a b : List Observation} {label : OtaLabel}

theorem SameTrace.refl (a : List Observation) : SameTrace k a a := ⟨rfl, rfl, rfl⟩

theorem consumedEvents_cons (k : ℕ) (o : Observation) (h : List Observation) :
    consumedEvents k (o :: h) = consumedEvents k h ++ (o.consumedEvent k).toList :=
      filterMap_reverse_cons _ _ _

theorem commitsOf_cons (k : ℕ) (o : Observation) (h : List Observation) :
    commitsOf k (o :: h) = commitsOf k h ++ (o.commit k).toList := filterMap_reverse_cons _ _ _

theorem abortsOf_cons (k : ℕ) (o : Observation) (h : List Observation) :
    abortsOf k (o :: h) = abortsOf k h ++ (o.abort k).toList := filterMap_reverse_cons _ _ _

theorem SameTrace.observe (h : SameTrace k a b) {o : Observation} (hd : o.consumedEvent k = none)
    (hc : o.commit k = none) (ha : o.abort k = none) : SameTrace k a (o :: b) := by
  refine ⟨?_, ?_, ?_⟩
  · rw [consumedEvents_cons, hd, h.consumed]
    exact List.append_nil _
  · rw [commitsOf_cons, hc, h.commits]
    exact List.append_nil _
  · rw [abortsOf_cons, ha, h.aborts]
    exact List.append_nil _

theorem SameTrace.notify (h : SameTrace k a z.history) {state : SnfOtaState}
    {errorCode : SnfOtaErrorCode} :
    SameTrace k a (otaNotify z state errorCode).history := h.observe rfl rfl rfl

/-- The task's steps are always within the guard. -/
theorem reach_taskRun {flash : Flash} (hs : Reach (otaStep sdk) keepsMutex (otaBoot G flash) s)
    {labels : List OtaLabel} (h : exec (otaStep sdk) s (labels.map (Prod.mk (.task t))) = some s₁) :
    Reach (otaStep sdk) keepsMutex (otaBoot G flash) s₁ := by
  induction labels generalizing s with
  | nil =>
    cases h
    exact hs
  | cons label labels ih =>
    obtain ⟨u,hu,hrest⟩ := Option.bind_eq_some_iff.mp h
    refine ih (.step hs (fun hc => ?_) hu) hrest
    have ho : (s.pcs (.task t)).ofTask = true := reach_ofTask hs (.task t)
    have hc : (s.pcs (.task t)).createsMutex = true := hc
    generalize s.pcs (.task t) = p at *
    cases p with
    | createMutex config => cases ho
    | _ => cases hc

theorem runThread_teardown {m : ℕ} (hm : x.mutex = some m) (hi : x.holder m = some i) :
    ∃ y, runThread (otaNext sdk) i (.teardown, x) (List.replicate 2 (.proceed true)) =
      some (.deleted, y) ∧ AtRest y := by
  have hu : otaUnlock i (otaTaskTeardown x) = some ((otaTaskTeardown x).setHolder m none) :=
    otaUnlock_owned hm hi
  refine ⟨(otaTaskTeardown x).setHolder m none, ?_, rfl, rfl, rfl, rfl, Or.inl rfl⟩
  simp only [List.replicate, runThread, otaNext, Option.bind_some, hu, Option.map_some]

theorem runThread_exit {m : ℕ} (hm : x.mutex = some m) (hfree : x.holder m = none) :
    ∃ y, runThread (otaNext sdk) i (.exitTake m, x) (List.replicate 3 (.proceed true)) =
      some (.deleted, y) ∧ AtRest y := by
  obtain ⟨y,hy,hrest⟩ := @runThread_teardown _ sdk i (x.setHolder m (some i)) m hm (if_pos rfl)
  refine ⟨y, ?_, hrest⟩
  rw [List.replicate_succ, runThread]
  simp only [otaNext, hfree, if_true, Option.bind_some]
  exact hy

/-- From the end of its session the task needs nothing but the mutex. -/
theorem clears_of_ending {flash : Flash} (hs : Reach (otaStep sdk) keepsMutex (otaBoot G flash) s)
    (hh : s.shared.taskHandle = some t) (he : (s.pcs (.task t)).ending = true)
    (hfree : ∀ i, i ≠ .task t → (s.pcs i).critical = false) : Clears sdk s t := by
  have howned := reach_owned hs
  obtain ⟨m,hm⟩ := Option.ne_none_iff_exists'.mp ((reach_asserted hs).1.locked (by simp [hh]))
  have hrun : ∃ n y, runThread (otaNext sdk) (.task t) (s.pcs (.task t), s.shared)
    (List.replicate n (.proceed true)) =
      some (.deleted, y) ∧ AtRest y := by
    have hfreeMutex : (s.pcs (.task t)).critical = false → s.shared.holder m = none := by
      intro hp
      refine howned.free hm (fun i hi => ?_)
      have hi : (s.pcs i).critical = true := hi
      by_cases hit : i = .task t
      · rw [hit, hp] at hi
        cases hi
      · rw [hfree i hit] at hi
        cases hi
    have hwaits := howned.waits (.task t)
    have hcrit := howned.critical (.task t)
    simp only [otaMutex] at hwaits hcrit
    generalize s.pcs (.task t) = p at *
    cases p with
    | callback next =>
      cases next with
      | exit =>
        obtain ⟨y,hy,hrest⟩ := @runThread_exit _ sdk (.task t) s.shared m hm (hfreeMutex rfl)
        refine ⟨5, y, ?_, hrest⟩
        simp only [List.replicate_succ (n := 4), List.replicate_succ (n := 3), runThread, otaNext,
          AfterNotify.pc, hm, Option.bind_some]
        exact hy
      | _ => cases he
    | exitLock =>
      obtain ⟨y,hy,hrest⟩ := @runThread_exit _ sdk (.task t) s.shared m hm (hfreeMutex rfl)
      refine ⟨4, y, ?_, hrest⟩
      simp only [List.replicate_succ (n := 3), runThread, otaNext, hm, Option.bind_some]
      exact hy
    | exitTake n =>
      have hn := hwaits n rfl
      rw [hm] at hn
      cases hn
      obtain ⟨y,hy⟩ := @runThread_exit _ sdk (.task t) s.shared m hm (hfreeMutex rfl)
      exact ⟨3, y, hy⟩
    | teardown =>
      obtain ⟨n,hn,hi⟩ := hcrit.mp rfl
      obtain ⟨y,hy⟩ := @runThread_teardown _ sdk (.task t) s.shared n hn hi
      exact ⟨2, y, hy⟩
    | _ => cases he
  obtain ⟨n,y,hy,hrest⟩ := hrun
  obtain ⟨u,hu,hpc,hx⟩ := exec_runThread hy
  refine ⟨n, u, hu, hpc, hx ▸ hrest, fun i ret config hi hc => ?_⟩
  have hr := reach_taskRun hs hu
  refine canStart_of_rest (reach_owned hr) (hx ▸ hrest) (fun j => ?_) hi hc
  by_cases hj : j = .task t
  · rw [hj, hpc]
    rfl
  · rw [exec_others hu hj]
    exact hfree j hj

/-- The session `k` since an abort: `before` is what was pending then, `a` the
history and `applied` whether an APPLY event was on its way. -/
structure Aborting (k : ℕ) (before : List SnfOtaEvent) (a : List Observation) (applied : Prop)
    (s : OtaState G) : Prop where
  started : ∃ i config, .started i k config ∈ s.shared.history
  data : ∃ done rest, before = done ++ rest
    ∧ consumedEvents k s.shared.history = consumedEvents k a ++ done.filter SnfOtaEvent.isData
    ∧ ∀ t, Underway s k t → ∃ event tail, event.id = .abort ∧
      pendingEvents s = rest ++ event :: tail
  commit : applied ∨ (commitsOf k s.shared.history = commitsOf k a
    ∧ ∀ t, Underway s k t → (s.pcs (.task t)).commits = false)
  aborts : ∀ t, Underway s k t → abortsOf k s.shared.history = abortsOf k a

theorem RecordMove.started (h : RecordMove i p x q y) {config : SnfOtaConfig}
    (hs : .started j k config ∈ x.history) : .started j k config ∈ y.history := by
  cases h with
  | keep _ _ _ hsame _ => exact (hsame j k config).mpr hs
  | idle _ _ hhist _ _ => exact hhist ▸ hs
  | spawn config' _ _ hy =>
    subst hy
    exact List.mem_cons_of_mem _ hs

theorem PcMove.commits (h : PcMove i x p q) (hq : q.commits = true) : p.commits = true := by
  cases h with
  | check request =>
    unfold otaCheck at hq
    cases request <;> dsimp only at hq <;> repeat (split at hq; cases hq)
    all_goals cases hq
  | «return» next =>
    cases next with
    | commit event => rfl
    | _ => cases hq
  | _ => cases hq

theorem pendingEvents_running (hh : s.shared.taskHandle = some t) :
    pendingEvents s = (s.pcs (.task t)).inHand ++ s.shared.eventQueue.getD [] := by
  simp only [pendingEvents, Ota.handled, hh]

theorem pendingEvents_move (hh : y.taskHandle = some t) :
    pendingEvents (s.move (.task t) (q, y)) = q.inHand ++ y.eventQueue.getD [] := by
  rw [pendingEvents_running (show (s.move (.task t) (q, y)).shared.taskHandle = some t from hh),
    Config.move_self]
  rfl

section Steps
variable {before : List SnfOtaEvent} {applied : Prop} (habort : Aborting k before a applied s)
  (hstarted : ∀ i config, .started i k config ∈ s.shared.history → .started i k config ∈ y.history)
include habort hstarted

/-- The steps after which the session is not under way. -/
theorem Aborting.over (hconsumed : consumedEvents k y.history = consumedEvents k s.shared.history)
    (hcommits : applied ∨ commitsOf k y.history = commitsOf k s.shared.history)
    (hover : ∀ t, ¬Underway (s.move i (q, y)) k t) :
    Aborting k before a applied (s.move i (q, y)) := by
  obtain ⟨j,config,hj⟩ := habort.started
  obtain ⟨done,rest,hb,hc,_⟩ := habort.data
  refine ⟨⟨j, config, hstarted j config hj⟩, ⟨done, rest, hb, ?_, fun t ht => absurd ht (hover t)⟩,
    ?_, fun t ht => absurd ht (hover t)⟩
  · rw [Config.move_shared, hconsumed, hc]
  · rcases habort.commit with happ | ⟨hc,_⟩
    · exact Or.inl happ
    · refine hcommits.imp_right (fun h => ⟨?_, fun t ht => absurd ht (hover t)⟩)
      rw [Config.move_shared, h, hc]

/-- The steps that only append to what is pending. -/
theorem Aborting.frame (hconsumed : consumedEvents k y.history = consumedEvents k s.shared.history)
    (haborts : abortsOf k y.history = abortsOf k s.shared.history)
    (hkeep : ∀ t, Underway (s.move i (q, y)) k t → Underway s k t
      ∧ ∃ more, pendingEvents (s.move i (q, y)) = pendingEvents s ++ more)
    (hcommits : applied ∨ (commitsOf k y.history = commitsOf k s.shared.history
      ∧ ∀ t, ((s.move i (q, y)).pcs (.task t)).commits = true → (s.pcs (.task t)).commits = true)) :
    Aborting k before a applied (s.move i (q, y)) := by
  obtain ⟨j,config,hj⟩ := habort.started
  obtain ⟨done,rest,hb,hc,hpend⟩ := habort.data
  refine ⟨⟨j, config, hstarted j config hj⟩, ⟨done, rest, hb, ?_, ?_⟩, ?_, ?_⟩
  · rw [Config.move_shared, hconsumed, hc]
  · intro t ht
    obtain ⟨hu,more,hmore⟩ := hkeep t ht
    obtain ⟨event,tail,hid,hp⟩ := hpend t hu
    exact ⟨event, tail ++ more, hid, by rw [hmore, hp, List.append_assoc, List.cons_append]⟩
  · rcases habort.commit with happ | ⟨hc,hno⟩
    · exact Or.inl happ
    · refine hcommits.imp_right (fun h => ⟨?_, fun t ht => ?_⟩)
      · rw [Config.move_shared, h.1, hc]
      · by_contra hne
        have := h.2 t (eq_true_of_ne_false hne)
        rw [hno t (hkeep t ht).1] at this
        cases this
  · intro t ht
    rw [Config.move_shared, haborts]
    exact habort.aborts t (hkeep t ht).1

/-- The steps that leave the events in hand and the task's part alone. -/
theorem Aborting.quiet (htrace : SameTrace k s.shared.history y.history)
    (hh : y.taskHandle = s.shared.taskHandle)
    (hsession : y.session = s.shared.session) (hhand : q.inHand = (s.pcs i).inHand)
    (hqueue : ∃ more, y.eventQueue.getD [] = s.shared.eventQueue.getD [] ++ more)
    (hend : (s.pcs i).ending = true → q.ending = true)
    (hcommits : q.commits = true → (s.pcs i).commits = true) :
    Aborting k before a applied (s.move i (q, y)) := by
  have hpart : ∀ t, (((s.move i (q, y)).pcs (.task t)).ending = false →
    (s.pcs (.task t)).ending = false) ∧
      (((s.move i (q, y)).pcs (.task t)).commits = true → (s.pcs (.task t)).commits = true) := by
    intro t
    by_cases hti : .task t = i
    · subst hti
      rw [Config.move_self]
      refine ⟨fun hne => ?_, hcommits⟩
      by_contra h
      rw [hend (eq_true_of_ne_false h)] at hne
      cases hne
    · rw [Config.move_other s hti]
      exact ⟨id, id⟩
  refine habort.frame hstarted htrace.consumed htrace.aborts (fun t ht => ?_)
    (Or.inr ⟨htrace.commits, fun t => (hpart t).2⟩)
  obtain ⟨htask,hs,hne⟩ := ht
  rw [Config.move_shared, hh] at htask
  rw [Config.move_shared, hsession] at hs
  refine ⟨⟨htask, hs, (hpart t).1 hne⟩, ?_⟩
  obtain ⟨more,hmore⟩ := hqueue
  refine ⟨more, ?_⟩
  rw [pendingEvents_running htask, pendingEvents_running (t := t) (hh.trans htask),
    inHand_move hhand, Config.move_shared, hmore, List.append_assoc]

omit hstarted in
/-- What is still pending when the task has an event in hand that is not the ABORT. -/
theorem Aborting.next (hu : Underway s k t) (hp : s.pcs (.task t) = .handle event)
    (hid : event.id ≠ .abort) : ∃ done rest, before = done ++ event :: rest
      ∧ consumedEvents k s.shared.history = consumedEvents k a ++ done.filter SnfOtaEvent.isData
      ∧ ∃ last tail, last.id = .abort ∧ s.shared.eventQueue.getD [] = rest ++ last :: tail := by
  obtain ⟨done,rest,hb,hc,hpend⟩ := habort.data
  obtain ⟨last,tail,hlast,heq⟩ := hpend t hu
  rw [pendingEvents_running hu.1, hp] at heq
  cases rest with
  | nil =>
    cases heq
    exact absurd hlast hid
  | cons first rest =>
    obtain ⟨rfl,hqueue⟩ := List.cons.inj heq
    exact ⟨done, rest, hb, hc, last, tail, hlast, hqueue⟩

omit hstarted in
/-- A commit after the abort comes from an APPLY event accepted before it. -/
theorem Aborting.committing (hu : Underway s k t) (hp : (s.pcs (.task t)).commits = true) :
    applied := by
  refine habort.commit.resolve_right (fun h => ?_)
  rw [h.2 t hu] at hp
  cases hp

/-- The task has handled an event accepted before the abort. -/
theorem Aborting.handle (hi : i = .task t) (hu : Underway s k t) (hp : s.pcs i = .handle event)
    (hid : event.id ≠ .abort)
    (hconsumed : consumedEvents k y.history = consumedEvents k s.shared.history ++
    [event].filter SnfOtaEvent.isData)
    (hcommits : commitsOf k y.history = commitsOf k s.shared.history)
    (haborts : abortsOf k y.history = abortsOf k s.shared.history)
    (hh : y.taskHandle = s.shared.taskHandle)
    (hqueue : y.eventQueue = s.shared.eventQueue) (hhand : q.inHand = [])
    (hq : q.commits = true → event ∈ before → applied) :
    Aborting k before a applied (s.move i (q, y)) := by
  subst hi
  obtain ⟨j,config,hj⟩ := habort.started
  obtain ⟨done,rest,hb,hc,last,tail,hlast,hpend⟩ := habort.next hu hp hid
  have hsame : ∀ u, Underway (s.move (.task t) (q, y)) k u → u = t := by
    intro u h
    have := h.1
    rw [Config.move_shared, hh, hu.1] at this
    exact (Option.some.inj this).symm
  refine ⟨⟨j, config, hstarted j config hj⟩,
    ⟨done ++ [event], rest, by rw [hb, List.append_assoc]; rfl, ?_, ?_⟩, ?_, ?_⟩
  · rw [Config.move_shared, hconsumed, hc, List.filter_append, List.append_assoc]
  · intro u hut
    rw [hsame u hut] at hut
    refine ⟨last, tail, hlast, ?_⟩
    rw [pendingEvents_move (hh.trans hu.1), hhand, hqueue, hpend]
    rfl
  · by_cases hcq : q.commits = true
    · exact Or.inl (hq hcq (by rw [hb]; exact List.mem_append_right _ List.mem_cons_self))
    · refine habort.commit.imp_right (fun h => ⟨?_, fun u hut => ?_⟩)
      · rw [Config.move_shared, hcommits, h.1]
      · rw [hsame u hut, Config.move_self]
        exact eq_false_of_ne_true hcq
  · intro u hut
    rw [Config.move_shared, haborts]
    exact habort.aborts t hu

end Steps

theorem not_underway_of_none (hno : y.taskHandle = none) (t : ℕ) :
    ¬Underway (s.move i (q, y)) k t := by
  intro ht
  have htask := ht.1
  rw [Config.move_shared, hno] at htask
  cases htask

theorem not_underway_of_session (hne : y.session ≠ k) (t : ℕ) : ¬Underway (s.move i (q, y)) k t :=
  fun ht => hne ht.2.1

theorem not_underway_of_ending (hh : y.taskHandle = some t) (hq : q.ending = true) (u : ℕ) :
    ¬Underway (s.move (.task t) (q, y)) k u := by
  intro hu
  have htask := hu.1
  rw [Config.move_shared, hh] at htask
  cases htask
  have hend := hu.2.2
  rw [Config.move_self, hq] at hend
  cases hend

/-- A commit leaves the data and the aborts of every session, and the commits of the others. -/
theorem observe_committed_trace (k : ℕ) (x : OtaSystem G) (event : SnfOtaEvent) (success : Bool)
    (state : SnfOtaState) (error : SnfOtaErrorCode) {y : OtaSystem G}
    (hy : y = otaNotify (x.observe (.committed x.session event success)) state error) :
    consumedEvents k y.history = consumedEvents k x.history ∧
      abortsOf k y.history = abortsOf k x.history ∧
      (x.session ≠ k → commitsOf k y.history = commitsOf k x.history) := by
  subst hy
  refine ⟨?_, ?_, fun hk => ?_⟩
  · show consumedEvents k (_ :: .committed x.session event success :: x.history) = _
    simp only [consumedEvents_cons, Observation.consumedEvent, Option.toList_none, List.append_nil]
  · show abortsOf k (_ :: .committed x.session event success :: x.history) = _
    simp only [abortsOf_cons, Observation.abort, Option.toList_none, List.append_nil]
  · show commitsOf k (_ :: .committed x.session event success :: x.history) = _
    simp only [commitsOf_cons, Observation.commit, hk, if_false, Option.toList_none,
      List.append_nil]

section TaskSteps
variable {before : List SnfOtaEvent} {applied : Prop} (habort : Aborting k before a applied s)
  (hh : s.shared.taskHandle = some t)
include habort hh

/-- The first of the pending events goes into the task's hand. -/
theorem Aborting.receive {rest : List SnfOtaEvent} (hp : s.pcs (.task t) = .receive)
    (hq : s.shared.eventQueue = some (event :: rest)) :
    Aborting k before a applied
      (s.move (.task t) (.handle event, s.shared.setQueue (some rest))) := by
  refine habort.frame (fun _ _ h => h) rfl rfl (fun u hu => ?_) (Or.inr ⟨rfl, fun u hc => ?_⟩)
  · have hut : t = u := Option.some.inj (hh.symm.trans hu.1)
    subst hut
    refine ⟨⟨hh, hu.2.1, by rw [hp]; rfl⟩, [], ?_⟩
    have hmove : pendingEvents (s.move (.task t) (.handle event, s.shared.setQueue (some rest))) =
        event :: rest :=
      pendingEvents_move hh
    rw [hmove, pendingEvents_running hh, hp, hq]
    exact (List.append_nil _).symm
  · by_cases hut : u = t
    · subst hut
      rw [Config.move_self] at hc
      cases hc
    · rwa [Config.move_other s (fun h => hut (ThreadId.task.inj h))] at hc

/-- A chunk of the session is one accepted before the abort. -/
theorem Aborting.chunk {bytes : List UInt8} {results : List OpResult}
    (hp : s.pcs (.task t) = .handle event)
    (hid : event.id = .imageData)
    (hd : otaHandleDataEvent sdk s.shared event bytes results = some (q, y)) :
    Aborting k before a applied (s.move (.task t) (q, y)) := by
  obtain ⟨core,out,_,rfl,rfl⟩ := otaHandleDataEvent_result hd
  have hstarted : ∀ (i : ThreadId) (config : SnfOtaConfig) {o : Observation}, .started i k config ∈
    s.shared.history → .started i k config ∈ o :: .consumed s.shared.session event bytes ::
    s.shared.history :=
    fun _ _ _ h => List.mem_cons_of_mem _ (List.mem_cons_of_mem _ h)
  by_cases hk : s.shared.session = k
  · have hu : Underway s k t := ⟨hh, hk, by rw [hp]; rfl⟩
    have hdata : event.isData = true := by rw [SnfOtaEvent.isData, hid]; rfl
    refine habort.handle (fun i config h => hstarted i config h) rfl hu hp
      (by rw [hid]; exact nofun) ?_ ?_ ?_ rfl rfl
      rfl ?_
    · show consumedEvents k (_ :: .consumed s.shared.session event bytes :: s.shared.history) = _
      simp only [consumedEvents_cons, Observation.consumedEvent, hk, if_true, Option.toList_some,
        Option.toList_none, List.append_nil, List.filter_cons, hdata, List.filter_nil]
    · show commitsOf k (_ :: .consumed s.shared.session event bytes :: s.shared.history) = _
      simp only [commitsOf_cons, Observation.commit, Option.toList_none, List.append_nil]
    · show abortsOf k (_ :: .consumed s.shared.session event bytes :: s.shared.history) = _
      simp only [abortsOf_cons, Observation.abort, Option.toList_none, List.append_nil]
    · by_cases hret : out.ret = 0
      · rw [if_pos hret]
        exact nofun
      · rw [if_neg hret]
        exact nofun
  · have hsame := (SameTrace.refl (k := k) s.shared.history).observe
      (o := .consumed s.shared.session event bytes)
      (if_neg hk) rfl rfl
    exact habort.over (fun i config h => hstarted i config h) hsame.notify.consumed
      (Or.inr hsame.notify.commits) (not_underway_of_session hk)

/-- An APPLY event of the session is one accepted before the abort. -/
theorem Aborting.apply (hap : ∀ event ∈ before, event.id = .imageApply → applied)
    (hp : s.pcs (.task t) = .handle event) (hid : event.id = .imageApply) :
    Aborting k before a applied
      (s.move (.task t) (.callback (.commit event),
        otaNotify (setTimeoutCount s.shared 0) .apply .none)) := by
  have hstarted : ∀ (i : ThreadId) (config : SnfOtaConfig), .started i k config ∈ s.shared.history →
      .started i k config ∈ (otaNotify (setTimeoutCount s.shared 0) .apply .none).history :=
    fun _ _ h => List.mem_cons_of_mem _ h
  have hsame : SameTrace k s.shared.history
      (otaNotify (setTimeoutCount s.shared 0) .apply .none).history :=
    (SameTrace.refl s.shared.history).observe rfl rfl rfl
  by_cases hk : s.shared.session = k
  · have hu : Underway s k t := ⟨hh, hk, by rw [hp]; rfl⟩
    have hdata : event.isData = false := by rw [SnfOtaEvent.isData, hid]; rfl
    refine habort.handle hstarted rfl hu hp (by rw [hid]; exact nofun) ?_ hsame.commits hsame.aborts
      rfl rfl rfl (fun _ hmem => hap event hmem hid)
    rw [hsame.consumed, List.filter_cons, hdata]
    exact (List.append_nil _).symm
  · exact habort.over hstarted hsame.consumed (Or.inr hsame.commits) (not_underway_of_session hk)

/-- A commit goes back to an APPLY event. -/
theorem Aborting.commitApplied (hp : s.pcs (.task t) = .commit event) :
    applied ∨ s.shared.session ≠ k := by
  by_cases hk : s.shared.session = k
  · exact Or.inl (habort.committing ⟨hh, hk, by rw [hp]; rfl⟩ (by rw [hp]; rfl))
  · exact Or.inr hk

theorem Aborting.committed (hp : s.pcs (.task t) = .commit event) :
    Aborting k before a applied (s.move (.task t)
      (.callback .reboot,
        otaNotify (s.shared.observe (.committed s.shared.session event true)) .success .none)) := by
  obtain ⟨hconsumed,haborts,hcommits⟩ :=
    observe_committed_trace k s.shared event true .success .none rfl
  refine habort.frame (fun _ _ h => List.mem_cons_of_mem _ (List.mem_cons_of_mem _ h)) hconsumed
    haborts (fun u hu => ?_) ?_
  · have hut : t = u := Option.some.inj (hh.symm.trans hu.1)
    subst hut
    refine ⟨⟨hh, hu.2.1, by rw [hp]; rfl⟩, [], ?_⟩
    rw [pendingEvents_running hh, hp, List.append_nil]
    exact pendingEvents_move hh
  · refine (habort.commitApplied hh hp).imp_right fun hk => ⟨hcommits hk, fun u hc => ?_⟩
    by_cases hut : u = t
    · rw [hut, hp]
      rfl
    · rwa [Config.move_other s (fun h => hut (ThreadId.task.inj h))] at hc

theorem Aborting.commitFailed (hp : s.pcs (.task t) = .commit event) :
    Aborting k before a applied (s.move (.task t) (.callback .exit,
      otaNotify (s.shared.observe (.committed s.shared.session event false)) .failed
        .applyFailed)) := by
  obtain ⟨hconsumed,_,hcommits⟩ :=
    observe_committed_trace k s.shared event false .failed .applyFailed rfl
  exact habort.over (fun _ _ h => List.mem_cons_of_mem _ (List.mem_cons_of_mem _ h)) hconsumed
    ((habort.commitApplied hh hp).imp_right hcommits) (not_underway_of_ending hh rfl)

/-- The task has the abort in hand. -/
theorem Aborting.abortHandled (x : OtaSystem G)
    (hx : x = otaNotify ((setTimeoutCount s.shared 0).observe (.aborted s.shared.session event))
      .abort .aborted) :
    Aborting k before a applied (s.move (.task t) (.callback .exit, x)) := by
  subst hx
  refine habort.over (fun _ _ h => List.mem_cons_of_mem _ (List.mem_cons_of_mem _ h)) ?_ (Or.inr ?_)
    (not_underway_of_ending hh rfl)
  · show consumedEvents k (_ :: .aborted s.shared.session event :: s.shared.history) = _
    simp only [consumedEvents_cons, Observation.consumedEvent, Option.toList_none, List.append_nil]
  · show commitsOf k (_ :: .aborted s.shared.session event :: s.shared.history) = _
    simp only [commitsOf_cons, Observation.commit, Option.toList_none, List.append_nil]

end TaskSteps

/-- The step lemma of an accepted abort. -/
theorem OtaMove.aborting (h : OtaMove sdk i (s.pcs i) s.shared q y) (hrec : SessionRecord s)
    (hw : Whole s) (ha : ∀ j, Asserted j (s.pcs j) s.shared) (hwf : (s.pcs i).wellFormed = true)
    {before : List SnfOtaEvent} {applied : Prop}
    (hap : ∀ event ∈ before, event.id = .imageApply → applied)
    (habort : Aborting k before a applied s) : Aborting k before a applied (s.move i (q, y)) := by
  have hi := ha i
  have hstarted := fun (j : ThreadId) (config : SnfOtaConfig) =>
    @RecordMove.started _ i j _ _ _ _ k (h.record hi) config
  have htask : (s.pcs i).live = true → ∃ t, i = .task t ∧ s.shared.taskHandle = some t := hi.of_live
  have htrace : SameTrace k s.shared.history s.shared.history := .refl _
  have hnothing : ∃ more, s.shared.eventQueue.getD [] = s.shared.eventQueue.getD [] ++ more :=
    ⟨[], by simp⟩
  generalize hp : s.pcs i = p at h hi hwf htask
  generalize hx : s.shared = x at h hi
  cases h with
  | pc hpc =>
    subst hx
    have hquiet := hpc.quiet hwf fun he => by
      rw [he] at htask
      obtain ⟨t,_,ht⟩ := htask rfl
      exact hw.locked (by simp [ht])
    subst hp
    exact habort.quiet hstarted htrace rfl rfl hquiet.inHand hnothing hquiet.ending hpc.commits
  | mutex x config =>
    subst hx
    exact habort.quiet hstarted htrace rfl rfl (by rw [hp]; rfl) hnothing (by rw [hp]; exact nofun)
      nofun
  | mutexFailed x config =>
    subst hx
    exact habort.quiet hstarted htrace rfl rfl (by rw [hp]; rfl) hnothing (by rw [hp]; exact nofun)
      nofun
  | taken m request _ =>
    subst hx
    exact habort.quiet hstarted htrace rfl rfl (by rw [hp]; rfl) hnothing (by rw [hp]; exact nofun)
      nofun
  | exitTaken m _ =>
    subst hx
    exact habort.quiet hstarted htrace rfl rfl (by rw [hp]; rfl) hnothing (fun _ => rfl) nofun
  | given request ret hu =>
    subst hx
    have hsame := otaUnlock_sameSession hu
    exact habort.quiet hstarted (hsame.history ▸ htrace) hsame.taskHandle hsame.session
      (by rw [hp]; rfl) (hsame.eventQueue ▸ hnothing) (by rw [hp]; exact nofun) nofun
  | exitGiven hu =>
    subst hx
    have hsame := otaUnlock_sameSession hu
    exact habort.quiet hstarted (hsame.history ▸ htrace) hsame.taskHandle hsame.session
      (by rw [hp]; rfl) (hsame.eventQueue ▸ hnothing) (by rw [hp]; exact nofun) nofun
  | prepare x config sizeKnown =>
    subst hx
    have hhist := (snfOtaStartPrepare_record s.shared config sizeKnown).2
    refine habort.over hstarted (by rw [hhist]) (Or.inr (by rw [hhist])) (not_underway_of_none ?_)
    exact (snfOtaStartPrepare_frame s.shared config sizeKnown).1.trans hi.taskHandle
  | queue config _ =>
    subst hx
    exact habort.over hstarted rfl (Or.inr rfl) (not_underway_of_none hi.taskHandle)
  | init x config =>
    subst hx
    exact habort.over hstarted rfl (Or.inr rfl) (not_underway_of_none hi.taskHandle)
  | task x config =>
    subst hx
    have hsame : SameTrace k s.shared.history (snfOtaStartTask i s.shared config).history :=
      htrace.observe rfl rfl rfl
    obtain ⟨j,config',hj⟩ := habort.started
    refine habort.over hstarted hsame.consumed (Or.inr hsame.commits) (not_underway_of_session ?_)
    show s.shared.session ≠ k
    rintro rfl
    exact hrec.starting i config hp j config' hj
  | taskFailed x config =>
    subst hx
    exact habort.over hstarted rfl (Or.inr rfl) (not_underway_of_none rfl)
  | teardown x =>
    subst hx
    exact habort.over hstarted rfl (Or.inr rfl) (not_underway_of_none rfl)
  | @sent x events request event hq =>
    subst hx
    refine habort.quiet hstarted htrace rfl rfl ?_ ⟨[event], ?_⟩ (by rw [hp]; exact nofun) ?_
    · rw [hp]
      unfold afterSend
      split <;> rfl
    · rw [hq]
      rfl
    · unfold afterSend
      split <;> exact nofun
  | count x request len =>
    subst hx
    exact habort.quiet hstarted htrace rfl rfl (by rw [hp]; rfl) hnothing (by rw [hp]; exact nofun)
      nofun
  | receive hq =>
    subst hx
    obtain ⟨t,rfl,hh⟩ := htask rfl
    exact habort.receive hh hp hq
  | waited _ =>
    subst hx
    exact habort.quiet hstarted htrace rfl rfl (by rw [hp]; rfl) hnothing (by rw [hp]; exact nofun)
      nofun
  | timedOut _ =>
    subst hx
    obtain ⟨t,rfl,hh⟩ := htask rfl
    have hsame : SameTrace k s.shared.history
        (otaNotify (setTimeoutCount s.shared (s.shared.core.info.timeoutCount + 1)) .failed
          .timeout).history :=
      htrace.observe rfl rfl rfl
    exact habort.over hstarted hsame.consumed (Or.inr hsame.commits) (not_underway_of_ending hh rfl)
  | data event bytes results hid hlen hd =>
    subst hx
    obtain ⟨t,rfl,hh⟩ := htask rfl
    exact habort.chunk hh hp hid hd
  | apply x event hid =>
    subst hx
    obtain ⟨t,rfl,hh⟩ := htask rfl
    exact habort.apply hh hap hp hid
  | abort x event hid =>
    subst hx
    obtain ⟨t,rfl,hh⟩ := htask rfl
    exact habort.abortHandled hh _ rfl
  | committed x event =>
    subst hx
    obtain ⟨t,rfl,hh⟩ := htask rfl
    exact habort.committed hh hp
  | commitFailed x event =>
    subst hx
    obtain ⟨t,rfl,hh⟩ := htask rfl
    exact habort.commitFailed hh hp

def OtaPc.abortSent : OtaPc → Bool
  | .send .abort event => event.id == .abort
  | _ => true

theorem OtaMove.abortSent (h : OtaMove sdk i p x q y) : q.abortSent = true := by
  cases h with
  | pc hpc =>
    cases hpc with
    | check request =>
      unfold otaCheck
      cases request <;> dsimp only <;> repeat (split; exact rfl)
      all_goals exact rfl
    | «return» next => cases next <;> rfl
    | _ => rfl
  | prepare config sizeKnown => split <;> rfl
  | sent request event _ =>
    unfold afterSend
    split <;> rfl
  | data event bytes results _ _ hd =>
    obtain ⟨⟨next,rfl⟩,_⟩ := otaHandleDataEvent_frame hd
    rfl
  | _ => rfl

theorem reach_abortSent {ok : OtaState G → ThreadId × OtaLabel → Prop} {flash : Flash}
    (h : Reach (otaStep sdk) ok (otaBoot G flash) s) (i : ThreadId) :
    (s.pcs i).abortSent = true := by
  refine @Reach.invariant _ _ _ _ _ (fun s => ∀ i, (s.pcs i).abortSent = true)
    (fun i => by cases i <;> rfl) ?_ s h i
  rintro s ⟨i,label⟩ t hs _ hstep
  obtain ⟨r,hr,rfl⟩ := step_some hstep
  exact Config.move_forall (fun _ (p : OtaPc) => p.abortSent = true) (otaNext_move hr).abortSent
    (fun j _ => hs j)

/-- An accepted ABORT event joins what is pending. -/
theorem pendingEvents_abort (hi : s.pcs i = .send .abort event)
    (hstep : otaStep sdk s (i, label) = some s₁) (hret : s₁.pcs i = .unlock .abort .ok) :
    pendingEvents s₁ = pendingEvents s ++ [event] ∧ s₁.shared.taskHandle = s.shared.taskHandle := by
  obtain ⟨⟨q,y⟩,hr,rfl⟩ := step_some hstep
  have hmove := otaNext_move hr
  rw [Config.move_self] at hret
  dsimp only at hret hmove
  generalize hp : s.pcs i = p at hmove hi
  generalize hx : s.shared = x at hmove
  subst hi
  cases hmove with
  | pc hpc =>
    cases hpc with
    | sendFailed _ _ ret hne =>
      cases hret
      exact absurd rfl hne
  | @sent x events _ _ hq =>
    subst hx
    have hhand : ∀ j, ((s.move i (afterSend .abort event .ok,
      s.shared.setQueue (some (events ++ [event])))).pcs j).inHand =
        (s.pcs j).inHand := by
      refine inHand_move ?_
      rw [hp, hret]
      rfl
    refine ⟨?_, rfl⟩
    cases hh : s.shared.taskHandle with
    | none => simp [pendingEvents, handled, OtaSystem.setQueue, hh, hq]
    | some t =>
      have hsent : pendingEvents
          (s.move i (afterSend .abort event .ok, s.shared.setQueue (some (events ++ [event])))) =
          _ :=
        pendingEvents_running hh
      refine hsent.trans ?_
      rw [pendingEvents_running hh, hq, List.append_assoc]
      exact congrArg (· ++ (events ++ [event])) (hhand (.task t))

/-- In every run in which no start stores a mutex over a stored one, an abort
that `snfOtaAbort` has put into the queue, and so answers with OK, is final. -/
theorem abort_final {flash : Flash} {t : OtaState G}
    (hs : Reach (otaStep sdk) keepsMutex (otaBoot G flash) s)
    (hi : s.pcs i = .send .abort event) (hstep : otaStep sdk s (i, label) = some s₁)
    (hret : s₁.pcs i = .unlock .abort .ok) (ht : Reach (otaStep sdk) keepsMutex s₁ t) :
    AbortFinal sdk s₁ t := by
  have hid : event.id = .abort := by
    have := reach_abortSent hs i
    rw [hi] at this
    exact eq_of_beq this
  obtain ⟨hpend,hh⟩ := pendingEvents_abort hi hstep hret
  have hs₁ : Reach (otaStep sdk) keepsMutex (otaBoot G flash) s₁ :=
    .step hs (by rw [keepsMutex, hi]; exact nofun) hstep
  have hrunning : s₁.shared.taskHandle ≠ none := by
    have ha := (reach_asserted hs).2 i
    rw [hi] at ha
    rw [hh]
    exact ha.1
  have hap : ∀ event ∈ pendingEvents s, event.id = .imageApply → ApplyAccepted s₁ :=
      fun event hmem hid =>
    Or.inl ⟨event, by rw [hpend]; exact List.mem_append_left _ hmem, hid⟩
  have hbase : Aborting s₁.shared.session (pendingEvents s) s₁.shared.history (ApplyAccepted s₁)
      s₁ := by
    obtain ⟨j,hj⟩ := (reach_sessionRecord hs₁).running hrunning
    refine ⟨⟨j, _, hj⟩,
      ⟨[], pendingEvents s, rfl, (List.append_nil _).symm, fun _ _ => ⟨event, [], hid, hpend⟩⟩, ?_,
      fun _ _ => rfl⟩
    by_cases happ : ApplyAccepted s₁
    · exact Or.inl happ
    · refine Or.inr ⟨rfl, fun u hu => ?_⟩
      by_contra hc
      exact happ (Or.inr ⟨u, hu.1, eq_true_of_ne_false hc⟩)
  have hreach : ∀ u, Reach (otaStep sdk) keepsMutex s₁ u →
      Reach (otaStep sdk) keepsMutex (otaBoot G flash) u :=
    fun u hu => hs₁.trans hu
  have habort : Aborting s₁.shared.session (pendingEvents s) s₁.shared.history (ApplyAccepted s₁)
      t := by
    refine @Reach.invariant_of _ _ _ _ _ (Aborting _ _ _ _) _ hreach hbase ?_ t ht
    rintro u ⟨j,label⟩ v hu hinv _ hv
    obtain ⟨r,hr,rfl⟩ := step_some hv
    obtain ⟨hw,ha⟩ := reach_asserted hu
    exact (otaNext_move hr).aborting (reach_sessionRecord hu) hw ha (reach_wellFormed hu j) hap hinv
  obtain ⟨done,rest,hb,hc,hrest⟩ := habort.data
  refine ⟨⟨_, hc, ?_⟩, habort.commit.elim Or.inr (fun h => Or.inl h.1), fun u hu => ?_,
    habort.aborts, ?_, ?_⟩
  · rw [hpend, hb, List.append_assoc, List.filter_append]
    exact List.prefix_append _ _
  · obtain ⟨last,tail,hlast,heq⟩ := hrest u hu
    exact ⟨last, by rw [heq]; exact List.mem_append_right _ List.mem_cons_self, hlast⟩
  · intro hno hfree
    have hrt := hreach t ht
    have hat : AtRest t.shared := by
      refine ((reach_asserted hrt).1.rest hno).resolve_right ?_
      rintro ⟨j,hj⟩
      have := starting_critical hj
      rw [hfree j] at this
      cases this
    exact ⟨hat, fun j ret config hj hconf => canStart_of_rest (reach_owned hrt) hat hfree hj hconf⟩
  · intro u hu he hfree
    exact clears_of_ending (hreach t ht) hu he hfree

def abortBehindByte : List (ThreadId × OtaLabel) :=
  firstSession ++ calls (.client 0) (.write 0 (some 1) 1) 7 ++ calls (.client 1) .abort 4

/-- The byte is verified and its client applies the image, behind the ABORT. -/
def applyBehindAbort : List (ThreadId × OtaLabel) :=
  proceeds (.client 1) 1 ++ proceeds (.task 0) 1 ++ (.task 0, .process [7] []) ::
    proceeds (.task 0) 1 ++ calls (.client 0) .apply 6 ++ proceeds (.task 0) 2

theorem abort_final_before_apply :
    ∃ s s₁ t, execWithin (otaStep softSdk) keepsMutex (otaBoot Unit blankFlash) abortBehindByte =
      some s ∧ otaStep softSdk s (.client 1, .proceed true) = some s₁ ∧
      s₁.pcs (.client 1) = .unlock .abort .ok
      ∧ execWithin (otaStep softSdk) keepsMutex s₁ applyBehindAbort = some t ∧
        AbortFinal softSdk s₁ t :=
  ⟨_, _, _, rfl, rfl, rfl, rfl,
    @abort_final _ softSdk _ _ (.client 1) _ (.proceed true) blankFlash _
    (@Reach.execWithin _ _ _ _ _ _ _ _ .init abortBehindByte rfl) rfl rfl rfl
    (@Reach.execWithin _ _ _ _ _ _ _ _ .init applyBehindAbort rfl)⟩

/-- Two first starts leave two tasks on one queue, and an ABORT is about to join it. -/
def abortOfTwoTasks : List (ThreadId × OtaLabel) :=
  twoFirstStarts ++ proceeds (.client 0) 1 ++ proceeds (.client 1) 2 ++ proceeds (.client 0) 1
    ++ proceeds (.task 0) 1 ++ proceeds (.task 1) 1 ++ calls (.client 0) .abort 4

/-- One task has the ABORT in hand when a byte is written that the other handles. -/
def writeAfterAbort : List (ThreadId × OtaLabel) :=
  proceeds (.client 0) 1 ++ proceeds (.task 0) 1 ++ calls (.client 1) (.write 0 (some 1) 1) 7 ++
    proceeds (.task 1) 1 ++ [(.task 1, .process [7] [])]

theorem abort_not_final :
    ∃ s s₁ t, exec (otaStep softSdk) (otaBoot Unit blankFlash) abortOfTwoTasks = some s
      ∧ otaStep softSdk s (.client 0, .proceed true) = some s₁ ∧
        s₁.pcs (.client 0) = .unlock .abort .ok
      ∧ exec (otaStep softSdk) s₁ writeAfterAbort = some t ∧ ¬AbortFinal softSdk s₁ t := by
  refine ⟨_, _, _, rfl, rfl, rfl, rfl, fun h => ?_⟩
  obtain ⟨done,hdone,hpre⟩ := h.data
  have hnil : done = [] := List.prefix_nil.mp hpre
  rw [hnil] at hdone
  exact absurd (congrArg List.length hdone) (by decide)

end Sonoff.Ota
