import Sonoff.Ota.CoreFacts

/-! # Where the events are

An event goes from the call that was admitted into the queue and from there into the task's hand.
A session begins without events and leaves none behind.
-/
namespace Sonoff.Ota
open Bytes AesGcm NorFlash OtaParse Threads Machine

variable {G : Type} {sdk : Sdk G} {core core' : OtaState G} {i j : ThreadId} {k : ℕ} {p q : OtaPc}
  {x y : OtaSystem G} {label : OtaLabel} {event : SnfOtaEvent}

def OtaPc.holds : OtaPc → Option SnfOtaEvent
  | .send _ event => some event
  | .handle event => some event
  | _ => none

def EventAbout (core : OtaState G) (event : SnfOtaEvent) : Prop :=
  (∃ events, core.shared.eventQueue = some events ∧ event ∈ events) ∨
    ∃ i, (core.pcs i).holds = some event

theorem Asserted.holds (h : Asserted i p x) (hp : p.holds = some event) : x.taskHandle ≠ none := by
  cases p with
  | send request e => exact h.1
  | handle e =>
    obtain ⟨t,-,ht⟩ := h
    rw [ht]
    nofun
  | _ => cases hp

/-- Without a task the queue is empty or gone. -/
theorem CoreFacts.idle_queue (h : CoreFacts core) (hno : core.shared.taskHandle = none) :
    core.shared.eventQueue = none ∨ core.shared.eventQueue = some [] := by
  rcases h.whole.rest hno with hrest | ⟨j,hj⟩
  · exact Or.inl hrest.eventQueue
  · have ha := h.asserted j
    generalize core.pcs j = pc at hj ha
    cases pc with
    | startPrepare config => exact Or.inl ha.eventQueue
    | startQueue config => exact Or.inl ha.eventQueue
    | startInit config => exact Or.inr ha.eventQueue
    | startTask config => exact Or.inr ha.2.eventQueue
    | _ => cases hj

theorem CoreFacts.events_running (h : CoreFacts core) (he : EventAbout core event) :
    core.shared.taskHandle ≠ none := by
  rcases he with ⟨events,hq,hmem⟩ | ⟨i,hi⟩
  · intro hno
    rcases h.idle_queue hno with hnone | hnil
    · rw [hnone] at hq
      cases hq
    · rw [hnil] at hq
      cases hq
      cases hmem
  · exact (h.asserted i).holds hi

/-- What a move does to the queue: nothing, it sends, it receives, or there is nothing in it. -/
theorem OtaMove.queued {events : List SnfOtaEvent} (h : OtaMove sdk i p x q y)
    (hq : y.eventQueue = some events)
    (he : event ∈ events) : (∃ events, x.eventQueue = some events ∧ event ∈ events) ∨
      p.holds = some event := by
  have hkeep : y.eventQueue = x.eventQueue → ∃ events, x.eventQueue = some events ∧
      event ∈ events :=
    fun hsame => ⟨events, hsame ▸ hq, he⟩
  cases h with
  | given request ret hu => exact Or.inl (hkeep (otaUnlock_sameSession hu).eventQueue)
  | exitGiven hu => exact Or.inl (hkeep (otaUnlock_sameSession hu).eventQueue)
  | prepare x config sizeKnown =>
    refine Or.inl (hkeep ?_)
    unfold snfOtaStartPrepare
    split
    · rfl
    · split
      · rfl
      · split <;> rfl
  | queue config _ =>
    cases hq
    cases he
  | taskFailed x config => cases hq
  | teardown x => cases hq
  | @sent x before request sentEvent hb =>
    cases hq
    rcases List.mem_append.mp he with he | he
    · exact Or.inl ⟨before, hb, he⟩
    · cases List.mem_singleton.mp he
      exact Or.inr rfl
  | receive hr =>
    cases hq
    exact Or.inl ⟨_, hr, List.mem_cons_of_mem _ he⟩
  | data event bytes results _ _ hd =>
    obtain ⟨core,out,_,-,rfl⟩ := otaHandleDataEvent_result hd
    exact Or.inl (hkeep rfl)
  | _ => exact Or.inl (hkeep rfl)

theorem otaCheck_holds {request : OtaRequest} (h : (otaCheck i x request).holds = some event) :
    event = otaEvent i x request ∧ otaCheck i x request = .send request event := by
  unfold otaCheck at h ⊢
  cases request with
  | start config =>
    dsimp only at h
    split at h <;> cases h
  | write offset data len =>
    dsimp only at h ⊢
    split at h
    case isTrue => cases h
    case isFalse hrun =>
      split at h
      case isTrue => cases h
      case isFalse hcheck =>
        cases h
        rw [if_neg hrun, if_neg hcheck]
        exact ⟨rfl, rfl⟩
  | apply =>
    dsimp only at h ⊢
    split at h
    case isTrue => cases h
    case isFalse hrun =>
      split at h
      case isTrue => cases h
      case isFalse hcheck =>
        cases h
        rw [if_neg hrun, if_neg hcheck]
        exact ⟨rfl, rfl⟩
  | abort =>
    dsimp only at h ⊢
    split at h
    case isTrue => cases h
    case isFalse hrun =>
      cases h
      rw [if_neg hrun]
      exact ⟨rfl, rfl⟩

/-- What a move takes in hand: what it held, the first of the queue, or the event of a call that
has been admitted. -/
theorem OtaMove.holds (h : OtaMove sdk i p x q y) (hq : q.holds = some event) :
    p.holds = some event ∨ (∃ events, x.eventQueue = some events ∧ event ∈ events) ∨
      ∃ request, p = .check request ∧ q = .send request event ∧ event = otaEvent i x request ∧
        y = x := by
  cases h with
  | pc hpc =>
    cases hpc with
    | check request =>
      obtain ⟨hevent,hsend⟩ := otaCheck_holds hq
      exact Or.inr (Or.inr ⟨request, rfl, hsend, hevent, rfl⟩)
    | «return» next => cases next <;> cases hq
    | _ => cases hq
  | prepare x config sizeKnown => split at hq <;> cases hq
  | sent request sentEvent _ =>
    unfold afterSend at hq
    split at hq <;> cases hq
  | receive hr =>
    cases hq
    exact Or.inr (Or.inl ⟨_, hr, List.mem_cons_self⟩)
  | data event bytes results _ _ hd =>
    obtain ⟨core,out,_,rfl,-⟩ := otaHandleDataEvent_result hd
    cases hq
  | _ => cases hq

/-- Where an event comes from: it was there before, or a call has just been admitted. -/
theorem EventAbout.back (h : EventAbout core' event)
    (hstep : otaStep sdk core (i, label) = some core') :
    EventAbout core event ∨ ∃ request, core.pcs i = .check request ∧
      core'.pcs i = .send request event ∧
      event = otaEvent i core.shared request ∧ core'.shared = core.shared := by
  obtain ⟨r,hr,rfl⟩ := step_some hstep
  have hmove := otaNext_move hr
  rcases h with ⟨events,hq,hmem⟩ | ⟨j,hj⟩
  · rcases hmove.queued hq hmem with hqueue | hp
    · exact Or.inl (Or.inl hqueue)
    · exact Or.inl (Or.inr ⟨i, hp⟩)
  · by_cases hji : j = i
    · subst hji
      rw [Config.move_self] at hj
      rcases hmove.holds hj with hp | hqueue | ⟨request,hp,hq,hevent,hsame⟩
      · exact Or.inl (Or.inr ⟨j, hp⟩)
      · exact Or.inl (Or.inl hqueue)
      · refine Or.inr ⟨request, hp, ?_, hevent, ?_⟩
        · rwa [Config.move_self]
        · rwa [Config.move_shared]
    · rw [Config.move_other _ hji] at hj
      exact Or.inl (Or.inr ⟨j, hj⟩)

/-- The session and the event of a chunk that is consumed or an abort that is carried out. -/
def Observation.effect : Observation → Option (ℕ × SnfOtaEvent)
  | .consumed n event _ => some (n, event)
  | .aborted n event => some (n, event)
  | _ => none

/-- What takes effect is the event in the task's hand. -/
theorem OtaMove.effect {o : Observation} {n : ℕ} (h : OtaMove sdk i p x q y) (ho : o ∈ y.history)
    (he : o.effect = some (n, event)) : o ∈ x.history ∨ n = x.session ∧ p = .handle event ∧
      event.id ≠ .imageApply := by
  have hother : ∀ {o' : Observation} {rest : List Observation}, o'.effect = none → o ∈ o' :: rest →
      o ∈ rest := by
    intro o' rest hno hmem
    rcases List.mem_cons.mp hmem with rfl | hmem
    · rw [hno] at he
      cases he
    · exact hmem
  cases h with
  | given request ret hu => exact Or.inl ((otaUnlock_sameSession hu).history ▸ ho)
  | exitGiven hu => exact Or.inl ((otaUnlock_sameSession hu).history ▸ ho)
  | prepare x config sizeKnown =>
    exact Or.inl ((snfOtaStartPrepare_record x config sizeKnown).2 ▸ ho)
  | task x config => exact Or.inl (hother rfl ho)
  | timedOut _ => exact Or.inl (hother rfl ho)
  | data e bytes results hid _ hd =>
    obtain ⟨core,out,_,-,rfl⟩ := otaHandleDataEvent_result hd
    rcases List.mem_cons.mp (hother rfl ho) with rfl | hold
    · cases he
      exact Or.inr ⟨rfl, rfl, by rw [hid]; nofun⟩
    · exact Or.inl hold
  | apply x e _ => exact Or.inl (hother rfl ho)
  | abort x e hid =>
    rcases List.mem_cons.mp (hother rfl ho) with rfl | hold
    · cases he
      exact Or.inr ⟨rfl, rfl, by rw [hid]; nofun⟩
    · exact Or.inl hold
  | committed x e => exact Or.inl (hother rfl (hother rfl ho))
  | commitFailed x e => exact Or.inl (hother rfl (hother rfl ho))
  | _ => exact Or.inl ho

end Sonoff.Ota
