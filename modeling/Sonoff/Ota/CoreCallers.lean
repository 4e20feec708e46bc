import Sonoff.Ota.CommitSafety

/-! # The callers of the core

What a thread asks of the core is what it has called it with, and while a task lives every other
thread leaves its session alone, but for the events it sends.
-/
namespace Sonoff.Ota
open Bytes AesGcm NorFlash OtaParse Threads Machine

variable {G : Type} {sdk : Sdk G} {s : OtaState G} {i j : ThreadId} {p q : OtaPc}
  {x y : OtaSystem G} {t : ℕ}

def OtaRequest.call : OtaRequest → OtaCall
  | .start config => .start (some config)
  | .write offset data len => .write offset (some data) len
  | .apply => .apply
  | .abort => .abort

def OtaPc.asks : OtaPc → Option OtaCall
  | .params call => some call
  | .createMutex config | .startPrepare config | .startQueue config | .startInit config | .startTask
      config =>
    some (.start (some config))
  | .lock request | .take _ request | .check request | .send request _ | .count request _ | .unlock
      request _ =>
    some request.call
  | _ => none

theorem otaParams_call {call : OtaCall} {request : OtaRequest} (h : otaParams call = .ok request) :
    request.call = call := by
  cases call with
  | start config =>
    cases config with
    | none => cases h
    | some config =>
      simp only [otaParams] at h
      split at h
      · cases h
      · split at h
        · cases h
        · split at h
          · cases h
          · split at h <;> cases h
            rfl
  | write offset data len =>
    cases data with
    | none => cases h
    | some data =>
      simp only [otaParams] at h
      split at h <;> cases h
      rfl
  | apply =>
    cases h
    rfl
  | abort =>
    cases h
    rfl

theorem otaCheck_asks (request : OtaRequest) : (otaCheck i x request).asks = some request.call := by
  unfold otaCheck
  cases request <;> dsimp only <;> repeat' split
  all_goals rfl

theorem afterSend_asks (request : OtaRequest) (event : SnfOtaEvent) (ret : SnfOtaRet) :
    (afterSend request event ret).asks = some request.call := by
  unfold afterSend
  split <;> rfl

/-- A thread asks what it asked before, unless it has just called or returned. -/
theorem OtaMove.asks (h : OtaMove sdk i p x q y) :
    q.asks = p.asks ∨ q.asks = none ∨ ∃ ret call, p = .idle ret ∧ q = .params call := by
  cases h with
  | pc hpc =>
    cases hpc with
    | invoke ret call _ => exact Or.inr (Or.inr ⟨ret, call, rfl, rfl⟩)
    | first call config hcall _ => exact Or.inl (congrArg some (otaParams_call hcall))
    | request call request hcall => exact Or.inl (congrArg some (otaParams_call hcall))
    | check request => exact Or.inl (otaCheck_asks request)
    | «return» next => exact Or.inr (Or.inl (by cases next <;> rfl))
    | refuse call ret _ => exact Or.inr (Or.inl rfl)
    | noMutex request => exact Or.inr (Or.inl rfl)
    | _ => exact Or.inl rfl
  | mutexFailed x config => exact Or.inr (Or.inl rfl)
  | given request ret _ => exact Or.inr (Or.inl rfl)
  | prepare x config sizeKnown =>
    refine Or.inl ?_
    split <;> rfl
  | sent request event _ => exact Or.inl (afterSend_asks request event .ok)
  | data event bytes results _ _ hd =>
    obtain ⟨⟨next,rfl⟩,_⟩ := otaHandleDataEvent_frame hd
    exact Or.inl rfl
  | _ => exact Or.inl rfl

def Asks (May : ThreadId → OtaCall → Prop) (s : OtaState G) :
    Prop := ∀ i call, (s.pcs i).asks = some call → May i call

theorem Asks.step {May : ThreadId → OtaCall → Prop} (h : Asks May s) {label : OtaLabel}
    {s' : OtaState G} (hstep : otaStep sdk s (i, label) = some s')
    (hinvoke : ∀ call, label = .invoke call → May i call) : Asks May s' := by
  obtain ⟨r,hr,rfl⟩ := step_some hstep
  refine Config.move_forall (fun j (p : OtaPc) => ∀ call, p.asks = some call → May j call) ?_
    (fun j _ => h j)
  intro call hcall
  rcases (otaNext_move hr).asks with hq | hq | ⟨ret,call',hp,hq⟩
  · exact h i call (hq ▸ hcall)
  · rw [hq] at hcall
    cases hcall
  · rw [hq] at hcall
    cases hcall
    dsimp only at hr hp
    rw [hp] at hr
    cases label with
    | invoke call' =>
      simp only [otaNext] at hr
      split at hr
      · obtain rfl : call' = call := by
          have := congrArg Prod.fst (Option.some.inj hr)
          rw [hq] at this
          cases this
          rfl
        exact hinvoke call' rfl
      · cases hr
    | _ => cases hr

/-- What a step of a client leaves of a session: all but the events that are queued and counted. -/
structure Outsider (p : OtaPc) (x y : OtaSystem G) : Prop where
  taskHandle : y.taskHandle = x.taskHandle
  session : y.session = x.session
  history : y.history = x.history
  configured : y.core.config = x.core.config
  state : y.core.info.state = x.core.info.state
  received : y.core.info.receivedSize = x.core.info.receivedSize
  total : y.core.info.totalSize = x.core.info.totalSize
  queue : y.eventQueue = x.eventQueue ∨
    ∃ events request event, p = .send request event ∧ x.eventQueue = some events ∧
      y.eventQueue = some (events ++ [event])

theorem Outsider.refl (p : OtaPc) (x : OtaSystem G) :
    Outsider p x x := ⟨rfl, rfl, rfl, rfl, rfl, rfl, rfl, Or.inl rfl⟩

theorem SameSession.outsider (h : SameSession x y) : Outsider p x y :=
  ⟨h.taskHandle, h.session,
    h.history, by rw [h.core], by rw [h.core], by rw [h.core], by rw [h.core], Or.inl h.eventQueue⟩

theorem OtaMove.outsider (h : OtaMove sdk i p x q y) (ha : Asserted i p x)
    (hx : x.taskHandle = some t) (hi : i ≠ .task t) :
    Outsider p x y := by
  have hlive : p.live = false := by
    by_contra hl
    obtain ⟨u,hu,hux⟩ := ha.of_live (eq_true_of_ne_false hl)
    rw [hx] at hux
    cases hux
    exact hi hu
  have hrest : x.taskHandle ≠ none := by
    rw [hx]
    nofun
  cases h with
  | pc hpc => exact .refl p x
  | mutex x config => exact SameSession.outsider ⟨rfl, rfl, rfl, rfl, rfl, rfl⟩
  | mutexFailed x config => exact SameSession.outsider ⟨rfl, rfl, rfl, rfl, rfl, rfl⟩
  | taken m request _ => exact SameSession.outsider ⟨rfl, rfl, rfl, rfl, rfl, rfl⟩
  | given request ret hu => exact (otaUnlock_sameSession hu).outsider
  | exitGiven hu => exact (otaUnlock_sameSession hu).outsider
  | prepare x config sizeKnown => exact absurd ha.taskHandle hrest
  | queue config _ => exact absurd ha.taskHandle hrest
  | init x config => exact absurd ha.taskHandle hrest
  | task x config => exact absurd ha.1 hrest
  | taskFailed x config => exact absurd ha.1 hrest
  | sent request event hq =>
    exact ⟨rfl, rfl, rfl, rfl, rfl, rfl, rfl, Or.inr ⟨_, request, event, rfl, hq, rfl⟩⟩
  | count x request len => exact ⟨rfl, rfl, rfl, rfl, rfl, rfl, rfl, Or.inl rfl⟩
  | _ => cases hlive

end Sonoff.Ota
