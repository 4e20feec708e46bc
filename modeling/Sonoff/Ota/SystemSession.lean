import Sonoff.Ota.SystemMoves

/-! # Sessions begin fresh and end at rest

Assertions at the control points: what a start has prepared so far, and that the
only task alive is the one of the stored handle. Every other thread's step leaves
them valid, since the session data is written under the mutex or by that task.
-/
namespace Sonoff.Ota
open Bytes AesGcm NorFlash OtaParse Threads Machine

variable {G : Type}

def Unfed (parser : SnfOtaParseContext G) : Prop :=
  parser = .zero ∨ ∃ size fileName flashSize, parser = (snfOtaParseInit size fileName flashSize).1

/-- No session, no queue, nothing of a session left. -/
structure AtRest (x : OtaSystem G) : Prop where
  taskHandle : x.taskHandle = none
  eventQueue : x.eventQueue = none
  configured : x.core.config = .zero
  info : x.core.info = .zero
  parser : Unfed x.core.parser

structure ParserReady (config : SnfOtaConfig) (core : OtaCore G) : Prop where
  unfed : Unfed core.parser
  package : config.format = .package →
    snfOtaParseInit config.imageInfo.size (some config.fileName) core.flash.length =
      (core.parser, .none)

structure Preparing (config : SnfOtaConfig) (queue : Option (List SnfOtaEvent)) (x : OtaSystem G) :
    Prop where
  taskHandle : x.taskHandle = none
  eventQueue : x.eventQueue = queue
  configured : x.core.config = .zero
  info : x.core.info = .zero
  parser : ParserReady config x.core

/-- The data of a session that begins: an empty queue, and nothing that does not
come from its own configuration. -/
structure Fresh (config : SnfOtaConfig) (x : OtaSystem G) : Prop where
  eventQueue : x.eventQueue = some []
  configured : x.core.config = config
  info : x.core.info = { SnfOtaInfo.zero with totalSize := config.imageInfo.size, state :=
    .receiving }
  log : x.core.flash.log = []
  parser : ParserReady config x.core

/-- The control points at which a start writes session data. -/
def OtaPc.starting : OtaPc → Bool
  | .startPrepare _ | .startQueue _ | .startInit _ | .startTask _ => true
  | _ => false

def OtaPc.live : OtaPc → Bool
  | .receive | .timeout | .handle _ | .callback _ | .commit _ | .reboot | .exitLock | .exitTake
      _ | .teardown => true
  | _ => false

def OtaRequest.isStart : OtaRequest → Bool
  | .start _ => true
  | _ => false

def Asserted (i : ThreadId) (pc : OtaPc) (x : OtaSystem G) : Prop :=
  match pc with
  | .startPrepare _ => AtRest x
  | .startQueue config => Preparing config none x
  | .startInit config => Preparing config (some []) x
  | .startTask config => x.taskHandle = none ∧ Fresh config x
  | .send request _ => x.taskHandle ≠ none ∧ request.isStart = false
  | .count request _ => x.taskHandle ≠ none ∧ request.isStart = false
  | .unlock request ret => request.isStart = true → ret ≠ .ok → ret ≠ .errBusy → AtRest x
  | .created => ∀ t, i = .task t → t < x.taskCount → x.taskHandle = some t
  | .exitUnlock => ∃ t, i = .task t ∧ t < x.taskCount ∧ x.taskHandle ≠ some t
  | .deleted => ∃ t, i = .task t ∧ t < x.taskCount ∧ x.taskHandle ≠ some t
  | .receive | .timeout | .handle _ | .callback _ | .commit _ | .reboot | .exitLock | .exitTake
      _ | .teardown =>
    ∃ t, i = .task t ∧ x.taskHandle = some t
  | _ => True

theorem Asserted.of_live {i : ThreadId} {pc : OtaPc} {x : OtaSystem G} (hl : pc.live = true)
    (h : Asserted i pc x) : ∃ t, i = .task t ∧ x.taskHandle = some t := by
  cases pc with
  | receive | timeout | handle | callback | commit | reboot | exitLock | exitTake | teardown =>
    exact h
  | _ => cases hl

theorem Asserted.live_of {i : ThreadId} {pc : OtaPc} {x : OtaSystem G} (hl : pc.live = true)
    (h : ∃ t, i = .task t ∧ x.taskHandle = some t) : Asserted i pc x := by
  cases pc with
  | receive | timeout | handle | callback | commit | reboot | exitLock | exitTake | teardown =>
    exact h
  | _ => cases hl

variable {i j : ThreadId} {p q : OtaPc} {x y : OtaSystem G}

theorem AtRest.same (h : AtRest x) (hs : SameSession x y) : AtRest y :=
  ⟨hs.taskHandle ▸ h.taskHandle, hs.eventQueue ▸ h.eventQueue, hs.core ▸ h.configured,
    hs.core ▸ h.info, hs.core ▸ h.parser⟩

theorem Preparing.same {config : SnfOtaConfig} {queue : Option (List SnfOtaEvent)}
    (h : Preparing config queue x) (hs : SameSession x y) : Preparing config queue y :=
  ⟨hs.taskHandle ▸ h.taskHandle, hs.eventQueue ▸ h.eventQueue, hs.core ▸ h.configured,
    hs.core ▸ h.info, hs.core ▸ h.parser⟩

theorem Fresh.same {config : SnfOtaConfig} (h : Fresh config x) (hs : SameSession x y) :
    Fresh config y :=
  ⟨hs.eventQueue ▸ h.eventQueue, hs.core ▸ h.configured, hs.core ▸ h.info, hs.core ▸ h.log,
    hs.core ▸ h.parser⟩

theorem Asserted.same (h : Asserted i p x) (hs : SameSession x y) : Asserted i p y := by
  have hh := hs.taskHandle
  have hc := hs.taskCount
  cases p <;> simp only [Asserted, hh, hc] at h ⊢ <;> try exact h
  case startPrepare => exact h.same hs
  case startQueue => exact h.same hs
  case startInit => exact h.same hs
  case startTask => exact ⟨h.1, h.2.same hs⟩
  case unlock => exact fun h₁ h₂ h₃ => (h h₁ h₂ h₃).same hs

/-- Outside the critical section only the handle and the number of tasks matter. -/
theorem Asserted.outside (h : Asserted i p x) (hp : p.critical = false)
    (hh : y.taskHandle = x.taskHandle) (hc : y.taskCount = x.taskCount) : Asserted i p y := by
  cases p with
  | check | startPrepare | startQueue | startInit | startTask | send | count | unlock | teardown
  | exitUnlock =>
    cases hp
  | idle | params | createMutex | lock | take => trivial
  | _ => simpa only [Asserted, hh, hc] using h

/-- While a session runs nothing else matters either. -/
theorem Asserted.running (h : Asserted i p x) {t : ℕ} (hx : x.taskHandle = some t)
    (hh : y.taskHandle = x.taskHandle) (hc : y.taskCount = x.taskCount) : Asserted i p y := by
  cases p <;> simp only [Asserted, hh, hc] at h ⊢ <;> try exact h
  case startPrepare =>
    have := h.taskHandle
    rw [hx] at this
    cases this
  case startQueue =>
    have := h.taskHandle
    rw [hx] at this
    cases this
  case startInit =>
    have := h.taskHandle
    rw [hx] at this
    cases this
  case startTask =>
    rw [hx] at h
    cases h.1
  case unlock =>
    intro h₁ h₂ h₃
    have := (h h₁ h₂ h₃).taskHandle
    rw [hx] at this
    cases this

/-- A new task finds the assertions of the threads outside the critical section valid. -/
theorem Asserted.spawn (h : Asserted i p x) (hp : p.critical = false) (hx : x.taskHandle = none)
    (hh : y.taskHandle = some x.taskCount) (hc : y.taskCount = x.taskCount + 1) :
    Asserted i p y := by
  by_cases hl : p.live = true
  · obtain ⟨t,_,ht⟩ := h.of_live hl
    rw [hx] at ht
    cases ht
  · cases p with
    | created =>
      intro t hit hlt
      rw [hc] at hlt
      rcases Nat.lt_succ_iff_lt_or_eq.mp hlt with hlt | rfl
      · have := h t hit hlt
        rw [hx] at this
        cases this
      · exact hh
    | deleted =>
      obtain ⟨t,hit,hlt,_⟩ := h
      refine ⟨t, hit, by omega, ?_⟩
      rw [hh, ne_eq, Option.some.injEq]
      omega
    | _ => trivial

/-- The end of another task leaves the session asserted. -/
theorem Asserted.reap (h : Asserted i p x) (hp : p.critical = false) {t : ℕ}
    (hx : x.taskHandle = some t) (hi : i ≠ .task t) (hh : y.taskHandle = none)
    (hc : y.taskCount = x.taskCount) : Asserted i p y := by
  by_cases hl : p.live = true
  · obtain ⟨u,hiu,hu⟩ := h.of_live hl
    rw [hx] at hu
    cases hu
    exact absurd hiu hi
  · cases p with
    | created =>
      intro u hiu hlt
      rw [hc] at hlt
      have := h u hiu hlt
      rw [hx] at this
      cases this
      exact absurd hiu hi
    | deleted =>
      obtain ⟨u,hiu,hlt,_⟩ := h
      exact ⟨u, hiu, by omega, by rw [hh]; exact nofun⟩
    | _ => trivial

/-- What holds of the whole: a session has a queue, and without a session the
core is at rest unless a start is on its way. -/
structure Whole (s : OtaState G) : Prop where
  running : ∀ t, s.shared.taskHandle = some t → t < s.shared.taskCount ∧ s.shared.eventQueue ≠ none
  locked : s.shared.taskHandle ≠ none → s.shared.mutex ≠ none
  rest : s.shared.taskHandle = none → AtRest s.shared ∨ ∃ j, (s.pcs j).starting = true

theorem starting_critical (h : p.starting = true) : p.critical = true := by
  cases p with
  | check | startPrepare | startQueue | startInit | startTask | send | count | unlock | teardown
  | exitUnlock => rfl
  | _ => cases h

structure Kept (s : OtaState G) (i : ThreadId) (q : OtaPc) (y : OtaSystem G) : Prop where
  whole : Whole (s.move i (q, y))
  mover : Asserted i q y
  others : ∀ j, j ≠ i → Asserted j (s.pcs j) y

variable {s : OtaState G} {t : ℕ}

section Frame
variable (hw : Whole s) (ha : ∀ j, Asserted j (s.pcs j) s.shared)
  (hm : s.shared.mutex ≠ none → y.mutex ≠ none)
include hw ha hm

theorem Kept.same (hs : SameSession s.shared y) (hq : Asserted i q y)
    (hstart : (s.pcs i).starting = true → q.starting = true ∨ AtRest y) : Kept s i q y := by
  refine ⟨⟨?_, ?_, ?_⟩, hq, fun j _ => (ha j).same hs⟩
  · intro t ht
    simp only [Config.move_shared, hs.taskHandle, hs.taskCount, hs.eventQueue] at ht ⊢
    exact hw.running t ht
  · intro hne
    simp only [Config.move_shared, hs.taskHandle] at hne
    exact hm (hw.locked hne)
  · intro hno
    simp only [Config.move_shared, hs.taskHandle] at hno
    rcases hw.rest hno with hr | ⟨j,hj⟩
    · exact Or.inl (hr.same hs)
    · by_cases hji : j = i
      · subst hji
        rcases hstart hj with hqs | hr
        · exact Or.inr ⟨j, by rwa [Config.move_self]⟩
        · exact Or.inl hr
      · exact Or.inr ⟨j, by rwa [Config.move_other s hji]⟩

theorem Kept.running (hx : s.shared.taskHandle = some t) (hh : y.taskHandle = s.shared.taskHandle)
    (hc : y.taskCount = s.shared.taskCount) (hqueue : y.eventQueue ≠ none) (hq : Asserted i q y) :
    Kept s i q y := by
  refine ⟨⟨?_, ?_, ?_⟩, hq, fun j _ => (ha j).running hx hh hc⟩
  · intro u hu
    simp only [Config.move_shared, hh, hc] at hu ⊢
    exact ⟨(hw.running u hu).1, hqueue⟩
  · intro _
    exact hm (hw.locked (by simp [hx]))
  · intro hno
    simp only [Config.move_shared, hh, hx] at hno
    cases hno

omit hw hm in
theorem Kept.starting (howned : (otaMutex G).Owned s) (hi : (s.pcs i).critical = true)
    (hx : s.shared.taskHandle = none) (hh : y.taskHandle = s.shared.taskHandle)
    (hc : y.taskCount = s.shared.taskCount) (hstart : q.starting = true ∨ AtRest y)
    (hq : Asserted i q y) : Kept s i q y := by
  refine ⟨⟨?_, ?_, ?_⟩, hq, fun j hj => (ha j).outside ?_ hh hc⟩
  · intro u hu
    simp only [Config.move_shared, hh, hx] at hu
    cases hu
  · intro hne
    exact absurd (hh.trans hx) hne
  · intro _
    rcases hstart with hqs | hr
    · exact Or.inr ⟨i, by rwa [Config.move_self]⟩
    · exact Or.inl hr
  · by_contra hcrit
    exact hj (howned.exclusive (eq_true_of_ne_false hcrit) hi)

end Frame

theorem snfOtaStartPrepare_result (x : OtaSystem G) (config : SnfOtaConfig) (sizeKnown : Bool)
    (hrest : AtRest x) :
    ((snfOtaStartPrepare x config sizeKnown).1 = .ok ∧
    Preparing config none (snfOtaStartPrepare x config sizeKnown).2)
      ∨ ((snfOtaStartPrepare x config sizeKnown).1 ≠ .ok ∧
        AtRest (snfOtaStartPrepare x config sizeKnown).2) := by
  unfold snfOtaStartPrepare
  split
  · exact Or.inr ⟨by simp, hrest⟩
  · split
    · exact Or.inr ⟨by simp, hrest⟩
    · split
      case isTrue =>
        have hunfed : Unfed (snfOtaParseInit config.imageInfo.size (some config.fileName)
            x.core.flash.length : SnfOtaParseContext G × SnfOtaErrorCode).1 := Or.inr ⟨_,_,_,rfl⟩
        dsimp only
        split
        case isTrue =>
          exact Or.inr ⟨by simp, hrest.taskHandle, hrest.eventQueue, hrest.configured, hrest.info,
            hunfed⟩
        case isFalse hok =>
          refine Or.inl ⟨rfl, hrest.taskHandle, hrest.eventQueue, hrest.configured, hrest.info,
            hunfed, fun _ => ?_⟩
          exact Prod.ext rfl (not_not.mp hok)
      case isFalse hp =>
        exact Or.inl ⟨rfl, hrest.taskHandle, hrest.eventQueue, hrest.configured, hrest.info,
          hrest.parser, fun h => absurd h hp⟩

theorem snfOtaStartPrepare_frame (x : OtaSystem G) (config : SnfOtaConfig) (sizeKnown : Bool) :
    (snfOtaStartPrepare x config sizeKnown).2.taskHandle = x.taskHandle
      ∧ (snfOtaStartPrepare x config sizeKnown).2.taskCount = x.taskCount := by
  unfold snfOtaStartPrepare
  split
  · exact ⟨rfl, rfl⟩
  · split
    · exact ⟨rfl, rfl⟩
    · split <;> exact ⟨rfl, rfl⟩

theorem otaCheck_asserted (hrest : x.taskHandle = none → AtRest x) (request : OtaRequest) :
    Asserted i (otaCheck i x request) x := by
  unfold otaCheck
  cases request with
  | start config =>
    dsimp only
    split
    case isTrue => exact fun _ _ h => absurd rfl h
    case isFalse hno =>
      exact hrest (not_not.mp hno)
  | write offset data len =>
    dsimp only
    split
    · exact nofun
    · split
      · exact nofun
      · exact ⟨‹_›, rfl⟩
  | apply =>
    dsimp only
    split
    · exact nofun
    · split
      · exact nofun
      · exact ⟨‹_›, rfl⟩
  | abort =>
    dsimp only
    split
    · exact nofun
    · exact ⟨‹_›, rfl⟩

theorem AfterNotify.pc_live (next : AfterNotify) : next.pc.live = true := by cases next <;> rfl

/-- The moves that leave the shared data alone. -/
theorem PcMove.asserted (h : PcMove i x p q) (ha : Asserted i p x)
    (hlock : x.taskHandle ≠ none → x.mutex ≠ none)
    (hrest : ∀ request, p = .check request → x.taskHandle = none → AtRest x) : Asserted i q x := by
  cases h with
  | check request => exact otaCheck_asserted (hrest request rfl) request
  | keepQueue config hq => exact absurd ha.eventQueue hq
  | noQueue config hq =>
    exact fun _ _ _ => ⟨ha.taskHandle, ha.eventQueue, ha.configured, ha.info, ha.parser.unfed⟩
  | sendFailed request event ret hret => exact fun h => absurd ha.2 (by simp [h])
  | run t hi ht => exact ⟨t, hi, ha t hi ht⟩
  | «return» next =>
    exact Asserted.live_of next.pc_live (@Asserted.of_live _ i (.callback next) x rfl ha)
  | exitNoMutex hno =>
    obtain ⟨t,_,ht⟩ := ha
    exact absurd hno (hlock (by simp [ht]))
  | elapse _ => exact ha
  | waitAgain _ => exact ha
  | restart => exact ha
  | exitWait _ _ => exact ha
  | _ => trivial

/-- A start that leaves its control points has left the core at rest. -/
theorem PcMove.leaves (h : PcMove i x p q) (ha : Asserted i p x) (hp : p.starting = true) :
    q.starting = true ∨ AtRest x := by
  cases h with
  | keepQueue config hq => exact Or.inl rfl
  | noQueue config hq =>
    exact Or.inr ⟨ha.taskHandle, ha.eventQueue, ha.configured, ha.info, ha.parser.unfed⟩
  | _ => cases hp

theorem otaHandleDataEvent_frame {sdk : Sdk G} {event : SnfOtaEvent} {bytes : List UInt8}
    {results : List OpResult} (h : otaHandleDataEvent sdk x event bytes results = some (q, y)) :
    (∃ next, q = .callback next) ∧ y.taskHandle = x.taskHandle ∧ y.taskCount = x.taskCount
      ∧ y.eventQueue = x.eventQueue := by
  obtain ⟨core,out,_,rfl,rfl⟩ := otaHandleDataEvent_result h
  exact ⟨⟨_,rfl⟩, rfl, rfl, rfl⟩

/-- The step lemma. -/
theorem OtaMove.kept {sdk : Sdk G} (h : OtaMove sdk i (s.pcs i) s.shared q y)
    (howned : (otaMutex G).Owned s)
    (hkeep : (s.pcs i).createsMutex = true → s.shared.mutex = none) (hw : Whole s)
    (ha : ∀ j, Asserted j (s.pcs j) s.shared) : Kept s i q y := by
  have hm : s.shared.mutex ≠ none → y.mutex ≠ none := (h.disciplined howned hkeep).stored
  have hi := ha i
  have hcrit : (s.pcs i).critical = true → ∀ j, (s.pcs j).critical = true → j = i := fun h j hj =>
    howned.exclusive hj h
  have hlive : (s.pcs i).live = true → y.taskHandle = s.shared.taskHandle →
    y.taskCount = s.shared.taskCount →
      y.eventQueue ≠ none → q.live = true → Kept s i q y := by
    intro hl hh hc hqueue hq
    obtain ⟨t,hit,ht⟩ := hi.of_live hl
    exact Kept.running hw ha hm ht hh hc hqueue (.live_of hq ⟨t, hit, hh.trans ht⟩)
  have hqueue : (s.pcs i).live = true → s.shared.eventQueue ≠ none := by
    intro hl
    obtain ⟨t,_,ht⟩ := hi.of_live hl
    exact (hw.running t ht).2
  generalize hp : s.pcs i = p at *
  generalize hx : s.shared = x at *
  cases h with
  | pc hpc =>
    subst hx
    refine Kept.same hw ha hm (.refl _) (hpc.asserted hi hw.locked ?_) (fun hs =>
      hpc.leaves hi (hp ▸ hs))
    intro request hreq hno
    rcases hw.rest hno with hr | ⟨j,hj⟩
    · exact hr
    · have := hcrit (by rw [hreq]; rfl) j (starting_critical hj)
      subst this
      rw [hp, hreq] at hj
      cases hj
  | mutex x config =>
    subst hx
    exact Kept.same hw ha hm ⟨rfl,rfl,rfl,rfl,rfl,rfl⟩ trivial
      (fun hs => by rw [hp] at hs; cases hs)
  | mutexFailed x config =>
    subst hx
    exact Kept.same hw ha hm ⟨rfl,rfl,rfl,rfl,rfl,rfl⟩ trivial
      (fun hs => by rw [hp] at hs; cases hs)
  | taken m request _ =>
    subst hx
    exact Kept.same hw ha hm ⟨rfl,rfl,rfl,rfl,rfl,rfl⟩ trivial
      (fun hs => by rw [hp] at hs; cases hs)
  | exitTaken m _ =>
    subst hx
    exact Kept.same hw ha hm ⟨rfl,rfl,rfl,rfl,rfl,rfl⟩ hi (fun hs => by rw [hp] at hs; cases hs)
  | given request ret hu =>
    subst hx
    exact Kept.same hw ha hm (otaUnlock_sameSession hu) trivial
      (fun hs => by rw [hp] at hs; cases hs)
  | exitGiven hu =>
    subst hx
    have hsame := otaUnlock_sameSession hu
    exact Kept.same hw ha hm hsame (Asserted.same (p := .deleted) hi hsame)
      (fun hs => by rw [hp] at hs; cases hs)
  | prepare x config sizeKnown =>
    subst hx
    have hframe := snfOtaStartPrepare_frame s.shared config sizeKnown
    refine Kept.starting ha howned (by rw [hp]; rfl) hi.taskHandle hframe.1 hframe.2 ?_ ?_
    · rcases snfOtaStartPrepare_result s.shared config sizeKnown hi with ⟨hok,_⟩ | ⟨_,hr⟩
      · exact Or.inl (by rw [if_pos hok]; rfl)
      · exact Or.inr hr
    · rcases snfOtaStartPrepare_result s.shared config sizeKnown hi with ⟨hok,hr⟩ | ⟨hno,hr⟩
      · rw [if_pos hok]
        exact hr
      · rw [if_neg hno]
        exact fun _ _ _ => hr
  | queue config _ =>
    subst hx
    exact Kept.starting ha howned (by rw [hp]; rfl) hi.taskHandle rfl rfl (Or.inl rfl)
      ⟨hi.taskHandle, rfl, hi.configured, hi.info, hi.parser⟩
  | init x config =>
    subst hx
    exact Kept.starting ha howned (by rw [hp]; rfl) hi.taskHandle rfl rfl (Or.inl rfl)
      ⟨hi.taskHandle, hi.eventQueue, rfl, rfl, rfl, hi.parser.unfed, hi.parser.package⟩
  | task x config =>
    subst hx
    have hcr : (s.pcs i).critical = true := by rw [hp]; rfl
    refine ⟨⟨?_, ?_, ?_⟩, fun _ h => absurd rfl h, fun j hj => (ha j).spawn ?_ hi.1 rfl rfl⟩
    · rintro t ht
      cases ht
      refine ⟨Nat.lt_succ_self _, ?_⟩
      show s.shared.eventQueue ≠ none
      rw [hi.2.eventQueue]
      exact nofun
    · intro _
      obtain ⟨m,hmx,_⟩ := (howned.critical i).mp hcr
      exact hm (by rw [show s.shared.mutex = some m from hmx]; exact nofun)
    · exact nofun
    · by_contra hj'
      exact hj (howned.exclusive (eq_true_of_ne_false hj') hcr)
  | taskFailed x config =>
    subst hx
    have hrest : AtRest (otaClearSessionLocked (s.shared.setQueue none)) :=
      ⟨rfl, rfl, rfl, rfl, Or.inl rfl⟩
    exact Kept.starting ha howned (by rw [hp]; rfl) hi.1 hi.1.symm rfl (Or.inr hrest) (fun _ _ _ =>
      hrest)
  | sent request event hq =>
    subst hx
    obtain ⟨t,ht⟩ := Option.ne_none_iff_exists'.mp hi.1
    refine Kept.running hw ha hm ht rfl rfl nofun ?_
    unfold afterSend
    split
    · exact hi
    · exact fun h => absurd hi.2 (by simp [h])
  | count x request len =>
    subst hx
    obtain ⟨t,ht⟩ := Option.ne_none_iff_exists'.mp hi.1
    exact Kept.running hw ha hm ht rfl rfl (hw.running t ht).2 (fun h => absurd hi.2 (by simp [h]))
  | data event bytes results _ _ hd =>
    subst hx
    obtain ⟨⟨next,rfl⟩,hh,hc,hq⟩ := otaHandleDataEvent_frame hd
    exact hlive rfl hh hc (hq ▸ hqueue rfl) rfl
  | receive hq =>
    subst hx
    exact hlive rfl rfl rfl nofun rfl
  | teardown x =>
    subst hx
    have hcr : (s.pcs i).critical = true := by rw [hp]; rfl
    obtain ⟨t,rfl,ht⟩ := hi
    refine ⟨⟨nofun, fun h => absurd rfl h, fun _ => Or.inl ⟨rfl,rfl,rfl,rfl,Or.inl rfl⟩⟩, ?_,
      fun j hj => ?_⟩
    · exact ⟨t, rfl, (hw.running t ht).1, nofun⟩
    · refine (ha j).reap ?_ ht hj rfl rfl
      by_contra hj'
      exact hj (howned.exclusive (eq_true_of_ne_false hj') hcr)
  | _ =>
    subst hx
    exact hlive rfl rfl rfl (hqueue rfl) rfl

theorem otaBoot_whole (flash : Flash) : Whole (otaBoot G flash) :=
  ⟨nofun, fun h => absurd rfl h, fun _ => Or.inl ⟨rfl,rfl,rfl,rfl,Or.inl rfl⟩⟩

theorem otaBoot_asserted (flash : Flash) (i : ThreadId) :
    Asserted i ((otaBoot G flash).pcs i) (otaBoot G flash).shared := by
  cases i with
  | client n => trivial
  | task n => exact fun t _ ht => absurd ht (Nat.not_lt_zero t)

/-- In every run within the guard the assertions hold. -/
theorem reach_asserted {sdk : Sdk G} {flash : Flash}
    (h : Reach (otaStep sdk) keepsMutex (otaBoot G flash) s) :
    Whole s ∧ ∀ i, Asserted i (s.pcs i) s.shared := by
  refine @assertions _ _ _ _ _ (otaNext sdk) keepsMutex (otaBoot G flash) Asserted Whole
    (otaMutex G).Owned (fun s hs => reach_owned hs) (otaBoot_asserted flash) (otaBoot_whole flash)
    ?_ s h
  intro s i label r howned hw ha hok hr
  have hkept := (otaNext_move hr).kept howned hok hw ha
  exact ⟨hkept.whole, hkept.mover, hkept.others⟩

def OtaPc.ofTask : OtaPc → Bool
  | .created | .exitUnlock | .deleted => true
  | pc => pc.live

def ThreadId.isTask : ThreadId → Bool
  | .task _ => true
  | .client _ => false

theorem otaCheck_ofTask (i : ThreadId) (x : OtaSystem G) (request : OtaRequest) :
    (otaCheck i x request).ofTask = false := by
  unfold otaCheck
  cases request <;> dsimp only <;> repeat (split; exact rfl)
  all_goals exact rfl

theorem OtaMove.ofTask {sdk : Sdk G} (h : OtaMove sdk i p x q y) : q.ofTask = p.ofTask := by
  cases h with
  | pc hpc =>
    cases hpc with
    | check request => exact otaCheck_ofTask i x request
    | «return» next => cases next <;> rfl
    | _ => rfl
  | prepare config sizeKnown => split <;> rfl
  | sent request event _ =>
    unfold afterSend
    split <;> rfl
  | data event bytes results _ _ hd =>
    obtain ⟨⟨next,rfl⟩,_⟩ := otaHandleDataEvent_frame hd
    rfl
  | _ => rfl

theorem reach_ofTask {sdk : Sdk G} {ok : OtaState G → ThreadId × OtaLabel → Prop} {flash : Flash}
    (h : Reach (otaStep sdk) ok (otaBoot G flash) s) (i : ThreadId) :
    (s.pcs i).ofTask = i.isTask := by
  refine @Reach.invariant _ _ _ _ _ (fun s => ∀ i, (s.pcs i).ofTask = i.isTask)
    (fun i => by cases i <;> rfl) ?_ s h i
  rintro s ⟨i,label⟩ t hs _ hstep
  obtain ⟨r,hr,rfl⟩ := step_some hstep
  exact Config.move_forall (fun j (p : OtaPc) => p.ofTask = j.isTask)
    ((otaNext_move hr).ofTask.trans (hs i)) (fun j _ => hs j)

/-- The task was created and has not torn its session down yet. -/
def TaskAlive (s : OtaState G) (t : ℕ) : Prop :=
  t < s.shared.taskCount ∧ s.pcs (.task t) ≠ .exitUnlock ∧ s.pcs (.task t) ≠ .deleted

/-- The only task alive is that of the stored handle. -/
theorem TaskAlive.handle (ha : ∀ j, Asserted j (s.pcs j) s.shared)
    (hof : ∀ j, (s.pcs j).ofTask = j.isTask)
    (h : TaskAlive s t) : s.shared.taskHandle = some t := by
  have hi := ha (.task t)
  have ho := hof (.task t)
  obtain ⟨hlt,hne,hne'⟩ := h
  by_cases hl : (s.pcs (.task t)).live = true
  · obtain ⟨u,hu,hh⟩ := hi.of_live hl
    cases hu
    exact hh
  · generalize s.pcs (.task t) = p at *
    cases p with
    | created => exact hi t rfl hlt
    | exitUnlock => exact absurd rfl hne
    | deleted => exact absurd rfl hne'
    | receive | timeout | handle | callback | commit | reboot | exitLock | exitTake | teardown =>
      exact absurd rfl hl
    | _ => cases ho

end Sonoff.Ota
