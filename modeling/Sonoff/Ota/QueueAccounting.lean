import Sonoff.Ota.StartIsolation

/-! # The queue accounts for every admitted byte

Admission counts under the mutex, consumption in the task. While the session is
active the data events queued or in the task's hand continue the received input
without a gap up to what has been enqueued.
-/
namespace Sonoff.Ota
open Bytes AesGcm NorFlash OtaParse Threads Machine

variable {G : Type}

def Contiguous : ℕ → List SnfOtaEvent → ℕ → Prop
  | first, [], last => first = last
  | first, event :: rest, last =>
    if event.id = .imageData then event.offset = first ∧ 0 < event.size ∧
      Contiguous (first + event.size) rest last
    else Contiguous first rest last

def pendingSize : List SnfOtaEvent → ℕ
  | [] => 0
  | event :: rest => (if event.id = .imageData then event.size else 0) + pendingSize rest

theorem Contiguous.size {first last : ℕ} {events : List SnfOtaEvent}
    (h : Contiguous first events last) :
    first + pendingSize events = last := by
  induction events generalizing first with
  | nil => exact h
  | cons event rest ih =>
    unfold Contiguous at h
    unfold pendingSize
    split at h
    case isTrue hid =>
      have := ih h.2.2
      rw [if_pos hid]
      omega
    case isFalse hid =>
      have := ih h
      rw [if_neg hid]
      omega

theorem Contiguous.append {first last : ℕ} {events : List SnfOtaEvent}
    (h : Contiguous first events last)
    {event : SnfOtaEvent} (hid : event.id = .imageData) (ho : event.offset = last)
    (hs : 0 < event.size) : Contiguous first (events ++ [event]) (last + event.size) := by
  induction events generalizing first with
  | nil =>
    cases h
    simp only [List.nil_append, Contiguous, hid, if_true]
    exact ⟨ho,hs,trivial⟩
  | cons e rest ih =>
    simp only [Contiguous, List.cons_append] at h ⊢
    split at h
    case isTrue he =>
      rw [if_pos he]
      exact ⟨h.1, h.2.1, ih h.2.2⟩
    case isFalse he =>
      rw [if_neg he]
      exact ih h

theorem Contiguous.append_other {first last : ℕ} {events : List SnfOtaEvent}
    (h : Contiguous first events last)
    {event : SnfOtaEvent} (hid : event.id ≠ .imageData) :
    Contiguous first (events ++ [event]) last := by
  induction events generalizing first with
  | nil =>
    cases h
    simp only [List.nil_append, Contiguous, hid, if_false]
  | cons e rest ih =>
    simp only [Contiguous, List.cons_append] at h ⊢
    split at h
    case isTrue he =>
      rw [if_pos he]
      exact ⟨h.1, h.2.1, ih h.2.2⟩
    case isFalse he =>
      rw [if_neg he]
      exact ih h

/-- No byte is pending where every event left is of another kind. -/
theorem Contiguous.no_data {first : ℕ} {events : List SnfOtaEvent}
    (h : Contiguous first events first) : ∀ event ∈ events, event.id ≠ .imageData := by
  have hsize := h.size
  have hpos : ∀ {first last : ℕ} {events : List SnfOtaEvent}, Contiguous first events last →
      ∀ event ∈ events, event.id = .imageData → 0 < pendingSize events := by
    intro first last events h
    induction events generalizing first with
    | nil => exact nofun
    | cons e rest ih =>
      unfold Contiguous at h
      unfold pendingSize
      intro event he hid
      split at h
      case isTrue hed =>
        rw [if_pos hed]
        omega
      case isFalse hed =>
        rcases List.mem_cons.mp he with rfl | he
        · exact absurd hid hed
        · have := ih h event he hid
          omega
  intro event he hid
  have := hpos h event he hid
  omega

def OtaRequest.wellFormed : OtaRequest → Bool
  | .start config => config.imageInfo.size < 4294967296
  | .write _ _ len => 0 < len
  | _ => true

/-- Sizes are `uint32_t`s, and a request to write has bytes. -/
def OtaPc.wellFormed : OtaPc → Bool
  | .params call => call.inRange
  | .createMutex config | .startPrepare config | .startQueue config | .startInit config | .startTask
      config =>
    config.imageInfo.size < 4294967296
  | .lock request | .take _ request | .check request => request.wellFormed
  | _ => true

variable {sdk : Sdk G} {s : OtaState G} {i j : ThreadId} {p q : OtaPc} {x y : OtaSystem G} {t : ℕ}

theorem otaParams_wellFormed {call : OtaCall} {request : OtaRequest} (hr : call.inRange = true)
    (h : otaParams call = .ok request) : request.wellFormed = true := by
  cases call with
  | start config =>
    cases config with
    | none => cases h
    | some config =>
      simp only [otaParams] at h
      split at h
      · cases h
      · split at h
        · cases h
        · split at h
          · cases h
          · split at h <;> cases h
            exact hr
  | write offset data len =>
    cases data with
    | none => cases h
    | some data =>
      simp only [otaParams] at h
      split at h
      case isTrue => cases h
      case isFalse hlen =>
        cases h
        exact decide_eq_true (Nat.pos_of_ne_zero hlen)
  | apply =>
    cases h
    rfl
  | abort =>
    cases h
    rfl

theorem otaCheck_wellFormed {request : OtaRequest} (h : (OtaPc.check request).wellFormed = true) :
    (otaCheck i x request).wellFormed = true := by
  unfold otaCheck
  cases request with
  | start config =>
    dsimp only
    split
    · rfl
    · exact h
  | _ =>
    dsimp only
    repeat' split
    all_goals rfl

theorem OtaMove.wellFormed (h : OtaMove sdk i p x q y) (hp : p.wellFormed = true) :
    q.wellFormed = true := by
  cases h with
  | pc hpc =>
    cases hpc with
    | invoke ret call hr => exact hr
    | first call config hcall _ => exact otaParams_wellFormed hp hcall
    | request call request hcall => exact otaParams_wellFormed hp hcall
    | wait request m _ => exact hp
    | check request => exact otaCheck_wellFormed hp
    | keepQueue config _ => exact hp
    | «return» next => cases next <;> rfl
    | _ => rfl
  | mutex x config => exact hp
  | taken m request _ => exact hp
  | prepare x config sizeKnown =>
    split
    · exact hp
    · rfl
  | queue config _ => exact hp
  | init x config => exact hp
  | sent request event _ =>
    unfold afterSend
    split <;> rfl
  | data event bytes results _ _ hd =>
    obtain ⟨⟨next,rfl⟩,_⟩ := otaHandleDataEvent_frame hd
    rfl
  | _ => rfl

theorem reach_wellFormed {ok : OtaState G → ThreadId × OtaLabel → Prop} {flash : Flash}
    (h : Reach (otaStep sdk) ok (otaBoot G flash) s) (i : ThreadId) :
    (s.pcs i).wellFormed = true := by
  refine @Reach.invariant _ _ _ _ _ (fun s => ∀ i, (s.pcs i).wellFormed = true)
    (fun i => by cases i <;> rfl) ?_ s h i
  rintro s ⟨i,label⟩ t hs _ hstep
  obtain ⟨r,hr,rfl⟩ := step_some hstep
  exact Config.move_forall (fun _ (p : OtaPc) => p.wellFormed = true)
    ((otaNext_move hr).wellFormed (hs i)) (fun j _ => hs j)

def OtaPc.inHand : OtaPc → List SnfOtaEvent
  | .handle event => [event]
  | _ => []

def OtaPc.counting : OtaPc → Bool
  | .count _ _ => true
  | _ => false

def OtaPc.ending : OtaPc → Bool
  | .callback .exit | .exitLock | .exitTake _ | .teardown => true
  | _ => false

def Uncounted (s : OtaState G) (extra : ℕ) : Prop :=
  (∃ i request, s.pcs i = .count request extra) ∨ (extra = 0 ∧ ∀ i, (s.pcs i).counting = false)

structure Balanced (info : SnfOtaInfo) (events : List SnfOtaEvent) (extra : ℕ) : Prop where
  contiguous : Contiguous info.receivedSize events (info.queuedSize + extra)
  bounded : info.queuedSize + extra ≤ info.totalSize

structure Admitted (info : SnfOtaInfo) (event : SnfOtaEvent) : Prop where
  offset : event.offset = info.queuedSize
  size : 0 < event.size
  fits : event.offset + event.size ≤ info.totalSize

structure Accounting (s : OtaState G) : Prop where
  total : s.shared.core.info.totalSize < 4294967296
  active : ∀ t, s.shared.taskHandle = some t → (s.pcs (.task t)).ending = false →
    snfOtaStateIsActive s.shared.core.info.state = true
  balanced : ∀ t events, s.shared.taskHandle = some t → s.shared.eventQueue = some events →
    snfOtaStateIsActive s.shared.core.info.state = true →
    ∃ extra, Uncounted s extra ∧
      Balanced s.shared.core.info ((s.pcs (.task t)).inHand ++ events) extra
  sendable : ∀ i request event, s.pcs i = .send request event → event.id = .imageData →
    snfOtaStateIsActive s.shared.core.info.state = true → Admitted s.shared.core.info event

structure SameCounts (a b : SnfOtaInfo) : Prop where
  state : b.state = a.state
  total : b.totalSize = a.totalSize
  received : b.receivedSize = a.receivedSize
  queued : b.queuedSize = a.queuedSize

theorem SameCounts.refl (a : SnfOtaInfo) : SameCounts a a := ⟨rfl,rfl,rfl,rfl⟩

theorem Balanced.same {a b : SnfOtaInfo} (h : SameCounts a b) {events : List SnfOtaEvent}
    {extra : ℕ} (hb : Balanced a events extra) : Balanced b events extra := by
  obtain ⟨h₁,h₂⟩ := hb
  rw [← h.received, ← h.queued] at h₁
  rw [← h.total, ← h.queued] at h₂
  exact ⟨h₁,h₂⟩

theorem Admitted.same {a b : SnfOtaInfo} (h : SameCounts a b) {event : SnfOtaEvent}
    (ha : Admitted a event) : Admitted b event :=
  ⟨h.queued ▸ ha.offset, ha.size, h.total ▸ ha.fits⟩

theorem Uncounted.move {extra : ℕ} (h : Uncounted s extra) (hp : (s.pcs i).counting = false)
    (hq : q.counting = false) : Uncounted (s.move i (q, y)) extra := by
  rcases h with ⟨j,request,hj⟩ | ⟨hz,hall⟩
  · have hji : j ≠ i := by
      rintro rfl
      rw [hj] at hp
      cases hp
    exact Or.inl ⟨j, request, by rwa [Config.move_other s hji]⟩
  · exact Or.inr ⟨hz,
      Config.move_forall (fun _ (p : OtaPc) => p.counting = false) hq (fun j _ => hall j)⟩

theorem inHand_move (h : q.inHand = (s.pcs i).inHand) (j : ThreadId) :
    ((s.move i (q, y)).pcs j).inHand = (s.pcs j).inHand := by
  by_cases hj : j = i
  · subst hj
    rwa [Config.move_self]
  · rw [Config.move_other s hj]

section Steps
variable (hacc : Accounting s)
include hacc

/-- The steps that change neither the queue nor the counters. -/
theorem Accounting.frame (hh : y.taskHandle = s.shared.taskHandle)
    (hq : y.eventQueue = s.shared.eventQueue)
    (hinfo : SameCounts s.shared.core.info y.core.info) (hcp : (s.pcs i).counting = false)
    (hcq : q.counting = false) (hhand : q.inHand = (s.pcs i).inHand)
    (hend : (s.pcs i).ending = true → q.ending = true)
    (hsend : ∀ request event, q = .send request event → event.id = .imageData →
      Admitted s.shared.core.info event) : Accounting (s.move i (q, y)) := by
  refine ⟨?_, ?_, ?_, ?_⟩
  · rw [Config.move_shared, hinfo.total]
    exact hacc.total
  · intro t ht he
    rw [Config.move_shared, hh] at ht
    rw [Config.move_shared, hinfo.state]
    refine hacc.active t ht ?_
    by_cases hti : .task t = i
    · subst hti
      rw [Config.move_self] at he
      by_contra hne
      have := hend (by simpa using hne)
      rw [this] at he
      cases he
    · rwa [Config.move_other s hti] at he
  · intro t events ht hev ha
    rw [Config.move_shared, hh] at ht
    rw [Config.move_shared, hq] at hev
    rw [Config.move_shared, hinfo.state] at ha
    obtain ⟨extra,hu,hb⟩ := hacc.balanced t events ht hev ha
    refine ⟨extra, hu.move hcp hcq, ?_⟩
    rw [inHand_move hhand]
    exact hb.same hinfo
  · intro j request event hj hid ha
    rw [Config.move_shared, hinfo.state] at ha
    by_cases hji : j = i
    · subst hji
      rw [Config.move_self] at hj
      exact (hsend request event hj hid).same hinfo
    · rw [Config.move_other s hji] at hj
      exact (hacc.sendable j request event hj hid ha).same hinfo

omit hacc in
/-- Without a session nothing is pending. -/
theorem Accounting.idle (howned : (otaMutex G).Owned s) (hi : (s.pcs i).critical = true)
    (hh : y.taskHandle = none) (htotal : y.core.info.totalSize < 4294967296)
    (hsend : ∀ request event, q ≠ .send request event) : Accounting (s.move i (q, y)) := by
  refine ⟨htotal, ?_, ?_, ?_⟩
  · intro t ht
    rw [Config.move_shared, hh] at ht
    cases ht
  · intro t events ht
    rw [Config.move_shared, hh] at ht
    cases ht
  · intro j request event hj
    by_cases hji : j = i
    · subst hji
      rw [Config.move_self] at hj
      exact absurd hj (hsend request event)
    · rw [Config.move_other s hji] at hj
      exact absurd (howned.exclusive (show (s.pcs j).critical = true by rw [hj]; rfl) hi) hji

/-- After a failure nothing is accounted any more. -/
theorem Accounting.over (hi : i = .task t) (hx : s.shared.taskHandle = some t)
    (hh : y.taskHandle = s.shared.taskHandle)
    (htotal : y.core.info.totalSize = s.shared.core.info.totalSize)
    (hstate : snfOtaStateIsActive y.core.info.state = false) (hq : q.ending = true) :
    Accounting (s.move i (q, y)) := by
  refine ⟨?_, ?_, ?_, ?_⟩
  · rw [Config.move_shared, htotal]
    exact hacc.total
  · intro u hu he
    rw [Config.move_shared, hh, hx] at hu
    cases hu
    rw [← hi, Config.move_self, hq] at he
    cases he
  · intro u events _ _ ha
    rw [Config.move_shared, hstate] at ha
    cases ha
  · intro j request event _ _ ha
    rw [Config.move_shared, hstate] at ha
    cases ha

/-- The steps of the task that go on with the session. -/
theorem Accounting.advance {events events' : List SnfOtaEvent} (hi : i = .task t)
    (hx : s.shared.taskHandle = some t)
    (hh : y.taskHandle = s.shared.taskHandle) (hp : (s.pcs i).ending = false)
    (hqueue : s.shared.eventQueue = some events) (hqueue' : y.eventQueue = some events')
    (htotal : y.core.info.totalSize = s.shared.core.info.totalSize)
    (hqueued : y.core.info.queuedSize = s.shared.core.info.queuedSize)
    (hactive : snfOtaStateIsActive y.core.info.state = true) (hcp : (s.pcs i).counting = false)
    (hcq : q.counting = false) (hsend : ∀ request event, q ≠ .send request event)
    (hb : ∀ extra, Balanced s.shared.core.info ((s.pcs i).inHand ++ events) extra →
      Balanced y.core.info (q.inHand ++ events') extra) : Accounting (s.move i (q, y)) := by
  subst hi
  have ha := hacc.active t hx hp
  refine ⟨?_, fun _ _ _ => hactive, ?_, ?_⟩
  · rw [Config.move_shared, htotal]
    exact hacc.total
  · intro u evs hu hev _
    rw [Config.move_shared, hh, hx] at hu
    cases hu
    rw [Config.move_shared, hqueue'] at hev
    cases hev
    obtain ⟨extra,hun,hbal⟩ := hacc.balanced t events hx hqueue ha
    refine ⟨extra, hun.move hcp hcq, ?_⟩
    rw [Config.move_self]
    exact hb extra hbal
  · intro j request event hj hid _
    by_cases hji : j = .task t
    · subst hji
      rw [Config.move_self] at hj
      exact absurd hj (hsend request event)
    · rw [Config.move_other s hji] at hj
      have := hacc.sendable j request event hj hid ha
      refine ⟨?_, this.size, ?_⟩
      · rw [Config.move_shared, hqueued]
        exact this.offset
      · rw [Config.move_shared, htotal]
        exact this.fits

end Steps

/-- While a thread is in the critical section and not counting, nothing is uncounted. -/
theorem uncounted_zero (howned : (otaMutex G).Owned s) (hi : (s.pcs i).critical = true)
    (hc : (s.pcs i).counting = false) (j : ThreadId) : (s.pcs j).counting = false := by
  by_contra hj
  have hcount : (s.pcs j).counting = true := by simpa using hj
  have hcrit : (s.pcs j).critical = true := by
    generalize s.pcs j = p at *
    cases p with
    | check | startPrepare | startQueue | startInit | startTask | send | count | unlock
    | teardown | exitUnlock => rfl
    | _ => cases hcount
  rw [howned.exclusive hcrit hi, hc] at hcount
  cases hcount

theorem Uncounted.zero {extra : ℕ} (h : Uncounted s extra) (howned : (otaMutex G).Owned s)
    (hi : (s.pcs i).critical = true) (hc : (s.pcs i).counting = false) : extra = 0 := by
  rcases h with ⟨j,request,hj⟩ | ⟨hz,_⟩
  · have := uncounted_zero howned hi hc j
    rw [hj] at this
    cases this
  · exact hz

section Requests
variable (hacc : Accounting s) (howned : (otaMutex G).Owned s)
include hacc howned

theorem accounting_task {config : SnfOtaConfig} (hp : s.pcs i = .startTask config)
    (hwf : (s.pcs i).wellFormed = true) (ha : ∀ j, Asserted j (s.pcs j) s.shared) :
    Accounting (s.move i (.unlock (.start config) .ok, snfOtaStartTask i s.shared config)) := by
  have hcrit : (s.pcs i).critical = true := by rw [hp]; rfl
  have hi := ha i
  rw [hp] at hi
  obtain ⟨hno,hfresh⟩ := hi
  have hinfo : (snfOtaStartTask i s.shared config).core.info =
      { SnfOtaInfo.zero with totalSize := config.imageInfo.size, state := .receiving } :=
        hfresh.info
  refine ⟨hacc.total, ?_, ?_, ?_⟩
  · intro t _ _
    rw [Config.move_shared, hinfo]
    rfl
  · intro t events ht hev _
    have hev : s.shared.eventQueue = some events := hev
    rw [hfresh.eventQueue] at hev
    cases hev
    refine ⟨0, Or.inr ⟨rfl, ?_⟩, ?_⟩
    · exact Config.move_forall (fun _ (p : OtaPc) => p.counting = false) rfl
        (fun j _ => uncounted_zero howned hcrit (by rw [hp]; rfl) j)
    · rw [inHand_move (by rw [hp]; rfl), Config.move_shared, hinfo]
      have hnone : (s.pcs (.task t)).inHand = [] := by
        have hj := ha (.task t)
        cases hpt : s.pcs (.task t) with
        | handle event =>
          rw [hpt] at hj
          obtain ⟨u,_,hu⟩ := hj
          rw [hno] at hu
          cases hu
        | _ => rfl
      rw [hnone]
      exact ⟨rfl, Nat.zero_le _⟩
  · intro j request event hj
    by_cases hji : j = i
    · subst hji
      rw [Config.move_self] at hj
      cases hj
    · rw [Config.move_other s hji] at hj
      exact absurd (howned.exclusive (show (s.pcs j).critical = true by rw [hj]; rfl) hcrit) hji

theorem accounting_sent {request : OtaRequest} {event : SnfOtaEvent} {events : List SnfOtaEvent}
    (hp : s.pcs i = .send request event) (hqueue : s.shared.eventQueue = some events) :
    Accounting (s.move i (afterSend request event .ok,
      s.shared.setQueue (some (events ++ [event])))) := by
  have hcrit : (s.pcs i).critical = true := by rw [hp]; rfl
  have hzero := uncounted_zero howned hcrit (by rw [hp]; rfl)
  have hhand : (afterSend request event .ok).inHand = (s.pcs i).inHand := by
    rw [hp]
    unfold afterSend
    split <;> rfl
  refine ⟨hacc.total, ?_, ?_, ?_⟩
  · intro t ht he
    refine hacc.active t ht ?_
    by_cases hti : .task t = i
    · subst hti
      rw [hp]
      rfl
    · rwa [Config.move_other s hti] at he
  · intro t evs ht hev ha
    cases hev
    obtain ⟨extra,hun,hb⟩ := hacc.balanced t events ht hqueue ha
    obtain rfl := hun.zero howned hcrit (by rw [hp]; rfl)
    rw [inHand_move hhand]
    by_cases hid : event.id = .imageData
    · have hadm := hacc.sendable i request event hp hid ha
      have hfits := hadm.fits
      have hoff := hadm.offset
      refine ⟨event.size, Or.inl ⟨i, request, ?_⟩, ?_, ?_⟩
      · rw [Config.move_self]
        exact if_pos ⟨rfl,hid⟩
      · rw [← List.append_assoc]
        exact hb.contiguous.append hid hoff hadm.size
      · show s.shared.core.info.queuedSize + event.size ≤ s.shared.core.info.totalSize
        omega
    · refine ⟨0, Or.inr ⟨rfl, ?_⟩, ?_, hb.bounded⟩
      · refine Config.move_forall (fun _ (p : OtaPc) => p.counting = false) ?_ (fun j _ => hzero j)
        show (afterSend request event .ok).counting = false
        unfold afterSend
        rw [if_neg (fun h => hid h.2)]
        rfl
      · rw [← List.append_assoc]
        exact hb.contiguous.append_other hid
  · intro j request' event' hj
    by_cases hji : j = i
    · subst hji
      rw [Config.move_self] at hj
      unfold afterSend at hj
      split at hj <;> cases hj
    · rw [Config.move_other s hji] at hj
      exact absurd (howned.exclusive (show (s.pcs j).critical = true by rw [hj]; rfl) hcrit) hji

theorem accounting_count {request : OtaRequest} {len : ℕ} (hp : s.pcs i = .count request len) :
    Accounting (s.move i (.unlock request .ok, addQueued s.shared len)) := by
  have hcrit : (s.pcs i).critical = true := by rw [hp]; rfl
  refine ⟨hacc.total, ?_, ?_, ?_⟩
  · intro t ht he
    refine hacc.active t ht ?_
    by_cases hti : .task t = i
    · subst hti
      rw [hp]
      rfl
    · rwa [Config.move_other s hti] at he
  · intro t events ht hev ha
    obtain ⟨extra,hun,hb⟩ := hacc.balanced t events ht hev ha
    have hextra : extra = len := by
      rcases hun with ⟨j,r,hj⟩ | ⟨_,hall⟩
      · have hji := howned.exclusive (show (s.pcs j).critical = true by rw [hj]; rfl) hcrit
        rw [hji, hp] at hj
        cases hj
        rfl
      · have := hall i
        rw [hp] at this
        cases this
    subst hextra
    have hbound := hb.bounded
    have htotal := hacc.total
    have hadd : u32Add s.shared.core.info.queuedSize extra = s.shared.core.info.queuedSize +
        extra :=
      u32Add_eq (by omega)
    rw [inHand_move (by rw [hp]; rfl)]
    refine ⟨0, Or.inr ⟨rfl, ?_⟩, ?_, ?_⟩
    · refine Config.move_forall (fun _ (p : OtaPc) => p.counting = false) rfl (fun j hj => ?_)
      by_contra hc
      have hcount : (s.pcs j).counting = true := by simpa using hc
      refine hj (howned.exclusive ?_ hcrit)
      show (s.pcs j).critical = true
      generalize s.pcs j = p at *
      cases p with
      | check | startPrepare | startQueue | startInit | startTask | send | count | unlock
      | teardown | exitUnlock => rfl
      | _ => cases hcount
    · show Contiguous s.shared.core.info.receivedSize _
        (u32Add s.shared.core.info.queuedSize extra + 0)
      rw [hadd]
      exact hb.contiguous
    · show u32Add s.shared.core.info.queuedSize extra + 0 ≤ s.shared.core.info.totalSize
      rw [hadd]
      exact hbound
  · intro j request' event hj
    by_cases hji : j = i
    · subst hji
      rw [Config.move_self] at hj
      cases hj
    · rw [Config.move_other s hji] at hj
      exact absurd (howned.exclusive (show (s.pcs j).critical = true by rw [hj]; rfl) hcrit) hji

end Requests

theorem otaCheck_admitted {request r : OtaRequest} {event : SnfOtaEvent}
    (hwf : (OtaPc.check request).wellFormed = true) (h : otaCheck i x request = .send r event)
    (hid : event.id = .imageData) : Admitted x.core.info event := by
  unfold otaCheck at h
  cases request with
  | start config =>
    dsimp only at h
    split at h <;> cases h
  | write offset data len =>
    dsimp only at h
    split at h
    · cases h
    · split at h
      case isTrue => cases h
      case isFalse hok =>
        cases h
        have hok := not_not.mp hok
        unfold snfOtaWriteCheck at hok
        split at hok
        · cases hok
        · split at hok
          case isTrue => cases hok
          case isFalse hrange =>
            have hlen : 0 < len := of_decide_eq_true hwf
            exact ⟨by show offset = _; omega, hlen, by show offset + len ≤ _; omega⟩
  | apply =>
    dsimp only at h
    split at h
    · cases h
    · split at h <;> cases h
      cases hid
  | abort =>
    dsimp only at h
    split at h <;> cases h
    cases hid

/-- A data event at the front of what is pending. -/
theorem Balanced.head {info : SnfOtaInfo} {event : SnfOtaEvent} {events : List SnfOtaEvent}
    {extra : ℕ} (h : Balanced info (event :: events) extra) (hid : event.id = .imageData) :
    event.offset = info.receivedSize ∧ 0 < event.size ∧
      info.receivedSize + event.size ≤ info.totalSize
      ∧ Contiguous (info.receivedSize + event.size) events (info.queuedSize + extra) := by
  have hc := h.contiguous
  have hb := h.bounded
  unfold Contiguous at hc
  rw [if_pos hid] at hc
  have := hc.2.2.size
  exact ⟨hc.1, hc.2.1, by omega, hc.2.2⟩

theorem accounting_data {event : SnfOtaEvent} {bytes : List UInt8} {results : List OpResult}
    (hacc : Accounting s) (hp : s.pcs i = .handle event) (hid : event.id = .imageData)
    (hlen : bytes.length = event.size)
    (hd : otaHandleDataEvent sdk s.shared event bytes results = some (q, y)) (hi : i = .task t)
    (hx : s.shared.taskHandle = some t) (hw : Whole s) : Accounting (s.move i (q, y)) := by
  obtain ⟨core,out,hres,rfl,rfl⟩ := otaHandleDataEvent_result hd
  have hover : ∀ state error ret, out = ⟨state, error, ret⟩ → snfOtaStateIsActive state = false →
    ret ≠ 0 → core.info.totalSize = s.shared.core.info.totalSize → Accounting (s.move i
        (.callback (if out.ret = 0 then .receive else .exit),
          otaNotify ((s.shared.observe (.consumed s.shared.session event bytes)).setCore core)
            out.state out.errorCode)) := by
    rintro state error ret rfl hstate hret htotal
    exact hacc.over hi hx rfl htotal hstate (by rw [if_neg hret]; rfl)
  cases hres with
  | refused _ _ _ _ hinfo => exact hover _ _ _ rfl rfl (by decide) (by rw [hinfo]; rfl)
  | failed error nextErase _ _ hinfo => exact hover _ _ _ rfl rfl (by decide) (by rw [hinfo]; rfl)
  | accepted nextErase hc _ _ hinfo =>
    obtain ⟨events,hqueue⟩ := Option.ne_none_iff_exists'.mp (hw.running t hx).2
    have htotal : core.info.totalSize = s.shared.core.info.totalSize := by rw [hinfo]; rfl
    have hadvance : ∀ state error, acceptedOutcome core = ⟨state, error, 0⟩ →
      snfOtaStateIsActive state = true →
        Accounting (s.move i
          (.callback (if (acceptedOutcome core).ret = 0 then .receive else .exit),
            otaNotify ((s.shared.observe (.consumed s.shared.session event bytes)).setCore core)
              (acceptedOutcome core).state (acceptedOutcome core).errorCode)) := by
      intro state error hout hstate
      rw [hout]
      refine hacc.advance hi hx rfl (by rw [hp]; rfl) hqueue hqueue htotal ?_ hstate
        (by rw [hp]; rfl) rfl nofun ?_
      · show core.info.queuedSize = _
        rw [hinfo]
        rfl
      · intro extra hb
        rw [hp] at hb
        obtain ⟨_,_,hfit,hrest⟩ := hb.head hid
        have hbound := hb.bounded
        have hlt := hacc.total
        have hreceived : core.info.receivedSize = s.shared.core.info.receivedSize + event.size := by
          rw [hinfo, ← hlen]
          exact u32Add_eq (by omega)
        have hqueued : core.info.queuedSize = s.shared.core.info.queuedSize := by rw [hinfo]; rfl
        refine ⟨?_, ?_⟩
        · show Contiguous core.info.receivedSize events (core.info.queuedSize + extra)
          rwa [hreceived, hqueued]
        · show core.info.queuedSize + extra ≤ core.info.totalSize
          rwa [hqueued, htotal]
    rcases acceptedOutcome_cases core with ⟨_,hout⟩ | ⟨_,hout⟩ | ⟨_,error,hout⟩
    · exact hadvance _ _ hout rfl
    · exact hadvance _ _ hout rfl
    · exact hover _ _ _ hout rfl (by decide) htotal

/-- What the accounting asks of the control points of a step that changes none of
its counters. -/
structure QuietPcs (info : SnfOtaInfo) (p q : OtaPc) : Prop where
  before : p.counting = false
  after : q.counting = false
  inHand : q.inHand = p.inHand
  ending : p.ending = true → q.ending = true
  send : ∀ request event, q = .send request event → event.id = .imageData → Admitted info event

theorem PcMove.quiet (h : PcMove i x p q) (hwf : p.wellFormed = true)
    (hexit : p = .exitLock → x.mutex ≠ none) : QuietPcs x.core.info p q := by
  cases h with
  | check request =>
    have hpc : (otaCheck i x request).counting = false ∧ (otaCheck i x request).inHand = [] := by
      unfold otaCheck
      cases request <;> dsimp only <;> repeat' split
      all_goals exact ⟨rfl, rfl⟩
    exact ⟨rfl, hpc.1, hpc.2, nofun, fun r event hr hid => otaCheck_admitted hwf hr hid⟩
  | «return» next =>
    cases next with
    | exit => exact ⟨rfl, rfl, rfl, id, fun _ _ h => nomatch h⟩
    | _ => exact ⟨rfl, rfl, rfl, nofun, fun _ _ h => nomatch h⟩
  | exitNoMutex hno => exact absurd hno (hexit rfl)
  | exitWait m _ => exact ⟨rfl, rfl, rfl, fun _ => rfl, fun _ _ h => nomatch h⟩
  | _ => exact ⟨rfl, rfl, rfl, nofun, fun _ _ h => nomatch h⟩

theorem Accounting.quiet (hacc : Accounting s) (hs : SameSession s.shared y)
    (hq : QuietPcs s.shared.core.info (s.pcs i) q) : Accounting (s.move i (q, y)) := by
  have hinfo : SameCounts s.shared.core.info y.core.info := by
    rw [hs.core]
    exact .refl _
  exact hacc.frame hs.taskHandle hs.eventQueue hinfo hq.before hq.after hq.inHand hq.ending hq.send

/-- The step lemma of the accounting. -/
theorem OtaMove.accounting (h : OtaMove sdk i (s.pcs i) s.shared q y)
    (howned : (otaMutex G).Owned s) (hw : Whole s)
    (ha : ∀ j, Asserted j (s.pcs j) s.shared) (hwf : (s.pcs i).wellFormed = true)
    (hacc : Accounting s) : Accounting (s.move i (q, y)) := by
  have hi := ha i
  have htask : (s.pcs i).live = true → ∃ t, i = .task t ∧ s.shared.taskHandle = some t := hi.of_live
  have hqueue : ∀ t, s.shared.taskHandle = some t → ∃ events, s.shared.eventQueue = some events :=
      fun t ht =>
    Option.ne_none_iff_exists'.mp (hw.running t ht).2
  generalize hp : s.pcs i = p at h hi hwf htask
  generalize hx : s.shared = x at h hi
  cases h with
  | pc hpc =>
    subst hx
    have hquiet := hpc.quiet hwf fun he => by
      rw [he] at htask
      obtain ⟨t,_,ht⟩ := htask rfl
      exact hw.locked (by simp [ht])
    exact hacc.quiet (.refl _) (hp ▸ hquiet)
  | mutex x config =>
    subst hx
    exact hacc.quiet ⟨rfl,rfl,rfl,rfl,rfl,rfl⟩ (hp ▸ ⟨rfl,rfl,rfl,nofun,fun _ _ h => nomatch h⟩)
  | mutexFailed x config =>
    subst hx
    exact hacc.quiet ⟨rfl,rfl,rfl,rfl,rfl,rfl⟩ (hp ▸ ⟨rfl,rfl,rfl,nofun,fun _ _ h => nomatch h⟩)
  | taken m request _ =>
    subst hx
    exact hacc.quiet ⟨rfl,rfl,rfl,rfl,rfl,rfl⟩ (hp ▸ ⟨rfl,rfl,rfl,nofun,fun _ _ h => nomatch h⟩)
  | exitTaken m _ =>
    subst hx
    exact hacc.quiet ⟨rfl,rfl,rfl,rfl,rfl,rfl⟩
      (hp ▸ ⟨rfl,rfl,rfl,fun _ => rfl,fun _ _ h => nomatch h⟩)
  | given request ret hu =>
    subst hx
    exact hacc.quiet (otaUnlock_sameSession hu) (hp ▸ ⟨rfl,rfl,rfl,nofun,fun _ _ h => nomatch h⟩)
  | exitGiven hu =>
    subst hx
    exact hacc.quiet (otaUnlock_sameSession hu) (hp ▸ ⟨rfl,rfl,rfl,nofun,fun _ _ h => nomatch h⟩)
  | prepare x config sizeKnown =>
    subst hx
    have hcrit : (s.pcs i).critical = true := by rw [hp]; rfl
    refine .idle howned hcrit
      ((snfOtaStartPrepare_frame s.shared config sizeKnown).1.trans hi.taskHandle) ?_ ?_
    · rcases snfOtaStartPrepare_result s.shared config sizeKnown hi with ⟨_,hr⟩ | ⟨_,hr⟩ <;>
        rw [hr.info] <;> decide
    · intro request event h
      split at h <;> cases h
  | queue config _ =>
    subst hx
    exact .idle howned (by rw [hp]; rfl) hi.taskHandle hacc.total (fun _ _ h => nomatch h)
  | init x config =>
    subst hx
    exact .idle howned (by rw [hp]; rfl) hi.taskHandle (of_decide_eq_true hwf) (fun _ _ h =>
      nomatch h)
  | task x config =>
    subst hx
    exact accounting_task hacc howned hp (by rw [hp]; exact hwf) ha
  | taskFailed x config =>
    subst hx
    exact .idle howned (by rw [hp]; rfl) rfl (Nat.zero_lt_succ _) (fun _ _ h => nomatch h)
  | teardown x =>
    subst hx
    exact .idle howned (by rw [hp]; rfl) rfl (Nat.zero_lt_succ _) (fun _ _ h => nomatch h)
  | sent request event hq =>
    subst hx
    exact accounting_sent hacc howned hp hq
  | count x request len =>
    subst hx
    exact accounting_count hacc howned hp
  | @receive x event rest hq =>
    subst hx
    obtain ⟨t,ht,hh⟩ := htask rfl
    have hpe : (s.pcs i).ending = false := by rw [hp]; rfl
    subst ht
    refine hacc.advance rfl hh rfl hpe hq rfl rfl rfl (hacc.active t hh hpe) (by rw [hp]; rfl) rfl
      (fun _ _ h => nomatch h) (fun extra hb => ?_)
    rw [hp] at hb
    exact hb
  | waited hst =>
    subst hx
    exact hacc.frame rfl rfl ⟨rfl,rfl,rfl,rfl⟩ (by rw [hp]; rfl) rfl (by rw [hp]; rfl)
      (by rw [hp]; exact nofun) (fun _ _ h => nomatch h)
  | timedOut hst =>
    subst hx
    obtain ⟨t,ht,hh⟩ := htask rfl
    exact hacc.over ht hh rfl rfl rfl rfl
  | data event bytes results hid hlen hd =>
    subst hx
    obtain ⟨t,ht,hh⟩ := htask rfl
    exact accounting_data hacc hp hid hlen hd ht hh hw
  | apply x event hid =>
    subst hx
    obtain ⟨t,ht,hh⟩ := htask rfl
    obtain ⟨events,hq⟩ := hqueue t hh
    refine hacc.advance ht hh rfl (by rw [hp]; rfl) hq hq rfl rfl rfl (by rw [hp]; rfl) rfl
      (fun _ _ h => nomatch h) (fun extra hb => ?_)
    rw [hp] at hb
    obtain ⟨hc,hbound⟩ := hb
    refine ⟨?_, hbound⟩
    simp only [OtaPc.inHand, List.cons_append, Contiguous, hid, reduceCtorEq, if_false] at hc
    exact hc
  | abort x event _ =>
    subst hx
    obtain ⟨t,ht,hh⟩ := htask rfl
    exact hacc.over ht hh rfl rfl rfl rfl
  | committed x event =>
    subst hx
    obtain ⟨t,ht,hh⟩ := htask rfl
    obtain ⟨events,hq⟩ := hqueue t hh
    refine hacc.advance ht hh rfl (by rw [hp]; rfl) hq hq rfl rfl rfl (by rw [hp]; rfl) rfl
      (fun _ _ h => nomatch h) (fun extra hb => ?_)
    rw [hp] at hb
    exact ⟨hb.contiguous,hb.bounded⟩
  | commitFailed x event =>
    subst hx
    obtain ⟨t,ht,hh⟩ := htask rfl
    exact hacc.over ht hh rfl rfl rfl rfl

theorem otaBoot_accounting (flash : Flash) : Accounting (otaBoot G flash) := by
  refine ⟨Nat.zero_lt_succ _, fun t ht => ?_, fun t events ht => ?_, fun i request event hi => ?_⟩
  · cases ht
  · cases ht
  · cases i <;> cases hi

/-- In every run within the guard the queue accounts for every admitted byte. -/
theorem reach_accounting {flash : Flash} (h : Reach (otaStep sdk) keepsMutex (otaBoot G flash) s) :
    Accounting s := by
  refine @Reach.invariant_of _ _ _ _ _ Accounting
    (fun s => (otaMutex G).Owned s ∧ (Whole s ∧ ∀ i, Asserted i (s.pcs i) s.shared) ∧
      ∀ i, (s.pcs i).wellFormed = true)
    (fun s hs => ⟨reach_owned hs, reach_asserted hs, reach_wellFormed hs⟩)
    (otaBoot_accounting flash) ?_ s h
  rintro s ⟨i,label⟩ t ⟨howned,⟨hw,ha⟩,hwf⟩ hacc _ hstep
  obtain ⟨r,hr,rfl⟩ := step_some hstep
  exact (otaNext_move hr).accounting howned hw ha (hwf i) hacc

end Sonoff.Ota
