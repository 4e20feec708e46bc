import Sonoff.Ota.AbortFinality
import Sonoff.Ota.EventFlow

/-! # The chunks that are about

The chunks of a session lie behind what it has received, one behind the other. A session that
has received all its input has none left.
-/
namespace Sonoff.Ota
open Bytes AesGcm NorFlash OtaParse Threads Machine

variable {G : Type} {sdk : Sdk G} {core core' : OtaState G} {i : ThreadId} {k : ℕ} {p q : OtaPc}
  {x y : OtaSystem G} {label : OtaLabel} {event : SnfOtaEvent} {flash : Flash}

def ChunkAbout (core : OtaState G) (event : SnfOtaEvent) : Prop := EventAbout core event ∧
    event.id = .imageData

theorem Contiguous.mem {first last : ℕ} {events : List SnfOtaEvent}
    (h : Contiguous first events last) (he : event ∈ events) (hid : event.id = .imageData) :
    first ≤ event.offset ∧ 0 < event.size ∧ event.offset + event.size ≤ last := by
  induction events generalizing first with
  | nil => cases he
  | cons e rest ih =>
    unfold Contiguous at h
    split at h
    case isTrue hed =>
      obtain ⟨ho,hs,hrest⟩ := h
      rcases List.mem_cons.mp he with rfl | he
      · have := hrest.size
        exact ⟨Nat.le_of_eq ho.symm, hs, by omega⟩
      · have := ih hrest he
        exact ⟨by omega, this.2⟩
    case isFalse hed =>
      rcases List.mem_cons.mp he with rfl | he
      · exact absurd hid hed
      · exact ih h he

/-- The chunks follow one another. -/
theorem Contiguous.pairwise {first last : ℕ} {events : List SnfOtaEvent}
    (h : Contiguous first events last) :
    events.Pairwise fun a b => a.id = .imageData → b.id = .imageData →
      a.offset + a.size ≤ b.offset := by
  induction events generalizing first with
  | nil => exact .nil
  | cons e rest ih =>
    unfold Contiguous at h
    split at h
    · obtain ⟨ho,-,hrest⟩ := h
      refine .cons (fun b hb _ hid => ?_) (ih hrest)
      have := (hrest.mem hb hid).1
      omega
    · exact .cons (fun b _ hid _ => absurd hid ‹_›) (ih h)

theorem pendingEvents_about (h : event ∈ pendingEvents core) : EventAbout core event := by
  rcases List.mem_append.mp h with h | h
  · unfold Ota.handled at h
    split at h
    · cases h
    case h_2 k _ =>
      cases hp : core.pcs (.task k) with
      | handle e =>
        rw [hp] at h
        cases List.mem_singleton.mp h
        exact Or.inr ⟨.task k, by rw [hp]; rfl⟩
      | _ =>
        rw [hp] at h
        cases h
  · cases hq : core.shared.eventQueue with
    | none =>
      rw [hq] at h
      cases h
    | some events =>
      rw [hq] at h
      exact Or.inl ⟨events, hq, h⟩

/-- An event that is about is pending or about to be sent. -/
theorem CoreFacts.about_cases (hf : CoreFacts core) (h : EventAbout core event) :
    event ∈ pendingEvents core ∨ ∃ i request, core.pcs i = .send request event := by
  rcases h with ⟨events,hq,hmem⟩ | ⟨i,hi⟩
  · refine Or.inl (List.mem_append_right _ ?_)
    rw [hq]
    exact hmem
  · have hasserted := hf.asserted i
    generalize hp : core.pcs i = pc at hi hasserted
    cases pc with
    | send request e =>
      cases hi
      exact Or.inr ⟨i, request, hp⟩
    | handle e =>
      cases hi
      obtain ⟨k,rfl,hx⟩ := hasserted
      refine Or.inl ?_
      rw [pendingEvents_running hx, hp]
      exact List.mem_cons_self
    | _ => cases hi

theorem CoreFacts.pending_balanced (hf : CoreFacts core) (hx : core.shared.taskHandle = some k)
    (ha : snfOtaStateIsActive core.shared.core.info.state = true) :
    ∃ extra, Uncounted core extra ∧ Balanced core.shared.core.info (pendingEvents core) extra := by
  obtain ⟨events,hq⟩ := Option.ne_none_iff_exists'.mp (hf.whole.running k hx).2
  rw [pendingEvents_running hx, hq]
  exact hf.accounting.balanced k events hx hq ha

theorem PcMove.inHand (h : PcMove i x p q) : q.inHand = p.inHand := by
  cases h with
  | check request =>
    unfold otaCheck
    cases request <;> dsimp only <;> repeat' split
    all_goals rfl
  | «return» next => cases next <;> rfl
  | _ => rfl

/-- What a move does to the queue and to the task's hand while a session runs. -/
theorem OtaMove.pending (h : OtaMove sdk i p x q y) (ha : Asserted i p x)
    (hs : x.taskHandle = some k) (ht : y.taskHandle = some k) :
    (q.inHand = p.inHand ∧ y.eventQueue = x.eventQueue)
      ∨ (∃ event, p = .handle event ∧ q.inHand = [] ∧ y.eventQueue = x.eventQueue)
      ∨ (∃ event rest, p = .receive ∧ q = .handle event ∧ x.eventQueue = some (event :: rest) ∧
        y.eventQueue = some rest)
      ∨ ∃ request event events, p = .send request event ∧ q = afterSend request event .ok ∧
          x.eventQueue = some events ∧ y.eventQueue = some (events ++ [event]) := by
  have hstarting : p.starting = true → False := by
    intro hp
    rw [ha.of_starting hp] at hs
    cases hs
  cases h with
  | pc hpc => exact Or.inl ⟨hpc.inHand, rfl⟩
  | given request ret hu => exact Or.inl ⟨rfl, (otaUnlock_sameSession hu).eventQueue⟩
  | exitGiven hu => exact Or.inl ⟨rfl, (otaUnlock_sameSession hu).eventQueue⟩
  | prepare x config sizeKnown => exact (hstarting rfl).elim
  | queue config _ => exact (hstarting rfl).elim
  | init x config => exact (hstarting rfl).elim
  | task x config => exact (hstarting rfl).elim
  | taskFailed x config => exact (hstarting rfl).elim
  | teardown x => cases ht
  | sent request event hq => exact Or.inr (Or.inr (Or.inr ⟨request, event, _, rfl, rfl, hq, rfl⟩))
  | receive hq => exact Or.inr (Or.inr (Or.inl ⟨_, _, rfl, rfl, hq, rfl⟩))
  | data event bytes results _ _ hd =>
    obtain ⟨core,out,-,rfl,rfl⟩ := otaHandleDataEvent_result hd
    exact Or.inr (Or.inl ⟨event, rfl, rfl, rfl⟩)
  | apply x event _ => exact Or.inr (Or.inl ⟨event, rfl, rfl, rfl⟩)
  | abort x event _ => exact Or.inr (Or.inl ⟨event, rfl, rfl, rfl⟩)
  | _ => exact Or.inl ⟨rfl, rfl⟩

/-- What a step of a running session does to the pending events: nothing, the task is done with the
first, or one is sent. -/
theorem CoreFacts.pending_step (hf : CoreFacts core)
    (hstep : otaStep sdk core (i, label) = some core')
    (hs : core.shared.taskHandle = some k) (ht : core'.shared.taskHandle = some k) :
    pendingEvents core' = pendingEvents core
      ∨ (∃ event, i = .task k ∧ core.pcs i = .handle event ∧
        pendingEvents core = event :: pendingEvents core')
      ∨ ∃ request event, core.pcs i = .send request event ∧
        core'.pcs i = afterSend request event .ok ∧
          pendingEvents core' = pendingEvents core ++ [event] := by
  obtain ⟨r,hr,rfl⟩ := step_some hstep
  have hasserted := hf.asserted i
  have htask : (core.pcs i).live = true → i = .task k := by
    intro hl
    obtain ⟨j,hj,hx⟩ := hasserted.of_live hl
    rw [hs] at hx
    cases hx
    exact hj
  rw [pendingEvents_running hs, pendingEvents_running ht]
  rcases (otaNext_move hr).pending hasserted hs
    ht with ⟨hhand,hq⟩ | ⟨event,hp,hhand,hq⟩ | ⟨event,rest,hp,hh,hx,hy⟩
    | ⟨request,event,events,hp,hh,hx,hy⟩
  · exact Or.inl (by rw [inHand_move hhand, Config.move_shared, hq])
  · obtain rfl := htask (by rw [show core.pcs i = _ from hp]; rfl)
    refine Or.inr (Or.inl ⟨event, rfl, hp, ?_⟩)
    rw [Config.move_self, Config.move_shared, hhand, hq, show core.pcs (.task k) = _ from hp]
    rfl
  · obtain rfl := htask (by rw [show core.pcs i = _ from hp]; rfl)
    refine Or.inl ?_
    rw [Config.move_self, Config.move_shared, hh, hy, hx, show core.pcs (.task k) = _ from hp]
    rfl
  · refine Or.inr (Or.inr ⟨request, event, hp, by rw [Config.move_self]; exact hh, ?_⟩)
    have hhand : r.1.inHand = (core.pcs i).inHand := by
      rw [hh, show core.pcs i = _ from hp]
      unfold afterSend
      split <;> rfl
    rw [inHand_move hhand, Config.move_shared, hy, hx]
    simp only [Option.getD_some, List.append_assoc]

/-- Where a chunk that is about lies in the input. -/
theorem CoreFacts.chunk_bounds (hf : CoreFacts core) (h : ChunkAbout core event)
    (ha : snfOtaStateIsActive core.shared.core.info.state = true) :
    core.shared.core.info.receivedSize ≤ event.offset ∧ 0 < event.size ∧
      event.offset + event.size ≤ core.shared.core.info.totalSize := by
  obtain ⟨habout,hid⟩ := h
  obtain ⟨k,hx⟩ := Option.ne_none_iff_exists'.mp (hf.events_running habout)
  obtain ⟨extra,hu,hb⟩ := hf.pending_balanced hx ha
  rcases hf.about_cases habout with hmem | ⟨i,request,hi⟩
  · obtain ⟨ho,hs,hle⟩ := hb.contiguous.mem hmem hid
    exact ⟨ho, hs, Nat.le_trans hle hb.bounded⟩
  · have hadm := hf.accounting.sendable i request event hi hid ha
    have hextra := hu.zero hf.owned (show (core.pcs i).critical = true by rw [hi]; rfl)
      (by rw [hi]; rfl)
    have := hb.contiguous.size
    have := hadm.offset
    exact ⟨by omega, hadm.size, hadm.fits⟩

/-- A chunk behind the first that is pending. -/
theorem CoreFacts.behind_first {first : SnfOtaEvent} {rest : List SnfOtaEvent} (hf : CoreFacts core)
    (hx : core.shared.taskHandle = some k) (hpend : pendingEvents core = first :: rest)
    (hid : first.id = .imageData) (ha : snfOtaStateIsActive core.shared.core.info.state = true)
    (hevent : event.id = .imageData)
    (h : event ∈ rest ∨ ∃ i request, core.pcs i = .send request event) :
    first.offset + first.size ≤ event.offset := by
  obtain ⟨extra,hu,hb⟩ := hf.pending_balanced hx ha
  rw [hpend] at hb
  obtain ⟨ho,-,-,hrest⟩ := hb.head hid
  rcases h with hmem | ⟨i,request,hi⟩
  · have := (hrest.mem hmem hevent).1
    omega
  · have hadm := hf.accounting.sendable i request event hi hevent ha
    have hextra := hu.zero hf.owned (show (core.pcs i).critical = true by rw [hi]; rfl)
      (by rw [hi]; rfl)
    have := hrest.size
    have := hadm.offset
    omega

/-- No chunk is left once all input has been received. -/
theorem CoreFacts.complete_no_chunk (hf : CoreFacts core)
    (hst : core.shared.core.info.state ≠ .receiving)
    (ha : snfOtaStateIsActive core.shared.core.info.state = true) : ¬ChunkAbout core event := by
  intro h
  have hall := hf.commit.complete hst ha
  have := hf.chunk_bounds h ha
  omega

def SendsOwn (core : OtaState G) : Prop :=
  ∀ i request event, core.pcs i = .send request event → ∃ x :
  OtaSystem G, event = otaEvent i x request

/-- An event is sent by a call that has just been admitted. -/
theorem OtaMove.send {request : OtaRequest} (h : OtaMove sdk i p x q y)
    (hq : q = .send request event) :
    p = .check request ∧ otaCheck i x request = .send request event ∧ event = otaEvent i x request ∧
      y = x := by
  cases h with
  | pc hpc =>
    cases hpc with
    | check request' =>
      obtain ⟨hevent,hsend⟩ := @otaCheck_holds _ i x event request' (by rw [hq]; rfl)
      rw [hq] at hsend
      cases hsend
      exact ⟨rfl, hq, hevent, rfl⟩
    | «return» next => cases next <;> cases hq
    | _ => cases hq
  | prepare x config sizeKnown => split at hq <;> cases hq
  | sent request' event' _ =>
    unfold afterSend at hq
    split at hq <;> cases hq
  | data event' bytes results _ _ hd =>
    obtain ⟨core,out,_,rfl,-⟩ := otaHandleDataEvent_result hd
    cases hq
  | _ => cases hq

theorem reach_sendsOwn {ok : OtaState G → ThreadId × OtaLabel → Prop}
    (h : Reach (otaStep sdk) ok (otaBoot G flash) core) : SendsOwn core := by
  refine @Reach.invariant _ _ _ _ _ SendsOwn ?_ ?_ core h
  · intro i request event hi
    cases i <;> cases hi
  · rintro s ⟨j,label⟩ t hs _ hstep
    obtain ⟨r,hr,rfl⟩ := step_some hstep
    refine Config.move_forall (fun i (p : OtaPc) => ∀ request event, p = .send request event →
      ∃ x : OtaSystem G, event = otaEvent i x request) (fun request event hq => ?_) (fun i _ =>
        hs i)
    obtain ⟨-,-,hevent,-⟩ := (otaNext_move hr).send hq
    exact ⟨_, hevent⟩

def CountsWrites (core : OtaState G) : Prop := ∀ i request len, core.pcs i = .count request len →
    request ≠ .abort

/-- What is counted has just been sent. -/
theorem OtaMove.counts {request : OtaRequest} {len : ℕ} (h : OtaMove sdk i p x q y)
    (hq : q = .count request len) : ∃ event, p = .send request event ∧ event.id = .imageData := by
  cases h with
  | pc hpc =>
    cases hpc with
    | check request' =>
      unfold otaCheck at hq
      cases request' <;> dsimp only at hq <;> repeat' split at hq
      all_goals cases hq
    | «return» next => cases next <;> cases hq
    | _ => cases hq
  | prepare x config sizeKnown => split at hq <;> cases hq
  | sent request' event' _ =>
    unfold afterSend at hq
    split at hq
    case isTrue hdata =>
      cases hq
      exact ⟨event', rfl, hdata.2⟩
    case isFalse => cases hq
  | data event' bytes results _ _ hd =>
    obtain ⟨core,out,_,rfl,-⟩ := otaHandleDataEvent_result hd
    cases hq
  | _ => cases hq

theorem reach_countsWrites {ok : OtaState G → ThreadId × OtaLabel → Prop}
    (h : Reach (otaStep sdk) ok (otaBoot G flash) core) : CountsWrites core := by
  refine @Reach.invariant_of _ _ _ _ _ CountsWrites SendsOwn (fun _ hs => reach_sendsOwn hs) ?_ ?_
    core h
  · intro i request len hi
    cases i <;> cases hi
  · rintro s ⟨j,label⟩ t hsends hs _ hstep
    obtain ⟨r,hr,rfl⟩ := step_some hstep
    refine Config.move_forall (fun _ (p : OtaPc) => ∀ request len, p = .count request len →
      request ≠ .abort) (fun request len hq => ?_) (fun i _ => hs i)
    obtain ⟨event,hp,hid⟩ := (otaNext_move hr).counts hq
    obtain ⟨x,rfl⟩ := hsends j request event hp
    rintro rfl
    cases hid

/-- The two ends of a data event. A received chunk fails in the verification only. -/
theorem otaHandleDataEvent_cases {bytes : List UInt8} {results : List OpResult}
    (hlen : bytes.length = event.size)
    (htotal : x.core.info.totalSize < 4294967296)
    (h : otaHandleDataEvent sdk x event bytes results = some (q, y)) :
    (y.core.info.receivedSize = x.core.info.receivedSize ∧ y.core.info.state = .failed) ∨
    (x.core.info.state = .receiving ∧ event.offset = x.core.info.receivedSize ∧
      y.core.info.receivedSize = event.offset + event.size ∧
      (y.core.info.state = .verifyFailed ∨ snfOtaStateIsFailed y.core.info.state = false) ∧
      ∃ callback error, y.history = .notified x.session callback y.core.info.state
        (otaEventData y.core.info error) :: .consumed x.session event bytes :: x.history) := by
  obtain ⟨core,out,hres,-,rfl⟩ := otaHandleDataEvent_result h
  cases hres with
  | refused _ _ _ _ hinfo =>
    refine Or.inl ⟨?_, rfl⟩
    show core.info.receivedSize = _
    rw [hinfo]
    rfl
  | failed error nextErase _ _ hinfo =>
    refine Or.inl ⟨?_, rfl⟩
    show core.info.receivedSize = _
    rw [hinfo]
    rfl
  | accepted nextErase hc _ _ hinfo =>
    refine Or.inr ⟨hc.receiving, hc.offset, ?_, ?_, core.config.eventCallback,
      (acceptedOutcome core).errorCode, rfl⟩
    · have hoffset := hc.offset
      have hfits := hc.fits
      dsimp only at hoffset
      show core.info.receivedSize = _
      rw [hinfo]
      show u32Add _ _ = _
      rw [u32Add_eq (by omega)]
      omega
    · show (acceptedOutcome core).state = _ ∨ snfOtaStateIsFailed (acceptedOutcome core).state =
        false
      rcases acceptedOutcome_cases core with ⟨-,hout⟩ | ⟨-,hout⟩ | ⟨-,error,hout⟩ <;> rw [hout]
      · exact Or.inr rfl
      · exact Or.inr rfl
      · exact Or.inl rfl

/-- What a step of a running session does to its progress: nothing, a notice behind which it does
not receive, its end with a chunk it refuses, or a chunk taken. -/
inductive ProgressMove (p : OtaPc) (x : OtaSystem G) (q : OtaPc) (y : OtaSystem G) : Prop
  | still (hhistory : y.history = x.history)
      (hsize : y.core.info.receivedSize = x.core.info.receivedSize)
      (hstate : y.core.info.state = x.core.info.state)
  | noticed (new : List Observation) (hhistory : y.history = new ++ x.history)
      (hnew : ∀ n event bytes, .consumed n event bytes ∉ new)
      (hsize : y.core.info.receivedSize = x.core.info.receivedSize)
      (hstate : y.core.info.state ≠ .receiving)
  | failed (hsize : y.core.info.receivedSize = x.core.info.receivedSize)
      (hstate : y.core.info.state = .failed)
  | taken (event : SnfOtaEvent) (bytes : List UInt8) (next : AfterNotify) (hp : p = .handle event)
      (hq : q = .callback next) (hid : event.id = .imageData) (hlen : bytes.length = event.size)
      (hstate : x.core.info.state = .receiving) (hoffset : event.offset = x.core.info.receivedSize)
      (hsize : y.core.info.receivedSize = event.offset + event.size)
      (hqueue : y.eventQueue = x.eventQueue)
      (callback : Option SnfOtaEventCallback) (error : SnfOtaErrorCode)
      (hhistory : y.history = .notified x.session callback y.core.info.state
        (otaEventData y.core.info error) ::
        .consumed x.session event bytes :: x.history) : ProgressMove p x q y

theorem OtaMove.progressMove (h : OtaMove sdk i p x q y) (hp : p.starting = false)
    (hy : y.taskHandle ≠ none) (htotal : x.core.info.totalSize < 4294967296) :
    ProgressMove p x q y := by
  cases h with
  | given request ret hu =>
    have hsame := otaUnlock_sameSession hu
    exact .still hsame.history (by rw [hsame.core]) (by rw [hsame.core])
  | exitGiven hu =>
    have hsame := otaUnlock_sameSession hu
    exact .still hsame.history (by rw [hsame.core]) (by rw [hsame.core])
  | prepare x config sizeKnown => cases hp
  | queue config _ => cases hp
  | init x config => cases hp
  | task x config => cases hp
  | taskFailed x config => cases hp
  | teardown x => exact absurd rfl hy
  | timedOut _ => exact .noticed [_] rfl (by simp) rfl (by rintro ⟨⟩)
  | data event bytes results hid hlen hd =>
    rcases otaHandleDataEvent_cases hlen htotal
      hd with ⟨hsize,hst⟩ | ⟨hst,hoffset,hsize,-,callback,error,hhist⟩
    · exact .failed hsize hst
    · obtain ⟨core,out,-,rfl,rfl⟩ := otaHandleDataEvent_result hd
      exact .taken event bytes _ rfl rfl hid hlen hst hoffset hsize rfl callback error hhist
  | apply x event _ => exact .noticed [_] rfl (by simp) rfl (by rintro ⟨⟩)
  | abort x event _ => exact .noticed [_, _] rfl (by simp) rfl (by rintro ⟨⟩)
  | committed x event => exact .noticed [_, _] rfl (by simp) rfl (by rintro ⟨⟩)
  | commitFailed x event => exact .noticed [_, _] rfl (by simp) rfl (by rintro ⟨⟩)
  | _ => exact .still rfl rfl rfl

/-- A running session receives more and more, and does not go back to receiving. -/
theorem OtaMove.progress (h : OtaMove sdk i p x q y) (hp : p.starting = false)
    (hy : y.taskHandle ≠ none) (htotal : x.core.info.totalSize < 4294967296) :
    x.core.info.receivedSize ≤ y.core.info.receivedSize ∧
      (x.core.info.state ≠ .receiving → y.core.info.state ≠ .receiving) := by
  cases h.progressMove hp hy htotal with
  | still hhistory hsize hstate => exact ⟨Nat.le_of_eq hsize.symm, fun hst => hstate ▸ hst⟩
  | noticed new hhistory hnew hsize hstate => exact ⟨Nat.le_of_eq hsize.symm, fun _ => hstate⟩
  | failed hsize hstate => exact ⟨Nat.le_of_eq hsize.symm, fun _ => by rw [hstate]; decide⟩
  | taken event bytes next hhandle hcallback hid hlen hstate hoffset hsize hqueue callback error
      hhistory =>
    exact ⟨by omega, fun hst => absurd hstate hst⟩

end Sonoff.Ota
