import Mathlib.Data.List.Nodup
import Sonoff.Thread.Radio

/-! # The frame buffers of the radio driver

A received frame stays in its buffer while the driver waits to send its ACK,
while the message about it is in the queue, and until the task gives the buffer
back. It is in one of these places at most, so that nobody receives into it; and
a buffer that leaves them without being given back stays in use for good.
-/
namespace Sonoff.Thread
open Bytes Machine

def Msg802154.index? : Msg802154 → Option ℕ
  | .rxDone index => some index
  | .txFail | .txDoneNoAck | .edDone => none

def RadioState.acks : RadioState → Bool
  | .transmitImmAck | .transmitEnhAck => true
  | .disable | .idle | .receive | .receiveBusy | .transmit | .transmitCca | .ed => false

/-- The buffers with a message in the queue, oldest first. -/
def carried (r : Radio) : List ℕ := r.queue.filterMap Msg802154.index?

def awaiting (r : Radio) : List ℕ := if r.state.acks then [r.rxPktWithAck] else []

/-- The buffers on their way to the task, in the order they will be there. -/
def pending (r : Radio) : List ℕ := carried r ++ awaiting r

def hands (s : RadioSystem) : List ℕ := pending s.radio ++ s.held.map Prod.fst

def Radio.full (r : Radio) : Prop := ¬r.queue.length < msgQueueSize

instance (r : Radio) : Decidable r.full := instDecidableNot

section Driver

variable {M : Mac802154} {r : Radio}

@[simp] theorem cmd_frameBuf (c : RadioCmd) : (r.cmd c).frameBuf = r.frameBuf := rfl
@[simp] theorem carried_cmd (c : RadioCmd) : carried (r.cmd c) = carried r := rfl
@[simp] theorem awaiting_cmd (c : RadioCmd) : awaiting (r.cmd c) = awaiting r := rfl

@[simp] theorem pushToQueue_frameBuf (msg : Msg802154) :
    (r.pushToQueue msg).frameBuf = r.frameBuf := by
  unfold Radio.pushToQueue
  split <;> rfl

@[simp] theorem pushToQueue_state (msg : Msg802154) : (r.pushToQueue msg).state = r.state := by
  unfold Radio.pushToQueue
  split <;> rfl

@[simp] theorem pushToQueue_rxPktWithAck (msg : Msg802154) :
    (r.pushToQueue msg).rxPktWithAck = r.rxPktWithAck := by
  unfold Radio.pushToQueue
  split <;> rfl

theorem carried_pushToQueue (msg : Msg802154) :
    carried (r.pushToQueue msg) = if r.full then carried r else carried r ++ msg.index?.toList := by
  unfold Radio.pushToQueue
  split
  case isTrue hroom =>
    have hfull : ¬r.full := not_not.mpr hroom
    rw [if_neg hfull, carried, List.filterMap_append]
    cases msg <;> rfl
  case isFalse hroom =>
    have hfull : r.full := hroom
    rw [if_pos hfull]
    rfl

/-- A message about anything but a frame. -/
theorem carried_pushToQueue_other {msg : Msg802154} (h : msg.index? = none) :
    carried (r.pushToQueue msg) = carried r := by
  rw [carried_pushToQueue, h, Option.toList_none, List.append_nil, ite_self]

theorem acks_iff (state : RadioState) : (state = .transmitImmAck ∨ state = .transmitEnhAck) ↔
    state.acks = true := by
  cases state <;> simp [RadioState.acks]

theorem awaiting_acks (h : r.state.acks = true) : awaiting r = [r.rxPktWithAck] := if_pos h

theorem awaiting_other (h : r.state.acks = false) : awaiting r = [] := by
  rw [awaiting, h]
  rfl

theorem atomic_of_acks {state : RadioState} (h : state.acks = true) : state.atomic = true := by
  cases state with
  | disable | idle | receive | ed => cases h
  | _ => rfl

theorem txComplete_frames (data : List UInt8) :
    (maclTxComplete M r data).frameBuf = r.frameBuf ∧ awaiting (maclTxComplete M r data) = [] ∧
      carried (maclTxComplete M r data) = if r.full then carried r
        else carried r ++ awaiting r := by
  simp only [maclTxComplete, Radio.transmitFailed, acks_iff]
  refine ⟨?_, rfl, ?_⟩
  · split
    · simp
    · split
      · split <;> simp
      · rfl
  · by_cases hack : r.state.acks = true
    · rw [if_pos hack, awaiting_acks hack]
      exact carried_pushToQueue (.rxDone r.rxPktWithAck)
    · rw [if_neg hack, awaiting_other (by simpa using hack), List.append_nil, ite_self]
      split
      · split
        · exact carried_pushToQueue_other rfl
        · exact carried_pushToQueue_other rfl
      · rfl

def SameFrames (r r' : Radio) : Prop := r'.frameBuf = r.frameBuf ∧ carried r' = carried r ∧
    awaiting r' = awaiting r

theorem SameFrames.trans {r' r'' : Radio} (h : SameFrames r r') (h' : SameFrames r' r'') :
    SameFrames r r'' :=
  ⟨h'.1.trans h.1, h'.2.1.trans h.2.1, h'.2.2.trans h.2.2⟩

theorem delayTx_frames : SameFrames r r.isrHandleDelayTx := by
  simp only [Radio.isrHandleDelayTx]
  split
  case isTrue => exact ⟨rfl, rfl, rfl⟩
  case isFalse hatomic =>
    have hacks : r.state.acks = false := by
      cases h : r.state.acks with
      | false => rfl
      | true => exact absurd (atomic_of_acks h) hatomic
    exact ⟨rfl, rfl, (awaiting_other hacks).symm⟩

theorem timer_frames : SameFrames r r.bkTimerOverflowCb := by
  have htx : SameFrames r (if r.timerPending = .txPending then r.isrHandleDelayTx else r) := by
    split
    · exact delayTx_frames
    · exact ⟨rfl, rfl, rfl⟩
  have hrx : ∀ r' : Radio, SameFrames r' (if r'.timerPending = .rxPending then r'.isrHandleDelayRx
      else r') := by
    intro r'
    split <;> exact ⟨rfl, rfl, rfl⟩
  exact htx.trans (hrx _)

theorem chCca_frames (busy : Bool) (random : ℕ) : SameFrames r (maclChCca M r busy random) := by
  simp only [maclChCca, Radio.transmitFailed]
  by_cases hcca : r.state = .transmitCca
  · have hnone : awaiting r = [] := awaiting_other (by rw [hcca]; rfl)
    rw [if_pos hcca]
    split
    · split
      · refine ⟨by simp, carried_pushToQueue_other rfl, ?_⟩
        rw [hnone]
        exact awaiting_other (by simp [RadioState.acks])
      · exact ⟨rfl, rfl, rfl⟩
    · exact ⟨rfl, rfl, rfl⟩
  · rw [if_neg hcca]
    exact ⟨rfl, rfl, rfl⟩

theorem hwTimeout_frames : SameFrames r (maclHwTimeout r) := by
  unfold maclHwTimeout
  split <;> exact ⟨rfl, rfl, rfl⟩

theorem rxFrame_none (data : List UInt8) (bit : Bool) (h : r.findActiveBufferIndex = none) :
    (maclRxFrame M r data bit).frameBuf = r.frameBuf ∧
      carried (maclRxFrame M r data bit) = carried r ∧
      awaiting (maclRxFrame M r data bit) = [] := by
  unfold maclRxFrame
  rw [h]
  exact ⟨rfl, rfl, rfl⟩

/-- A frame is received into a buffer that was free, and the buffer is on its way to the task unless
the queue is full. -/
theorem rxFrame_some (data : List UInt8) (bit : Bool) {j : ℕ}
    (h : r.findActiveBufferIndex = some j) :
    ∃ f : Frame802154, f.used = true ∧ f.frame = UInt8.ofNat (data.length + 1) :: data ∧
      (maclRxFrame M r data bit).frameBuf = r.frameBuf.set j f ∧
      pending (maclRxFrame M r data bit) = if ackRequest data = false ∧ r.full then carried r
        else carried r ++ [j] := by
  simp only [maclRxFrame, h, Radio.setFrame]
  cases hack : ackRequest data with
  | true =>
    simp only [if_true, Bool.true_eq_false, false_and, if_false]
    split
    · exact ⟨_, rfl, rfl, List.set_set .., rfl⟩
    · exact ⟨_, rfl, rfl, List.set_set .., rfl⟩
  | false =>
    simp only [Bool.false_eq_true, if_false, true_and]
    refine ⟨_, rfl, rfl, pushToQueue_frameBuf _, ?_⟩
    exact (List.append_nil _).trans (carried_pushToQueue (.rxDone j))

theorem findActiveBufferIndex_some {j : ℕ} (h : r.findActiveBufferIndex = some j) :
    j < r.frameBuf.length ∧ (r.frameAt j).used = false := by
  obtain ⟨hlt, hfree, -⟩ := List.findIdx?_eq_some_iff_getElem.mp h
  refine ⟨hlt, ?_⟩
  rw [Radio.frameAt, List.getD_eq_getElem?_getD, List.getElem?_eq_getElem hlt, Option.getD_some]
  simpa using hfree

end Driver

def TaskPc.setsState : TaskPc → Bool
  | .enableState | .disableState | .receiveState | .transmitState _
      _ | .transmitAtState | .energyState => true
  | .idle | .receiveConfig | .transmitClear _ _ | .transmitCopy _ _ | .transmitSend _
      _ | .receiveAtPending _
  | .receiveAtTimer _ | .transmitAtCca | .transmitAtPending _ | .transmitAtTimer _ => false

/-- The buffers that a step takes off their way and gives to nobody. -/
def dropped (s : RadioSystem) : RadioLabel → List ℕ
  | .call .enable => carried s.radio
  | .call (.receiveAt _) => awaiting s.radio
  | .call _ => []
  | .task => if s.pc.setsState then awaiting s.radio else []
  | .isr (.txComplete _) => if s.radio.full then awaiting s.radio else []
  | .isr (.rxAck _) => awaiting s.radio
  | .isr (.chEd _) => awaiting s.radio
  | .isr (.rxFrame data _) =>
    awaiting s.radio ++ if ackRequest data = false ∧ s.radio.full then
      s.radio.findActiveBufferIndex.toList else []
  | .isr (.chCca _ _) => []
  | .isr .hwTimeout => []
  | .isr (.rxSfd _) => []
  | .timer => []
  | .popMsg => []
  | .release _ => []

/-- The ways a step can treat the frames, with the buffers it drops. -/
inductive FrameMove (s t : RadioSystem) (dropped : List ℕ) : Prop
  | passes (hbuf : t.radio.frameBuf = s.radio.frameBuf) (hheld : t.held = s.held)
      (hdelivered : t.delivered = s.delivered)
      (hreceived : s.received.Sublist t.received)
      (hpending : (pending t.radio).Sublist (pending s.radio))
      (hdropped : (pending t.radio ++ dropped).Perm (pending s.radio))
  | receives (j : ℕ) (f : Frame802154) (hlt : j < s.radio.frameBuf.length)
      (hfree : (s.radio.frameAt j).used = false)
      (hused : f.used = true) (hbuf : t.radio.frameBuf = s.radio.frameBuf.set j f)
      (hheld : t.held = s.held) (hdelivered : t.delivered = s.delivered)
      (hreceived : t.received = s.received ++ [f.frame])
      (hpending : (pending t.radio).Sublist (carried s.radio ++ [j]))
      (hdropped : (pending t.radio ++ dropped).Perm (pending s.radio ++ [j]))
  | pops (j : ℕ) (hbuf : t.radio.frameBuf = s.radio.frameBuf)
      (hheld : t.held = s.held ++ [(j, (s.radio.frameAt j).frame)])
      (hdelivered : t.delivered = s.delivered ++ [(s.radio.frameAt j).frame])
      (hreceived : t.received = s.received)
      (hpending : pending s.radio = j :: pending t.radio) (hdropped : dropped = [])
  | givesBack (j : ℕ) (hmem : j ∈ s.held.map Prod.fst)
      (hbuf : t.radio.frameBuf = s.radio.frameBuf.set j { s.radio.frameAt j with used := false })
      (hheld : t.held = s.held.eraseP fun h => h.1 = j) (hdelivered : t.delivered = s.delivered)
      (hreceived : t.received = s.received) (hpending : pending t.radio = pending s.radio)
      (hdropped : dropped = [])

variable {M : Mac802154} {s t : RadioSystem} {l : RadioLabel}

/-- The frames in the queue stay, and so does the one whose ACK is sent, or it is dropped. -/
theorem FrameMove.of_carried (hbuf : t.radio.frameBuf = s.radio.frameBuf) (hheld : t.held = s.held)
    (hdelivered : t.delivered = s.delivered) (hreceived : s.received.Sublist t.received)
    (hcarried : carried t.radio = carried s.radio) {ds : List ℕ}
    (hawaiting : awaiting t.radio ++ ds = awaiting s.radio) :
    FrameMove s t ds := by
  refine .passes hbuf hheld hdelivered hreceived ?_ ?_
  · rw [pending, pending, hcarried, ← hawaiting, ← List.append_assoc]
    exact List.sublist_append_left _ _
  · rw [pending, pending, hcarried, ← hawaiting, List.append_assoc]

theorem FrameMove.of_same {r : Radio} {pc : TaskPc} {received : List (List UInt8)}
    (h : SameFrames s.radio r) (hreceived : s.received.Sublist received) :
    FrameMove s ⟨r, pc, s.held, received, s.delivered⟩ [] :=
  FrameMove.of_carried (s := s) (t := ⟨r, pc, s.held, received, s.delivered⟩) h.1 rfl rfl hreceived
    h.2.1 ((List.append_nil _).trans h.2.2)

/-- The frame whose ACK is being sent is dropped, if there is one. -/
theorem FrameMove.of_left {r : Radio} {pc : TaskPc} {received : List (List UInt8)}
    (hbuf : r.frameBuf = s.radio.frameBuf)
    (hcarried : carried r = carried s.radio) (hawaiting : awaiting r = [])
    (hreceived : s.received.Sublist received) :
    FrameMove s ⟨r, pc, s.held, received, s.delivered⟩ (awaiting s.radio) :=
  FrameMove.of_carried (s := s) (t := ⟨r, pc, s.held, received, s.delivered⟩) hbuf rfl rfl hreceived
    hcarried (by rw [hawaiting, List.nil_append])

theorem enterCall_move (call : RadioCall) :
    FrameMove s { s with radio := (enterCall s.radio call).1, pc := (enterCall s.radio call).2 }
      (dropped s (.call call)) := by
  have hsame : s.received.Sublist s.received := List.Sublist.refl _
  cases call with
  | enable => exact .passes rfl rfl rfl hsame (List.sublist_append_right _ _) List.perm_append_comm
  | disable => exact .of_same ⟨rfl, rfl, rfl⟩ hsame
  | receive => exact .of_same ⟨rfl, rfl, rfl⟩ hsame
  | transmit frame cca =>
    simp only [enterCall]
    split <;> exact .of_same ⟨rfl, rfl, rfl⟩ hsame
  | receiveAt delay => exact .of_left rfl rfl rfl hsame
  | transmitAt frame cca delay => exact .of_same ⟨rfl, rfl, rfl⟩ hsame
  | energyDetect => exact .of_same ⟨rfl, rfl, rfl⟩ hsame

theorem taskNext_frames (r : Radio) (pc : TaskPc) :
    (taskNext r pc).1.frameBuf = r.frameBuf ∧ carried (taskNext r pc).1 = carried r ∧
      awaiting (taskNext r pc).1 = if pc.setsState then [] else awaiting r := by
  cases pc with
  | transmitState frame cca => cases cca <;> exact ⟨rfl, rfl, rfl⟩
  | _ => exact ⟨rfl, rfl, rfl⟩

theorem maclCb_move (event : MaclEvent) :
    FrameMove s { s with radio := maclCb M s.radio event, received := s.received ++ event.frames }
      (dropped s (.isr event)) := by
  have hmore : s.received.Sublist (s.received ++ event.frames) := List.sublist_append_left _ _
  cases event with
  | txComplete data =>
    obtain ⟨hbuf, hawaiting, hcarried⟩ := @txComplete_frames M s.radio data
    simp only [dropped]
    split at hcarried
    case isTrue hfull =>
      rw [if_pos hfull]
      exact .of_left hbuf hcarried hawaiting hmore
    case isFalse hroom =>
      have hpending : pending (maclTxComplete M s.radio data) = pending s.radio := by
        rw [pending, hcarried, hawaiting, List.append_nil, pending]
      rw [if_neg hroom]
      refine .passes hbuf rfl rfl hmore ?_ ?_
      · simp only [maclCb, hpending, List.Sublist.refl]
      · simp only [maclCb, hpending, List.append_nil, List.Perm.refl]
  | rxAck data => exact .of_left rfl rfl rfl hmore
  | chEd lqi =>
    exact .of_left (pushToQueue_frameBuf .edDone) (carried_pushToQueue_other rfl) rfl hmore
  | rxFrame data bit =>
    simp only [dropped]
    cases hfind : s.radio.findActiveBufferIndex with
    | none =>
      obtain ⟨hbuf, hcarried, hawaiting⟩ := @rxFrame_none M s.radio data bit hfind
      have hnone : (if ackRequest data = false ∧ s.radio.full then (none : Option ℕ).toList
        else []) = [] := ite_self _
      rw [hnone, List.append_nil]
      exact .of_left hbuf hcarried hawaiting hmore
    | some j =>
      obtain ⟨f, hused, hframe, hbuf, hpending⟩ := @rxFrame_some M s.radio data bit j hfind
      obtain ⟨hlt, hfree⟩ := findActiveBufferIndex_some hfind
      have hreceived : s.received ++ (MaclEvent.rxFrame data bit).frames = s.received ++
          [f.frame] := by
        rw [hframe]
        rfl
      refine .receives j f hlt hfree hused hbuf rfl rfl hreceived ?_ ?_
      · simp only [maclCb, hpending]
        split
        · exact List.sublist_append_left _ _
        · exact List.Sublist.refl _
      · simp only [maclCb, hpending]
        split
        · rw [← List.append_assoc]
          exact List.Perm.refl _
        · rw [List.append_nil, pending, List.append_assoc, List.append_assoc]
          exact List.Perm.append_left _ List.perm_append_comm
  | chCca busy random => exact .of_same (chCca_frames busy random) hmore
  | hwTimeout => exact .of_same hwTimeout_frames hmore
  | rxSfd time => exact .of_same ⟨rfl, rfl, rfl⟩ hmore

theorem popMsg_move (h : popMsgStep s = some t) : FrameMove s t [] := by
  simp only [popMsgStep] at h
  cases hqueue : s.radio.queue with
  | nil =>
    rw [hqueue] at h
    cases h
  | cons msg rest =>
    have hcarried : carried s.radio = msg.index?.toList ++ rest.filterMap Msg802154.index? := by
      rw [carried, hqueue, List.filterMap_cons]
      cases msg <;> rfl
    rw [hqueue] at h
    cases msg with
    | rxDone j =>
      cases h
      refine .pops j rfl rfl rfl rfl ?_ rfl
      rw [pending, hcarried]
      rfl
    | txFail => cases h; exact .of_same ⟨rfl, hcarried.symm, rfl⟩ (List.Sublist.refl _)
    | txDoneNoAck => cases h; exact .of_same ⟨rfl, hcarried.symm, rfl⟩ (List.Sublist.refl _)
    | edDone => cases h; exact .of_same ⟨rfl, hcarried.symm, rfl⟩ (List.Sublist.refl _)

theorem radioStep_move (h : radioStep M s l = some t) : FrameMove s t (dropped s l) := by
  cases l with
  | call call =>
    simp only [radioStep] at h
    split at h
    · cases h
      exact enterCall_move call
    · cases h
  | task =>
    cases h
    obtain ⟨hbuf, hcarried, hawaiting⟩ := taskNext_frames s.radio s.pc
    simp only [dropped]
    split at hawaiting
    case isTrue hsets =>
      rw [if_pos hsets]
      exact .of_left hbuf hcarried hawaiting (List.Sublist.refl _)
    case isFalse hsets =>
      rw [if_neg hsets]
      exact .of_same ⟨hbuf, hcarried, hawaiting⟩ (List.Sublist.refl _)
  | isr event =>
    cases h
    exact maclCb_move event
  | timer =>
    cases h
    exact .of_same timer_frames (List.Sublist.refl _)
  | popMsg => exact popMsg_move h
  | release j =>
    simp only [radioStep] at h
    split at h
    case isTrue hmem =>
      cases h
      exact .givesBack j hmem rfl rfl rfl rfl rfl rfl
    case isFalse => cases h

structure Custody (s : RadioSystem) : Prop where
  size : s.radio.frameBuf.length = bkFrameBufferMaxSize
  /-- A buffer is in one place at most, and in none unless it is in use. -/
  once : ∀ j, (hands s).count j ≤ (s.radio.frameAt j).used.toNat
  reads : ∀ h ∈ s.held, (s.radio.frameAt h.1).frame = h.2
  order : (s.delivered ++ (pending s.radio).map fun j => (s.radio.frameAt j).frame).Sublist
    s.received

theorem frameAt_of_buf {r r' : Radio} (h : r'.frameBuf = r.frameBuf) (j : ℕ) :
    r'.frameAt j = r.frameAt j := by
  rw [Radio.frameAt, Radio.frameAt, h]

theorem frameAt_of_set {r r' : Radio} {j : ℕ} {f : Frame802154} (hlt : j < r.frameBuf.length)
    (h : r'.frameBuf = r.frameBuf.set j f) :
    r'.frameAt j = f ∧ ∀ i, i ≠ j → r'.frameAt i = r.frameAt i := by
  simp only [Radio.frameAt, h, List.getD_eq_getElem?_getD]
  constructor
  · rw [List.getElem?_set_self hlt, Option.getD_some]
  · intro i hne
    rw [List.getElem?_set_ne (Ne.symm hne)]

theorem count_hands (s : RadioSystem) (j : ℕ) :
    (hands s).count j = (pending s.radio).count j + (s.held.map Prod.fst).count j := by
  rw [hands, List.count_append]

theorem Custody.once_le (h : Custody s) (j : ℕ) :
    (hands s).count j ≤ 1 := Nat.le_trans (h.once j) (Bool.toNat_le _)

/-- A buffer that is not in use is nowhere. -/
theorem Custody.nowhere {j : ℕ} (h : Custody s) (hfree : (s.radio.frameAt j).used = false) :
    (hands s).count j = 0 := by
  have honce := h.once j
  rw [hfree] at honce
  simpa using honce

theorem Custody.used {j : ℕ} (h : Custody s) (hj : j ∈ hands s) :
    (s.radio.frameAt j).used = true := by
  cases hused : (s.radio.frameAt j).used with
  | true => rfl
  | false => exact absurd (h.nowhere hused) (Nat.ne_of_gt (List.count_pos_iff.mpr hj))

theorem lt_of_used {r : Radio} {j : ℕ} (hused : (r.frameAt j).used = true) :
    j < r.frameBuf.length := by
  by_contra hge
  rw [Radio.frameAt, List.getD_eq_getElem?_getD,
    List.getElem?_eq_none (Nat.le_of_not_lt hge)] at hused
  cases hused

theorem count_givenBack (held : List (ℕ × List UInt8)) (j i : ℕ) :
    ((held.eraseP fun h => h.1 = j).map Prod.fst).count i = (held.map Prod.fst).count i - if i =
      j then 1 else 0 := by
  have herase : (held.eraseP fun h => h.1 = j).map Prod.fst = (held.map Prod.fst).erase j := by
    rw [List.erase_eq_eraseP, List.eraseP_map]
    congr 2
    funext h
    rw [Bool.eq_iff_iff, Function.comp_apply, beq_iff_eq, decide_eq_true_iff]
    exact eq_comm
  rw [herase, List.count_erase]
  by_cases hij : i = j
  · subst hij
    rw [beq_self_eq_true, if_pos rfl, if_pos rfl]
  · rw [if_neg hij, if_neg (by simpa using Ne.symm hij)]

theorem Custody.step {ds : List ℕ} (h : Custody s) (hmove : FrameMove s t ds) : Custody t := by
  cases hmove with
  | passes hbuf hheld hdelivered hreceived hpending hdropped =>
    have hframe := frameAt_of_buf hbuf
    constructor
    · rw [hbuf, h.size]
    · intro j
      have honce := h.once j
      have hle := hpending.count_le j
      rw [count_hands] at honce ⊢
      rw [hframe, hheld]
      omega
    · intro x hx
      rw [hheld] at hx
      rw [hframe, h.reads x hx]
    · simp only [hdelivered, hframe]
      exact (((hpending.map _).append_left _).trans h.order).trans hreceived
  | receives j f hlt hfree hused hbuf hheld hdelivered hreceived hpending hdropped =>
    obtain ⟨hnew, hold⟩ := frameAt_of_set hlt hbuf
    have hnone := h.nowhere hfree
    rw [count_hands] at hnone
    constructor
    · rw [hbuf, List.length_set, h.size]
    · intro i
      have honce := h.once i
      have hle := hpending.count_le i
      have hcarried : (carried s.radio).count i ≤ (pending s.radio).count i :=
        (List.sublist_append_left _ _).count_le i
      rw [count_hands] at honce ⊢
      rw [List.count_append, List.count_singleton] at hle
      rw [hheld]
      by_cases hij : i = j
      · subst hij
        rw [hnew, hused]
        simp only [beq_self_eq_true, if_true] at hle
        simp only [Bool.toNat_true]
        omega
      · rw [hold i hij]
        simp only [beq_iff_eq, Ne.symm hij, if_false] at hle
        omega
    · intro x hx
      rw [hheld] at hx
      have hne : x.1 ≠ j := by
        rintro rfl
        have hpos := List.count_pos_iff.mpr (List.mem_map_of_mem (f := Prod.fst) hx)
        omega
      rw [hold _ hne, h.reads x hx]
    · have hsame : (carried s.radio).map (fun i => (t.radio.frameAt i).frame) =
          (carried s.radio).map fun i => (s.radio.frameAt i).frame := by
        apply List.map_congr_left
        intro i hi
        have hne : i ≠ j := by
          rintro rfl
          have hpos := List.count_pos_iff.mpr hi
          have hle : (carried s.radio).count i ≤ (pending s.radio).count i :=
            (List.sublist_append_left _ _).count_le i
          omega
        rw [hold i hne]
      have hthis := hpending.map fun i => (t.radio.frameAt i).frame
      rw [List.map_append, hsame, List.map_singleton, hnew] at hthis
      have hbefore : (s.delivered ++ (carried s.radio).map fun i =>
          (s.radio.frameAt i).frame).Sublist s.received := by
        refine List.Sublist.trans (List.Sublist.append_left ?_ _) h.order
        exact (List.sublist_append_left _ _).map _
      rw [hdelivered, hreceived]
      refine (hthis.append_left _).trans ?_
      rw [← List.append_assoc]
      exact hbefore.append_right _
  | pops j hbuf hheld hdelivered hreceived hpending hdropped =>
    have hframe := frameAt_of_buf hbuf
    constructor
    · rw [hbuf, h.size]
    · intro i
      have honce := h.once i
      rw [count_hands, hpending, List.count_cons] at honce
      rw [count_hands, hframe, hheld, List.map_append, List.count_append, List.map_singleton,
        List.count_singleton]
      dsimp only
      omega
    · intro x hx
      rw [hheld] at hx
      rw [hframe]
      rcases List.mem_append.mp hx with hx | hx
      · exact h.reads x hx
      · rw [List.mem_singleton.mp hx]
    · have horder := h.order
      rw [hpending, List.map_cons] at horder
      simp only [hdelivered, hreceived, hframe, List.append_assoc]
      exact horder
  | givesBack j hmem hbuf hheld hdelivered hreceived hpending hdropped =>
    have hpos := List.count_pos_iff.mpr hmem
    have hj : j ∈ hands s := List.mem_append_right _ hmem
    obtain ⟨hnew, hold⟩ := frameAt_of_set (lt_of_used (h.used hj)) hbuf
    have hframe : ∀ i, (t.radio.frameAt i).frame = (s.radio.frameAt i).frame := by
      intro i
      by_cases hij : i = j
      · subst hij
        rw [hnew]
      · rw [hold i hij]
    constructor
    · rw [hbuf, List.length_set, h.size]
    · intro i
      have honce := h.once i
      have hone := h.once_le i
      rw [count_hands] at honce hone ⊢
      rw [hpending, hheld, count_givenBack]
      by_cases hij : i = j
      · subst hij
        rw [if_pos rfl]
        omega
      · rw [if_neg hij, hold i hij]
        omega
    · intro x hx
      rw [hheld] at hx
      rw [hframe]
      exact h.reads x (List.mem_of_mem_eraseP hx)
    · simp only [hdelivered, hreceived, hpending, hframe]
      exact h.order

theorem custody_boot : Custody radioBoot := by
  constructor
  · rfl
  · intro j
    exact Nat.zero_le _
  · simp [radioBoot]
  · exact List.Sublist.refl _

theorem Custody.of_reach (h : Reach (radioStep M) anyStep radioBoot s) : Custody s :=
  h.invariant custody_boot fun _ _ _ hs _ hstep => hs.step (radioStep_move hstep)

/-- Whatever the interleaving, the task gets received frames only, in the order of their reception
and each once; the buffers it has read as they did when it took them; and no buffer is in two
places. -/
theorem radio_delivers (h : Reach (radioStep M) anyStep radioBoot s) :
    s.delivered.Sublist s.received ∧ (∀ x ∈ s.held, (s.radio.frameAt x.1).frame = x.2) ∧
      (hands s).Nodup ∧ ∀ j ∈ hands s, (s.radio.frameAt j).used = true := by
  have hcustody := Custody.of_reach h
  refine ⟨?_, hcustody.reads, ?_, fun j hj => hcustody.used hj⟩
  · exact (List.sublist_append_left _ _).trans hcustody.order
  · exact List.nodup_iff_count_le_one.mpr hcustody.once_le

def twoFrames : List RadioLabel :=
  [.isr (.rxFrame [0x61, 0x88, 7, 200] true), .isr (.txComplete []),
    .isr (.rxFrame [0x41, 0x88, 8, 201] false), .popMsg, .popMsg]

theorem radio_delivers_two : ∃ s, exec (radioStep plainMac) radioBoot twoFrames = some s ∧
    s.delivered = [[5, 0x61, 0x88, 7, 200], [5, 0x41, 0x88, 8, 201]] ∧
      s.delivered.Sublist s.received := by
  have hrun : (exec (radioStep plainMac) radioBoot twoFrames).map (·.delivered) =
      some [[5, 0x61, 0x88, 7, 200], [5, 0x41, 0x88, 8, 201]] := by decide
  obtain ⟨s, hs, hdelivered⟩ := Option.map_eq_some_iff.mp hrun
  exact ⟨s, hs, hdelivered, (radio_delivers (reach_of_exec hs)).1⟩

def Lost (s : RadioSystem) (j : ℕ) : Prop := (s.radio.frameAt j).used = true ∧ j ∉ hands s

theorem boot_unused (j : ℕ) : (Radio.boot.frameAt j).used = false := by
  rw [Radio.frameAt, Radio.boot, List.getD_eq_getElem?_getD, List.getElem?_replicate]
  split <;> rfl

theorem lost_iff_count (s : RadioSystem) (j : ℕ) : Lost s j ↔ (s.radio.frameAt j).used = true ∧
    (hands s).count j = 0 := by
  rw [Lost, List.count_eq_zero]

/-- A buffer of which nothing is in hands any more was in nobody's hands before, or was dropped. -/
theorem lost_counts {used : Bool} {way way' held drops : ℕ} (honce : way + held ≤ used.toNat)
    (hcount : way' + drops = way) :
    used = true ∧ way' + held = 0 ↔ used = true ∧ way + held = 0 ∨ 0 < drops := by
  cases used with
  | true =>
    rw [Bool.toNat_true] at honce
    simp only [true_and]
    omega
  | false =>
    rw [Bool.toNat_false] at honce
    constructor
    · rintro ⟨h, -⟩
      cases h
    · rintro (⟨h, -⟩ | h)
      · cases h
      · omega

/-- A step loses the buffers it drops, and no lost buffer comes back. -/
theorem lost_step {ds : List ℕ} (h : Custody s) (hmove : FrameMove s t ds) (j : ℕ) :
    Lost t j ↔ Lost s j ∨ j ∈ ds := by
  have honce := h.once j
  rw [lost_iff_count, lost_iff_count, ← List.count_pos_iff]
  rw [count_hands] at honce ⊢
  rw [count_hands]
  cases hmove with
  | passes hbuf hheld hdelivered hreceived hpending hdropped =>
    have hcount := hdropped.count_eq j
    rw [List.count_append] at hcount
    rw [frameAt_of_buf hbuf, hheld]
    exact lost_counts honce hcount
  | receives i f hlt hfree hused hbuf hheld hdelivered hreceived hpending hdropped =>
    obtain ⟨hnew, hold⟩ := frameAt_of_set hlt hbuf
    have hcount := hdropped.count_eq j
    rw [List.count_append, List.count_append, List.count_singleton] at hcount
    rw [hheld]
    by_cases hij : i = j
    · subst hij
      rw [hfree, Bool.toNat_false] at honce
      rw [beq_self_eq_true, if_pos rfl] at hcount
      simp only [hnew, hused, hfree, true_and, Bool.false_eq_true, false_and, false_or]
      omega
    · rw [if_neg (by simpa using hij), Nat.add_zero] at hcount
      rw [hold j (Ne.symm hij)]
      exact lost_counts honce hcount
  | pops i hbuf hheld hdelivered hreceived hpending hdropped =>
    rw [frameAt_of_buf hbuf, hdropped, hpending, hheld, List.count_cons, List.map_append,
      List.count_append, List.map_singleton,
      List.count_singleton, List.count_nil, Nat.add_right_comm]
    simp [Nat.add_assoc]
  | givesBack i hmem hbuf hheld hdelivered hreceived hpending hdropped =>
    have hmem' : i ∈ hands s := List.mem_append_right _ hmem
    obtain ⟨hnew, hold⟩ := frameAt_of_set (lt_of_used (h.used hmem')) hbuf
    rw [hpending, hheld, count_givenBack, hdropped, List.count_nil]
    by_cases hij : j = i
    · subst hij
      have hpos := List.count_pos_iff.mpr hmem
      rw [hnew]
      constructor
      · rintro ⟨hused, -⟩
        cases hused
      · rintro (⟨-, hzero⟩ | hzero)
        · omega
        · cases hzero
    · rw [if_neg hij, hold j hij]
      simp

theorem none_lost (h : Reach (radioStep M) (fun s l => dropped s l = []) radioBoot s) (j : ℕ) :
    ¬Lost s j := by
  induction h with
  | init =>
    rintro ⟨hused, -⟩
    rw [radioBoot, boot_unused] at hused
    cases hused
  | step hr hok hstep ih =>
    have hbefore := Custody.of_reach (hr.mono fun _ _ _ => trivial)
    rw [lost_step hbefore (radioStep_move hstep) j, hok]
    simp [ih]

theorem lost_forever (h : Reach (radioStep M) anyStep radioBoot s)
    (hrun : Reach (radioStep M) anyStep s t) {j : ℕ}
    (hlost : Lost s j) : Lost t j := by
  induction hrun with
  | init => exact hlost
  | step hr _ hstep ih =>
    exact (lost_step (Custody.of_reach (h.trans hr)) (radioStep_move hstep) j).mpr (Or.inl ih)

/-- With every buffer lost nothing is delivered any more. -/
theorem deaf_forever (h : Reach (radioStep M) anyStep radioBoot s)
    (hlost : ∀ j < bkFrameBufferMaxSize, Lost s j)
    (hrun : Reach (radioStep M) anyStep s t) : t.delivered = s.delivered := by
  induction hrun with
  | init => rfl
  | step hr _ hstep ih =>
    have hcustody := Custody.of_reach (h.trans hr)
    rw [← ih]
    cases radioStep_move hstep with
    | passes _ _ hdelivered => exact hdelivered
    | receives _ _ _ _ _ _ _ hdelivered => exact hdelivered
    | givesBack _ _ _ _ hdelivered => exact hdelivered
    | pops j _ _ _ _ hpending _ =>
      have hj : j ∈ hands _ := List.mem_append_left _ (hpending ▸ List.mem_cons_self)
      have hlt := lt_of_used (hcustody.used hj)
      rw [hcustody.size] at hlt
      exact absurd hj (lost_forever h hr (hlost j hlt)).2

/-- In every reachable state a step loses exactly the buffers it drops; a lost buffer stays lost
whatever follows; in runs that drop nothing none is lost; and a driver that has lost every buffer
delivers nothing more. -/
theorem radio_lost (h : Reach (radioStep M) anyStep radioBoot s) :
    (∀ l t j, radioStep M s l = some t → (Lost t j ↔ Lost s j ∨ j ∈ dropped s l)) ∧
      (∀ t j, Reach (radioStep M) anyStep s t → Lost s j → Lost t j) ∧
      (Reach (radioStep M) (fun s l => dropped s l = []) radioBoot s → ∀ j, ¬Lost s j) ∧
      ((∀ j < bkFrameBufferMaxSize, Lost s j) → ∀ t, Reach (radioStep M) anyStep s t →
        t.delivered = s.delivered) := by
  refine ⟨?_, fun t j hrun => lost_forever h hrun, fun hrun j => none_lost hrun j,
      fun hlost t hrun =>
    deaf_forever h hlost hrun⟩
  intro l t j hstep
  exact lost_step (Custody.of_reach h) (radioStep_move hstep) j

/-- An energy scan is begun while an ACK is being sent. -/
theorem radio_lost_ack : ∃ s t, exec (radioStep plainMac) radioBoot
      [.call .energyDetect, .isr (.rxFrame [0x61, 0x88, 7, 200] true)] = some s ∧
          radioStep plainMac s .task = some t ∧ Lost t 0 := by
  have hrun : (exec (radioStep plainMac) radioBoot [.call .energyDetect,
    .isr (.rxFrame [0x61, 0x88, 7, 200] true)]).map
      (fun s => dropped s .task) = some [0] := by decide
  obtain ⟨s, hs, hdropped⟩ := Option.map_eq_some_iff.mp hrun
  have hmem : 0 ∈ dropped s .task := by rw [hdropped]; exact List.mem_singleton_self 0
  exact ⟨s, _, hs, rfl, ((radio_lost (reach_of_exec hs)).1 .task _ 0 rfl).mpr (Or.inr hmem)⟩

end Sonoff.Thread
