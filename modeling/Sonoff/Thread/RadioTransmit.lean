import Sonoff.Thread.RadioFrames

/-! # Transmissions of the radio driver

A transmission is under way from where the task or the timer sets the state until
the radio reports its end, or until something else sets the state. In the latter
case its end is not reported at all.
-/
namespace Sonoff.Thread
open Bytes Machine

def RadioState.transmits : RadioState → Bool
  | .transmit | .transmitCca => true
  | .disable | .idle | .receive | .receiveBusy | .transmitImmAck | .transmitEnhAck | .ed => false

def inFlight (r : Radio) : ℕ := r.state.transmits.toNat

def Msg802154.endsTransmit : Msg802154 → Bool
  | .txFail | .txDoneNoAck => true
  | .edDone | .rxDone _ => false

def RadioCmd.endsTransmit : RadioCmd → Bool
  | .transmitDoneWithAckRapid _ => true
  | .txFrame _ | .txFrameAckStartTx _ | .txFrameAckPayload _ | .startCca | .startHwTimer
      _ | .rxConfig | .rxStop | .startEd
  | .timerStop | .timerDelay _ => false

/-- The ends of transmissions that have been reported, or would have been with room in the queue. -/
def reported (r : Radio) :
    ℕ := (r.notified.countP fun n => n.1.endsTransmit) + r.cmds.countP RadioCmd.endsTransmit

def begins (s : RadioSystem) : RadioLabel → ℕ
  | .task =>
    match s.pc with
    | .transmitState _ _ => 1
    | .transmitAtState => 1
    | _ => 0
  | .timer => if s.radio.timerPending = .txPending ∧ s.radio.state.atomic = false then 1 else 0
  | _ => 0

/-- A transmission that is under way when a step sets the state for something else. -/
def overtakes (s : RadioSystem) : RadioLabel → ℕ
  | .call (.receiveAt _) => inFlight s.radio
  | .task => if s.pc.setsState then inFlight s.radio else 0
  | .isr (.rxFrame _ _) => inFlight s.radio
  | .isr (.chEd _) => inFlight s.radio
  | _ => 0

def unasked (s : RadioSystem) : RadioLabel → ℕ
  | .isr (.rxAck _) => 1 - inFlight s.radio
  | _ => 0

section Driver

variable {M : Mac802154} {r : Radio}

theorem reported_cmd {c : RadioCmd} (h : c.endsTransmit = false) :
    reported (r.cmd c) = reported r := by
  simp [reported, Radio.cmd, h]

theorem reported_pushToQueue (msg : Msg802154) :
    reported (r.pushToQueue msg) = reported r + msg.endsTransmit.toNat := by
  unfold Radio.pushToQueue reported
  split <;> cases msg <;> simp [Msg802154.endsTransmit] <;> omega

theorem reported_transmitFailed (err : TxErr) : reported (r.transmitFailed err) = reported r + 1 :=
  reported_pushToQueue .txFail

theorem inFlight_le (r : Radio) : inFlight r ≤ 1 := Bool.toNat_le _

theorem transmits_iff (state : RadioState) : (state = .transmit ∨ state = .transmitCca) ↔
    state.transmits = true := by
  cases state <;> simp [RadioState.transmits]

theorem inFlight_transmits (h : r.state.transmits = true) : inFlight r = 1 := by
  rw [inFlight, h]
  rfl

theorem inFlight_other (h : r.state.transmits = false) : inFlight r = 0 := by
  rw [inFlight, h]
  rfl

theorem txComplete_reported (data : List UInt8) :
    reported (maclTxComplete M r data) = reported r + inFlight r ∧
      inFlight (maclTxComplete M r data) = 0 := by
  refine ⟨?_, rfl⟩
  simp only [maclTxComplete, acks_iff, transmits_iff]
  by_cases hack : r.state.acks = true
  · have hnone : r.state.transmits = false := by
      cases h : r.state with
      | transmit | transmitCca =>
        rw [h] at hack
        cases hack
      | _ => rfl
    rw [if_pos hack, inFlight_other hnone]
    exact reported_pushToQueue (.rxDone r.rxPktWithAck)
  · rw [if_neg hack]
    cases htransmits : r.state.transmits with
    | true =>
      rw [if_pos rfl, inFlight_transmits htransmits]
      split
      · exact reported_pushToQueue .txFail
      · exact reported_pushToQueue .txDoneNoAck
    | false =>
      rw [if_neg Bool.false_ne_true, inFlight_other htransmits]
      rfl

theorem rxAck_reported (data : List UInt8) : reported (maclRxAck M r data) = reported r + 1 ∧
    inFlight (maclRxAck M r data) = 0 := by
  refine ⟨?_, rfl⟩
  simp only [maclRxAck, Radio.cmd, reported, List.countP_cons, RadioCmd.endsTransmit, if_true]
  omega

theorem rxFrame_reported (data : List UInt8) (bit : Bool) :
    reported (maclRxFrame M r data bit) = reported r ∧ inFlight (maclRxFrame M r data bit) = 0 := by
  simp only [maclRxFrame]
  split
  · exact ⟨rfl, rfl⟩
  · split
    · split <;> exact ⟨by simp [reported, Radio.cmd, Radio.setFrame, RadioCmd.endsTransmit], rfl⟩
    · refine ⟨?_, rfl⟩
      exact reported_pushToQueue (.rxDone _)

theorem chEd_reported (lqi : UInt8) : reported (maclChEd M r lqi) = reported r ∧
    inFlight (maclChEd M r lqi) = 0 :=
  ⟨reported_pushToQueue .edDone, rfl⟩

/-- A report on the channel ends a transmission at most. -/
theorem chCca_reported (busy : Bool) (random : ℕ) :
    reported (maclChCca M r busy random) + inFlight (maclChCca M r busy random) = reported r +
      inFlight r := by
  simp only [maclChCca]
  by_cases hcca : r.state = .transmitCca
  · have hflight : inFlight r = 1 := inFlight_transmits (by rw [hcca]; rfl)
    rw [if_pos hcca, hflight]
    split
    · split
      · rw [reported_transmitFailed, inFlight_other]
        · rfl
        · simp [Radio.transmitFailed, RadioState.transmits]
      · rw [reported_cmd rfl]
        exact congrArg (reported r + ·) hflight
    · rw [reported_cmd rfl]
      exact congrArg (reported r + ·) hflight
  · rw [if_neg hcca]

theorem hwTimeout_reported : reported (maclHwTimeout r) = reported r ∧
    inFlight (maclHwTimeout r) = inFlight r := by
  unfold maclHwTimeout
  split
  · exact ⟨reported_cmd rfl, rfl⟩
  · exact ⟨rfl, rfl⟩

theorem timer_reported : reported r.bkTimerOverflowCb = reported r ∧
    inFlight r.bkTimerOverflowCb = inFlight r + if r.timerPending = .txPending ∧
      r.state.atomic = false then 1 else 0 := by
  have htx : reported (if r.timerPending = .txPending then r.isrHandleDelayTx else r) = reported r ∧
      inFlight (if r.timerPending = .txPending then r.isrHandleDelayTx else r) =
        inFlight r + if r.timerPending = .txPending ∧ r.state.atomic = false then 1 else 0 := by
    by_cases hpending : r.timerPending = .txPending
    · simp only [hpending, if_true, true_and, Radio.isrHandleDelayTx]
      cases hatomic : r.state.atomic with
      | true => exact ⟨rfl, rfl⟩
      | false =>
        have hnone : inFlight r = 0 := by
          apply inFlight_other
          cases h : r.state with
          | transmit | transmitCca =>
            rw [h] at hatomic
            cases hatomic
          | _ => rfl
        rw [hnone]
        exact ⟨reported_cmd rfl, rfl⟩
    · simp [hpending]
  have hrx : ∀ r' : Radio, reported (if r'.timerPending = .rxPending then r'.isrHandleDelayRx
    else r') = reported r' ∧
    inFlight (if r'.timerPending = .rxPending then r'.isrHandleDelayRx else r') = inFlight r' := by
    intro r'
    split
    · exact ⟨reported_cmd rfl, rfl⟩
    · exact ⟨rfl, rfl⟩
  constructor
  · exact (reported_cmd rfl).trans ((hrx _).1.trans htx.1)
  · exact (hrx _).2.trans htx.2

end Driver

variable {M : Mac802154} {s t : RadioSystem}

def accounted (s : RadioSystem) : ℕ := reported s.radio + inFlight s.radio

theorem enterCall_accounted (s : RadioSystem) (call : RadioCall) :
    reported (enterCall s.radio call).1 = reported s.radio ∧
      inFlight (enterCall s.radio call).1 + overtakes s (.call call) = inFlight s.radio := by
  cases call with
  | enable => exact ⟨rfl, rfl⟩
  | disable => exact ⟨rfl, rfl⟩
  | receive => exact ⟨rfl, rfl⟩
  | transmit frame cca =>
    simp only [enterCall]
    split <;> exact ⟨rfl, rfl⟩
  | receiveAt delay => exact ⟨rfl, Nat.zero_add _⟩
  | transmitAt frame cca delay => exact ⟨rfl, rfl⟩
  | energyDetect => exact ⟨reported_cmd rfl, rfl⟩

theorem taskNext_accounted (s : RadioSystem) :
    reported (taskNext s.radio s.pc).1 = reported s.radio ∧
      inFlight (taskNext s.radio s.pc).1 + overtakes s .task = inFlight s.radio +
        begins s .task := by
  simp only [overtakes, begins]
  cases s.pc with
  | transmitState frame cca =>
    cases cca <;> exact ⟨rfl, Nat.add_comm _ _⟩
  | transmitAtState => exact ⟨rfl, Nat.add_comm _ _⟩
  | transmitSend frame cca => cases cca <;> exact ⟨reported_cmd rfl, rfl⟩
  | receiveConfig => exact ⟨rfl, rfl⟩
  | receiveAtTimer delay => exact ⟨rfl, rfl⟩
  | transmitAtCca => exact ⟨rfl, rfl⟩
  | transmitAtTimer delay => exact ⟨rfl, rfl⟩
  | idle => exact ⟨rfl, rfl⟩
  | transmitClear frame cca => exact ⟨rfl, rfl⟩
  | transmitCopy frame cca => exact ⟨rfl, rfl⟩
  | receiveAtPending delay => exact ⟨rfl, rfl⟩
  | transmitAtPending delay => exact ⟨rfl, rfl⟩
  | enableState => exact ⟨rfl, Nat.zero_add _⟩
  | disableState => exact ⟨rfl, Nat.zero_add _⟩
  | receiveState => exact ⟨rfl, Nat.zero_add _⟩
  | energyState => exact ⟨rfl, Nat.zero_add _⟩

/-- What a step reports of transmissions was under way, or begins with it, or nobody asked for. -/
theorem radioStep_accounted {l : RadioLabel} (h : radioStep M s l = some t) :
    accounted t + overtakes s l = accounted s + (begins s l + unasked s l) := by
  cases l with
  | call call =>
    simp only [radioStep] at h
    split at h
    · cases h
      obtain ⟨hreported, hflight⟩ := enterCall_accounted s call
      simp only [accounted, begins, unasked]
      omega
    · cases h
  | task =>
    cases h
    obtain ⟨hreported, hflight⟩ := taskNext_accounted s
    simp only [accounted, unasked]
    omega
  | isr event =>
    cases h
    have hle := inFlight_le s.radio
    cases event with
    | txComplete data =>
      obtain ⟨hreported, hflight⟩ := @txComplete_reported M s.radio data
      simp only [accounted, maclCb, overtakes, begins, unasked]
      omega
    | rxAck data =>
      obtain ⟨hreported, hflight⟩ := @rxAck_reported M s.radio data
      simp only [accounted, maclCb, overtakes, begins, unasked]
      omega
    | rxFrame data bit =>
      obtain ⟨hreported, hflight⟩ := @rxFrame_reported M s.radio data bit
      simp only [accounted, maclCb, overtakes, begins, unasked]
      omega
    | chEd lqi =>
      obtain ⟨hreported, hflight⟩ := @chEd_reported M s.radio lqi
      simp only [accounted, maclCb, overtakes, begins, unasked]
      omega
    | chCca busy random => exact @chCca_reported M s.radio busy random
    | hwTimeout =>
      obtain ⟨hreported, hflight⟩ := @hwTimeout_reported s.radio
      simp only [accounted, maclCb, overtakes, begins, unasked]
      omega
    | rxSfd time => rfl
  | timer =>
    cases h
    obtain ⟨hreported, hflight⟩ := @timer_reported s.radio
    simp only [accounted, overtakes, begins, unasked]
    omega
  | popMsg =>
    simp only [radioStep, popMsgStep] at h
    split at h <;> cases h <;> rfl
  | release j =>
    simp only [radioStep] at h
    split at h
    · cases h
      rfl
    · cases h

/-- In every run, the reported ends, the transmission under way and those that something else has
overtaken are the transmissions begun, together with the ACKs that nobody asked for. -/
theorem transmit_accounting {ls : List RadioLabel} (h : exec (radioStep M) radioBoot ls = some t) :
    reported t.radio + inFlight t.radio + tally (radioStep M) overtakes radioBoot ls =
      tally (radioStep M) (fun s l => begins s l + unasked s l) radioBoot ls := by
  have hbalance := exec_tally (q := accounted) (fun _ _ _ => radioStep_accounted) h
  have hboot : accounted radioBoot = 0 := rfl
  rw [hboot, Nat.zero_add] at hbalance
  exact hbalance

/-- A frame that arrives between two attempts ends the transmission, and nobody is told. -/
def overtakenRun : List RadioLabel :=
  [.call (.transmit [4, 0x41, 0x88, 9, 0] true), .task, .task, .task, .task, .isr (.chCca true 3),
    .isr (.rxFrame [0x41, 0x88, 7, 200] false), .isr .hwTimeout]

theorem transmit_accounting_overtaken :
    ∃ t, exec (radioStep plainMac) radioBoot overtakenRun = some t ∧
    reported t.radio = 0 ∧
    inFlight t.radio = 0 ∧ tally (radioStep plainMac) overtakes radioBoot overtakenRun = 1 := by
  have hrun : (exec (radioStep plainMac) radioBoot overtakenRun).map
      (fun t => (reported t.radio, inFlight t.radio)) = some (0, 0) := by
    decide
  have hbegun : tally (radioStep plainMac) (fun s l => begins s l + unasked s l) radioBoot
    overtakenRun = 1 := by decide
  obtain ⟨t, ht, hcounts⟩ := Option.map_eq_some_iff.mp hrun
  obtain ⟨hreported, hflight⟩ := Prod.mk.injEq .. ▸ hcounts
  have hbalance := transmit_accounting ht
  rw [hreported, hflight, hbegun] at hbalance
  exact ⟨t, ht, hreported, hflight, by omega⟩

/-- What a step does to the attempts that is not a report on the channel. -/
def SameBackoff (r r' : Radio) : Prop := r'.ccaNb = r.ccaNb ∧ r'.ccaBe = r.ccaBe

def takesRadio (s : RadioSystem) : RadioLabel → Bool
  | .call (.receiveAt _) => true
  | .task => s.pc.setsState
  | .isr (.txComplete _) => true
  | .isr (.rxAck _) => true
  | .isr (.rxFrame _ _) => true
  | .isr (.chEd _) => true
  | _ => false

def busyReport : RadioLabel → ℕ
  | .isr (.chCca true _) => 1
  | _ => 0

def freeReport : RadioLabel → Bool
  | .isr (.chCca false _) => true
  | _ => false

section Driver

variable {r : Radio}

theorem pushToQueue_backoff (msg : Msg802154) : SameBackoff r (r.pushToQueue msg) := by
  unfold Radio.pushToQueue
  split <;> exact ⟨rfl, rfl⟩

theorem txComplete_backoff (data : List UInt8) : SameBackoff r (maclTxComplete M r data) := by
  simp only [maclTxComplete]
  split
  · exact pushToQueue_backoff (.rxDone _)
  · split
    · split
      · exact pushToQueue_backoff .txFail
      · exact pushToQueue_backoff .txDoneNoAck
    · exact ⟨rfl, rfl⟩

theorem rxFrame_backoff (data : List UInt8) (bit : Bool) :
    SameBackoff r (maclRxFrame M r data bit) := by
  simp only [maclRxFrame]
  split
  · exact ⟨rfl, rfl⟩
  · split
    · split <;> exact ⟨rfl, rfl⟩
    · exact pushToQueue_backoff (.rxDone _)

theorem timer_backoff : SameBackoff r r.bkTimerOverflowCb ∧ (r.state = .transmitCca →
    r.bkTimerOverflowCb.state = .transmitCca) := by
  have htx : SameBackoff r (if r.timerPending = .txPending then r.isrHandleDelayTx else r) ∧
      (r.state = .transmitCca →
        (if r.timerPending = .txPending then r.isrHandleDelayTx else r).state = .transmitCca) := by
    split
    · simp only [Radio.isrHandleDelayTx]
      split
      case isTrue => exact ⟨⟨rfl, rfl⟩, id⟩
      case isFalse hatomic =>
        refine ⟨⟨rfl, rfl⟩, ?_⟩
        intro hcca
        exact absurd (by rw [hcca]; rfl) hatomic
    · exact ⟨⟨rfl, rfl⟩, id⟩
  have hrx : ∀ r' : Radio, SameBackoff r' (if r'.timerPending = .rxPending then r'.isrHandleDelayRx
    else r') ∧ (if r'.timerPending = .rxPending then r'.isrHandleDelayRx else r').state =
    r'.state := by
    intro r'
    split <;> exact ⟨⟨rfl, rfl⟩, rfl⟩
  refine ⟨⟨(hrx _).1.1.trans htx.1.1, (hrx _).1.2.trans htx.1.2⟩, ?_⟩
  intro hcca
  exact (hrx _).2.trans (htx.2 hcca)

theorem taskNext_backoff (r : Radio) (pc : TaskPc) :
    SameBackoff r (taskNext r pc).1 ∧
      (pc.setsState = false → (taskNext r pc).1.state = r.state) := by
  cases pc with
  | transmitState frame cca => cases cca <;> exact ⟨⟨rfl, rfl⟩, fun h => by cases h⟩
  | transmitAtState => exact ⟨⟨rfl, rfl⟩, fun h => by cases h⟩
  | enableState => exact ⟨⟨rfl, rfl⟩, fun h => by cases h⟩
  | disableState => exact ⟨⟨rfl, rfl⟩, fun h => by cases h⟩
  | receiveState => exact ⟨⟨rfl, rfl⟩, fun h => by cases h⟩
  | energyState => exact ⟨⟨rfl, rfl⟩, fun h => by cases h⟩
  | transmitSend frame cca => exact ⟨⟨rfl, rfl⟩, fun _ => rfl⟩
  | receiveConfig => exact ⟨⟨rfl, rfl⟩, fun _ => rfl⟩
  | receiveAtTimer delay => exact ⟨⟨rfl, rfl⟩, fun _ => rfl⟩
  | transmitAtCca => exact ⟨⟨rfl, rfl⟩, fun _ => rfl⟩
  | transmitAtTimer delay => exact ⟨⟨rfl, rfl⟩, fun _ => rfl⟩
  | idle => exact ⟨⟨rfl, rfl⟩, fun _ => rfl⟩
  | transmitClear frame cca => exact ⟨⟨rfl, rfl⟩, fun _ => rfl⟩
  | transmitCopy frame cca => exact ⟨⟨rfl, rfl⟩, fun _ => rfl⟩
  | receiveAtPending delay => exact ⟨⟨rfl, rfl⟩, fun _ => rfl⟩
  | transmitAtPending delay => exact ⟨⟨rfl, rfl⟩, fun _ => rfl⟩

theorem chCca_other (h : r.state ≠ .transmitCca) (busy : Bool) (random : ℕ) :
    maclChCca M r busy random = r := if_neg h

theorem chCca_free (h : r.state = .transmitCca) (random : ℕ) :
    (maclChCca M r false random).state = .transmitCca ∧ (maclChCca M r false random).ccaNb = 0 ∧
      (maclChCca M r false random).ccaBe = bkMacMinBe := by
  simp only [maclChCca, if_pos h]
  exact ⟨h, rfl, rfl⟩

/-- A busy channel: another attempt later. -/
theorem chCca_busy (h : r.state = .transmitCca) (hnb : r.ccaNb < bkMacMaxCsmaBackoffs)
    (random : ℕ) : (maclChCca M r true random).state = .transmitCca ∧
    (maclChCca M r true random).ccaNb = r.ccaNb + 1 ∧
      (maclChCca M r true random).ccaBe = min (r.ccaBe + 1) bkMacMaxBe ∧
          reported (maclChCca M r true random) = reported r := by
  have hmore : ¬r.ccaNb + 1 > bkMacMaxCsmaBackoffs := by omega
  have hbe : (if r.ccaBe + 1 > bkMacMaxBe then bkMacMaxBe else r.ccaBe + 1) =
      min (r.ccaBe + 1) bkMacMaxBe := by
    split <;> omega
  simp only [maclChCca, if_pos h, if_true, if_neg hmore, hbe]
  exact ⟨h, rfl, rfl, reported_cmd rfl⟩

/-- A busy channel at the last attempt: the transmission fails. -/
theorem chCca_fails (h : r.state = .transmitCca) (hnb : ¬r.ccaNb < bkMacMaxCsmaBackoffs)
    (random : ℕ) : (maclChCca M r true random).state = .idle ∧
    (maclChCca M r true random).ccaNb = 0 ∧
      (maclChCca M r true random).ccaBe = bkMacMinBe ∧
        (maclChCca M r true random).txErr = .ccaBusy ∧
        reported (maclChCca M r true random) = reported r + 1 := by
  have hlast : r.ccaNb + 1 > bkMacMaxCsmaBackoffs := by omega
  have hsame := fun r : Radio => @pushToQueue_backoff r .txFail
  simp only [maclChCca, if_pos h, if_true, if_pos hlast, Radio.transmitFailed]
  exact ⟨pushToQueue_state .txFail, (hsame _).1, (hsame _).2, trivial, reported_pushToQueue .txFail⟩

end Driver

variable {l : RadioLabel}

theorem radioStep_backoff (h : radioStep M s l = some t) (hbusy : busyReport l = 0)
    (hfree : freeReport l = false) :
    SameBackoff s.radio t.radio ∧
      (s.radio.state = .transmitCca → takesRadio s l = false → t.radio.state = .transmitCca) := by
  cases l with
  | call call =>
    simp only [radioStep] at h
    split at h
    · cases h
      cases call with
      | receiveAt delay => exact ⟨⟨rfl, rfl⟩, fun _ htakes => by cases htakes⟩
      | transmit frame cca =>
        simp only [enterCall]
        split <;> exact ⟨⟨rfl, rfl⟩, fun hcca _ => hcca⟩
      | enable => exact ⟨⟨rfl, rfl⟩, fun hcca _ => hcca⟩
      | disable => exact ⟨⟨rfl, rfl⟩, fun hcca _ => hcca⟩
      | receive => exact ⟨⟨rfl, rfl⟩, fun hcca _ => hcca⟩
      | transmitAt frame cca delay => exact ⟨⟨rfl, rfl⟩, fun hcca _ => hcca⟩
      | energyDetect => exact ⟨⟨rfl, rfl⟩, fun hcca _ => hcca⟩
    · cases h
  | task =>
    cases h
    obtain ⟨hsame, hstate⟩ := taskNext_backoff s.radio s.pc
    exact ⟨hsame, fun hcca htakes => (hstate htakes).trans hcca⟩
  | isr event =>
    cases h
    cases event with
    | txComplete data => exact ⟨txComplete_backoff data, fun _ htakes => by cases htakes⟩
    | rxAck data => exact ⟨⟨rfl, rfl⟩, fun _ htakes => by cases htakes⟩
    | rxFrame data bit => exact ⟨rxFrame_backoff data bit, fun _ htakes => by cases htakes⟩
    | chEd lqi => exact ⟨pushToQueue_backoff .edDone, fun _ htakes => by cases htakes⟩
    | chCca busy random =>
      cases busy with
      | true => cases hbusy
      | false => cases hfree
    | hwTimeout =>
      simp only [maclCb, maclHwTimeout]
      split <;> exact ⟨⟨rfl, rfl⟩, fun hcca _ => hcca⟩
    | rxSfd time => exact ⟨⟨rfl, rfl⟩, fun hcca _ => hcca⟩
  | timer =>
    cases h
    exact ⟨timer_backoff.1, fun hcca _ => timer_backoff.2 hcca⟩
  | popMsg =>
    simp only [radioStep, popMsgStep] at h
    split at h <;> cases h <;> exact ⟨⟨rfl, rfl⟩, fun hcca _ => hcca⟩
  | release j =>
    simp only [radioStep] at h
    split at h
    · cases h
      exact ⟨⟨rfl, rfl⟩, fun hcca _ => hcca⟩
    · cases h

/-- The reports on the channel are the labels of `chCca`. -/
theorem report_cases (l : RadioLabel) : (busyReport l = 0 ∧ freeReport l = false) ∨
    (∃ random, l = .isr (.chCca true random)) ∨
    ∃ random, l = .isr (.chCca false random) := by
  cases l with
  | isr event =>
    cases event with
    | chCca busy random =>
      cases busy with
      | true => exact Or.inr (Or.inl ⟨random, rfl⟩)
      | false => exact Or.inr (Or.inr ⟨random, rfl⟩)
    | txComplete data => exact Or.inl ⟨rfl, rfl⟩
    | rxAck data => exact Or.inl ⟨rfl, rfl⟩
    | rxFrame data bit => exact Or.inl ⟨rfl, rfl⟩
    | chEd lqi => exact Or.inl ⟨rfl, rfl⟩
    | hwTimeout => exact Or.inl ⟨rfl, rfl⟩
    | rxSfd time => exact Or.inl ⟨rfl, rfl⟩
  | call call => exact Or.inl ⟨rfl, rfl⟩
  | task => exact Or.inl ⟨rfl, rfl⟩
  | timer => exact Or.inl ⟨rfl, rfl⟩
  | popMsg => exact Or.inl ⟨rfl, rfl⟩
  | release j => exact Or.inl ⟨rfl, rfl⟩

/-- The exponent of the backoff follows the number of busy reports. -/
structure Backoff (r : Radio) : Prop where
  nb : r.ccaNb ≤ bkMacMaxCsmaBackoffs
  be : r.ccaBe = min (bkMacMinBe + r.ccaNb) bkMacMaxBe

theorem Backoff.step (hb : Backoff s.radio) (h : radioStep M s l = some t) : Backoff t.radio := by
  rcases report_cases l with ⟨hbusy, hfree⟩ | ⟨random, rfl⟩ | ⟨random, rfl⟩
  · obtain ⟨⟨hnb, hbe⟩, -⟩ := radioStep_backoff h hbusy hfree
    exact ⟨by rw [hnb]; exact hb.nb, by rw [hnb, hbe]; exact hb.be⟩
  · cases h
    by_cases hcca : s.radio.state = .transmitCca
    · by_cases hmore : s.radio.ccaNb < bkMacMaxCsmaBackoffs
      · obtain ⟨-, hnb, hbe, -⟩ := @chCca_busy M s.radio hcca hmore random
        have hbefore := hb.be
        refine ⟨?_, ?_⟩
        · simp only [maclCb, hnb]
          omega
        · simp only [maclCb, hnb, hbe, hbefore]
          omega
      · obtain ⟨-, hnb, hbe, -⟩ := @chCca_fails M s.radio hcca hmore random
        exact ⟨by simp only [maclCb, hnb]; omega, by simp only [maclCb, hnb, hbe]; rfl⟩
    · simp only [maclCb, chCca_other hcca]
      exact hb
  · cases h
    by_cases hcca : s.radio.state = .transmitCca
    · obtain ⟨-, hnb, hbe⟩ := @chCca_free M s.radio hcca random
      exact ⟨by simp only [maclCb, hnb]; omega, by simp only [maclCb, hnb, hbe]; rfl⟩
    · simp only [maclCb, chCca_other hcca]
      exact hb

theorem Backoff.of_reach (h : Reach (radioStep M) anyStep radioBoot s) : Backoff s.radio :=
  Reach.invariant (P := fun s => Backoff s.radio) ⟨Nat.zero_le _, rfl⟩ (fun _ _ _ hs _ hstep =>
    hs.step hstep) h

/-- A step that does not take the radio begins, ends and overtakes no transmission. -/
theorem counts_of_not_takes (hcca : s.radio.state = .transmitCca)
    (htakes : takesRadio s l = false) : overtakes s l = 0 ∧ begins s l + unasked s l = 0 := by
  cases l with
  | call call =>
    cases call with
    | receiveAt delay => cases htakes
    | transmit frame cca => exact ⟨rfl, rfl⟩
    | enable => exact ⟨rfl, rfl⟩
    | disable => exact ⟨rfl, rfl⟩
    | receive => exact ⟨rfl, rfl⟩
    | transmitAt frame cca delay => exact ⟨rfl, rfl⟩
    | energyDetect => exact ⟨rfl, rfl⟩
  | task =>
    have hsets : s.pc.setsState = false := htakes
    simp only [overtakes, begins, unasked, hsets]
    refine ⟨rfl, ?_⟩
    cases hpc : s.pc with
    | transmitState | transmitAtState =>
      rw [hpc] at hsets
      cases hsets
    | _ => rfl
  | isr event =>
    cases event with
    | txComplete data => cases htakes
    | rxAck data => cases htakes
    | rxFrame data bit => cases htakes
    | chEd lqi => cases htakes
    | chCca busy random => exact ⟨rfl, rfl⟩
    | hwTimeout => exact ⟨rfl, rfl⟩
    | rxSfd time => exact ⟨rfl, rfl⟩
  | timer =>
    refine ⟨rfl, ?_⟩
    simp [begins, unasked, hcca, RadioState.atomic]
  | popMsg => exact ⟨rfl, rfl⟩
  | release j => exact ⟨rfl, rfl⟩

theorem reported_of_not_takes (hcca : s.radio.state = .transmitCca)
    (hcca' : t.radio.state = .transmitCca)
    (h : radioStep M s l = some t) (htakes : takesRadio s l = false) :
    reported t.radio = reported s.radio := by
  have hbalance := radioStep_accounted h
  obtain ⟨hovertakes, hbegins⟩ := counts_of_not_takes hcca htakes
  have hbefore : inFlight s.radio = 1 := inFlight_transmits (by rw [hcca]; rfl)
  have hafter : inFlight t.radio = 1 := inFlight_transmits (by rw [hcca']; rfl)
  simp only [accounted] at hbalance
  omega

/-- What a step does that leaves a transmission to its attempts. -/
theorem attempt_step (hcca : s.radio.state = .transmitCca) (h : radioStep M s l = some t)
    (htakes : takesRadio s l = false)
    (hfree : freeReport l = false) (hmore : s.radio.ccaNb + busyReport l ≤ bkMacMaxCsmaBackoffs) :
    t.radio.state = .transmitCca ∧ t.radio.ccaNb = s.radio.ccaNb + busyReport l ∧
      reported t.radio = reported s.radio := by
  rcases report_cases l with ⟨hbusy, -⟩ | ⟨random, rfl⟩ | ⟨random, rfl⟩
  · obtain ⟨⟨hnb, -⟩, hstate⟩ := radioStep_backoff h hbusy hfree
    have hcca' := hstate hcca htakes
    exact ⟨hcca', by rw [hnb, hbusy, Nat.add_zero], reported_of_not_takes hcca hcca' h htakes⟩
  · cases h
    simp only [busyReport] at hmore
    obtain ⟨hstate, hnb, -, hreported⟩ := @chCca_busy M s.radio hcca (by omega) random
    exact ⟨hstate, hnb, hreported⟩
  · cases hfree

/-- The steps that do not leave a transmission to its attempts. -/
def disturbs (s : RadioSystem) (l : RadioLabel) : ℕ := (takesRadio s l || freeReport l).toNat

def busyReports (_ : RadioSystem) (l : RadioLabel) : ℕ := busyReport l

theorem attempts_run {ls : List RadioLabel} (hcca : s.radio.state = .transmitCca)
    (h : exec (radioStep M) s ls = some t) (hdisturbs : tally (radioStep M) disturbs s ls = 0)
    (hmore : s.radio.ccaNb + tally (radioStep M) busyReports s ls ≤ bkMacMaxCsmaBackoffs) :
    t.radio.state = .transmitCca ∧
      t.radio.ccaNb = s.radio.ccaNb + tally (radioStep M) busyReports s ls ∧
      reported t.radio = reported s.radio := by
  induction ls generalizing s with
  | nil =>
    cases h
    exact ⟨hcca, rfl, rfl⟩
  | cons l ls ih =>
    obtain ⟨u, hu, hrest⟩ := Option.bind_eq_some_iff.mp h
    simp only [tally, hu, Nat.add_eq_zero_iff] at hdisturbs
    have hquiet : takesRadio s l = false ∧ freeReport l = false := by
      simpa [disturbs] using hdisturbs.1
    simp only [tally, hu, busyReports] at hmore ⊢
    obtain ⟨hstate, hnb, hreported⟩ := attempt_step hcca hu hquiet.1 hquiet.2 (by omega)
    obtain ⟨hstate', hnb', hreported'⟩ := ih hstate hrest hdisturbs.2 (by omega)
    exact ⟨hstate', by omega, by rw [hreported', hreported]⟩

/-- Nothing takes the radio between two busy reports. -/
def keepsAttempts (s : RadioSystem) (l : RadioLabel) : Prop :=
  s.radio.state = .transmitCca → takesRadio s l = true → s.radio.ccaNb = 0

theorem fresh_step (hfresh : s.radio.state = .transmitCca ∨ s.radio.ccaNb = 0)
    (hkeeps : keepsAttempts s l) (h : radioStep M s l = some t) : t.radio.state = .transmitCca ∨
    t.radio.ccaNb = 0 := by
  rcases report_cases l with ⟨hbusy, hfree⟩ | ⟨random, rfl⟩ | ⟨random, rfl⟩
  · obtain ⟨⟨hnb, -⟩, hstate⟩ := radioStep_backoff h hbusy hfree
    rw [hnb]
    rcases hfresh with hcca | hzero
    · cases htakes : takesRadio s l with
      | true => exact Or.inr (hkeeps hcca htakes)
      | false => exact Or.inl (hstate hcca htakes)
    · exact Or.inr hzero
  · cases h
    by_cases hcca : s.radio.state = .transmitCca
    · by_cases hmore : s.radio.ccaNb < bkMacMaxCsmaBackoffs
      · exact Or.inl (@chCca_busy M s.radio hcca hmore random).1
      · exact Or.inr (@chCca_fails M s.radio hcca hmore random).2.1
    · simp only [maclCb, chCca_other hcca]
      exact hfresh
  · cases h
    by_cases hcca : s.radio.state = .transmitCca
    · exact Or.inl (@chCca_free M s.radio hcca random).1
    · simp only [maclCb, chCca_other hcca]
      exact hfresh

/-- A transmission that is left to its attempts goes on as long as the busy reports, with those an
earlier one has left behind, are four at most, and fails at the fifth; the backoff exponent follows
their number. Nothing is left behind in runs that take the radio from no transmission between two
busy reports. -/
theorem cca_attempts (h : Reach (radioStep M) anyStep radioBoot s) :
    (s.radio.ccaNb ≤ bkMacMaxCsmaBackoffs ∧
      s.radio.ccaBe = min (bkMacMinBe + s.radio.ccaNb) bkMacMaxBe) ∧
      (∀ ls t, s.radio.state = .transmitCca → exec (radioStep M) s ls = some t →
        tally (radioStep M) disturbs s ls = 0 →
        s.radio.ccaNb + tally (radioStep M) busyReports s ls ≤ bkMacMaxCsmaBackoffs →
          t.radio.state = .transmitCca ∧ reported t.radio = reported s.radio ∧
            ∀ random u, radioStep M t (.isr (.chCca true random)) = some u →
              s.radio.ccaNb + tally (radioStep M) busyReports s ls = bkMacMaxCsmaBackoffs →
                u.radio.state = .idle ∧ u.radio.txErr = .ccaBusy ∧
                  reported u.radio = reported s.radio + 1) ∧
      (Reach (radioStep M) keepsAttempts radioBoot s → s.radio.state ≠ .transmitCca →
        s.radio.ccaNb = 0) := by
  have hbackoff := Backoff.of_reach h
  refine ⟨⟨hbackoff.nb, hbackoff.be⟩, ?_, ?_⟩
  · intro ls t hcca hexec hdisturbs hmore
    obtain ⟨hstate, hnb, hreported⟩ := attempts_run hcca hexec hdisturbs hmore
    refine ⟨hstate, hreported, ?_⟩
    intro random u hu hfull
    cases hu
    obtain ⟨hidle, -, -, herr, hone⟩ := @chCca_fails M t.radio hstate (by omega) random
    exact ⟨hidle, herr, by rw [← hreported]; exact hone⟩
  · intro hrun hother
    have hfresh := Reach.invariant (P := fun s : RadioSystem => s.radio.state = .transmitCca ∨
      s.radio.ccaNb = 0) (Or.inr rfl) (fun _ _ _ hs hkeeps hstep => fresh_step hs hkeeps hstep) hrun
    exact hfresh.resolve_left hother

def afterOvertaken : List RadioLabel :=
  overtakenRun ++ [.call (.transmit [4, 0x41, 0x88, 10, 0] true), .task, .task, .task, .task]

/-- The transmission after an overtaken one fails at the fourth busy report. -/
theorem cca_attempts_left : ∃ s t u, exec (radioStep plainMac) radioBoot afterOvertaken = some s ∧
    exec (radioStep plainMac) s (List.replicate 3 (.isr (.chCca true 0))) = some t ∧
    radioStep plainMac t (.isr (.chCca true 0)) = some u ∧ t.radio.state = .transmitCca ∧
      u.radio.txErr = .ccaBusy ∧
    reported u.radio = reported s.radio + 1 := by
  have hrun : (exec (radioStep plainMac) radioBoot afterOvertaken).map (fun s =>
      (s.radio.state, s.radio.ccaNb,
        tally (radioStep plainMac) disturbs s (List.replicate 3 (.isr (.chCca true 0))),
        tally (radioStep plainMac) busyReports s (List.replicate 3 (.isr (.chCca true 0))))) =
      some (.transmitCca, 1, 0, 3) := by decide
  obtain ⟨s, hs, hcounts⟩ := Option.map_eq_some_iff.mp hrun
  simp only [Prod.mk.injEq] at hcounts
  obtain ⟨hcca, hnb, hdisturbs, hbusy⟩ := hcounts
  have hfull : s.radio.ccaNb + tally (radioStep plainMac) busyReports s
    (List.replicate 3 (.isr (.chCca true 0))) =
      bkMacMaxCsmaBackoffs := by rw [hnb, hbusy]; rfl
  obtain ⟨hstate, hsame, hlast⟩ :=
    (cca_attempts (reach_of_exec hs)).2.1 _ _ hcca rfl hdisturbs (Nat.le_of_eq hfull)
  obtain ⟨-, herr, hone⟩ := hlast 0 _ rfl hfull
  exact ⟨s, _, _, hs, rfl, rfl, hstate, herr, hone⟩

end Sonoff.Thread
