import Sonoff.Base.Bytes
import Sonoff.Base.Machine

/-! # The 802.15.4 radio driver

`bk_802154.c`: the interrupt handler of the radio, the interface functions that
the OpenThread task calls, the timer that sends or receives later, and the queue
of messages from the handler to the task. The functions of the task are cut
where the handler can come in between, and it comes in anywhere.

`lw_mac802154_*`, the ACK generator and the OpenThread side are not part of the
sources: the commands to the radio are recorded, and `Mac802154` has the values
and functions that the handler uses of the rest.
-/
namespace Sonoff.Thread
open Bytes

inductive RadioState
  | disable
  | idle
  | receive
  | receiveBusy
  | transmit
  | transmitCca
  | transmitImmAck
  | transmitEnhAck
  | ed
  deriving DecidableEq, Repr

def RadioState.atomic : RadioState → Bool
  | .receiveBusy | .transmit | .transmitCca | .transmitImmAck | .transmitEnhAck => true
  | .disable | .idle | .receive | .ed => false

inductive TimerPending
  | noPending
  | txPending
  | rxPending
  deriving DecidableEq, Repr

inductive TxErr
  | none
  | noAck
  | ccaBusy
  deriving DecidableEq, Repr

/-- `bk_802154_frame_t`: the bytes are the length byte and those that it counts, but the last. -/
structure Frame802154 where
  used : Bool
  frame : List UInt8
  pending : Bool
  enhAck : Bool
  lqi : UInt8
  rssi : ℤ
  time : ℕ
  deriving DecidableEq, Repr

def emptyFrame : Frame802154 := ⟨false, [], false, false, 0, 0, 0⟩

/-- A received frame is a pointer into the buffers. -/
inductive Msg802154
  | txFail
  | txDoneNoAck
  | edDone
  | rxDone (index : ℕ)
  deriving DecidableEq, Repr

/-- What the driver asks of the radio, of the timer and of the task, directly. -/
inductive RadioCmd
  | txFrame (bytes : List UInt8)
  | txFrameAckStartTx (length : UInt8)
  | txFrameAckPayload (bytes : List UInt8)
  | startCca
  | startHwTimer (ticks : ℕ)
  | rxConfig
  | rxStop
  | startEd
  | timerStop
  | timerDelay (us : ℕ)
  | transmitDoneWithAckRapid (frame : Frame802154)
  deriving DecidableEq, Repr

structure Mac802154 where
  lwMacEnumNoAck : UInt8
  aUnitBackoffPeriod : ℕ
  /-- `bk_802154_convert_lqi_to_rssi`, whose limits are in the header. -/
  convertLqiToRssi : UInt8 → ℤ
  frameGetVersion : List UInt8 → ℕ
  frameVersion2 : ℕ
  immAckLength : ℕ
  immAckGeneratorCreate : List UInt8 → Bool → List UInt8
  sendEnhAck : Frame802154 → List UInt8

def plainMac : Mac802154 where
  lwMacEnumNoAck := 0xE9
  aUnitBackoffPeriod := 20
  convertLqiToRssi lqi := lqi.toNat - 100
  frameGetVersion data := (byteAt data 1).toNat / 16 % 4
  frameVersion2 := 2
  immAckLength := 5
  immAckGeneratorCreate data pending := [if pending then 0x12 else 0x02, 0, byteAt data 2]
  sendEnhAck frame := [5, 0x02, 0x20, byteAt frame.frame 3]

def bkFrameBufferMaxSize : ℕ := 8
def msgQueueSize : ℕ := 16
def bkMacMinBe : ℕ := 3
def bkMacMaxBe : ℕ := 5
def bkMacMaxCsmaBackoffs : ℕ := 4

structure Radio where
  state : RadioState
  timerPending : TimerPending
  recentRssi : ℤ
  ccaChannelClear : Bool
  pendingTxFrame : List UInt8
  delaySend : Bool
  frameBuf : List Frame802154
  txErr : TxErr
  ccaNb : ℕ
  ccaBe : ℕ
  rxPktWithAck : ℕ
  rxSfdTimestamp : ℕ
  /-- `g_802154_msg_queue`, oldest first -/
  queue : List Msg802154
  /-- Every message with whether the queue took it, and the commands, newest first. -/
  notified : List (Msg802154 × Bool)
  cmds : List RadioCmd

namespace Radio

def boot : Radio where
  state := .idle
  timerPending := .noPending
  recentRssi := 0
  ccaChannelClear := false
  pendingTxFrame := List.replicate 128 0
  delaySend := false
  frameBuf := List.replicate bkFrameBufferMaxSize emptyFrame
  txErr := .none
  ccaNb := 0
  ccaBe := bkMacMinBe
  rxPktWithAck := 0
  rxSfdTimestamp := 0
  queue := []
  notified := []
  cmds := []

def cmd (r : Radio) (c : RadioCmd) : Radio := { r with cmds := c :: r.cmds }

def pushToQueue (r : Radio) (msg : Msg802154) : Radio :=
  if r.queue.length < msgQueueSize then
    { r with queue := r.queue ++ [msg], notified := (msg, true) :: r.notified }
  else { r with notified := (msg, false) :: r.notified }

def transmitFailed (r : Radio) (err : TxErr) : Radio := { r.pushToQueue .txFail with txErr := err }

def frameAt (r : Radio) (index : ℕ) : Frame802154 := r.frameBuf.getD index emptyFrame

def setFrame (r : Radio) (index : ℕ) (frame : Frame802154) :
    Radio := { r with frameBuf := r.frameBuf.set index frame }

def findActiveBufferIndex (r : Radio) : Option ℕ := r.frameBuf.findIdx? fun f => !f.used

/-- The frame in `s_pending_tx_frame`, without its length byte and its check sequence. -/
def pendingBytes (r : Radio) :
    List UInt8 := slice r.pendingTxFrame 1 ((byteAt r.pendingTxFrame 0).toNat - 2)

def isrHandleDelayTx (r : Radio) : Radio :=
  let r := { r with timerPending := .noPending }
  if r.state.atomic then { r with delaySend := true }
  else { r with state := .transmit, delaySend := false }.cmd (.txFrame r.pendingBytes)

def isrHandleDelayRx (r : Radio) : Radio := { r with timerPending := .noPending }.cmd .rxConfig

def bkTimerOverflowCb (r : Radio) : Radio :=
  let r := if r.timerPending = .txPending then r.isrHandleDelayTx else r
  let r := if r.timerPending = .rxPending then r.isrHandleDelayRx else r
  r.cmd .timerStop

end Radio

/-- The events of the radio. The bytes of a frame end in its LQI; whether a frame is pending for its
sender is for the ACK module to say, and `random` is what the generator answers. -/
inductive MaclEvent
  | txComplete (data : List UInt8)
  | rxAck (data : List UInt8)
  | rxFrame (data : List UInt8) (pending : Bool)
  | chEd (lqi : UInt8)
  | chCca (busy : Bool) (random : ℕ)
  | hwTimeout
  | rxSfd (time : ℕ)
  deriving DecidableEq, Repr

section Handler

variable (M : Mac802154) (r : Radio)

def maclTxComplete (data : List UInt8) : Radio :=
  let r :=
    if r.state = .transmitImmAck ∨ r.state = .transmitEnhAck then
      r.pushToQueue (.rxDone r.rxPktWithAck)
    else if r.state = .transmit ∨ r.state = .transmitCca then
      if data.length = 2 ∧ byteAt data 0 = M.lwMacEnumNoAck ∧ byteAt data 1 = 0 then
        r.transmitFailed .noAck
      else r.pushToQueue .txDoneNoAck
    else r
  { r with state := .idle }

def receivedFrame (used : Bool) (data : List UInt8) : Frame802154 where
  used := used
  frame := UInt8.ofNat (data.length + 1) :: data
  pending := false
  enhAck := false
  lqi := byteAt data (data.length - 1)
  rssi := M.convertLqiToRssi (byteAt data (data.length - 1))
  time := r.rxSfdTimestamp

def maclRxAck (data : List UInt8) : Radio :=
  let ack := { receivedFrame M r false data with pending := byteAt data 0 &&& 0x10 ≠ 0 }
  { r.cmd (.transmitDoneWithAckRapid ack) with state := .idle }

def ackRequest (data : List UInt8) : Bool := byteAt data 0 &&& 0x20 ≠ 0

def maclRxFrame (data : List UInt8) (pending : Bool) : Radio :=
  match r.findActiveBufferIndex with
  | none => { r with state := .idle }
  | some index =>
    let frame := { receivedFrame M r true data with pending := (r.frameAt index).pending }
    let r := { r.setFrame index frame with recentRssi := frame.rssi }
    if ackRequest data then
      let frame := { frame with pending := pending }
      if M.frameGetVersion data < M.frameVersion2 then
        { (r.setFrame index frame).cmd
          (.txFrame ((M.immAckGeneratorCreate data pending).take (M.immAckLength - 2))) with
          state := .transmitImmAck
          rxPktWithAck := index }
      else
        let enhAck := M.sendEnhAck frame
        { (((r.setFrame index { frame with enhAck := true }).cmd
          (.txFrameAckStartTx (byteAt frame.frame 0))).cmd
            (.txFrameAckPayload (slice enhAck 1 ((byteAt enhAck 0).toNat - 2)))) with
          state := .transmitEnhAck
          rxPktWithAck := index }
    else { r.pushToQueue (.rxDone index) with state := .idle }

def maclChEd (lqi : UInt8) : Radio :=
  { { r with recentRssi := M.convertLqiToRssi lqi }.pushToQueue .edDone with state := .idle }

def maclChCca (busy : Bool) (random : ℕ) : Radio :=
  if r.state = .transmitCca then
    if busy then
      let nb := r.ccaNb + 1
      let be := if r.ccaBe + 1 > bkMacMaxBe then bkMacMaxBe else r.ccaBe + 1
      if nb > bkMacMaxCsmaBackoffs then
        { r with ccaChannelClear := false, ccaNb := 0, ccaBe := bkMacMinBe, state :=
          .idle }.transmitFailed .ccaBusy
      else { r with ccaChannelClear := false, ccaNb := nb, ccaBe := be }.cmd
        (.startHwTimer (random * M.aUnitBackoffPeriod))
    else { r with ccaNb := 0, ccaBe := bkMacMinBe }.cmd (.txFrame r.pendingBytes)
  else r

def maclHwTimeout : Radio := if r.state = .transmitCca ∧ r.ccaChannelClear = false then
    r.cmd .startCca else r

def maclCb : MaclEvent → Radio
  | .txComplete data => maclTxComplete M r data
  | .rxAck data => maclRxAck M r data
  | .rxFrame data pending => maclRxFrame M r data pending
  | .chEd lqi => maclChEd M r lqi
  | .chCca busy random => maclChCca M r busy random
  | .hwTimeout => maclHwTimeout r
  | .rxSfd time => { r with rxSfdTimestamp := time }

end Handler

inductive RadioCall
  | enable
  | disable
  | receive
  | transmit (frame : List UInt8) (cca : Bool)
  | receiveAt (delay : ℕ)
  | transmitAt (frame : List UInt8) (cca : Bool) (delay : ℕ)
  | energyDetect
  deriving DecidableEq, Repr

/-- Where the task stands in a function of the interface, named after what it does next. -/
inductive TaskPc
  | idle
  | enableState
  | disableState
  | receiveState
  | receiveConfig
  | transmitClear (frame : List UInt8) (cca : Bool)
  | transmitCopy (frame : List UInt8) (cca : Bool)
  | transmitState (frame : List UInt8) (cca : Bool)
  | transmitSend (frame : List UInt8) (cca : Bool)
  | receiveAtPending (delay : ℕ)
  | receiveAtTimer (delay : ℕ)
  | transmitAtState
  | transmitAtCca
  | transmitAtPending (delay : ℕ)
  | transmitAtTimer (delay : ℕ)
  | energyState
  deriving DecidableEq, Repr

def Radio.copyFrame (r : Radio) (frame : List UInt8) : Radio :=
  let n := (byteAt frame 0).toNat + 1
  { r with pendingTxFrame := frame.take n ++ r.pendingTxFrame.drop n }

/-- Up to the first point where the handler can come in. -/
def enterCall (r : Radio) : RadioCall → Radio × TaskPc
  | .enable => ({ r with queue := [] }, .enableState)
  | .disable => (r, .disableState)
  | .receive => (r, if r.state.atomic then .idle else .receiveState)
  | .transmit frame cca =>
    if r.state.atomic then ({ r with delaySend := true }, .idle) else (r, .transmitClear frame cca)
  | .receiveAt delay => ({ r with state := .receive }, .receiveAtPending delay)
  | .transmitAt frame cca delay =>
    (r.copyFrame frame, if cca then .transmitAtState else .transmitAtPending delay)
  | .energyDetect => (r.cmd .startEd, .energyState)

def taskNext (r : Radio) : TaskPc → Radio × TaskPc
  | .idle => (r, .idle)
  | .enableState => ({ r with state := .idle }, .idle)
  | .disableState => ({ r with state := .disable }, .idle)
  | .receiveState => ({ r with state := .receive }, .receiveConfig)
  | .receiveConfig => ((r.cmd .rxStop).cmd .rxConfig, .idle)
  | .transmitClear frame cca => ({ r with delaySend := false }, .transmitCopy frame cca)
  | .transmitCopy frame cca => (r.copyFrame frame, .transmitState frame cca)
  | .transmitState frame cca =>
    ({ r with state := if cca then .transmitCca else .transmit }, .transmitSend frame cca)
  | .transmitSend frame cca =>
    (r.cmd (if cca then .startCca else .txFrame (slice frame 1 ((byteAt frame 0).toNat - 2))),
      .idle)
  | .receiveAtPending delay => ({ r with timerPending := .rxPending }, .receiveAtTimer delay)
  | .receiveAtTimer delay => ((r.cmd .timerStop).cmd (.timerDelay delay), .idle)
  | .transmitAtState => ({ r with state := .transmitCca }, .transmitAtCca)
  | .transmitAtCca => (r.cmd .startCca, .idle)
  | .transmitAtPending delay => ({ r with timerPending := .txPending }, .transmitAtTimer delay)
  | .transmitAtTimer delay => ((r.cmd .timerStop).cmd (.timerDelay delay), .idle)
  | .energyState => ({ r with state := .ed }, .idle)

/-- The driver with its task, and what has been received and handed over. -/
structure RadioSystem where
  radio : Radio
  pc : TaskPc
  /-- The buffers the task has taken from the queue and not given back, as they read then. -/
  held : List (ℕ × List UInt8)
  received : List (List UInt8)
  delivered : List (List UInt8)

inductive RadioLabel
  | call (call : RadioCall)
  | task
  | isr (event : MaclEvent)
  | timer
  | popMsg
  | release (index : ℕ)
  deriving DecidableEq, Repr

def radioBoot : RadioSystem := ⟨.boot, .idle, [], [], []⟩

section System

variable (M : Mac802154) (s : RadioSystem)

def MaclEvent.frames : MaclEvent → List (List UInt8)
  | .rxFrame data _ => [UInt8.ofNat (data.length + 1) :: data]
  | _ => []

def popMsgStep : Option RadioSystem :=
  match s.radio.queue with
  | [] => none
  | .rxDone index :: rest =>
    let bytes := (s.radio.frameAt index).frame
    some { s with
      radio := { s.radio with queue := rest }
      held := s.held ++ [(index, bytes)]
      delivered := s.delivered ++ [bytes] }
  | _ :: rest => some { s with radio := { s.radio with queue := rest } }

def radioStep : RadioLabel → Option RadioSystem
  | .call call =>
    if s.pc = .idle then
      let entered := enterCall s.radio call
      some { s with radio := entered.1, pc := entered.2 }
    else none
  | .task =>
    let next := taskNext s.radio s.pc
    some { s with radio := next.1, pc := next.2 }
  | .isr event =>
    some { s with radio := maclCb M s.radio event, received := s.received ++ event.frames }
  | .timer => some { s with radio := s.radio.bkTimerOverflowCb }
  | .popMsg => popMsgStep s
  | .release index =>
    if index ∈ s.held.map Prod.fst then
      some { s with
        radio := s.radio.setFrame index { s.radio.frameAt index with used := false }
        held := s.held.eraseP fun h => h.1 = index }
    else none

end System

end Sonoff.Thread
