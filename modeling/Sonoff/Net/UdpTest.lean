import Sonoff.Base.Bytes

/-! # The UDP throughput test

The datagrams of iperf2: sixteen bytes of header with the number of the datagram, a negative
number at the end, and a report of the receiver behind the header of its answer. The sender
numbers its datagrams, the receiver counts what arrives, and the sender reads the report.
-/
namespace Sonoff.NetTest
open Bytes

inductive UdpTest
  | wifi
  | thread
  deriving DecidableEq, Repr

def UdpTest.payloadSize : UdpTest → ℕ
  | .wifi => 1470
  | .thread => 64

def UdpTest.targetBitrate : UdpTest → ℕ
  | .wifi => 30000000
  | .thread => 100000

structure SnfNetTestIperfUdpHeader where
  id : ℕ
  seconds : ℕ
  microseconds : ℕ
  idHigh : ℕ
  deriving DecidableEq, Repr

structure SnfNetTestIperfServerHeader where
  flags : ℕ
  totalLengthHigh : ℕ
  totalLengthLow : ℕ
  durationSeconds : ℕ
  durationMicroseconds : ℕ
  errorCount : ℕ
  outOfOrderCount : ℕ
  datagramCount : ℕ
  jitterSeconds : ℕ
  jitterMicroseconds : ℕ
  deriving DecidableEq, Repr

def netWords (words : List ℕ) : List UInt8 := words.flatMap packBe32

def SnfNetTestIperfUdpHeader.words (header : SnfNetTestIperfUdpHeader) : List ℕ :=
  [header.id, header.seconds, header.microseconds, header.idHigh]

def SnfNetTestIperfServerHeader.words (header : SnfNetTestIperfServerHeader) : List ℕ :=
  [header.flags, header.totalLengthHigh, header.totalLengthLow, header.durationSeconds,
    header.durationMicroseconds, header.errorCount, header.outOfOrderCount, header.datagramCount,
    header.jitterSeconds, header.jitterMicroseconds]

/-- `memset(buffer, 0, length)` and the headers from the start of it. -/
def filled (words : List ℕ) (length : ℕ) : List UInt8 :=
  netWords words ++ List.replicate (length - 4 * words.length) 0

structure SnfNetTestStats where
  startTick : ℕ
  sampleTick : ℕ
  progressTick : ℕ
  totalBytes : ℕ
  sampleBytes : ℕ
  currentBitrate : ℕ
  peakBitrate : ℕ
  deriving DecidableEq, Repr

def u64 (n : ℕ) : ℕ := n % 18446744073709551616

-- `configTICK_RATE_HZ` is the SDK's
variable (tickRate : ℕ)

def msToTicks (ms : ℕ) : ℕ := ms * tickRate / 1000

def snfNetTestCalculateBitrate (bytes elapsedTicks : ℕ) : ℕ :=
  if elapsedTicks > 0 then min (u64 (bytes * 8 * tickRate) / elapsedTicks) 4294967295 else 0

def snfNetTestStatsInit (now : ℕ) : SnfNetTestStats := ⟨now, now, now, 0, 0, 0, 0⟩

def snfNetTestStatsRecord (stats : SnfNetTestStats) (byteCount : ℕ) : SnfNetTestStats :=
  { stats with totalBytes := u64 (stats.totalBytes + byteCount), sampleBytes := u64 (stats.sampleBytes + byteCount) }

def snfNetTestStatsSample (stats : SnfNetTestStats) (now : ℕ) (force : Bool) : SnfNetTestStats :=
  let elapsedTicks := u32Sub now stats.sampleTick
  if (elapsedTicks ≥ msToTicks tickRate 1000 ∨ force) ∧ elapsedTicks > 0 then
    let current := snfNetTestCalculateBitrate tickRate stats.sampleBytes elapsedTicks
    { stats with
      currentBitrate := current
      peakBitrate := max stats.peakBitrate current
      sampleBytes := 0
      sampleTick := now }
  else stats

def snfNetTestStatsPollProgress (stats : SnfNetTestStats) (now : ℕ) : SnfNetTestStats × Bool :=
  let stats := snfNetTestStatsSample tickRate stats now false
  if u32Sub now stats.progressTick ≥ msToTicks tickRate 10000 then
    ({ stats with progressTick := now }, true)
  else (stats, false)

def microseconds (ticks : ℕ) : ℕ := ticks % tickRate * 1000000 / tickRate % 4294967296

def snfNetTestBuildUdpData (length sequence now : ℕ) : List UInt8 :=
  filled (SnfNetTestIperfUdpHeader.words ⟨sequence, now / tickRate, microseconds tickRate now, 0⟩)
    length

def u32Not (x : ℕ) : ℕ := 4294967295 - x

def snfNetTestBuildUdpFinish (length sentPackets now : ℕ) : List UInt8 :=
  let finishId := if sentPackets = 0 then 1 else sentPackets
  let finishId := u32Add (u32Not finishId) 1
  filled (SnfNetTestIperfUdpHeader.words ⟨finishId, now / tickRate, microseconds tickRate now,
    4294967295⟩) length

structure SendAttempt where
  now : ℕ
  sent : Bool
  deriving DecidableEq, Repr

/-- The sending loop: the datagrams that went out, and `sent_packets`. One that the socket
refuses leaves its number to the next. -/
def udpSender (test : UdpTest) : List SendAttempt → ℕ → List (List UInt8) × ℕ
  | [], sentPackets => ([], sentPackets)
  | attempt :: rest, sentPackets =>
    if attempt.sent then
      let (datagrams, sent) := udpSender test rest (u32Add sentPackets 1)
      (snfNetTestBuildUdpData tickRate test.payloadSize (u32Add sentPackets 1) attempt.now ::
        datagrams, sent)
    else udpSender test rest sentPackets

structure SnfNetTestUdpReceiver where
  stats : SnfNetTestStats
  targetBitrate : ℕ
  receivedPackets : ℕ
  senderPackets : ℕ
  highestSequence : ℕ
  outOfOrderPackets : ℕ
  finishId : ℕ
  finishIdHigh : ℕ
  started : Bool
  finishReceived : Bool
  deriving DecidableEq, Repr

def SnfNetTestUdpReceiver.zero :
    SnfNetTestUdpReceiver := ⟨⟨0, 0, 0, 0, 0, 0, 0⟩, 0, 0, 0, 0, 0, 0, 0, false, false⟩

/-- The number of the last datagram, from either encoding of iperf2: `-sequence` or
`sequence | 0x80000000`. -/
def finishSequence (packetId : ℕ) : ℕ :=
  let sequence := packetId &&& 0x7FFFFFFF
  let negativeSequence := u32Add (u32Not packetId) 1
  if negativeSequence < sequence then negativeSequence else sequence

def receiveFinish (receiver : SnfNetTestUdpReceiver) (packetId idHigh : ℕ) :
    SnfNetTestUdpReceiver :=
  let sequence := finishSequence packetId
  { receiver with
    senderPackets := if sequence < 4294967295 then sequence + 1 else sequence
    finishId := packetId, finishIdHigh := idHigh, finishReceived := true }

def receiveData (receiver : SnfNetTestUdpReceiver) (sequence length : ℕ) : SnfNetTestUdpReceiver :=
  { receiver with
    outOfOrderPackets :=
      if receiver.receivedPackets > 0 ∧ sequence ≤ receiver.highestSequence then
        u32Add receiver.outOfOrderPackets 1
      else receiver.outOfOrderPackets
    highestSequence := if sequence > receiver.highestSequence then sequence
      else receiver.highestSequence
    receivedPackets := u32Add receiver.receivedPackets 1
    stats := snfNetTestStatsRecord receiver.stats length }

def startReceiver (receiver : SnfNetTestUdpReceiver) (defaultTargetBitrate now : ℕ) :
    SnfNetTestUdpReceiver :=
  if receiver.started then receiver
  else { receiver with stats := snfNetTestStatsInit now, started := true, targetBitrate :=
    defaultTargetBitrate }

def snfNetTestUdpReceiverProcess (receiver : SnfNetTestUdpReceiver) (buffer : List UInt8)
    (defaultTargetBitrate now : ℕ) : SnfNetTestUdpReceiver × ℕ :=
  if buffer.length ≥ 16 then
    let packetId := be32 buffer 0
    let receiver := startReceiver receiver defaultTargetBitrate now
    if packetId &&& 0x80000000 ≠ 0 then (receiveFinish receiver packetId (be32 buffer 12), 2)
    else (receiveData receiver packetId buffer.length, 1)
  else (receiver, 0)

/-- A datagram that arrives, or a wait that ends without one. -/
structure Arrival where
  datagram : Option (List UInt8)
  now : ℕ
  deriving DecidableEq, Repr

def pollReceiver (receiver : SnfNetTestUdpReceiver) (now : ℕ) : SnfNetTestUdpReceiver :=
  if receiver.started then
    { receiver with stats := (snfNetTestStatsPollProgress tickRate receiver.stats now).1 }
  else receiver

/-- The receiving loop, until the datagram that ends the test. -/
def udpReceiver (test : UdpTest) : SnfNetTestUdpReceiver → List Arrival → SnfNetTestUdpReceiver
  | receiver, [] => receiver
  | receiver, ⟨none, now⟩ :: rest => udpReceiver test (pollReceiver tickRate receiver now) rest
  | receiver, ⟨some buffer, now⟩ :: rest =>
    let (receiver, result) := snfNetTestUdpReceiverProcess receiver buffer test.targetBitrate now
    if result = 2 then receiver else udpReceiver test (pollReceiver tickRate receiver now) rest

def SnfNetTestUdpReceiver.sentPackets (receiver : SnfNetTestUdpReceiver) : ℕ :=
  if receiver.senderPackets = 0 then receiver.highestSequence else receiver.senderPackets

def SnfNetTestUdpReceiver.lostPackets (receiver : SnfNetTestUdpReceiver) : ℕ :=
  if receiver.sentPackets > receiver.receivedPackets then
    receiver.sentPackets - receiver.receivedPackets else 0

def reportWords (receiver : SnfNetTestUdpReceiver) (endTick : ℕ) : List ℕ :=
  let durationTicks := u32Sub endTick receiver.stats.startTick
  SnfNetTestIperfUdpHeader.words ⟨receiver.finishId, 0, 0, receiver.finishIdHigh⟩ ++
    SnfNetTestIperfServerHeader.words
      { flags := 0x80000000
        totalLengthHigh := receiver.stats.totalBytes / 4294967296 % 4294967296
        totalLengthLow := receiver.stats.totalBytes % 4294967296
        durationSeconds := durationTicks / tickRate
        durationMicroseconds := microseconds tickRate durationTicks
        errorCount := receiver.lostPackets
        outOfOrderCount := receiver.outOfOrderPackets
        datagramCount := receiver.sentPackets
        jitterSeconds := 0
        jitterMicroseconds := 0 }

def snfNetTestBuildUdpReport (length : ℕ) (receiver : SnfNetTestUdpReceiver) (endTick : ℕ) :
    List UInt8 :=
  filled (reportWords tickRate receiver endTick) length

structure SnfNetTestUdpRemoteReport where
  receivedBytes : ℕ
  sentPackets : ℕ
  receivedPackets : ℕ
  lostPackets : ℕ
  outOfOrderPackets : ℕ
  averageBitrate : ℕ
  received : Bool
  deriving DecidableEq, Repr

def snfNetTestParseUdpReport (buffer : List UInt8) : Option SnfNetTestUdpRemoteReport :=
  if buffer.length ≥ 16 + 40 then
    if be32 buffer 16 &&& 0x80000000 ≠ 0 then
      let receivedBytes := be32 buffer 20 * 4294967296 + be32 buffer 24
      let durationMicroseconds := be32 buffer 28 * 1000000 + be32 buffer 32
      let errorCount := be32 buffer 36
      let datagramCount := be32 buffer 44
      some {
        receivedBytes := receivedBytes
        sentPackets := datagramCount
        lostPackets := errorCount
        receivedPackets := if datagramCount ≥ errorCount then datagramCount - errorCount else 0
        outOfOrderPackets := be32 buffer 40
        averageBitrate :=
          if durationMicroseconds > 0 then
            min (u64 (receivedBytes * 8 * 1000000) / durationMicroseconds) 4294967295 else 0
        received := true }
    else none
  else none

/-- The answer of the receiver at the end of the test, as the sender reads it. -/
def udpReport (test : UdpTest) (receiver : SnfNetTestUdpReceiver) (endTick : ℕ) :
    Option SnfNetTestUdpRemoteReport :=
  let receiver := { receiver with stats := snfNetTestStatsSample tickRate receiver.stats endTick true }
  snfNetTestParseUdpReport (snfNetTestBuildUdpReport tickRate test.payloadSize receiver endTick)

theorem netWords_length (words : List ℕ) : (netWords words).length = 4 * words.length := by
  induction words with
  | nil => rfl
  | cons word rest ih =>
    rw [netWords, List.flatMap_cons, List.length_append, packBe32_length, List.length_cons]
    unfold netWords at ih
    omega

theorem filled_length {words : List ℕ} {length : ℕ} (h : 4 * words.length ≤ length) :
    (filled words length).length = length := by
  rw [filled, List.length_append, netWords_length, List.length_replicate]
  omega

/-- Every word reads back from its place. -/
theorem be32_filled {words : List ℕ} (length : ℕ) {i : ℕ} (hi : i < words.length)
    (hword : words[i] < 4294967296) : be32 (filled words length) (4 * i) = words[i] := by
  have hsplit : netWords words = netWords (words.take i) ++
      (packBe32 words[i] ++ netWords (words.drop (i + 1))) := by
    conv_lhs => rw [← List.take_append_drop i words, List.drop_eq_getElem_cons hi]
    simp only [netWords, List.flatMap_append, List.flatMap_cons]
  have hfront : (netWords (words.take i)).length = 4 * i := by
    rw [netWords_length, List.length_take, Nat.min_eq_left (Nat.le_of_lt hi)]
  have hmid := be32_mid hword (netWords (words.take i))
    (netWords (words.drop (i + 1)) ++ List.replicate (length - 4 * words.length) 0)
  rw [hfront] at hmid
  rw [filled, hsplit]
  simpa only [List.append_assoc] using hmid

theorem be32_filled_cons {word : ℕ} {rest : List ℕ} {length : ℕ} (h : word < 4294967296) :
    be32 (filled (word :: rest) length) 0 = word :=
  @be32_filled (word :: rest) length 0 (Nat.zero_lt_succ _) h

end Sonoff.NetTest
