import Sonoff.Net.UdpTest

/-! # The report of a throughput test

The receiver writes its counts into fourteen words behind the header of its answer, the
count of bytes in two of them. The sender reads every count back, and the packets that
arrived from what was sent and what was lost.
-/
namespace Sonoff.NetTest
open Bytes

variable {tickRate length : ℕ} {test : UdpTest} {receiver : SnfNetTestUdpReceiver}

/-- Every count of the receiver is of its type, as every datagram keeps it. -/
structure SnfNetTestUdpReceiver.Fits (receiver : SnfNetTestUdpReceiver) : Prop where
  totalBytes : receiver.stats.totalBytes < 18446744073709551616
  receivedPackets : receiver.receivedPackets < 4294967296
  senderPackets : receiver.senderPackets < 4294967296
  highestSequence : receiver.highestSequence < 4294967296
  outOfOrderPackets : receiver.outOfOrderPackets < 4294967296
  finishId : receiver.finishId < 4294967296
  finishIdHigh : receiver.finishIdHigh < 4294967296

theorem u64_lt (n : ℕ) : u64 n < 18446744073709551616 := Nat.mod_lt _ (by decide)

theorem u32Add_lt (a b : ℕ) : u32Add a b < 4294967296 := Nat.mod_lt _ (by decide)

theorem u32Sub_lt (a b : ℕ) : u32Sub a b < 4294967296 := Nat.mod_lt _ (by decide)

theorem zero_fits : SnfNetTestUdpReceiver.zero.Fits := by
  constructor <;> decide

/-- A sample leaves the count of all bytes. -/
@[simp] theorem statsSample_totalBytes (stats : SnfNetTestStats) (now : ℕ) (force : Bool) :
    (snfNetTestStatsSample tickRate stats now force).totalBytes = stats.totalBytes := by
  unfold snfNetTestStatsSample
  dsimp only
  split <;> rfl

@[simp] theorem statsPollProgress_totalBytes (stats : SnfNetTestStats) (now : ℕ) :
    (snfNetTestStatsPollProgress tickRate stats now).1.totalBytes = stats.totalBytes := by
  unfold snfNetTestStatsPollProgress
  dsimp only
  split <;> simp

theorem SnfNetTestUdpReceiver.Fits.withStats (h : receiver.Fits) {stats : SnfNetTestStats}
    (hstats : stats.totalBytes = receiver.stats.totalBytes) :
    ({ receiver with stats := stats }).Fits :=
  { h with totalBytes := by simpa only [hstats] using h.totalBytes }

theorem SnfNetTestUdpReceiver.Fits.start (h : receiver.Fits) (bitrate now : ℕ) :
    (startReceiver receiver bitrate now).Fits := by
  unfold startReceiver
  split
  · exact h
  · exact { h with totalBytes := by simp [snfNetTestStatsInit] }

theorem finishSequence_le (packetId : ℕ) : finishSequence packetId ≤ 2147483647 := by
  have hmask : packetId &&& 0x7FFFFFFF ≤ 2147483647 := Nat.and_le_right
  unfold finishSequence
  dsimp only
  split <;> omega

theorem SnfNetTestUdpReceiver.Fits.receiveFinish (h : receiver.Fits) {packetId idHigh : ℕ}
    (hid : packetId < 4294967296) (hhigh : idHigh < 4294967296) :
    (receiveFinish receiver packetId idHigh).Fits := by
  have hsequence := finishSequence_le packetId
  refine { h with senderPackets := ?_, finishId := hid, finishIdHigh := hhigh }
  unfold NetTest.receiveFinish
  dsimp only
  split <;> omega

theorem SnfNetTestUdpReceiver.Fits.receiveData (h : receiver.Fits) {sequence : ℕ} (byteCount : ℕ)
    (hsequence : sequence < 4294967296) : (receiveData receiver sequence byteCount).Fits := by
  constructor
  · exact u64_lt _
  · exact u32Add_lt _ _
  · exact h.senderPackets
  · unfold NetTest.receiveData
    dsimp only
    split
    · exact hsequence
    · exact h.highestSequence
  · unfold NetTest.receiveData
    dsimp only
    split
    · exact u32Add_lt _ _
    · exact h.outOfOrderPackets
  · exact h.finishId
  · exact h.finishIdHigh

/-- A datagram is too short, ends the test, or counts. -/
theorem process_cases (receiver : SnfNetTestUdpReceiver) (buffer : List UInt8) (bitrate now : ℕ) :
    snfNetTestUdpReceiverProcess receiver buffer bitrate now = (receiver, 0) ∨
    snfNetTestUdpReceiverProcess receiver buffer bitrate now =
      (receiveFinish (startReceiver receiver bitrate now) (be32 buffer 0) (be32 buffer 12), 2) ∨
    snfNetTestUdpReceiverProcess receiver buffer bitrate now =
      (receiveData (startReceiver receiver bitrate now) (be32 buffer 0) buffer.length, 1) := by
  unfold snfNetTestUdpReceiverProcess
  by_cases hlength : buffer.length ≥ 16
  · rw [if_pos hlength]
    right
    by_cases hfinish : be32 buffer 0 &&& 0x80000000 ≠ 0
    · left
      exact if_pos hfinish
    · right
      exact if_neg hfinish
  · left
    exact if_neg hlength

theorem SnfNetTestUdpReceiver.Fits.process (h : receiver.Fits) (buffer : List UInt8)
    (bitrate now : ℕ) : (snfNetTestUdpReceiverProcess receiver buffer bitrate now).1.Fits := by
  have hstart := h.start bitrate now
  obtain hshort | hfinish | hdata := process_cases receiver buffer bitrate now
  · rw [hshort]
    exact h
  · rw [hfinish]
    exact hstart.receiveFinish (be32_lt ..) (be32_lt ..)
  · rw [hdata]
    exact hstart.receiveData buffer.length (be32_lt ..)

theorem SnfNetTestUdpReceiver.Fits.poll (h : receiver.Fits) (tickRate now : ℕ) :
    (pollReceiver tickRate receiver now).Fits := by
  unfold pollReceiver
  split
  · exact h.withStats (statsPollProgress_totalBytes ..)
  · exact h

/-- A whole test keeps the counts within their types. -/
theorem udpReceiver_fits (tickRate : ℕ) (test : UdpTest) (arrivals : List Arrival)
    (h : receiver.Fits) : (udpReceiver tickRate test receiver arrivals).Fits := by
  induction arrivals generalizing receiver with
  | nil => exact h
  | cons arrival rest ih =>
    obtain ⟨datagram,now⟩ := arrival
    cases datagram with
    | none => exact ih (h.poll tickRate now)
    | some buffer =>
      have hprocess := h.process buffer test.targetBitrate now
      rw [udpReceiver]
      dsimp only
      split
      · exact hprocess
      · exact ih (hprocess.poll tickRate now)

theorem SnfNetTestUdpReceiver.Fits.sentPackets_lt (h : receiver.Fits) :
    receiver.sentPackets < 4294967296 := by
  unfold SnfNetTestUdpReceiver.sentPackets
  split
  · exact h.highestSequence
  · exact h.senderPackets

theorem SnfNetTestUdpReceiver.lostPackets_le (receiver : SnfNetTestUdpReceiver) :
    receiver.lostPackets ≤ receiver.sentPackets := by
  unfold SnfNetTestUdpReceiver.lostPackets
  split
  · exact Nat.sub_le _ _
  · exact Nat.zero_le _

/-- What is not lost of the packets sent is at most what was received. -/
theorem SnfNetTestUdpReceiver.sentPackets_sub_lostPackets (receiver : SnfNetTestUdpReceiver) :
    receiver.sentPackets - receiver.lostPackets =
      min receiver.receivedPackets receiver.sentPackets := by
  unfold SnfNetTestUdpReceiver.lostPackets
  split <;> omega

theorem reportWords_lt (tickRate endTick : ℕ) (h : receiver.Fits) :
    ∀ word ∈ reportWords tickRate receiver endTick, word < 4294967296 := by
  have hseconds : u32Sub endTick receiver.stats.startTick / tickRate < 4294967296 :=
    lt_of_le_of_lt (Nat.div_le_self _ _) (u32Sub_lt _ _)
  have hmicroseconds :
      microseconds tickRate (u32Sub endTick receiver.stats.startTick) < 4294967296 :=
    Nat.mod_lt _ (by decide)
  have hlost : receiver.lostPackets < 4294967296 :=
    lt_of_le_of_lt receiver.lostPackets_le h.sentPackets_lt
  simp only [reportWords, SnfNetTestIperfUdpHeader.words, SnfNetTestIperfServerHeader.words,
    List.cons_append, List.nil_append, List.forall_mem_cons, List.not_mem_nil, false_implies,
    implies_true, and_true]
  exact ⟨h.finishId, by decide, by decide, h.finishIdHigh, by decide, Nat.mod_lt _ (by decide), Nat.mod_lt _ (by decide),
    hseconds, hmicroseconds, hlost, h.outOfOrderPackets, h.sentPackets_lt, by decide, by decide⟩

/-- A report of fourteen words reads back word by word. -/
theorem parse_filled {words : List ℕ} (hlen : words.length = 14) (hsize : 56 ≤ length)
    (hwords : ∀ word ∈ words, word < 4294967296) (hflag : words[4] &&& 0x80000000 ≠ 0)
    (hlost : words[9] ≤ words[11]) :
    ∃ report, snfNetTestParseUdpReport (filled words length) = some report ∧
      report.receivedBytes = words[5] * 4294967296 + words[6] ∧ report.sentPackets = words[11] ∧
      report.lostPackets = words[9] ∧ report.receivedPackets = words[11] - words[9] ∧
      report.outOfOrderPackets = words[10] := by
  have hword : ∀ i (hi : i < words.length), be32 (filled words length) (4 * i) = words[i] :=
      fun i hi =>
    be32_filled length hi (hwords _ (List.getElem_mem hi))
  have hlength : (filled words length).length = length := filled_length (by omega)
  unfold snfNetTestParseUdpReport
  rw [hlength, if_pos hsize, hword 4 (by omega), if_pos hflag]
  refine ⟨_, rfl, ?_, hword 11 (by omega), hword 9 (by omega), ?_, hword 10 (by omega)⟩
  · dsimp only
    rw [hword 5 (by omega), hword 6 (by omega)]
  · dsimp only
    rw [hword 11 (by omega), hword 9 (by omega)]
    exact if_pos hlost

/-- The two halves of a count of bytes. -/
theorem halves_eq {n : ℕ} (h : n < 18446744073709551616) :
    n / 4294967296 % 4294967296 * 4294967296 + n % 4294967296 = n := by
  omega

structure Reports (receiver : SnfNetTestUdpReceiver) (report : SnfNetTestUdpRemoteReport) :
    Prop where
  receivedBytes : report.receivedBytes = receiver.stats.totalBytes
  sentPackets : report.sentPackets = receiver.sentPackets
  lostPackets : report.lostPackets = receiver.lostPackets
  receivedPackets : report.receivedPackets = min receiver.receivedPackets receiver.sentPackets
  outOfOrderPackets : report.outOfOrderPackets = receiver.outOfOrderPackets

theorem parse_build (tickRate endTick : ℕ) (h : receiver.Fits) (hlength : 56 ≤ length) :
    ∃ report, snfNetTestParseUdpReport (snfNetTestBuildUdpReport tickRate length receiver endTick) =
      some report ∧
      Reports receiver report := by
  obtain ⟨report,hparse,hbytes,hsent,hlost,hreceived,horder⟩ :=
    @parse_filled length (reportWords tickRate receiver endTick) rfl hlength
      (reportWords_lt tickRate endTick h)
      (by decide : (0x80000000 : ℕ) &&& 0x80000000 ≠ 0) receiver.lostPackets_le
  exact ⟨report, hparse, hbytes.trans (halves_eq h.totalBytes), hsent, hlost,
    hreceived.trans receiver.sentPackets_sub_lostPackets, horder⟩

/-- The counts of packets add up, and neither side subtracts the larger from the smaller. -/
structure SnfNetTestUdpRemoteReport.AddsUp (receiver : SnfNetTestUdpReceiver)
    (report : SnfNetTestUdpRemoteReport) : Prop where
  total : report.lostPackets + report.receivedPackets = report.sentPackets
  lostPackets : (report.lostPackets : ℤ) =
    max 0 ((receiver.sentPackets : ℤ) - receiver.receivedPackets)
  receivedPackets : (report.receivedPackets : ℤ) = (report.sentPackets : ℤ) - report.lostPackets

theorem SnfNetTestUdpReceiver.lostPackets_eq (receiver : SnfNetTestUdpReceiver) :
    (receiver.lostPackets : ℤ) = max 0 ((receiver.sentPackets : ℤ) - receiver.receivedPackets) := by
  unfold SnfNetTestUdpReceiver.lostPackets
  split <;> omega

theorem Reports.addsUp {report : SnfNetTestUdpRemoteReport} (h : Reports receiver report) :
    report.AddsUp receiver := by
  have hle := receiver.lostPackets_le
  have hsub := receiver.sentPackets_sub_lostPackets
  have hlost := h.lostPackets
  have hsent := h.sentPackets
  have hreceived := h.receivedPackets
  constructor
  · omega
  · rw [hlost]
    exact receiver.lostPackets_eq
  · omega

/-- Whatever the receiver has counted, the sender reads it back from the report, and the
packets received from the sent and the lost. -/
theorem report_round_trip (tickRate length : ℕ) (receiver : SnfNetTestUdpReceiver) (endTick : ℕ)
    (h : receiver.Fits) (hlength : 56 ≤ length) :
    ∃ report, snfNetTestParseUdpReport (snfNetTestBuildUdpReport tickRate length receiver endTick) =
      some report ∧ report.receivedBytes = receiver.stats.totalBytes ∧
      report.sentPackets = receiver.sentPackets ∧
      report.lostPackets = receiver.lostPackets ∧
        report.outOfOrderPackets = receiver.outOfOrderPackets ∧
      report.receivedPackets = min receiver.receivedPackets receiver.sentPackets ∧
        report.AddsUp receiver := by
  obtain ⟨report,hparse,hreports⟩ := parse_build tickRate endTick h hlength
  exact ⟨report, hparse, hreports.receivedBytes, hreports.sentPackets, hreports.lostPackets,
    hreports.outOfOrderPackets, hreports.receivedPackets, hreports.addsUp⟩

def duplicatedReceiver : SnfNetTestUdpReceiver :=
  { SnfNetTestUdpReceiver.zero with
    stats := { SnfNetTestUdpReceiver.zero.stats with totalBytes := 5000000000 }
    receivedPackets := 9, senderPackets := 7, highestSequence := 6, outOfOrderPackets := 3 }

theorem report_round_trip_duplicated : ∃ report,
    snfNetTestParseUdpReport (snfNetTestBuildUdpReport 500 64 duplicatedReceiver 12) = some report ∧
      report.receivedBytes = 5000000000 ∧ report.sentPackets = 7 ∧ report.lostPackets = 0 ∧
      report.outOfOrderPackets = 3 ∧ report.receivedPackets = 7 ∧
        report.AddsUp duplicatedReceiver :=
  report_round_trip 500 64 duplicatedReceiver 12 (by constructor <;> decide) (by decide)

end Sonoff.NetTest
