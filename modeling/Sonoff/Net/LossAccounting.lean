import Mathlib.Data.List.Forall2
import Mathlib.Data.Nat.Bitwise
import Sonoff.Net.UdpReport

/-! # The loss a throughput test reports

The sender numbers its datagrams from one and ends with the negated count; the receiver
takes the number at the end for that of the last datagram and counts from zero. It counts
what arrives correctly, and one datagram too many as sent and as lost.
-/
namespace Sonoff.NetTest
open Bytes

variable {tickRate n : ℕ} {test : UdpTest} {receiver : SnfNetTestUdpReceiver}
  {attempts : List SendAttempt}

def Numbered (tickRate : ℕ) (test : UdpTest) (datagrams : List (List UInt8)) (numbers : List ℕ) :
    Prop :=
  List.Forall₂ (fun datagram sequence =>
    ∃ now, datagram = snfNetTestBuildUdpData tickRate test.payloadSize sequence now)
    datagrams numbers

/-- What goes out is numbered without a gap. -/
theorem udpSender_numbered (attempts : List SendAttempt) (first : ℕ)
    (h : first + (attempts.filter (·.sent)).length < 4294967296) :
    (udpSender tickRate test attempts first).2 = first + (attempts.filter (·.sent)).length ∧
      Numbered tickRate test (udpSender tickRate test attempts first).1
        (List.range' (first + 1) (attempts.filter (·.sent)).length) := by
  induction attempts generalizing first with
  | nil => exact ⟨rfl, .nil⟩
  | cons attempt rest ih =>
    cases hsent : attempt.sent with
    | true =>
      simp only [List.filter_cons, hsent, if_true, List.length_cons] at h ⊢
      have hadd : u32Add first 1 = first + 1 := u32Add_eq (by omega)
      obtain ⟨hcount,hnumbered⟩ := ih (first + 1) (by omega)
      simp only [udpSender, hsent, if_true, hadd]
      refine ⟨by rw [hcount]; omega, ?_⟩
      rw [List.range'_succ]
      exact .cons ⟨attempt.now, rfl⟩ hnumbered
    | false =>
      simp only [List.filter_cons, hsent, Bool.false_eq_true, if_false] at h ⊢
      simp only [udpSender, hsent, Bool.false_eq_true, if_false]
      exact ih first h

/-- Some of the datagrams, in their order, carry increasing numbers. -/
theorem Numbered.sublist {datagrams delivered : List (List UInt8)} {numbers : List ℕ}
    (h : Numbered tickRate test datagrams numbers) (hsub : delivered.Sublist datagrams) :
    ∃ some, some.Sublist numbers ∧ Numbered tickRate test delivered some := by
  induction h generalizing delivered with
  | nil => exact ⟨[], List.Sublist.slnil, by rw [List.sublist_nil.mp hsub]; exact .nil⟩
  | cons hd _ ih =>
    cases hsub with
    | cons _ hsub =>
      obtain ⟨some,hsome,hnumbered⟩ := ih hsub
      exact ⟨some, hsome.cons _, hnumbered⟩
    | cons_cons _ hsub =>
      obtain ⟨some,hsome,hnumbered⟩ := ih hsub
      exact ⟨_ :: some, hsome.cons_cons _, .cons hd hnumbered⟩

theorem UdpTest.payloadSize_ge (test : UdpTest) : 56 ≤ test.payloadSize := by
  cases test <;> decide

/-- The sign bit of a number. -/
theorem finFlag_eq_zero {x : ℕ} (h : x < 2147483648) : x &&& 0x80000000 = 0 := by
  have hbit : x.testBit 31 = false := Nat.testBit_lt_two_pow h
  rw [show (0x80000000 : ℕ) = 2 ^ 31 from rfl, Nat.and_two_pow, hbit]
  rfl

theorem finFlag_ne_zero {x : ℕ} (h : 2147483648 ≤ x) (hlt : x < 4294967296) :
    x &&& 0x80000000 ≠ 0 := by
  have hbit : x.testBit 31 = true := by
    rw [Nat.testBit_eq_decide_div_mod_eq]
    exact decide_eq_true (by omega)
  rw [show (0x80000000 : ℕ) = 2 ^ 31 from rfl, Nat.and_two_pow, hbit]
  decide

/-- Both encodings of the end give the number that was encoded. -/
theorem finishSequence_neg (h1 : 1 ≤ n) (h : n < 1073741824) :
    finishSequence (4294967296 - n) = n := by
  have hmask : (4294967296 - n) &&& 0x7FFFFFFF = 2147483648 - n := by
    rw [show (0x7FFFFFFF : ℕ) = 2 ^ 31 - 1 from rfl, Nat.and_two_pow_sub_one_eq_mod]
    omega
  have hneg : u32Add (u32Not (4294967296 - n)) 1 = n := by
    unfold u32Add u32Not
    omega
  unfold finishSequence
  rw [hmask, hneg]
  exact if_pos (by omega)

theorem buildUdpData_id {sequence : ℕ} (now : ℕ) (h : sequence < 4294967296) :
    be32 (snfNetTestBuildUdpData tickRate test.payloadSize sequence now) 0 = sequence :=
  be32_filled_cons h

theorem buildUdpData_length (sequence now : ℕ) :
    (snfNetTestBuildUdpData tickRate test.payloadSize sequence now).length = test.payloadSize :=
  filled_length (by have := test.payloadSize_ge; show 16 ≤ _; omega)

theorem buildUdpFinish_id (now : ℕ) (h1 : 1 ≤ n) (h : n < 4294967296) :
    be32 (snfNetTestBuildUdpFinish tickRate test.payloadSize n now) 0 = 4294967296 - n := by
  have hid : u32Add (u32Not n) 1 = 4294967296 - n := by
    unfold u32Add u32Not
    omega
  unfold snfNetTestBuildUdpFinish
  dsimp only
  rw [if_neg (by omega), hid]
  exact be32_filled_cons (show 4294967296 - n < 4294967296 by omega)

theorem buildUdpFinish_length (now : ℕ) :
    (snfNetTestBuildUdpFinish tickRate test.payloadSize n now).length = test.payloadSize :=
  filled_length (by have := test.payloadSize_ge; show 16 ≤ _; omega)

@[simp] theorem startReceiver_receivedPackets (receiver : SnfNetTestUdpReceiver) (bitrate now : ℕ) :
    (startReceiver receiver bitrate now).receivedPackets = receiver.receivedPackets := by
  unfold startReceiver
  split <;> rfl

@[simp] theorem startReceiver_highestSequence (receiver : SnfNetTestUdpReceiver) (bitrate now : ℕ) :
    (startReceiver receiver bitrate now).highestSequence = receiver.highestSequence := by
  unfold startReceiver
  split <;> rfl

@[simp] theorem startReceiver_outOfOrderPackets (receiver : SnfNetTestUdpReceiver)
    (bitrate now : ℕ) :
    (startReceiver receiver bitrate now).outOfOrderPackets = receiver.outOfOrderPackets := by
  unfold startReceiver
  split <;> rfl

/-- A poll only takes samples. -/
theorem pollReceiver_eq (tickRate : ℕ) (receiver : SnfNetTestUdpReceiver) (now : ℕ) :
    ∃ stats, pollReceiver tickRate receiver now = { receiver with stats := stats } := by
  unfold pollReceiver
  split
  · exact ⟨_, rfl⟩
  · exact ⟨receiver.stats, rfl⟩

theorem process_data {sequence : ℕ} (receiver : SnfNetTestUdpReceiver) (built bitrate now : ℕ)
    (h : sequence < 2147483648) :
    snfNetTestUdpReceiverProcess receiver
      (snfNetTestBuildUdpData tickRate test.payloadSize sequence built) bitrate now =
      (receiveData (startReceiver receiver bitrate now) sequence test.payloadSize, 1) := by
  have hsize := test.payloadSize_ge
  unfold snfNetTestUdpReceiverProcess
  rw [buildUdpData_length, if_pos (by omega), buildUdpData_id built (by omega)]
  exact if_neg (not_not.mpr (finFlag_eq_zero h))

theorem process_finish (receiver : SnfNetTestUdpReceiver) (built bitrate now : ℕ) (h1 : 1 ≤ n)
    (h : n < 1073741824) :
    snfNetTestUdpReceiverProcess receiver
    (snfNetTestBuildUdpFinish tickRate test.payloadSize n built) bitrate now =
      (receiveFinish (startReceiver receiver bitrate now) (4294967296 - n)
        (be32 (snfNetTestBuildUdpFinish tickRate test.payloadSize n built) 12), 2) := by
  have hsize := test.payloadSize_ge
  unfold snfNetTestUdpReceiverProcess
  rw [buildUdpFinish_length, if_pos (by omega), buildUdpFinish_id built h1 (by omega)]
  exact if_pos (finFlag_ne_zero (by omega) (by omega))

theorem udpReceiver_none (now : ℕ) (rest : List Arrival) :
    udpReceiver tickRate test receiver (⟨none, now⟩ :: rest) =
      udpReceiver tickRate test (pollReceiver tickRate receiver now) rest := rfl

theorem udpReceiver_finish {buffer : List UInt8} {now : ℕ} {rest : List Arrival}
    {t : SnfNetTestUdpReceiver}
    (h : snfNetTestUdpReceiverProcess receiver buffer test.targetBitrate now = (t, 2)) :
    udpReceiver tickRate test receiver (⟨some buffer, now⟩ :: rest) = t := by
  rw [udpReceiver, h]
  exact if_pos rfl

theorem udpReceiver_data {buffer : List UInt8} {now : ℕ} {rest : List Arrival}
    {t : SnfNetTestUdpReceiver}
    (h : snfNetTestUdpReceiverProcess receiver buffer test.targetBitrate now = (t, 1)) :
    udpReceiver tickRate test receiver (⟨some buffer, now⟩ :: rest) =
      udpReceiver tickRate test (pollReceiver tickRate t now) rest := by
  rw [udpReceiver, h]
  exact if_neg (by decide)

/-- The number at the end is taken for that of the last datagram, counted from zero. -/
theorem receiveFinish_senderPackets {packetId idHigh : ℕ} (hid : finishSequence packetId = n)
    (h : n < 4294967295) : (receiveFinish receiver packetId idHigh).senderPackets = n + 1 := by
  unfold receiveFinish
  rw [hid]
  exact if_pos h

/-- A datagram behind all others is in order and counts once. -/
theorem receiveData_next {sequence : ℕ} (bitrate now length : ℕ)
    (hnew : receiver.highestSequence < sequence)
    (horder : receiver.outOfOrderPackets = 0) (hfits : receiver.receivedPackets + 1 < 4294967296) :
    (receiveData (startReceiver receiver bitrate now) sequence length).receivedPackets =
      receiver.receivedPackets + 1 ∧
    (receiveData (startReceiver receiver bitrate now) sequence length).outOfOrderPackets = 0 ∧
    (receiveData (startReceiver receiver bitrate now) sequence length).highestSequence =
      sequence := by
  simp only [receiveData, startReceiver_receivedPackets, startReceiver_highestSequence,
    startReceiver_outOfOrderPackets]
  exact ⟨u32Add_eq hfits, (if_neg fun h => absurd h.2 (by omega)).trans horder, if_pos hnew⟩

structure Counts (receiver : SnfNetTestUdpReceiver) (received sent : ℕ) : Prop where
  receivedPackets : receiver.receivedPackets = received
  outOfOrderPackets : receiver.outOfOrderPackets = 0
  senderPackets : receiver.senderPackets = sent

/-- The whole loop: every datagram counts once, none is out of order, and the end counts
one datagram more than the sender has sent. -/
theorem udpReceiver_counts {arrivals : List Arrival} {delivered : List (List UInt8)}
    {numbers : List ℕ} {built : ℕ} (harrivals : arrivals.filterMap Arrival.datagram =
      delivered ++ [snfNetTestBuildUdpFinish tickRate test.payloadSize n built])
    (hnumbered : Numbered tickRate test delivered numbers) (hincreasing : numbers.Pairwise (· < ·))
    (hnew : ∀ sequence ∈ numbers, receiver.highestSequence < sequence ∧ sequence < 2147483648)
    (hfits : receiver.receivedPackets + numbers.length < 4294967296)
    (horder : receiver.outOfOrderPackets = 0) (h1 : 1 ≤ n) (hn : n < 1073741824) :
    Counts (udpReceiver tickRate test receiver arrivals) (receiver.receivedPackets + numbers.length)
      (n + 1) := by
  induction arrivals generalizing receiver delivered numbers with
  | nil => exact absurd harrivals.symm (List.append_ne_nil_of_right_ne_nil _ (List.cons_ne_nil _ _))
  | cons arrival rest ih =>
    obtain ⟨datagram,now⟩ := arrival
    cases datagram with
    | none =>
      obtain ⟨stats,hpoll⟩ := pollReceiver_eq tickRate receiver now
      rw [udpReceiver_none, hpoll]
      exact ih harrivals hnumbered hincreasing hnew hfits horder
    | some buffer =>
      cases hnumbered with
      | nil =>
        obtain ⟨rfl,-⟩ := List.cons.inj harrivals
        rw [udpReceiver_finish (process_finish receiver built _ now h1 hn)]
        exact ⟨startReceiver_receivedPackets .., (startReceiver_outOfOrderPackets ..).trans horder,
          receiveFinish_senderPackets (finishSequence_neg h1 hn) (by omega)⟩
      | @cons _ sequence datagrams sequences hfirst hrest =>
        obtain ⟨rfl,hrestArrivals⟩ := List.cons.inj harrivals
        obtain ⟨builtData,rfl⟩ := hfirst
        obtain ⟨hlt,hincreasing⟩ := List.pairwise_cons.mp hincreasing
        obtain ⟨habove,hsmall⟩ := hnew sequence List.mem_cons_self
        rw [List.length_cons] at hfits ⊢
        obtain ⟨hreceived,horder',hhighest⟩ :=
          receiveData_next test.targetBitrate now test.payloadSize habove horder
          (by omega)
        obtain ⟨stats,hpoll⟩ := pollReceiver_eq tickRate
          (receiveData (startReceiver receiver test.targetBitrate now) sequence test.payloadSize)
          now
        rw [udpReceiver_data (process_data receiver builtData _ now hsmall), hpoll]
        have hcounts := @ih { receiveData (startReceiver receiver test.targetBitrate now) sequence
          test.payloadSize with stats := stats } datagrams sequences hrestArrivals hrest hincreasing
          (fun x hx => ⟨lt_of_eq_of_lt hhighest (hlt x hx), (hnew x (List.mem_cons_of_mem _ hx)).2⟩)
          (lt_of_eq_of_lt (congrArg (· + sequences.length) hreceived) (by omega)) horder'
        have hsum : receiver.receivedPackets + (sequences.length + 1) =
            (receiveData (startReceiver receiver test.targetBitrate now) sequence
              test.payloadSize).receivedPackets +
              sequences.length := by omega
        rw [hsum]
        exact hcounts

theorem Counts.sentPackets {received sent : ℕ} (h : Counts receiver received (sent + 1)) :
    receiver.sentPackets = sent + 1 := by
  unfold SnfNetTestUdpReceiver.sentPackets
  rw [h.senderPackets]
  exact if_neg (Nat.succ_ne_zero _)

theorem Counts.lostPackets {received sent : ℕ} (h : Counts receiver received (sent + 1))
    (hle : received ≤ sent) : receiver.lostPackets = sent + 1 - received := by
  unfold SnfNetTestUdpReceiver.lostPackets
  rw [h.sentPackets, h.receivedPackets]
  exact if_pos (by omega)

/-- What the receiver has counted, the sender reads. -/
theorem udpReport_counts {received sent : ℕ} (endTick : ℕ) (hfits : receiver.Fits)
    (h : Counts receiver received (sent + 1)) (hle : received ≤ sent) :
    ∃ report, udpReport tickRate test receiver endTick = some report ∧
      report.sentPackets = sent + 1 ∧
      report.lostPackets = sent + 1 - received ∧ report.receivedPackets = received ∧ report.outOfOrderPackets = 0 := by
  obtain ⟨sampled,hsampled⟩ : ∃ sampled : SnfNetTestUdpReceiver,
      sampled = { receiver with stats := snfNetTestStatsSample tickRate receiver.stats endTick true } := ⟨_, rfl⟩
  have hcounts : Counts sampled received (sent + 1) := hsampled ▸ ⟨h.1, h.2, h.3⟩
  have hsampledFits : sampled.Fits := hsampled ▸ hfits.withStats (statsSample_totalBytes ..)
  obtain ⟨report,hparse,hreports⟩ := parse_build tickRate endTick hsampledFits test.payloadSize_ge
  refine ⟨report, ?_, hreports.sentPackets.trans hcounts.sentPackets,
    hreports.lostPackets.trans (hcounts.lostPackets hle), ?_,
      hreports.outOfOrderPackets.trans hcounts.outOfOrderPackets⟩
  · unfold udpReport
    rw [← hsampled]
    exact hparse
  · rw [hreports.receivedPackets, hcounts.receivedPackets, hcounts.sentPackets]
    omega

structure AgreesOnLoss (sent delivered : ℕ) (report : SnfNetTestUdpRemoteReport) : Prop where
  sentPackets : report.sentPackets = sent
  lostPackets : report.lostPackets = sent - delivered
  receivedPackets : report.receivedPackets = delivered
  outOfOrderPackets : report.outOfOrderPackets = 0

/-- The initial receiver of a test, and what it makes of the datagrams that arrive. -/
theorem udpReceiver_delivered {delivered : List (List UInt8)} {arrivals : List Arrival} {built : ℕ}
    (hcount : (attempts.filter (·.sent)).length = n) (h1 : 1 ≤ n) (hn : n < 1073741824)
    (hdelivered : delivered.Sublist (udpSender tickRate test attempts 0).1)
    (harrivals : arrivals.filterMap Arrival.datagram =
      delivered ++ [snfNetTestBuildUdpFinish tickRate test.payloadSize
        (udpSender tickRate test attempts 0).2 built]) :
    Counts (udpReceiver tickRate test .zero arrivals) delivered.length (n + 1) ∧
      delivered.length ≤ n := by
  obtain ⟨hsent,hnumbered⟩ := @udpSender_numbered tickRate test attempts 0 (by omega)
  rw [hcount, Nat.zero_add] at hsent hnumbered
  obtain ⟨numbers,hsub,hnumbered⟩ := hnumbered.sublist hdelivered
  have hlength : delivered.length = numbers.length := hnumbered.length_eq
  have hle : numbers.length ≤ n := by
    have := hsub.length_le
    rwa [List.length_range'] at this
  have hincreasing :
    numbers.Pairwise (· < ·) := List.Pairwise.sublist hsub (List.pairwise_lt_range' ..)
  have hnew : ∀ sequence ∈ numbers, SnfNetTestUdpReceiver.zero.highestSequence < sequence ∧
      sequence < 2147483648 := by
    intro sequence hsequence
    have hmem := List.mem_range'_1.mp (hsub.subset hsequence)
    show 0 < sequence ∧ sequence < 2147483648
    omega
  rw [hsent] at harrivals
  have hcounts := udpReceiver_counts harrivals hnumbered hincreasing hnew
    (show 0 + numbers.length < 4294967296 by omega) rfl h1 hn
  rw [hlength, ← Nat.zero_add numbers.length]
  exact ⟨hcounts, by omega⟩

/-- Whatever arrives of a test, the sender gets a report of one datagram more than it has sent;
a report of what it has sent it never gets. -/
theorem loss_never_agrees (test : UdpTest) (tickRate : ℕ) (attempts : List SendAttempt) (n : ℕ)
    (hcount : (attempts.filter (·.sent)).length = n) (h1 : 1 ≤ n) (hn : n < 1073741824)
    (delivered : List (List UInt8))
    (hdelivered : delivered.Sublist (udpSender tickRate test attempts 0).1)
    (arrivals : List Arrival) (built endTick : ℕ)
    (harrivals : arrivals.filterMap Arrival.datagram =
      delivered ++ [snfNetTestBuildUdpFinish tickRate test.payloadSize
        (udpSender tickRate test attempts 0).2 built]) :
    ∃ report, udpReport tickRate test (udpReceiver tickRate test .zero arrivals) endTick =
      some report ∧ AgreesOnLoss (n + 1) delivered.length report ∧
      ¬ AgreesOnLoss n delivered.length report := by
  obtain ⟨hcounts,hle⟩ := udpReceiver_delivered hcount h1 hn hdelivered harrivals
  have hfits := udpReceiver_fits tickRate test arrivals zero_fits
  obtain ⟨report,hreport,hsent,hlost,hreceived,horder⟩ := udpReport_counts endTick hfits hcounts hle
  refine ⟨report, hreport, ⟨hsent, hlost, hreceived, horder⟩, fun h => ?_⟩
  exact absurd (hsent.symm.trans h.sentPackets) (Nat.succ_ne_self n)

/-- Two datagrams over Thread, and the first of them arrives. -/
theorem loss_never_agrees_thread : ∃ report,
    udpReport 500 .thread (udpReceiver 500 .thread .zero
      [⟨some (snfNetTestBuildUdpData 500 64 1 7), 8⟩, ⟨none, 9⟩,
        ⟨some (snfNetTestBuildUdpFinish 500 64 2 10), 11⟩]) 12 =
        some report ∧ AgreesOnLoss 3 1 report ∧ ¬ AgreesOnLoss 2 1 report :=
  loss_never_agrees .thread 500 [⟨7, true⟩, ⟨8, true⟩] 2 rfl (by decide) (by decide)
    [snfNetTestBuildUdpData 500 64 1 7] (List.Sublist.cons_cons _ (List.nil_sublist _)) _ 10 12 rfl

/-- A test of one datagram that arrives reports one lost. -/
theorem loss_reported_without_loss :
    ¬ ∀ (test : UdpTest) (tickRate : ℕ) (attempts : List SendAttempt) (n : ℕ),
    (attempts.filter (·.sent)).length = n → 1 ≤ n → n < 1073741824 → ∀ delivered :
    List (List UInt8), delivered.Sublist (udpSender tickRate test attempts 0).1 →
    ∀ (arrivals : List Arrival) (built endTick : ℕ),
    arrivals.filterMap Arrival.datagram =
      delivered ++ [snfNetTestBuildUdpFinish tickRate test.payloadSize
        (udpSender tickRate test attempts 0).2 built] →
    ∃ report, udpReport tickRate test (udpReceiver tickRate test .zero arrivals) endTick =
      some report ∧ AgreesOnLoss n delivered.length report := by
  intro hall
  obtain ⟨report,hreport,hagrees⟩ := hall .thread 500 [⟨7, true⟩] 1 rfl (by decide) (by decide)
    [snfNetTestBuildUdpData 500 64 1 7] (List.Sublist.refl _)
    [⟨some (snfNetTestBuildUdpData 500 64 1 7), 8⟩,
      ⟨some (snfNetTestBuildUdpFinish 500 64 1 9), 10⟩] 9 11 rfl
  have hlost : (udpReport 500 .thread (udpReceiver 500 .thread .zero
      [⟨some (snfNetTestBuildUdpData 500 64 1 7), 8⟩,
        ⟨some (snfNetTestBuildUdpFinish 500 64 1 9), 10⟩]) 11).map
        (·.lostPackets) = some 1 := by decide +kernel
  rw [hreport] at hlost
  exact absurd (hagrees.lostPackets.symm.trans (Option.some.inj hlost)) (by decide)

end Sonoff.NetTest
