import Sonoff.Ota.CommitSafety

/-! # Admitted data is never refused

The accounting of the queue in the states the interface shows. A write enqueues
its event before it counts it, so between the two the counter lags by the length
of that one write.
-/
namespace Sonoff.Ota
open Bytes AesGcm NorFlash OtaParse Threads Machine

variable {G : Type} {sdk : Sdk G} {s : OtaState G} {i : ThreadId} {event : SnfOtaEvent}

def handled (s : OtaState G) : List SnfOtaEvent :=
  match s.shared.taskHandle with
  | none => []
  | some t => (s.pcs (.task t)).inHand

/-- The accounting of the events that are handled or queued, with the bytes that
a write has enqueued and not yet counted. -/
structure QueueAccounted (s : OtaState G) (events : List SnfOtaEvent) (extra : ℕ) : Prop where
  queue : s.shared.eventQueue = some events
  uncounted : Uncounted s extra
  sum : s.shared.core.info.receivedSize + pendingSize (handled s ++ events) =
    s.shared.core.info.queuedSize + extra
  bounded : s.shared.core.info.queuedSize + extra ≤ s.shared.core.info.totalSize
  contiguous : Contiguous s.shared.core.info.receivedSize (handled s ++ events)
    (s.shared.core.info.queuedSize + extra)
  verified : s.shared.core.info.state = .verifySuccess →
    ∀ event ∈ handled s ++ events, event.id ≠ .imageData

theorem CommitInvariant.complete (hinv : CommitInvariant s)
    (hne : s.shared.core.info.state ≠ .receiving)
    (ha : snfOtaStateIsActive s.shared.core.info.state = true) :
    s.shared.core.info.receivedSize = s.shared.core.info.totalSize := by
  have hv : verifiedState s.shared.core.info.state = true := by
    generalize s.shared.core.info.state = state at *
    cases state with
    | receiving => exact absurd rfl hne
    | verifySuccess | apply | success => rfl
    | _ => cases ha
  exact (hinv.sealed hv).verified.1

theorem QueueAccounted.of_balanced {events : List SnfOtaEvent} {extra : ℕ}
    (hinv : CommitInvariant s) (hq : s.shared.eventQueue = some events) (hu : Uncounted s extra)
    (hb : Balanced s.shared.core.info (handled s ++ events) extra) :
    QueueAccounted s events extra := by
  refine ⟨hq, hu, hb.contiguous.size, hb.bounded, hb.contiguous, fun hst => ?_⟩
  have hall := hinv.complete (by rw [hst]; exact nofun) (by rw [hst]; rfl)
  have hsum := hb.contiguous.size
  have hbound := hb.bounded
  have hc := hb.contiguous
  have hz : s.shared.core.info.queuedSize + extra = s.shared.core.info.receivedSize := by omega
  rw [hz] at hc
  exact hc.no_data

/-- While the state is RECEIVING or VERIFY_SUCCESS the received bytes and the
events handled or queued add up to the queued size and the bytes that a write has
just enqueued; a data event in the task's hand passes every check of its handler. -/
theorem queue_accounted {flash : Flash} (h : Reach (otaStep sdk) keepsMutex (otaBoot G flash) s) :
    (s.shared.core.info.state = .receiving ∨ s.shared.core.info.state = .verifySuccess →
      ∃ events extra, QueueAccounted s events extra)
    ∧ ∀ i event bytes, s.pcs i = .handle event → event.id = .imageData → bytes.length = event.size →
      Continues s.shared.core.info ⟨event.offset, some bytes⟩ bytes := by
  have hinv := reach_commitInvariant h
  have hacc := reach_accounting h
  obtain ⟨hw,ha⟩ := reach_asserted h
  refine ⟨fun hst => ?_, fun i event bytes hi hid hlen => ?_⟩
  · cases hh : s.shared.taskHandle with
    | none =>
      rcases hw.rest hh with hr | ⟨j,hj⟩
      · rw [hr.info] at hst
        rcases hst with hst | hst <;> cases hst
      · have hasrt := ha j
        have hzero : ∀ config, s.pcs j = .startTask config →
            ∃ events extra, QueueAccounted s events extra := by
          intro config hp
          rw [hp] at hasrt
          have hcrit : (s.pcs j).critical = true := by rw [hp]; rfl
          refine ⟨[], 0, .of_balanced hinv hasrt.2.eventQueue (Or.inr ⟨rfl, ?_⟩) ?_⟩
          · exact uncounted_zero (reach_owned h) hcrit (by rw [hp]; rfl)
          · simp only [handled, hh, List.append_nil, hasrt.2.info]
            exact ⟨rfl, Nat.zero_le _⟩
        cases hp : s.pcs j with
        | startTask config => exact hzero config hp
        | startPrepare config =>
          rw [hp] at hasrt
          rw [AtRest.info hasrt] at hst
          rcases hst with hst | hst <;> cases hst
        | startQueue config =>
          rw [hp] at hasrt
          rw [Preparing.info hasrt] at hst
          rcases hst with hst | hst <;> cases hst
        | startInit config =>
          rw [hp] at hasrt
          rw [Preparing.info hasrt] at hst
          rcases hst with hst | hst <;> cases hst
        | _ =>
          rw [hp] at hj
          cases hj
    | some t =>
      obtain ⟨events,hq⟩ := Option.ne_none_iff_exists'.mp (hw.running t hh).2
      have hactive : snfOtaStateIsActive s.shared.core.info.state = true := by
        rcases hst with hst | hst <;> rw [hst] <;> rfl
      obtain ⟨extra,hu,hb⟩ := hacc.balanced t events hh hq hactive
      exact ⟨events, extra, .of_balanced hinv hq hu (by simp only [handled, hh]; exact hb)⟩
  · have hasrt := ha i
    rw [hi] at hasrt
    obtain ⟨t,rfl,hh⟩ := hasrt
    obtain ⟨events,hq⟩ := Option.ne_none_iff_exists'.mp (hw.running t hh).2
    have hactive := hacc.active t hh (by rw [hi]; rfl)
    obtain ⟨extra,_,hb⟩ := hacc.balanced t events hh hq hactive
    rw [hi] at hb
    obtain ⟨hoff,hpos,hfit,_⟩ := hb.head hid
    refine ⟨?_, rfl, ?_, hoff, by rw [hlen]; exact hfit⟩
    · by_contra hst
      have := hinv.complete hst hactive
      omega
    · rintro rfl
      rw [← hlen] at hpos
      exact absurd hpos (Nat.lt_irrefl 0)

def enqueuedByte :
    List (ThreadId × OtaLabel) := firstSession ++ calls (.client 0) (.write 0 (some 1) 1) 5

theorem queue_accounted_first_session :
    ∃ s, execWithin (otaStep softSdk) keepsMutex (otaBoot Unit blankFlash) enqueuedByte = some s
      ∧ (s.shared.core.info.state = .receiving ∨ s.shared.core.info.state = .verifySuccess →
        ∃ events extra, QueueAccounted s events extra)
      ∧ ∀ i event bytes, s.pcs i = .handle event → event.id = .imageData →
        bytes.length = event.size → Continues s.shared.core.info ⟨event.offset, some bytes⟩ bytes :=
  ⟨_, rfl, @queue_accounted _ softSdk _ blankFlash
    (@Reach.execWithin _ _ _ _ _ _ _ _ .init enqueuedByte rfl)⟩

/-- The task handles the byte before the write has counted it: the image is
verified and nothing is pending, and the queued size is still zero. -/
theorem queued_size_lags :
    ∃ s, exec (otaStep softSdk) (otaBoot Unit blankFlash)
        (enqueuedByte ++ proceeds (.task 0) 1 ++ [(.task 0, .process [7] [])]) = some s
      ∧ s.shared.core.info.state = .verifySuccess ∧ s.shared.eventQueue = some [] ∧ handled s = []
      ∧ s.shared.core.info.receivedSize + pendingSize (handled s ++ []) ≠
        s.shared.core.info.queuedSize :=
  ⟨_, rfl, rfl, rfl, rfl, by decide⟩

end Sonoff.Ota
