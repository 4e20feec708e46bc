import Mathlib.Data.List.Flatten
import Sonoff.Ota.ChunkOutcome

/-! # The bytes that a session has received

What the chunks of a session hold is on record. As long as the session is active, it is as long as
the session has counted.
-/
namespace Sonoff.Ota
open Bytes AesGcm NorFlash OtaParse Threads Machine

variable {G : Type} {sdk : Sdk G} {core core' : OtaState G} {i : ThreadId} {k n : ℕ} {flash : Flash}
  {label : OtaLabel} {event : SnfOtaEvent} {p q : OtaPc} {x y : OtaSystem G}

def Observation.bytes (session : ℕ) : Observation → List UInt8
  | .consumed k _ bytes => if k = session then bytes else []
  | _ => []

def receivedBytes (session : ℕ) (history : List Observation) : List UInt8 :=
  history.reverse.flatMap (Observation.bytes session)

theorem receivedBytes_append (session : ℕ) (new history : List Observation) :
    receivedBytes session (new ++ history) = receivedBytes session history ++
      receivedBytes session new := by
  simp only [receivedBytes, List.reverse_append, List.flatMap_append]

theorem receivedBytes_cons (session : ℕ) (o : Observation) (history : List Observation) :
    receivedBytes session (o :: history) = receivedBytes session history ++ o.bytes session := by
  simp only [receivedBytes, List.reverse_cons, List.flatMap_append, List.flatMap_singleton]

/-- An observation without bytes. -/
theorem receivedBytes_same {o : Observation} {history : List Observation} (ho : o.bytes n = []) :
    receivedBytes n (o :: history) = receivedBytes n history := by
  rw [receivedBytes_cons, ho, List.append_nil]

theorem receivedBytes_data {bytes : List UInt8} {callback : Option SnfOtaEventCallback}
    {state : SnfOtaState} {data : SnfOtaEventData} {history : List Observation} :
    receivedBytes n (.notified n callback state data :: .consumed n event bytes :: history) =
      receivedBytes n history ++ bytes := by
  rw [receivedBytes_same rfl, receivedBytes_cons]
  exact congrArg _ (if_pos rfl)

/-- What a session receives does not change what it has received. -/
theorem receivedBytes_prefix {history history' : List Observation}
    (h : ∃ new, history' = new ++ history) :
    receivedBytes n history <+: receivedBytes n history' := by
  obtain ⟨new,rfl⟩ := h
  rw [receivedBytes_append]
  exact List.prefix_append _ _

/-- A session into which nothing has been consumed. -/
theorem receivedBytes_nil {history : List Observation}
    (h : ∀ event bytes, .consumed n event bytes ∉ history) :
    receivedBytes n history = [] := by
  refine List.flatMap_eq_nil_iff.mpr fun o ho => ?_
  cases o with
  | consumed k event bytes =>
    refine if_neg ?_
    rintro rfl
    exact h event bytes (List.mem_reverse.mp ho)
  | _ => rfl

/-- A running session takes the bytes of the chunk in the task's hand, or none. -/
theorem OtaMove.bytes (h : OtaMove sdk i p x q y) (hp : p.starting = false)
    (hy : y.taskHandle ≠ none) (ha : snfOtaStateIsActive y.core.info.state = true)
    (htotal : x.core.info.totalSize < 4294967296) :
    (receivedBytes x.session y.history = receivedBytes x.session x.history ∧
      y.core.info.receivedSize = x.core.info.receivedSize) ∨
    ∃ event bytes, p = .handle event ∧ event.offset = x.core.info.receivedSize ∧
      bytes.length = event.size ∧
      receivedBytes x.session y.history = receivedBytes x.session x.history ++ bytes ∧
      y.core.info.receivedSize = x.core.info.receivedSize + bytes.length := by
  cases h.progressMove hp hy htotal with
  | still hhistory hsize hstate => exact Or.inl ⟨by rw [hhistory], hsize⟩
  | noticed new hhistory hnew hsize hstate =>
    refine Or.inl ⟨?_, hsize⟩
    rw [hhistory, receivedBytes_append, receivedBytes_nil (fun event bytes => hnew _ event bytes),
      List.append_nil]
  | failed hsize hstate =>
    rw [hstate] at ha
    cases ha
  | taken event bytes next hhandle hcallback hid hlen hstate hoffset hsize hqueue callback error
      hhistory =>
    refine Or.inr ⟨event, bytes, hhandle, hoffset, hlen, ?_, by rw [hsize, hoffset, hlen]⟩
    rw [hhistory]
    exact receivedBytes_data

/-- The bytes on record belong to a session that was started, and an active session has counted its
own. -/
structure ReceivedCounted (core : OtaState G) : Prop where
  begun : ∀ n event bytes, .consumed n event bytes ∈ core.shared.history →
    ∃ i config, .started i n config ∈ core.shared.history
  counted : core.shared.taskHandle ≠ none → snfOtaStateIsActive core.shared.core.info.state = true →
    (receivedBytes core.shared.session core.shared.history).length =
      core.shared.core.info.receivedSize

theorem ReceivedCounted.begun_step (h : ReceivedCounted core) (hf : CoreFacts core)
    (hstep : otaStep sdk core (i, label) = some core') {bytes : List UInt8}
    (ho : .consumed n event bytes ∈ core'.shared.history) :
    ∃ i config, .started i n config ∈ core'.shared.history := by
  obtain ⟨r,hr,rfl⟩ := step_some hstep
  have hmove := otaNext_move hr
  rw [Config.move_shared] at ho ⊢
  obtain ⟨new,hnew⟩ := hmove.history
  have hkept : ∀ {o}, o ∈ core.shared.history → o ∈ r.2.history := fun ho =>
    hnew ▸ List.mem_append_right new ho
  rcases hmove.effect ho rfl with hold | ⟨rfl,hp,-⟩
  · obtain ⟨j,config,hs⟩ := h.begun n event bytes hold
    exact ⟨j, config, hkept hs⟩
  · have hrunning : core.shared.taskHandle ≠ none :=
      hf.events_running (Or.inr ⟨i, by rw [show core.pcs i = _ from hp]; rfl⟩)
    obtain ⟨j,hs⟩ := hf.record.running hrunning
    exact ⟨j, _, hkept hs⟩

theorem ReceivedCounted.counted_step (h : ReceivedCounted core) (hf : CoreFacts core)
    (he : EndsInactive core) (hstep : otaStep sdk core (i, label) = some core')
    (hx : core'.shared.taskHandle ≠ none)
    (ha : snfOtaStateIsActive core'.shared.core.info.state = true) :
    (receivedBytes core'.shared.session core'.shared.history).length =
      core'.shared.core.info.receivedSize := by
  obtain ⟨r,hr,hcore⟩ := step_some hstep
  have hmove := otaNext_move hr
  have hasserted := hf.asserted i
  cases hmove.record hasserted with
  | keep hh hsession _ _ _ =>
    have hrunning : core.shared.taskHandle ≠ none := by
      rw [hcore, Config.move_shared, hh] at hx
      exact hx
    have hcounted := h.counted hrunning (hf.active_back he hstep hrunning hx ha)
    have hp : (core.pcs i).starting = false := eq_false_of_ne_true fun hp =>
      hrunning (hasserted.of_starting hp)
    rw [hcore, Config.move_shared] at hx ha ⊢
    rw [hsession]
    rcases hmove.bytes hp hx ha
      hf.accounting.total with ⟨hbytes,hsize⟩ | ⟨_,bytes,-,-,-,hbytes,hsize⟩
    · rw [hbytes, hsize, hcounted]
    · rw [hbytes, hsize, List.length_append, hcounted]
  | idle _ hno _ _ _ =>
    rw [hcore] at hx
    exact absurd hno hx
  | spawn config hp _ hy =>
    dsimp only at hp hy
    rw [hp] at hasserted
    have hnone : receivedBytes core.shared.session core.shared.history = [] := by
      refine receivedBytes_nil fun event bytes ho => ?_
      obtain ⟨j,config',hs⟩ := h.begun _ event bytes ho
      exact hf.record.starting i config hp j config' hs
    rw [hcore, Config.move_shared, hy]
    show (receivedBytes core.shared.session
      (.started i core.shared.session config :: core.shared.history)).length =
      core.shared.core.info.receivedSize
    rw [receivedBytes_same rfl, hnone, hasserted.2.info]
    rfl

theorem reach_receivedCounted (h : Reach (otaStep sdk) keepsMutex (otaBoot G flash) core) :
    ReceivedCounted core := by
  refine @Reach.invariant_of _ _ _ _ _ ReceivedCounted (fun core => CoreFacts core ∧
    EndsInactive core) (fun _ hs => ⟨reach_coreFacts hs, reach_endsInactive hs⟩) ⟨nofun, fun hx =>
    absurd rfl hx⟩ ?_ core h
  rintro s ⟨i,label⟩ t ⟨hf,he⟩ hs _ hstep
  exact ⟨fun _ _ _ => hs.begun_step hf hstep, hs.counted_step hf he hstep⟩

end Sonoff.Ota
