import Sonoff.Ota.LentChunks

/-! # What becomes of a chunk

A chunk is refused, and its session ends with that, or it is received and counted, and what is
notified with it is the session's new state. As long as a chunk is about, its session has not
counted it.
-/
namespace Sonoff.Ota
open Bytes AesGcm NorFlash OtaParse Threads Machine

variable {G : Type} {sdk : Sdk G} {s t : ChannelState G} {i : ThreadId} {k : ℕ} {flash : Flash}
  {label : OtaLabel} {l : ChannelLabel} {event : SnfOtaEvent} {p q : OtaPc} {x y : OtaSystem G}

/-- Since the history stood at `base`, the session has received the stream up to the end of the
chunk, and the state it has notified with that is not a failed one. -/
def Taken (base : List Observation) (core : OtaState G) (event : SnfOtaEvent) : Prop :=
  ∃ n callback state data bytes after before,
    core.shared.history = after ++ .notified n callback state data :: .consumed n event bytes ::
      (before ++ base) ∧ data.receivedSize = event.offset + event.size ∧
      snfOtaStateIsFailed state = false

/-- A running session counts the chunk in the task's hand, or it counts nothing. -/
theorem OtaMove.received (h : OtaMove sdk i p x q y) (hp : p.starting = false)
    (hy : y.taskHandle ≠ none) (htotal : x.core.info.totalSize < 4294967296) :
    y.core.info.receivedSize = x.core.info.receivedSize ∨
      ∃ event, p = .handle event ∧ event.id = .imageData ∧ x.core.info.state = .receiving ∧
        y.core.info.receivedSize = event.offset + event.size ∧ (∃ next, q = .callback next) ∧
        y.eventQueue = x.eventQueue := by
  cases h.progressMove hp hy htotal with
  | still hhistory hsize hstate => exact Or.inl hsize
  | noticed new hhistory hnew hsize hstate => exact Or.inl hsize
  | failed hsize hstate => exact Or.inl hsize
  | taken event bytes next hhandle hcallback hid hlen hstate hoffset hsize hqueue callback error
      hhistory =>
    exact Or.inr ⟨event, hhandle, hid, hstate, hsize, ⟨next, hcallback⟩, hqueue⟩

/-- The history only grows. -/
theorem OtaMove.history (h : OtaMove sdk i p x q y) : ∃ new, y.history = new ++ x.history := by
  have hkeep : y.history = x.history → ∃ new, y.history = new ++ x.history := fun hsame =>
    ⟨[], hsame⟩
  cases h with
  | given request ret hu => exact hkeep (otaUnlock_sameSession hu).history
  | exitGiven hu => exact hkeep (otaUnlock_sameSession hu).history
  | prepare x config sizeKnown => exact hkeep (snfOtaStartPrepare_record x config sizeKnown).2
  | task x config => exact ⟨[_], rfl⟩
  | timedOut _ => exact ⟨[_], rfl⟩
  | data event bytes results _ _ hd =>
    obtain ⟨core,out,-,-,rfl⟩ := otaHandleDataEvent_result hd
    exact ⟨[_, _], rfl⟩
  | apply x event _ => exact ⟨[_], rfl⟩
  | abort x event _ => exact ⟨[_, _], rfl⟩
  | committed x event => exact ⟨[_, _], rfl⟩
  | commitFailed x event => exact ⟨[_, _], rfl⟩
  | _ => exact hkeep rfl

theorem channelStep_history (hstep : channelStep sdk s l = some t) :
    ∃ new, t.core.shared.history = new ++ s.core.shared.history := by
  rcases channelStep_stepped hstep with hcore | ⟨i,label,hcore⟩
  · rw [hcore]
    exact ⟨[], rfl⟩
  · obtain ⟨r,hr,hmove⟩ := step_some hcore.step
    rw [hmove, Config.move_shared]
    exact (otaNext_move hr).history

theorem reach_history {ok : ChannelState G → ChannelLabel → Prop}
    (h : Reach (channelStep sdk) ok s t) :
    ∃ new, t.core.shared.history = new ++ s.core.shared.history := by
  induction h with
  | init => exact ⟨[], rfl⟩
  | step _ _ hstep ih =>
    obtain ⟨old,hold⟩ := ih
    obtain ⟨new,hnew⟩ := channelStep_history hstep
    exact ⟨new ++ old, by rw [hnew, hold, List.append_assoc]⟩

theorem Taken.step {base : List Observation} (h : Taken base s.core event)
    (hstep : channelStep sdk s l = some t) : Taken base t.core event := by
  obtain ⟨new,hnew⟩ := channelStep_history hstep
  obtain ⟨n,callback,state,data,bytes,after,before,hhist,htaken⟩ := h
  exact ⟨n, callback, state, data, bytes, new ++ after,
    before, by rw [hnew, hhist, List.append_assoc], htaken⟩

/-- A session that runs on has not become active again. -/
theorem ChannelFacts.active_back (hf : ChannelFacts s) (hstep : channelStep sdk s l = some t)
    (hs : s.core.shared.taskHandle ≠ none) (ht : t.core.shared.taskHandle ≠ none)
    (ha : snfOtaStateIsActive t.core.shared.core.info.state = true) :
    snfOtaStateIsActive s.core.shared.core.info.state = true := by
  rcases channelStep_stepped hstep with hcore | ⟨i,label,hcore⟩
  · exact hcore ▸ ha
  · exact hf.core.active_back hf.inactive hcore.step hs ht ha

/-- What a running session counts is the first of the pending events. -/
theorem ChannelFacts.received (hf : ChannelFacts s) (hstep : channelStep sdk s l = some t)
    (hs : s.core.shared.taskHandle ≠ none) (ht : t.core.shared.taskHandle ≠ none) :
    t.core.shared.core.info.receivedSize = s.core.shared.core.info.receivedSize ∨
      ∃ k first, s.core.shared.taskHandle = some k ∧ first.id = .imageData ∧
        s.core.shared.core.info.state = .receiving ∧
          t.core.shared.core.info.receivedSize = first.offset + first.size ∧
        pendingEvents s.core = first :: pendingEvents t.core ∧
        ∀ j request event, t.core.pcs j = .send request event →
          s.core.pcs j = .send request event := by
  have hkept := (hf.session_kept hstep hs ht).1
  rcases channelStep_stepped hstep with hcore | ⟨i,label,hcore⟩
  · rw [hcore]
    exact Or.inl rfl
  · obtain ⟨r,hr,hmove⟩ := step_some hcore.step
    rw [hmove] at hkept ht ⊢
    have hp : (s.core.pcs i).starting = false :=
      eq_false_of_ne_true fun hp => hs ((hf.core.asserted i).of_starting hp)
    rcases (otaNext_move hr).received hp ht hf.core.accounting.total with
      hsame | ⟨first,hfirst,hid,hst,hreceived,⟨next,hnext⟩,hqueue⟩
    · exact Or.inl hsame
    · have hasserted := hf.core.asserted i
      rw [hfirst] at hasserted
      obtain ⟨k,rfl,hx⟩ := hasserted
      refine Or.inr ⟨k, first, hx, hid, hst, hreceived, ?_, fun j request event hj => ?_⟩
      · rw [pendingEvents_running hx, pendingEvents_running (hkept.trans hx), Config.move_self,
          Config.move_shared, hnext, hqueue,
          hfirst]
        rfl
      · by_cases hjk : j = .task k
        · subst hjk
          rw [Config.move_self, hnext] at hj
          cases hj
        · rwa [Config.move_other _ hjk] at hj

def ChunksAhead (core : OtaState G) : Prop :=
  ∀ event, ChunkAbout core event → core.shared.core.info.receivedSize < event.offset + event.size

theorem ChunksAhead.step (h : ChunksAhead s.core) (hf : ChannelFacts s) (hft : ChannelFacts t)
    (hstep : channelStep sdk s l = some t) : ChunksAhead t.core := by
  intro event he
  have hactive : snfOtaStateIsActive t.core.shared.core.info.state = true →
      t.core.shared.core.info.receivedSize < event.offset + event.size := by
    intro ha
    have := hft.core.chunk_bounds he ha
    omega
  rcases he.stepped hstep with hold | ⟨i,label,offset,data,len,-,-,-,-,hshared,hst⟩
  · have hs := hf.core.events_running hold.1
    have ht := hft.core.events_running he.1
    rcases hf.received hstep hs ht with hsame | ⟨k,first,hx,hid,hst,hreceived,hpend,hsends⟩
    · rw [hsame]
      exact h event hold
    · -- The chunk that is counted lies in front of the others.
      have hbehind : event ∈ pendingEvents t.core ∨
          ∃ i request, s.core.pcs i = .send request event := by
        rcases hft.core.about_cases he.1 with hmem | ⟨i,request,hi⟩
        · exact Or.inl hmem
        · exact Or.inr ⟨i, request, hsends i request event hi⟩
      have hle := hf.core.behind_first hx hpend hid (by rw [hst]; rfl) he.2 hbehind
      have := hf.core.chunk_bounds hold (by rw [hst]; rfl)
      omega
  · exact hactive (by rw [hshared, hst]; rfl)

theorem reach_chunksAhead {ok : ChannelState G → ChannelLabel → Prop}
    (hok : ∀ s l, ok s l → keepsOneMutex s l)
    (h : Reach (channelStep sdk) ok (channelBoot G flash) s) : ChunksAhead s.core := by
  refine @Reach.invariant_along _ _ _ _ _ (fun s => ChunksAhead s.core) ChannelFacts
    (fun s hs => reach_channelFacts hok hs) ?_ (fun s l t hf hft hs _ hstep => hs.step hf hft hstep)
    s h
  rintro event ⟨⟨events,hq,-⟩ | ⟨i,hi⟩,-⟩
  · cases hq
  · cases i <;> cases hi

/-- The step of the task that handles a chunk. -/
theorem otaNext_chunk {r : OtaPc × OtaSystem G} (h : otaNext sdk i (.handle event) x label = some r)
    (hid : event.id = .imageData) : ∃ bytes results, label = .process bytes results ∧
      bytes.length = event.size ∧ otaHandleDataEvent sdk x event bytes results = some r := by
  cases label with
  | process bytes results =>
    simp only [otaNext] at h
    split at h
    case isTrue hc =>
      exact ⟨bytes, results, rfl, hc.2, h⟩
    case isFalse => cases h
  | proceed success => simp only [otaNext, hid, reduceCtorEq] at h
  | _ => cases h

def OtaPc.sentOk : OtaPc → Bool
  | .count _ _ | .unlock _ .ok | .idle (some .ok) => true
  | _ => false

theorem otaCheck_write_refused {offset data len : ℕ}
    (h : (otaCheck i x (.write offset data len)).sentOk = true) : False := by
  simp only [otaCheck] at h
  split at h
  · cases h
  · split at h
    case isTrue hne =>
      generalize snfOtaWriteCheck x offset len = ret at h hne
      cases ret with
      | ok => exact hne rfl
      | _ => cases h
    case isFalse => cases h

/-- A write comes behind its sending by sending. -/
theorem OtaMove.sentOk {offset len : ℕ} {data : Option ℕ} (h : OtaMove sdk i p x q y)
    (hq : q.sentOk = true) (hasks : p.asks = some (.write offset data len)) : p.sentOk = true ∨
      ∃ request event events, p = .send request event ∧ x.eventQueue = some events ∧
        y = x.setQueue (some (events ++ [event])) := by
  cases h with
  | pc hpc =>
    cases hpc with
    | refuse call ret hret =>
      rw [otaParams_error hret] at hq
      cases hq
    | check request' =>
      cases request' with
      | write offset' data' len' => exact (otaCheck_write_refused hq).elim
      | _ => cases hasks
    | sendFailed request' event' ret hne =>
      cases ret with
      | ok => exact absurd rfl hne
      | _ => cases hq
    | «return» next => cases hasks
    | _ => cases hq
  | given request' ret _ =>
    cases ret with
    | ok => exact Or.inl rfl
    | _ => cases hq
  | sent request' event' hqueue => exact Or.inr ⟨request', event', _, rfl, hqueue, rfl⟩
  | count x request' len => exact Or.inl rfl
  | prepare x config sizeKnown => cases hasks
  | task x config => cases hasks
  | data event' bytes results _ _ hd => cases hasks
  | _ => cases hq

end Sonoff.Ota
