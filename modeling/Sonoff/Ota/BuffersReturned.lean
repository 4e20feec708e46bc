import Sonoff.Ota.LentBuffers

/-! # Every lent buffer comes back

A session ends with its last chunk handled or dropped, and an abort of a running session gets its
event into the queue. So a chunk is about only while its channel waits for it.
-/
namespace Sonoff.Ota
open Bytes AesGcm NorFlash OtaParse Threads Machine

variable {G : Type} {sdk : Sdk G} {s t : ChannelState G} {i : ThreadId} {k : ℕ} {flash : Flash}
  {label : OtaLabel} {l : ChannelLabel} {channel : Channel} {event : SnfOtaEvent}

/-- The points at which a task goes on to notify its end. -/
theorem OtaMove.ends {p q : OtaPc} {x y : OtaSystem G} (h : OtaMove sdk i p x q y)
    (hp : p.ending = false) (hq : q.ending = true) :
    (p = .timeout ∧ x.core.info.state = .receiving) ∨
      (∃ event, p = .handle event ∧ event.id ≠ .imageApply) ∨ ∃ event, p = .commit event := by
  obtain ⟨hend,_⟩ | ⟨_,_,hfrom⟩ := h.reachesEnd hq
  · rw [hp] at hend
    cases hend
  · exact hfrom

/-- A session gives up waiting for data with its last timeout. -/
theorem keepsChunks_timeout {r : OtaPc × OtaSystem G} (hok : keepsChunks s i = true)
    (hp : s.core.pcs i = .timeout)
    (hst : s.core.shared.core.info.state = .receiving)
    (hr : otaNext sdk i (s.core.pcs i) s.core.shared label = some r)
    (hend : r.1.ending = true) : s.chunkPending = false := by
  simp only [keepsChunks, hp, hst, ne_eq, not_true_eq_false, decide_false, Bool.false_or,
    Bool.or_eq_true, decide_eq_true_eq, Bool.not_eq_true'] at hok
  refine hok.resolve_left fun hcount => ?_
  rw [hp] at hr
  cases label with
  | proceed success =>
    simp only [otaNext, otaHandleTimeout, hst, ne_eq, not_true_eq_false, if_false] at hr
    split at hr
    · cases hr
      cases hend
    · exact absurd hcount ‹_›
  | _ => cases hr

/-- The last event that a task handles is the only chunk, or an abort with no chunk behind it. -/
theorem ChunksLent.handled_last {first : SnfOtaEvent} (h : ChunksLent s) (hf : LentFacts s)
    (hft : LentFacts t) (hstep : channelStep sdk s (.core (.task k) label) = some t)
    (hs : s.core.shared.taskHandle = some k)
    (ht : t.core.shared.taskHandle = some k) (hp : s.core.pcs (.task k) = .handle first)
    (hid : first.id ≠ .imageApply)
    (hend : (t.core.pcs (.task k)).ending = true) (hold : ChunkAbout s.core event)
    (he : ChunkAbout t.core event) :
    False := by
  have hactive := h.active hf hold
  obtain ⟨r,hr,hmove⟩ := step_some (coreStep_core hstep).1
  have hhand : (t.core.pcs (.task k)).inHand = [] := by
    generalize t.core.pcs (.task k) = pc at hend
    cases pc with
    | handle => cases hend
    | _ => rfl
  have hpend : pendingEvents s.core = first :: pendingEvents t.core := by
    have ht' : r.2.taskHandle = some k := by
      rw [hmove, Config.move_shared] at ht
      exact ht
    rw [pendingEvents_running hs, pendingEvents_running ht, hhand, hp, hmove, Config.move_shared]
    rcases (otaNext_move hr).pending (hf.channels.core.asserted (.task k)) hs
      ht' with ⟨hsame,-⟩ | ⟨_,-,-,hq⟩ | ⟨_,_,hp',-⟩
      | ⟨_,_,_,hp',-⟩
    · rw [hmove, Config.move_self, hsame, show s.core.pcs (ThreadId.task k, label).1 =
        _ from hp] at hhand
      cases hhand
    · rw [hq]
      rfl
    · rw [hp] at hp'
      cases hp'
    · rw [hp] at hp'
      cases hp'
  have hbehind : event ∈ pendingEvents t.core ∨
      ∃ i request, s.core.pcs i = .send request event := by
    rcases hft.channels.core.about_cases he.1 with hmem | ⟨i,request,hi⟩
    · exact Or.inl hmem
    · refine Or.inr ⟨i, request, ?_⟩
      by_cases hik : i = .task k
      · subst hik
        rw [hi] at hend
        cases hend
      · rwa [hmove, Config.move_other _ hik] at hi
  by_cases hdata : first.id = .imageData
  · have hfirst : ChunkAbout s.core first := ⟨Or.inr ⟨.task k, by rw [hp]; rfl⟩, hdata⟩
    have hle := hf.channels.core.behind_first hs hpend hdata hactive he.2 hbehind
    have hbounds := hf.channels.core.chunk_bounds hold hactive
    rw [h.single first event hfirst hold] at hle
    omega
  · have habort : first.id = .abort := by
      generalize first.id = id at hid hdata
      cases id with
      | abort => rfl
      | imageApply => exact absurd rfl hid
      | _ => exact absurd rfl hdata
    rcases hbehind with hmem | ⟨i,request,hi⟩
    · have horder := h.order
      rw [hpend] at horder
      exact (List.pairwise_cons.mp horder).1 event hmem habort he.2
    · exact h.sends_unaborted hf hi he.2 first (by rw [hpend]; exact List.mem_cons_self) habort

/-- Where the end of a session is notified, its last chunk has been handled or dropped. -/
theorem ChunksLent.ended_step (h : ChunksLent s) (hf : LentFacts s) (hft : LentFacts t)
    (hok : waitsForChunks s l) (hstep : channelStep sdk s l = some t)
    (hx : t.core.shared.taskHandle = some k)
    (hend : (t.core.pcs (.task k)).ending = true) : NoChunk t.core := by
  intro event he
  have hinactive := hft.channels.inactive k hx hend
  rcases he.stepped hstep with hold | ⟨_,_,_,_,_,-,-,-,-,hshared,hst⟩
  · have hrunning := hf.channels.core.events_running hold.1
    have hs : s.core.shared.taskHandle = some k :=
      (hf.channels.session_kept hstep hrunning (by rw [hx]; rintro ⟨⟩)).1.symm.trans hx
    have hactive := h.active hf hold
    have hp : (s.core.pcs (.task k)).ending = false := by
      by_contra hp
      rw [hf.channels.inactive k hs (eq_true_of_ne_false hp)] at hactive
      cases hactive
    by_cases hl : ∃ label, l = .core (.task k) label
    · obtain ⟨label,rfl⟩ := hl
      obtain ⟨r,hr,hmove⟩ := step_some (coreStep_core hstep).1
      have hq : r.1.ending = true := by
        rw [hmove, Config.move_self] at hend
        exact hend
      rcases (otaNext_move hr).ends hp
        hq with ⟨htimeout,hst⟩ | ⟨first,hhandle,hid⟩ | ⟨first,hcommit⟩
      · have hnone := keepsChunks_timeout hok.2 htimeout hst hr hq
        rw [hf.chunkPending hold] at hnone
        cases hnone
      · exact h.handled_last hf hft hstep hs hx hhandle hid hend hold he
      · -- A commit is behind the verification.
        have happlies : (s.core.pcs (.task k)).applies = some first := by
          rw [show s.core.pcs (.task k) = _ from hcommit]
          rfl
        refine h.none_of_state hf (fun hst => ?_) event hold
        rw [(hf.channels.core.commit.receiving_none hst).2] at happlies
        cases happlies
    · rcases (channelStep_stepped hstep).points (.task k) fun label he =>
        hl ⟨label, he⟩ with hsame | ⟨call,hcall⟩
      · rw [hsame, hp] at hend
        cases hend
      · rw [hcall] at hend
        cases hend
  · rw [hshared, hst] at hinactive
    cases hinactive

def HttpPc.inAbort : HttpPc → Bool
  | .aborting _ | .abortWait _ => true
  | _ => false

/-- An upload comes to its abort by the call, and to the wait behind it by the call's return. -/
theorem HttpMove.inAbort (h : HttpMove sdk s t) (ht : t.http.pc.inAbort = true) :
    (∃ error call, t.http.pc = .aborting error ∧ t.core.pcs Channel.http.client = .params call) ∨
      ∃ error, t.http.pc = .abortWait error ∧ (s.http.pc = .abortWait error ∨
        s.http.pc = .aborting error ∧ ∃ ret, s.returned Channel.http.client = some ret) := by
  have hreceived : ∀ (u : HttpUpload) (header : List UInt8),
      (u.headerReceived header).pc.inAbort = false := by
    intro u header
    have hno := (u.headerReceived_pc header).1
    cases hpc : (u.headerReceived header).pc with
    | aborting | abortWait =>
      rw [hpc] at hno
      cases hno
    | _ => rfl
  cases h with
  | refuse reply data hpc => cases ht
  | request reply data hpc | header data hpc => exact nomatch (hreceived _ _).symm.trans ht
  | reset pc f hr =>
    generalize s.http.pc = old at hr
    cases hr <;> cases ht
  | look pc hl =>
    obtain ⟨old,hpc⟩ : ∃ old, s.http.pc = old := ⟨_, rfl⟩
    rw [hpc] at hl
    cases hl with
    | reached expected _ =>
      change (s.http.next expected).inAbort = true at ht
      unfold HttpUpload.next at ht
      split at ht <;> cases ht
    | abortAgain error _ => exact Or.inr ⟨error, rfl, Or.inl hpc⟩
    | _ => cases ht
  | start s' hpc hs' => cases ht
  | started ret hpc hret =>
    change HttpPc.inAbort (if ret = .ok then s.http.receiveImage
      else .idle (some (.startFailed ret))) = true at ht
    unfold HttpUpload.receiveImage HttpUpload.next at ht
    repeat' split at ht
    all_goals cases ht
  | fill written filled data hpc _ _ =>
    change HttpPc.inAbort (if filled + data.length = s.http.chunkSize written then
      .write httpDataBuffer written (s.http.chunkSize written)
        else .receive written (filled + data.length)) = true at ht
    split at ht <;> cases ht
  | write pointer offset len s' hpc hs' => cases ht
  | written expected ret hpc hret =>
    change HttpPc.inAbort (if ret = .ok then .waitSize expected else .failed) = true at ht
    split at ht <;> cases ht
  | abort error s' hpc hs' =>
    obtain ⟨ret,-,rfl⟩ := invoke_some hs'
    exact Or.inl ⟨error, .abort, rfl, Config.move_self _ _ _⟩
  | aborting error ret hpc hret =>
    by_cases hok : ret = .ok
    · exact Or.inr ⟨error, if_pos hok, Or.inr ⟨hpc, ret, hret⟩⟩
    · change HttpPc.inAbort (if ret = .ok then _ else _) = true at ht
      rw [if_neg hok] at ht
      cases ht

theorem HttpMove.aborts (h : HttpMove sdk s t) (ht : t.aborts .http)
    (hcall : ∀ call, t.core.pcs Channel.http.client ≠ .params call) :
    s.aborts .http := by
  obtain ⟨error,ht⟩ := ht
  rcases h.inAbort (by rw [ht]; rfl) with ⟨_,call,-,hpc⟩ | ⟨error',hwait,-⟩
  · exact absurd hpc (hcall call)
  · rw [ht] at hwait
    cases hwait

theorem MatterMove.aborts_back (h : MatterMove sdk s t) (ht : t.aborts .matter)
    (hcall : ∀ call, t.core.pcs Channel.matter.client ≠ .params call) : s.aborts .matter := by
  have ht : t.matter = .aborting := ht
  cases h with
  | reset pc f hr =>
    generalize s.matter = old at hr
    cases hr <;> cases ht
  | look pc hl =>
    generalize s.matter = old at hl
    cases hl <;> cases ht
  | start imageSize s' hpc hs' => cases ht
  | write offset len s' hpc hs' => cases ht
  | written expected ret hpc hret =>
    change (if ret = .ok then MatterPc.waitSize expected else .idle (some (.write (-1)))) = _ at ht
    split at ht <;> cases ht
  | abort s' hpc hs' =>
    obtain ⟨ret,-,rfl⟩ := invoke_some hs'
    exact absurd (Config.move_self _ _ _) (hcall .abort)
  | _ => cases ht

/-- A channel comes to its abort by calling. -/
theorem ChannelState.aborts_back (hstep : channelStep sdk s l = some t) (ht : t.aborts channel)
    (hcall : ∀ call, t.core.pcs channel.client ≠ .params call) : s.aborts channel := by
  have hsame : t.http = s.http → t.matter = s.matter → s.aborts channel := by
    intro hhttp hmatter
    cases channel
    · simpa only [ChannelState.aborts, hhttp] using ht
    · simpa only [ChannelState.aborts, hmatter] using ht
  cases l with
  | core i label =>
    obtain ⟨hhttp,hmatter,-⟩ := (coreStep_move hstep).channels
    exact hsame hhttp hmatter
  | callback k =>
    obtain ⟨hhttp,hmatter,-⟩ := (callbackStep_move hstep).channels
    exact hsame hhttp hmatter
  | http event =>
    cases channel with
    | http => exact (httpStep_move hstep).aborts ht hcall
    | matter => simpa only [ChannelState.aborts, (httpStep_move hstep).matter] using ht
  | matter event =>
    cases channel with
    | http => simpa only [ChannelState.aborts, (matterStep_move hstep).http] using ht
    | matter => exact (matterStep_move hstep).aborts_back ht hcall

theorem OtaRequest.of_abort {request : OtaRequest} (h : some request.call = some OtaCall.abort) :
    request = .abort := by
  cases request with
  | abort => rfl
  | _ => cases h

/-- While the queue has room, an abort of a running session does not fail. -/
theorem otaNext_abort {p : OtaPc} {x : OtaSystem G} {events : List SnfOtaEvent}
    {r : OtaPc × OtaSystem G} {ret : SnfOtaRet}
    (h : otaNext sdk i p x label = some r) (hasks : p.asks = some .abort) (hx : x.taskHandle ≠ none)
    (hm : x.mutex ≠ none) (hqueue : x.eventQueue = some events)
    (hroom : p.pastSend = false → events.length < snfOtaEventQueueLength)
    (hq : r.1 = .unlock .abort ret ∨ r.1 = .idle (some ret)) (hret : ret ≠ .ok) :
    p = .unlock .abort ret := by
  cases label with
  | proceed success =>
    cases p with
    | params call =>
      cases hasks
      cases h
      rcases hq with hq | hq <;> cases hq
    | lock request =>
      obtain ⟨m,hm⟩ := Option.ne_none_iff_exists'.mp hm
      simp only [otaNext, hm, Option.some.injEq] at h
      subst h
      rcases hq with hq | hq <;> cases hq
    | take m request =>
      simp only [otaNext] at h
      split at h <;> cases h
      rcases hq with hq | hq <;> cases hq
    | check request =>
      obtain rfl := OtaRequest.of_abort hasks
      simp only [otaNext, otaCheck, if_neg hx, Option.some.injEq] at h
      subst h
      rcases hq with hq | hq <;> cases hq
    | send request event =>
      simp only [otaNext, otaQueueEventSend, hqueue, if_pos (hroom rfl), afterSend,
        Option.some.injEq] at h
      subst h
      dsimp only at hq
      split at hq
      · rcases hq with hq | hq <;> cases hq
      · rcases hq with hq | hq
        · cases hq
          exact absurd rfl hret
        · cases hq
    | count request len =>
      cases h
      rcases hq with hq | hq
      · cases hq
        exact absurd rfl hret
      · cases hq
    | unlock request ret' =>
      obtain rfl := OtaRequest.of_abort hasks
      simp only [otaNext, Option.map_eq_some_iff] at h
      obtain ⟨y,-,rfl⟩ := h
      rcases hq with hq | hq
      · cases hq
      · cases hq
        rfl
    | _ => cases hasks
  | _ =>
    cases p with
    | idle | receive | handle => cases hasks
    | _ => cases h

/-- While a chunk is about and its session is not aborted, nothing else is pending. -/
theorem ChunksLent.room {events : List SnfOtaEvent} (h : ChunksLent s) (hf : LentFacts s)
    (he : ChunkAbout s.core event)
    (hr : s.runs channel) (hw : s.writable channel = true)
    (hqueue : s.core.shared.eventQueue = some events) :
    events.length ≤ 1 := by
  obtain ⟨k,hk⟩ := Option.ne_none_iff_exists'.mp hr.1
  have hactive := h.active hf he
  have hst : s.core.shared.core.info.state = .receiving := by
    by_contra hst
    exact h.none_of_state hf hst event he
  have hmem : ∀ other ∈ events, other ∈ pendingEvents s.core := by
    intro other ho
    rw [pendingEvents_running hk, hqueue]
    exact List.mem_append_right _ ho
  have hdata : ∀ other ∈ events, other.id = .imageData := by
    intro other ho
    have happly := (hf.channels.core.commit.receiving_none hst).1 events hqueue other ho
    have habort := h.unaborted channel hr hw other (hmem other ho)
    generalize other.id = id at happly habort
    cases id with
    | imageApply => exact absurd rfl happly
    | abort => exact absurd rfl habort
    | _ => rfl
  match events, hqueue, hmem, hdata with
  | [], _, _, _ => exact Nat.zero_le _
  | [_], _, _, _ => exact Nat.le_refl _
  | first :: second :: rest, hqueue, hmem, hdata =>
    have habout : ∀ other ∈ first :: second :: rest, ChunkAbout s.core other :=
      fun other ho => ⟨pendingEvents_about (hmem other ho), hdata other ho⟩
    have hfirst := habout first List.mem_cons_self
    have hsecond := habout second (List.mem_cons_of_mem _ List.mem_cons_self)
    obtain ⟨extra,-,hbalanced⟩ := hf.channels.core.pending_balanced hk hactive
    have hpairwise := hbalanced.contiguous.pairwise
    rw [pendingEvents_running hk, hqueue] at hpairwise
    have hle := (List.pairwise_cons.mp (List.pairwise_append.mp hpairwise).2.1).1 second
      List.mem_cons_self hfirst.2 hsecond.2
    have hbounds := hf.channels.core.chunk_bounds hfirst hactive
    rw [h.single second first hsecond hfirst] at hle
    omega

theorem ChannelFacts.aborts_call {call : OtaCall} (hf : ChannelFacts s) (ha : s.aborts channel)
    (hasks : (s.core.pcs channel.client).asks = some call) : call = .abort := by
  cases channel with
  | http =>
    obtain ⟨error,hpc⟩ := ha
    have hcalling := hf.calls.http call hasks
    simp only [HttpUpload.calling, hpc] at hcalling
    exact hcalling
  | matter =>
    have hpc : s.matter = .aborting := ha
    have hcalling := hf.calls.matter call hasks
    rw [hpc] at hcalling
    exact hcalling

theorem ChannelState.aborts.writable (ha : s.aborts channel) (hl : s.lentFor event channel)
    (hp : (s.core.pcs channel.client).pastSend = false) : s.writable channel = true := by
  have huses := ha.uses
  cases channel with
  | http =>
    obtain ⟨error,hpc⟩ := ha
    simp only [ChannelState.writable, ChannelState.abortSent, huses, hpc, hp, Bool.not_false,
      Bool.and_self]
  | matter =>
    have hpc : s.matter = .aborting := ha
    simp only [ChannelState.writable, ChannelState.abortSent, hl.1, hpc, hp, Bool.true_or,
      Bool.not_false, Bool.and_self]

theorem ChunksLent.refused_step {ret : SnfOtaRet} (h : ChunksLent s) (hf : LentFacts s)
    (hft : LentFacts t) (hstep : channelStep sdk s l = some t) (ha : t.aborts channel)
    (hq : t.core.pcs channel.client = .unlock .abort ret ∨
      t.core.pcs channel.client = .idle (some ret)) (hret : ret ≠ .ok) :
    NoChunk t.core := by
  intro event he
  have haborts : s.aborts channel := ChannelState.aborts_back hstep ha fun call hcall => by
    rcases hq with hq | hq <;> rw [hq] at hcall <;> cases hcall
  have hs := he.1.running hf.channels hft.channels hstep
  have hr := hf.apart.runs haborts.uses hs
  have hold : ChunkAbout s.core event := by
    rcases he.stepped hstep with hold | ⟨i,label,offset,data,len,rfl,hp,hsend,-⟩
    · exact hold
    · -- Only the channel itself could write.
      obtain ⟨other,rfl,hw,-⟩ := hf.channels.writer hf.apart (i := i) (by rw [hp]; rfl)
      obtain rfl := hr.same (hf.apart.runs hw.uses hs)
      rcases hq with hq | hq <;> rw [hsend] at hq <;> cases hq
  by_cases hsame : t.core.pcs channel.client = s.core.pcs channel.client
  · rw [hsame] at hq
    exact h.refused channel ret haborts hq hret event hold
  · have hl : ∃ label, l = .core channel.client label := by
      by_contra hl
      rcases (channelStep_stepped hstep).points channel.client fun label he =>
        hl ⟨label, he⟩ with hpcs | ⟨call,hcall⟩
      · exact hsame hpcs
      · rcases hq with hq | hq <;> rw [hq] at hcall <;> cases hcall
    obtain ⟨label,rfl⟩ := hl
    obtain ⟨hcore,hidle⟩ := coreStep_core hstep
    obtain ⟨r,hr',hmove⟩ := step_some hcore
    rw [hmove, Config.move_self] at hq
    obtain ⟨call,hasks⟩ := hf.channels.core.client_asks hcore hidle
    obtain rfl := hf.channels.aborts_call haborts hasks
    obtain ⟨k,hk⟩ := Option.ne_none_iff_exists'.mp hs
    obtain ⟨events,hqueue⟩ := Option.ne_none_iff_exists'.mp (hf.channels.core.whole.running k hk).2
    obtain ⟨other,hr'',-,hlent⟩ := h.lent event hold
    obtain rfl := hr.same hr''
    have hpast := otaNext_abort hr' hasks hs (hf.channels.core.whole.locked hs) hqueue (fun hp => by
      have := h.room hf hold hr (haborts.writable hlent hp) hqueue
      exact Nat.lt_of_le_of_lt this (by decide)) hq hret
    exact h.refused other ret haborts (Or.inl hpast) hret event hold

theorem ChannelState.abortSent_http : s.abortSent .http = true ↔
    (∃ error, s.http.pc = .aborting error ∧ (s.core.pcs Channel.http.client).pastSend = true) ∨
      ∃ error, s.http.pc = .abortWait error := by
  simp only [ChannelState.abortSent]
  generalize s.http.pc = pc
  cases pc with
  | aborting error => exact ⟨fun h => Or.inl ⟨error, rfl, h⟩, fun h => by simpa using h⟩
  | abortWait error => exact iff_of_true rfl (Or.inr ⟨error, rfl⟩)
  | _ => exact iff_of_false Bool.false_ne_true (by simp)

theorem ChannelState.abortSent_matter : s.abortSent .matter = true ↔
    (s.matter = .aborting ∧ (s.core.pcs Channel.matter.client).pastSend = true) ∨
      s.matter = .abortWait ∨ s.matter = .abortEnd := by
  simp only [ChannelState.abortSent]
  generalize s.matter = pc
  cases pc with
  | aborting => simp
  | _ => simp

theorem returned_pastSend {ret : SnfOtaRet} (h : s.returned i = some ret) :
    (s.core.pcs i).pastSend = true := by
  rw [asks_of_returned h]
  rfl

theorem HttpMove.abortWaits {error : SnfOtaErrorCode} (h : HttpMove sdk s t)
    (ht : t.http.pc = .abortWait error) : s.abortSent .http = true := by
  rcases h.inAbort (by rw [ht]; rfl) with
    ⟨error',_,hpc,-⟩ | ⟨error',-,hpc | ⟨hpc,ret,hret⟩⟩
  · rw [ht] at hpc
    cases hpc
  · exact ChannelState.abortSent_http.mpr (Or.inr ⟨error', hpc⟩)
  · exact ChannelState.abortSent_http.mpr (Or.inl ⟨error', hpc, returned_pastSend hret⟩)

theorem MatterMove.abortWaits (h : MatterMove sdk s t)
    (ht : t.matter = .abortWait ∨ t.matter = .abortEnd) :
    s.abortSent .matter = true := by
  cases h with
  | reset pc f hr =>
    generalize s.matter = old at hr
    cases hr <;> rcases ht with ht | ht <;> cases ht
  | look pc hl =>
    obtain ⟨old,hpc⟩ : ∃ old, s.matter = old := ⟨_, rfl⟩
    rw [hpc] at hl
    cases hl with
    | abortAgain _ | aborted _ | abortTimeout =>
      exact ChannelState.abortSent_matter.mpr (Or.inr (Or.inl hpc))
    | _ => rcases ht with ht | ht <;> cases ht
  | written expected ret hpc hret =>
    change (if ret = .ok then MatterPc.waitSize expected else .idle (some (.write (-1)))) = _ ∨
      (if ret = .ok then MatterPc.waitSize expected else .idle (some (.write (-1)))) = _ at ht
    split at ht <;> rcases ht with ht | ht <;> cases ht
  | aborting hpc hret =>
    exact ChannelState.abortSent_matter.mpr (Or.inl ⟨hpc, returned_pastSend hret⟩)
  | _ => rcases ht with ht | ht <;> cases ht

/-- An abort comes behind its sending in the core. -/
theorem ChannelState.abortSent_back (hstep : channelStep sdk s l = some t)
    (ht : t.abortSent channel = true) :
    s.abortSent channel = true ∨ s.aborts channel ∧ ∃ label, l = .core channel.client label := by
  have hpast : t.aborts channel → (t.core.pcs channel.client).pastSend = true →
      (s.aborts channel ∧ (s.core.pcs channel.client).pastSend = true) ∨
        s.aborts channel ∧ ∃ label, l = .core channel.client label := by
    intro haborts hp
    have hcall : ∀ call, t.core.pcs channel.client ≠ .params call := by
      intro call hcall
      rw [hcall] at hp
      cases hp
    have hback := ChannelState.aborts_back hstep haborts hcall
    by_cases hl : ∃ label, l = .core channel.client label
    · exact Or.inr ⟨hback, hl⟩
    · rcases (channelStep_stepped hstep).points channel.client fun label he =>
        hl ⟨label, he⟩ with hsame | ⟨call,hpc⟩
      · exact Or.inl ⟨hback, hsame ▸ hp⟩
      · exact absurd hpc (hcall call)
  cases channel with
  | http =>
    rcases ChannelState.abortSent_http.mp ht with ⟨error,hpc,hp⟩ | ⟨error,hpc⟩
    · refine (hpast ⟨error, hpc⟩ hp).imp_left fun ⟨⟨error',hpc'⟩,hp'⟩ => ?_
      exact ChannelState.abortSent_http.mpr (Or.inl ⟨error', hpc', hp'⟩)
    · have hsame : t.http = s.http → s.abortSent .http = true := fun hhttp =>
        ChannelState.abortSent_http.mpr (Or.inr ⟨error, hhttp ▸ hpc⟩)
      refine Or.inl ?_
      cases l with
      | core i label => exact hsame (coreStep_move hstep).channels.1
      | callback k => exact hsame (callbackStep_move hstep).channels.1
      | http event => exact (httpStep_move hstep).abortWaits hpc
      | matter event => exact hsame (matterStep_move hstep).http
  | matter =>
    rcases ChannelState.abortSent_matter.mp ht with ⟨hpc,hp⟩ | hpc
    · refine (hpast hpc hp).imp_left fun ⟨hpc',hp'⟩ => ?_
      exact ChannelState.abortSent_matter.mpr (Or.inl ⟨hpc', hp'⟩)
    · have hsame : t.matter = s.matter → s.abortSent .matter = true := fun hmatter =>
        ChannelState.abortSent_matter.mpr (Or.inr (hmatter ▸ hpc))
      refine Or.inl ?_
      cases l with
      | core i label => exact hsame (coreStep_move hstep).channels.2.1
      | callback k => exact hsame (callbackStep_move hstep).channels.2.1
      | http event => exact hsame (httpStep_move hstep).matter
      | matter event => exact (matterStep_move hstep).abortWaits hpc

/-- In the core an abort is sent, or it fails. -/
theorem OtaMove.abortSends {p q : OtaPc} {x y : OtaSystem G} (h : OtaMove sdk i p x q y)
    (hasks : p.asks = some .abort)
    (hcounts : ∀ request len, p = .count request len → request ≠ .abort) (hp : p.pastSend = false)
    (hq : q.pastSend = true) :
    (∃ ret, ret ≠ .ok ∧ (q = .unlock .abort ret ∨ q = .idle (some ret))) ∨
      ∃ event events, p = .send .abort event ∧ y.eventQueue = some (events ++ [event]) := by
  cases h with
  | pc hpc =>
    cases hpc with
    | refuse call ret hret =>
      cases hasks
      cases hret
    | noMutex request => exact Or.inl ⟨.errState, nofun, Or.inr rfl⟩
    | check request =>
      obtain rfl := OtaRequest.of_abort hasks
      unfold otaCheck at hq ⊢
      dsimp only at hq ⊢
      split at hq
      case isTrue hno =>
        rw [if_pos hno]
        exact Or.inl ⟨.errState, nofun, Or.inl rfl⟩
      case isFalse => cases hq
    | sendFailed request event ret hne =>
      obtain rfl := OtaRequest.of_abort hasks
      exact Or.inl ⟨ret, hne, Or.inl rfl⟩
    | «return» next => cases hasks
    | invoke => cases hp
    | first | request | wait => cases hq
    | _ => cases hasks
  | sent request event hqueue =>
    obtain rfl := OtaRequest.of_abort hasks
    exact Or.inr ⟨event, _, rfl, rfl⟩
  | count x request len => exact absurd (OtaRequest.of_abort hasks) (hcounts request len rfl)
  | prepare x config sizeKnown => cases hasks
  | data event bytes results _ _ hd => cases hasks
  | taken => cases hq
  | given => cases hp
  | _ => cases hasks

/-- The task is at the end of its session with an abort. -/
theorem otaNext_handles_abort {x : OtaSystem G} {r : OtaPc × OtaSystem G}
    (h : otaNext sdk i (.handle event) x label = some r)
    (hid : event.id = .abort) : r.1 = .callback .exit := by
  cases label with
  | proceed success =>
    simp only [otaNext, hid, Option.some.injEq] at h
    rw [← h]
    rfl
  | process bytes results => simp only [otaNext, hid, reduceCtorEq, false_and, if_false] at h
  | _ => cases h

theorem ChannelFacts.starting_unsent (hf : ChannelFacts s)
    (hp : (s.core.pcs channel.client).starting = true) :
    s.abortSent channel = false := by
  cases channel with
  | http => simp only [ChannelState.abortSent, hf.calls.http_starting hp]
  | matter => simp only [ChannelState.abortSent, hf.calls.matter_starting hp]

/-- The channel's abort has just been sent, or it has failed. -/
theorem ChunksLent.sent_step (hf : LentFacts s) (haborts : s.aborts channel)
    (hunsent : s.abortSent channel = false)
    (hrefused : ∀ ret, t.aborts channel → t.core.pcs channel.client = .unlock .abort ret ∨
      t.core.pcs channel.client = .idle (some ret) → ret ≠ .ok → NoChunk t.core)
    (hstep : channelStep sdk s (.core channel.client label) = some t) (hr : t.runs channel)
    (hsent : t.abortSent channel = true) :
    NoChunk t.core ∨ ∃ event ∈ pendingEvents t.core, event.id = .abort := by
  have haborts' := haborts.core hstep
  obtain ⟨hcore,hidle⟩ := coreStep_core hstep
  obtain ⟨⟨q,y⟩,hr',hmove⟩ := step_some hcore
  obtain ⟨call,hasks⟩ := hf.channels.core.client_asks hcore hidle
  obtain rfl := hf.channels.aborts_call haborts hasks
  rw [haborts'.sent, hmove, Config.move_self] at hsent
  rw [haborts.sent] at hunsent
  rcases (otaNext_move hr').abortSends hasks (hf.counts _) hunsent
    hsent with ⟨ret,hne,hq⟩ | ⟨event,events,hp,hqueue⟩
  · exact Or.inl (hrefused ret haborts' (by rwa [hmove, Config.move_self]) hne)
  · obtain ⟨k,hk⟩ := Option.ne_none_iff_exists'.mp hr.1
    obtain ⟨x,rfl⟩ := hf.sends _ _ _ hp
    refine Or.inr ⟨otaEvent channel.client x .abort, ?_, rfl⟩
    rw [pendingEvents_running hk, hmove, Config.move_shared, hqueue]
    exact List.mem_append_right _ (List.mem_append_right _ (List.mem_singleton_self _))

/-- Behind the sending of an abort, the abort is pending or no chunk is left. -/
theorem ChunksLent.aborted_step (h : ChunksLent s) (hf : LentFacts s)
    (hended : ∀ k, t.core.shared.taskHandle = some k → (t.core.pcs (.task k)).ending = true →
      NoChunk t.core)
    (hrefused : ∀ ret, t.aborts channel → t.core.pcs channel.client = .unlock .abort ret ∨
      t.core.pcs channel.client = .idle (some ret) → ret ≠ .ok → NoChunk t.core)
    (hstep : channelStep sdk s l = some t) (hr : t.runs channel)
    (hsent : t.abortSent channel = true) :
    NoChunk t.core ∨ ∃ event ∈ pendingEvents t.core, event.id = .abort := by
  rcases hf.channels.runs_back hstep hr with hruns | ⟨hp,label,rfl⟩
  · obtain ⟨k,hk⟩ := Option.ne_none_iff_exists'.mp hruns.1
    have htk := (hf.channels.session_kept hstep hruns.1 hr.1).1.trans hk
    by_cases hback : s.abortSent channel = true
    · rcases h.aborted channel hruns hback with hnone | ⟨abort,hmem,hid⟩
      · refine Or.inl fun event he => ?_
        rcases he.stepped hstep with hold | ⟨i,_,_,_,_,-,hp,-⟩
        · exact hnone event hold
        · -- Only the channel itself could write.
          obtain ⟨other,rfl,hw,-⟩ := hf.channels.writer hf.apart (i := i) (by rw [hp]; rfl)
          obtain rfl := hruns.same (hf.apart.runs hw.uses hruns.1)
          rw [ChannelState.writable_unsent hw.writable] at hback
          cases hback
      · rcases hf.channels.pending_stepped hstep hk
          hr.1 with hsame | ⟨first,label,rfl,hp,hpend⟩ | ⟨_,_,_,_,-,-,-,hpend⟩
        · exact Or.inr ⟨abort, hsame ▸ hmem, hid⟩
        · rw [hpend] at hmem
          rcases List.mem_cons.mp hmem with rfl | hrest
          · obtain ⟨r,hr',hmove⟩ := step_some (coreStep_core hstep).1
            dsimp only at hr'
            rw [hp] at hr'
            refine Or.inl (hended k htk ?_)
            rw [hmove, Config.move_self, otaNext_handles_abort hr' hid]
            rfl
          · exact Or.inr ⟨abort, hrest, hid⟩
        · exact Or.inr ⟨abort, hpend ▸ List.mem_append_left _ hmem, hid⟩
    · rcases ChannelState.abortSent_back hstep hsent with hback' | ⟨haborts,label,rfl⟩
      · exact absurd hback' hback
      · exact ChunksLent.sent_step hf haborts (eq_false_of_ne_true hback) hrefused hstep hr hsent
  · rcases ChannelState.abortSent_back hstep hsent with hback | ⟨haborts,-⟩
    · rw [hf.channels.starting_unsent hp] at hback
      cases hback
    · obtain ⟨config,hasks⟩ := OtaPc.starting_asks hp
      cases hf.channels.aborts_call haborts hasks

/-- An abort that Matter calls with its chunk about is behind a report. -/
theorem matterStep_callAbort {event : MatterEvent} {ret : Option MatterReturn}
    (h : matterStep sdk s event = some t)
    (hpc : s.matter = .idle ret) (ht : t.matter = .abortCheck) (hlends : s.matter.lends = true)
    (hok : matterWaits s event = true) : (s.mirror .matter).state ≠ .idle ∧
      t.mirror = s.mirror := by
  rw [hpc] at hlends
  match ret, hlends with
  | some (.write value), hlends =>
    cases event with
    | callAbort =>
      simp only [matterStep, hpc] at h
      cases h
      simp only [matterWaits, hpc, Bool.or_eq_true, decide_eq_true_eq] at hok
      exact ⟨hok.resolve_left (of_decide_eq_true hlends), rfl⟩
    | callStart imageSize =>
      simp only [matterStep, hpc] at h
      split at h <;> cases h <;> cases ht
    | callWrite offset len =>
      simp only [matterStep, hpc] at h
      cases h
      cases ht
    | _ => simp only [matterStep, hpc, reduceCtorEq] at h

theorem MatterMove.abortCheck (h : MatterMove sdk s t) (ht : t.matter = .abortCheck) :
    ∃ ret, s.matter = .idle ret := by
  cases h with
  | reset pc f hr =>
    generalize s.matter = old at hr
    cases hr <;> cases ht
  | look pc hl =>
    generalize s.matter = old at hl
    cases hl with
    | callAbort ret => exact ⟨ret, rfl⟩
    | _ => cases ht
  | written expected ret hpc hret =>
    change (if ret = .ok then MatterPc.waitSize expected else .idle (some (.write (-1)))) = _ at ht
    split at ht <;> cases ht
  | _ => cases ht

theorem ChunksLent.reported_step (h : ChunksLent s) (hf : LentFacts s) (hok : waitsForChunks s l)
    (hstep : channelStep sdk s l = some t) (he : ChunkAbout t.core event) (hr : t.runs .matter)
    (hpc : t.matter = .abortCheck) : (t.mirror .matter).state ≠ .idle := by
  have hsame : t.matter = s.matter → s.runs .matter ∧ ChunkAbout s.core event := by
    intro hmatter
    have hruns : s.runs .matter := by
      rcases hf.channels.runs_back hstep hr with hruns | ⟨hp,-⟩
      · exact hruns
      · rw [hmatter, hf.channels.calls.matter_starting hp] at hpc
        cases hpc
    refine ⟨hruns, ?_⟩
    rcases he.stepped hstep with hold | ⟨i,_,_,_,_,-,hp,-⟩
    · exact hold
    · obtain ⟨channel,rfl,hw,-⟩ := hf.channels.writer hf.apart (i := i) (by rw [hp]; rfl)
      obtain rfl := hruns.same (hf.apart.runs hw.uses hruns.1)
      rw [hmatter, hw.1] at hpc
      cases hpc
  cases l with
  | core i label =>
    have hmatter := (coreStep_move hstep).channels.2.1
    obtain ⟨hruns,hold⟩ := hsame hmatter
    rw [(coreStep_move hstep).mirror]
    exact h.reported event hold hruns (hmatter ▸ hpc)
  | callback k =>
    have hmove := callbackStep_move hstep
    obtain ⟨hruns,hold⟩ := hsame hmove.channels.2.1
    rcases hmove.mirror_state .matter with ⟨hsame,-⟩ | ⟨state,data,hstore,hstored⟩ | ⟨-,hfailed⟩
    · rw [hsame]
      exact h.reported event hold hruns (hmove.channels.2.1 ▸ hpc)
    · rw [hstored]
      exact (hf.channels.reports k).begun .matter state (by rw [hstore]; rfl)
    · rw [hfailed]
      nofun
  | http event' =>
    have hmove := httpStep_move hstep
    obtain ⟨hruns,hold⟩ := hsame hmove.matter
    rw [hmove.mirror_matter]
    exact h.reported event hold hruns (hmove.matter ▸ hpc)
  | matter event' =>
    have hmove := matterStep_move hstep
    obtain ⟨ret,hidle⟩ := hmove.abortCheck hpc
    obtain ⟨hshared,-⟩ := (hmove.stepped event').shared nofun
    have hruns : s.runs .matter := ⟨hshared ▸ hr.1, hshared ▸ hr.2⟩
    rcases he.stepped hstep with hold | ⟨_,_,_,_,_,hl,-⟩
    · obtain ⟨channel,hruns',-,hlent⟩ := h.lent event hold
      obtain rfl := hruns.same hruns'
      obtain ⟨hreported,hmirror⟩ := matterStep_callAbort hstep hidle hpc hlent.lends hok.2
      rwa [hmirror]
    · cases hl

theorem channelBoot_lent (flash : Flash) : ChunksLent (channelBoot G flash) := by
  have hnone : NoChunk (channelBoot G flash).core := by
    rintro event ⟨⟨events,hq,-⟩ | ⟨i,hi⟩,-⟩
    · cases hq
    · cases i <;> cases hi
  have hidle : ∀ channel, ¬(channelBoot G flash).runs channel := fun channel hr => hr.1 rfl
  exact
    { lent := fun event he => absurd he (hnone event)
      single := fun event other he => absurd he (hnone event)
      order := .nil
      unaborted := fun channel hr => absurd hr (hidle channel)
      shownOver := fun channel hr => absurd hr (hidle channel)
      ended := fun k hx => by cases hx
      starting := fun channel hp => by cases channel <;> cases hp
      refused := fun channel ret _ _ _ => hnone
      aborted := fun channel hr => absurd hr (hidle channel)
      reported := fun event he => absurd he (hnone event) }

theorem reach_chunksLent (h : Reach (channelStep sdk) waitsForChunks (channelBoot G flash) s) :
    ChunksLent s := by
  refine @Reach.invariant_along _ _ _ _ _ ChunksLent LentFacts (fun s hs => reach_lentFacts hs)
    (channelBoot_lent flash) ?_ s h
  intro s l t hf hft hs hok hstep
  have hended : ∀ k, t.core.shared.taskHandle = some k → (t.core.pcs (.task k)).ending = true →
      NoChunk t.core :=
    fun k hx hend => hs.ended_step hf hft hok hstep hx hend
  have hrefused : ∀ channel ret, t.aborts channel → t.core.pcs channel.client = .unlock .abort ret ∨
      t.core.pcs channel.client = .idle (some ret) → ret ≠ .ok → NoChunk t.core :=
    fun channel ret ha hq hret => hs.refused_step hf hft hstep ha hq hret
  exact
    { lent := fun event he => hs.lent_step hf hft hok hstep he
      single := fun event other he ho => hs.single_step hf hstep he ho
      order := hs.order_step hf hft hstep
      unaborted := fun channel hr hw event he => hs.unaborted_step hf hft hstep hr hw he
      shownOver := fun channel hr hover => hs.shownOver_step hf hstep hr hover
      ended := hended
      starting := fun channel hp => hs.starting_step hf hok hstep hp
      refused := hrefused
      aborted := fun channel hr hsent => hs.aborted_step hf hended (hrefused channel) hstep hr hsent
      reported := fun event he hr hpc => hs.reported_step hf hok hstep he hr hpc }

/-- The points at which an upload rewrites its buffers, or has returned and lets go of them. -/
def HttpPc.rewrites : HttpPc → Bool
  | .idle _ | .header | .receive _ _ => true
  | _ => false

/-- A write that has failed is still followed by the abort. -/
def MatterPc.rewrites : MatterPc → Bool
  | .idle (some (.write ret)) => ret = 0
  | .idle _ => true
  | _ => false

def ChannelState.rewrites (s : ChannelState G) : Channel → Bool
  | .http => s.http.pc.rewrites
  | .matter => s.matter.rewrites

theorem ChannelState.rewrites_not_lends (h : s.rewrites channel = true) :
    s.lends channel = false := by
  cases channel with
  | http =>
    have h : s.http.pc.rewrites = true := h
    show s.http.pc.lends = false
    generalize s.http.pc = pc at h
    cases pc with
    | writing | waitSize | waitState | failed | abortCheck | abort | aborting | abortWait => cases h
    | _ => rfl
  | matter =>
    have h : s.matter.rewrites = true := h
    show s.matter.lends = false
    generalize s.matter = pc at h
    cases pc with
    | idle ret =>
      match ret, h with
      | none, _ => rfl
      | some (.start _), _ => rfl
      | some (.abort _), _ => rfl
      | some (.write ret), h => exact decide_eq_false (not_not.mpr (of_decide_eq_true h))
    | _ => cases h

/-- The channels have no buffer in common. -/
theorem buffers_apart {other : Channel} {pointer : ℕ} (h : pointer ∈ other.buffers)
    (h' : pointer ∈ channel.buffers) : other = channel := by
  have hdisjoint : ∀ pointer ∈ Channel.http.buffers, pointer ∉ Channel.matter.buffers := by decide
  cases other <;> cases channel
  · rfl
  · exact absurd h' (hdisjoint pointer h)
  · exact absurd h (hdisjoint pointer h')
  · rfl

/-- No chunk in the buffers of a channel is queued or in the task's hand where the channel rewrites
them or has let go of them. -/
theorem lent_buffers_returned (h : Reach (channelStep sdk) waitsForChunks (channelBoot G flash) s)
    (hback : s.rewrites channel = true) (he : ChunkAbout s.core event) :
    event.data ∉ channel.buffers := by
  obtain ⟨other,-,hdata,hl⟩ := (reach_chunksLent h).lent event he
  intro hmem
  obtain rfl := buffers_apart hdata hmem
  have hlends := hl.lends
  rw [ChannelState.rewrites_not_lends hback] at hlends
  cases hlends

def uploadWaits : List ChannelLabel :=
  .http (.request (uploadHead ++ bytePackage.take 50)) :: httpSteps 5 ++
    coreSteps Channel.http.client 10 ++ httpSteps 1
    ++ coreSteps (.task 0) 1 ++ httpSteps 1 ++ coreSteps Channel.http.client 7 ++
      coreSteps (.task 0) 1 ++ httpSteps 1
    ++ .http .timeout :: httpSteps 3 ++ coreSteps Channel.http.client 6 ++ httpSteps 1

/-- The task comes to the abort, whose wait runs out then. Behind the teardown Matter writes. -/
def matterFollows : List ChannelLabel :=
  .core (.task 0) (.process (bytePackage.take 50) []) :: callbackSteps 0 4 ++ coreSteps (.task 0) 2
    ++ .http .timeout :: coreSteps (.task 0) 1 ++ callbackSteps 0 4 ++ coreSteps (.task 0) 5
    ++ .matter (.callStart 101) :: matterSteps 4 ++ coreSteps Channel.matter.client 9 ++
      matterSteps 1
    ++ coreSteps (.task 1) 1 ++ .matter (.callWrite 0 101) :: matterSteps 1 ++
      coreSteps Channel.matter.client 7

theorem lent_buffers_returned_upload :
    ∃ s t event, execWithin (channelStep softSdk) waitsForChunks (channelBoot Unit blankFlash)
      uploadWaits = some s ∧ s.http.pc = .abortWait .none
      ∧ s.core.pcs (.task 0) = .handle ⟨.imageData, 0, httpHeaderBuffer, 50, Channel.http.client, 1,
        .receiving⟩
      ∧ execWithin (channelStep softSdk) waitsForChunks s matterFollows = some t
      ∧ t.http.pc = .idle (some (.failed .none)) ∧ ChunkAbout t.core event ∧
        event.data ∉ Channel.http.buffers := by
  have hrun : (execWithin (channelStep softSdk) waitsForChunks (channelBoot Unit blankFlash)
      uploadWaits).bind (fun s =>
      (execWithin (channelStep softSdk) waitsForChunks s matterFollows).map (fun t =>
        decide (s.http.pc = .abortWait .none ∧ s.core.pcs (.task 0) =
            .handle ⟨.imageData, 0, httpHeaderBuffer, 50, Channel.http.client, 1, .receiving⟩ ∧
          t.http.pc = .idle (some (.failed .none)) ∧ t.core.shared.eventQueue =
            some [⟨.imageData, 0, matterBlock, 101, Channel.matter.client, 2, .receiving⟩]))) =
              some true := by
    decide +kernel
  obtain ⟨s,hs,ht⟩ := Option.bind_eq_some_iff.mp hrun
  obtain ⟨t,ht,hview⟩ := Option.map_eq_some_iff.mp ht
  obtain ⟨hwait,hp,hpc,hqueue⟩ := of_decide_eq_true hview
  have he : ChunkAbout t.core ⟨.imageData, 0, matterBlock, 101, Channel.matter.client, 2,
      .receiving⟩ :=
    ⟨Or.inl ⟨_, hqueue, List.mem_cons_self⟩, rfl⟩
  have hback : t.rewrites .http = true := by
    simp only [ChannelState.rewrites, hpc, HttpPc.rewrites]
  exact ⟨s, t, _, hs, hwait, hp, ht, hpc, he,
    lent_buffers_returned (Reach.execWithin (Reach.execWithin .init hs) ht) hback he⟩

/-- The write of an upload is given up while the task is in the chunk, and so is its abort. -/
def uploadGivenUp : List ChannelLabel :=
  httpStarts ++ .http (.recv bytePackage) :: httpSteps 1 ++ coreSteps Channel.http.client 7 ++
    coreSteps (.task 0) 1 ++ httpSteps 1 ++ .http .timeout :: httpSteps 3 ++
    coreSteps Channel.http.client 6 ++ httpSteps 1 ++ [.http .timeout]

/-- The upload has returned, and the task still handles the chunk in its buffer. -/
theorem lent_buffer_not_returned :
    ¬ ∀ s channel event, Reach (channelStep softSdk) anyStep (channelBoot Unit blankFlash) s →
    s.rewrites channel = true → ChunkAbout s.core event → event.data ∉ channel.buffers := by
  intro h
  have hrun : (exec (channelStep softSdk) (channelBoot Unit blankFlash) uploadGivenUp).map
      (fun s => decide (s.core.pcs (.task 0) =
          .handle ⟨.imageData, 0, httpDataBuffer, 101, Channel.http.client, 1, .receiving⟩
        ∧ s.rewrites .http = true)) = some true := by
    decide +kernel
  obtain ⟨s,hs,hview⟩ := Option.map_eq_some_iff.mp hrun
  obtain ⟨hp,hback⟩ := of_decide_eq_true hview
  have he : ChunkAbout s.core ⟨.imageData, 0, httpDataBuffer, 101, Channel.http.client, 1,
      .receiving⟩ :=
    ⟨Or.inr ⟨.task 0, by rw [hp]; rfl⟩, rfl⟩
  exact h s .http _ (reach_of_exec hs) hback he (List.mem_cons_of_mem _ List.mem_cons_self)

end Sonoff.Ota
