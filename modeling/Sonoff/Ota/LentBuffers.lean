import Sonoff.Ota.LentChunks

/-! # Lent buffers are given back

The channels infer from their mirrors that the core has let go of a buffer. That holds as long as
an abort that is given up has at least been taken from the queue, and no session ends on a timeout
while a chunk is about.
-/
namespace Sonoff.Ota
open Bytes AesGcm NorFlash OtaParse Threads Machine

variable {G : Type} {sdk : Sdk G} {s t : ChannelState G} {i : ThreadId} {k : ℕ} {flash : Flash}
  {label : OtaLabel} {l : ChannelLabel} {channel : Channel} {event : SnfOtaEvent}

def Channel.over : Channel → SnfOtaState → Bool
  | .http, state => !snfOtaStateIsActive state
  | .matter, state => snfOtaStateIsFailed state

def ChannelState.sendsChunk (s : ChannelState G) (channel : Channel) : Bool :=
  match s.core.pcs channel.client with
  | .send _ event => event.id = .imageData
  | _ => false

def ChannelState.chunkPending (s : ChannelState G) : Bool :=
  (pendingEvents s.core).any (fun event => event.id = .imageData) || s.sendsChunk .http ||
  s.sendsChunk .matter

/-- A start that finds no task finds its mirror as its channel has reset it, and a session gives up
waiting for data only with no chunk about. -/
def keepsChunks (s : ChannelState G) (i : ThreadId) : Bool :=
  match s.core.pcs i with
  | .check (.start _) =>
    (startsEmpty s .http i && startsEmpty s .matter i) && (s.core.shared.taskHandle ≠ none ||
      ((i ≠ Channel.http.client || !Channel.http.over (s.mirror .http).state) &&
        (i ≠ Channel.matter.client || !Channel.matter.over (s.mirror .matter).state)))
  | .timeout =>
    s.core.shared.core.info.state ≠ .receiving ||
      s.core.shared.core.info.timeoutCount + 1 < snfOtaMaxTimeoutCount
      || !s.chunkPending
  | _ => true

/-- The task has yet to take an abort from the queue. -/
def ChannelState.abortQueued (s : ChannelState G) : Bool :=
  (s.core.shared.eventQueue.getD []).any fun event => event.id = .abort

/-- A wait for an abort is given up only when the task has come to the abort. -/
def httpWaits (s : ChannelState G) (event : HttpEvent) : Bool :=
  match s.http.pc, event with
  | .abortWait _, .timeout => !s.abortQueued
  | _, _ => true

/-- After a write that has failed Matter aborts, and not before the session's first report. -/
def matterWaits (s : ChannelState G) (event : MatterEvent) : Bool :=
  match s.matter, event with
  | .abortWait, .timeout => !s.abortQueued
  | .idle (some (.write ret)), .callAbort => ret = 0 || (s.mirror .matter).state ≠ .idle
  | .idle (some (.write ret)), .callStart _ => ret = 0
  | .idle (some (.write ret)), .callWrite _ _ => ret = 0
  | _, _ => true

def waitsForChunks (s : ChannelState G) (l : ChannelLabel) : Prop :=
  startsApart s l ∧
    match l with
    | .core i _ => keepsChunks s i = true
    | .callback _ => True
    | .http event => httpWaits s event = true
    | .matter event => matterWaits s event = true

instance (s : ChannelState G) : (l : ChannelLabel) → Decidable (waitsForChunks s l)
  | .core i label =>
    inferInstanceAs (Decidable (startsApart s (.core i label) ∧ keepsChunks s i = true))
  | .callback k => inferInstanceAs (Decidable (startsApart s (.callback k) ∧ True))
  | .http event =>
    inferInstanceAs (Decidable (startsApart s (.http event) ∧ httpWaits s event = true))
  | .matter event =>
    inferInstanceAs (Decidable (startsApart s (.matter event) ∧ matterWaits s event = true))

theorem waitsForChunks.empty (h : waitsForChunks s (.core i label)) (channel : Channel) :
    startsEmpty s channel i = true := by
  have h := h.2
  unfold startsEmpty
  split
  case h_1 config hp =>
    simp only [keepsChunks, hp, Bool.and_eq_true, startsEmpty] at h
    cases channel
    · exact h.1.1
    · exact h.1.2
  · rfl

/-- An abort of Matter that goes on has seen its session. -/
theorem reach_abortsSeen {ok : ChannelState G → ChannelLabel → Prop}
    (hok : ∀ s l, ok s l → keepsOneMutex s l)
    (h : Reach (channelStep sdk) ok (channelBoot G flash) s) :
    s.matter.aborts = true → (s.mirror .matter).state ≠ .idle := by
  refine @Reach.invariant_of _ _ _ _ _ (fun s => s.matter.aborts = true →
    (s.mirror .matter).state ≠ .idle) CallbackReports
    (fun s hs => reach_callbackReports hok hs) nofun ?_ s h
  intro s l t hreports hs _ hstep ht
  cases l with
  | core i label =>
    rw [(coreStep_move hstep).mirror]
    exact hs ((coreStep_move hstep).channels.2.1 ▸ ht)
  | callback k =>
    have hmove := callbackStep_move hstep
    rw [hmove.channels.2.1] at ht
    rcases hmove.mirror_state .matter with ⟨hsame,-⟩ | ⟨state,data,hpc,hstored⟩ | ⟨-,hfailed⟩
    · rw [hsame]
      exact hs ht
    · rw [hstored]
      exact (hreports k).begun .matter state (by rw [hpc]; rfl)
    · rw [hfailed]
      nofun
  | http event =>
    have hmove := httpStep_move hstep
    rw [hmove.mirror_matter]
    exact hs (hmove.matter ▸ ht)
  | matter event =>
    rcases (matterStep_move hstep).mirror_state with ⟨hsame,hback⟩ | ⟨-,hno,-⟩ | ⟨hsame,hactive⟩
    · rw [hsame]
      exact hs (hback ht)
    · rw [ht] at hno
      cases hno
    · rw [hsame]
      intro hidle
      rw [hidle] at hactive
      cases hactive

structure LentFacts (s : ChannelState G) : Prop where
  channels : ChannelFacts s
  apart : ChannelsApart s
  behind : ∀ channel, MirrorBehind s channel
  sends : SendsOwn s.core
  counts : CountsWrites s.core
  points : PointsIntoBuffers s
  seen : s.matter.aborts = true → (s.mirror .matter).state ≠ .idle

theorem waitsForChunks.mutex (s : ChannelState G) (l : ChannelLabel) (h : waitsForChunks s l) :
    keepsOneMutex s l :=
  startsApart.mutex s l h.1

theorem reach_lentFacts (h : Reach (channelStep sdk) waitsForChunks (channelBoot G flash) s) :
    LentFacts s where
  channels := reach_channelFacts waitsForChunks.mutex h
  apart := reach_apart (h.mono fun _ _ hl => hl.1)
  behind channel := reach_behind waitsForChunks.mutex (fun _ _ _ hl => hl.empty channel) h
  sends := reach_sendsOwn (reach_core waitsForChunks.mutex h)
  counts := reach_countsWrites (reach_core waitsForChunks.mutex h)
  points := reach_points h
  seen := reach_abortsSeen waitsForChunks.mutex h

structure ChunksLent (s : ChannelState G) : Prop where
  lent : ∀ event, ChunkAbout s.core event → ∃ channel, s.runs channel ∧ event.data ∈ channel.buffers
    ∧ s.lentFor event channel
  single : ∀ event other, ChunkAbout s.core event → ChunkAbout s.core other → event = other
  order : (pendingEvents s.core).Pairwise fun first second => first.id = .abort →
    second.id ≠ .imageData
  unaborted : ∀ channel, s.runs channel → s.writable channel = true →
    ∀ event ∈ pendingEvents s.core, event.id ≠ .abort
  shownOver : ∀ channel, s.runs channel → channel.over (s.mirror channel).state = true →
    NoChunk s.core ∧ s.core.shared.core.info.state ≠ .receiving
  ended : ∀ k, s.core.shared.taskHandle = some k → (s.core.pcs (.task k)).ending = true →
    NoChunk s.core
  starting : ∀ channel : Channel, (s.core.pcs channel.client).starting = true →
    channel.over (s.mirror channel).state = false
  refused : ∀ channel ret, s.aborts channel →
    s.core.pcs channel.client = .unlock .abort ret ∨ s.core.pcs channel.client = .idle (some ret) →
      ret ≠ .ok → NoChunk s.core
  aborted : ∀ channel, s.runs channel → s.abortSent channel = true →
    NoChunk s.core ∨ ∃ event ∈ pendingEvents s.core, event.id = .abort
  reported : ∀ event, ChunkAbout s.core event → s.runs .matter → s.matter = .abortCheck →
    (s.mirror .matter).state ≠ .idle

/-- While a chunk is about, its session is active. -/
theorem ChunksLent.active (h : ChunksLent s) (hf : LentFacts s) (he : ChunkAbout s.core event) :
    snfOtaStateIsActive s.core.shared.core.info.state = true := by
  obtain ⟨k,hx⟩ := Option.ne_none_iff_exists'.mp (hf.channels.core.events_running he.1)
  refine hf.channels.core.accounting.active k hx ?_
  by_contra hend
  exact h.ended k hx (eq_true_of_ne_false hend) event he

/-- What the channel waits for its mirror has yet to show. -/
theorem ChunksLent.unreceived (h : ChunksLent s) (hf : LentFacts s) (he : ChunkAbout s.core event)
    (hr : s.runs channel) : (s.mirror channel).receivedSize < u32Add event.offset event.size := by
  have hbounds := hf.channels.core.chunk_bounds he (h.active hf he)
  have htotal := hf.channels.core.accounting.total
  have := (hf.behind channel).behind hr
  rw [u32Add_eq (by omega)]
  omega

theorem ChunksLent.not_over (h : ChunksLent s) (he : ChunkAbout s.core event)
    (hr : s.runs channel) : channel.over (s.mirror channel).state = false := by
  by_contra hover
  exact (h.shownOver channel hr (eq_true_of_ne_false hover)).1 event he

theorem ChunksLent.not_refused {ret : SnfOtaRet} (h : ChunksLent s) (he : ChunkAbout s.core event)
    (ha : s.aborts channel) (hret : s.returned channel.client = some ret) : ret = .ok := by
  by_contra hne
  exact h.refused channel ret ha (Or.inr (asks_of_returned hret)) hne event he

/-- A chunk that is about to be sent is that of a channel's write. -/
theorem LentFacts.chunk_sender {request : OtaRequest} (hf : LentFacts s)
    (hp : s.core.pcs i = .send request event)
    (hid : event.id = .imageData) : ∃ channel : Channel, ∃ expected, i = channel.client ∧
      s.writes expected channel := by
  obtain ⟨x,rfl⟩ := hf.sends i request event hp
  cases request with
  | write offset data len =>
    obtain ⟨channel,hi,hw,-⟩ := hf.channels.writer hf.apart (i := i) (by rw [hp]; rfl)
    exact ⟨channel, _, hi, hw⟩
  | _ => cases hid

theorem LentFacts.abort_sender {request : OtaRequest} (hf : LentFacts s)
    (hp : s.core.pcs i = .send request event)
    (hid : event.id = .abort) : ∃ channel : Channel, i = channel.client ∧ s.aborts channel ∧
      request = .abort := by
  have hasserted := hf.channels.core.asserted i
  rw [hp] at hasserted
  obtain ⟨x,rfl⟩ := hf.sends i request event hp
  cases request with
  | start config => cases hasserted.2
  | abort =>
    obtain ⟨channel,hi,ha⟩ := hf.channels.aborter (i := i) (by rw [hp]; rfl)
    exact ⟨channel, hi, ha, rfl⟩
  | _ => cases hid

theorem LentFacts.chunkPending (hf : LentFacts s) (he : ChunkAbout s.core event) :
    s.chunkPending = true := by
  obtain ⟨habout,hid⟩ := he
  unfold ChannelState.chunkPending
  rcases hf.channels.core.about_cases habout with hmem | ⟨i,request,hp⟩
  · have hany : (pendingEvents s.core).any (fun event => event.id = .imageData) = true :=
      List.any_eq_true.mpr ⟨event, hmem, decide_eq_true hid⟩
    rw [hany, Bool.true_or, Bool.true_or]
  · obtain ⟨channel,expected,rfl,-⟩ := hf.chunk_sender hp hid
    have hsends : s.sendsChunk channel = true := by
      simp only [ChannelState.sendsChunk, hp, hid, decide_true]
    cases channel
    · rw [hsends, Bool.or_true, Bool.true_or]
    · rw [hsends, Bool.or_true]

theorem ChannelState.aborts.core (ha : s.aborts channel)
    (hstep : channelStep sdk s (.core i label) = some t) :
    t.aborts channel := by
  obtain ⟨hhttp,hmatter,-⟩ := (coreStep_move hstep).channels
  cases channel
  · simpa only [ChannelState.aborts, hhttp] using ha
  · simpa only [ChannelState.aborts, hmatter] using ha

/-- The steps of the core leave the chunk lent. -/
theorem ChannelState.lentFor.core (hl : s.lentFor event channel)
    (hstep : channelStep sdk s (.core i label) = some t) :
    t.lentFor event channel := by
  obtain ⟨hcore,hidle⟩ := coreStep_core hstep
  have hchannels := (coreStep_move hstep).channels
  cases channel with
  | http =>
    have hl : s.http.pc.lentFor (s.core.pcs Channel.http.client) event := hl
    show t.http.pc.lentFor (t.core.pcs Channel.http.client) event
    rw [hchannels.1]
    generalize s.http.pc = pc at hl
    cases pc with
    | writing expected => exact ⟨hl.1, pastCheck_step hcore hidle hl.2⟩
    | _ => exact hl
  | matter =>
    obtain ⟨hopen,hl⟩ := hl
    refine ⟨hchannels.2.2.trans hopen, ?_⟩
    rw [hchannels.2.1]
    generalize s.matter = pc at hl
    cases pc with
    | writing expected => exact ⟨hl.1, pastCheck_step hcore hidle hl.2⟩
    | _ => exact hl

/-- While a channel sends a chunk, no abort is pending. -/
theorem ChunksLent.sends_unaborted {request : OtaRequest} (h : ChunksLent s) (hf : LentFacts s)
    (hp : s.core.pcs i = .send request event) (hid : event.id = .imageData) :
    ∀ other ∈ pendingEvents s.core, other.id ≠ .abort := by
  obtain ⟨channel,expected,rfl,hw⟩ := hf.chunk_sender hp hid
  have hasserted := hf.channels.core.asserted channel.client
  rw [hp] at hasserted
  exact h.unaborted channel (hf.apart.runs hw.uses hasserted.1) hw.writable

/-- Behind an abort that is still to be taken lies the end of the session. -/
theorem ChunksLent.abort_queued (h : ChunksLent s) (hf : LentFacts s) (he : ChunkAbout s.core event)
    (hr : s.runs channel) (hsent : s.abortSent channel = true) : s.abortQueued = true := by
  obtain ⟨k,hk⟩ := Option.ne_none_iff_exists'.mp hr.1
  rcases h.aborted channel hr hsent with hnone | ⟨abort,hmem,hid⟩
  · exact absurd he (hnone event)
  · have horder := h.order
    rw [pendingEvents_running hk] at hmem horder
    rcases List.mem_append.mp hmem with hhand | hqueue
    · -- The task holds the abort, so no chunk lies behind it.
      have hin : (s.core.pcs (.task k)).inHand = [abort] := by
        generalize s.core.pcs (.task k) = pc at hhand
        cases pc with
        | handle first =>
          cases List.mem_singleton.mp hhand
          rfl
        | _ => cases hhand
      rw [hin] at horder
      rcases hf.channels.core.about_cases he.1 with hpend | ⟨i,request,hp⟩
      · rw [pendingEvents_running hk, hin] at hpend
        rcases List.mem_append.mp hpend with hfirst | hrest
        · cases List.mem_singleton.mp hfirst
          exact nomatch hid.symm.trans he.2
        · exact absurd he.2 ((List.pairwise_cons.mp horder).1 event hrest hid)
      · refine absurd hid (h.sends_unaborted hf hp he.2 abort ?_)
        rw [pendingEvents_running hk]
        exact hmem
    · exact List.any_eq_true.mpr ⟨abort, hqueue, decide_eq_true hid⟩

theorem httpStep_abortWait {event : HttpEvent} {error : SnfOtaErrorCode}
    (h : httpStep sdk s event = some t)
    (hpc : s.http.pc = .abortWait error)
    (hactive : snfOtaStateIsActive (s.mirror .http).state = true)
    (hok : httpWaits s event = true) (hqueued : s.abortQueued = true) :
    t.http.pc = .abortWait error := by
  cases event with
  | step =>
    simp only [httpStep, hpc, hactive, if_true] at h
    cases h
    rfl
  | timeout =>
    simp only [httpWaits, hpc, hqueued] at hok
    cases hok
  | _ => simp only [httpStep, hpc, reduceCtorEq] at h

theorem matterStep_abortWait {event : MatterEvent} (h : matterStep sdk s event = some t)
    (hpc : s.matter = .abortWait) (hactive : snfOtaStateIsActive (s.mirror .matter).state = true)
    (hok : matterWaits s event = true) (hqueued : s.abortQueued = true) :
    t.matter = .abortWait := by
  cases event with
  | step =>
    simp only [matterStep, hpc, hactive, if_true] at h
    cases h
    rfl
  | timeout =>
    simp only [matterWaits, hpc, hqueued] at hok
    cases hok
  | _ => simp only [matterStep, hpc, reduceCtorEq] at h

theorem matterStep_idle {event : MatterEvent} {ret : Option MatterReturn}
    (h : matterStep sdk s event = some t)
    (hpc : s.matter = .idle ret) (hlends : s.matter.lends = true)
    (hok : matterWaits s event = true) : t.matter = .abortCheck := by
  have hfailed : ∃ value : Int, ret = some (.write value) ∧ value ≠ 0 := by
    rw [hpc] at hlends
    match ret, hlends with
    | some (.write value), hlends => exact ⟨value, rfl, of_decide_eq_true hlends⟩
  obtain ⟨value,rfl,hne⟩ := hfailed
  cases event with
  | callAbort =>
    simp only [matterStep, hpc] at h
    cases h
    rfl
  | callStart imageSize =>
    simp only [matterWaits, hpc] at hok
    exact absurd (of_decide_eq_true hok) hne
  | callWrite offset len =>
    simp only [matterWaits, hpc] at hok
    exact absurd (of_decide_eq_true hok) hne
  | _ => simp only [matterStep, hpc, reduceCtorEq] at h

/-- While the chunk is about, every step leaves it lent. -/
theorem ChunksLent.keeps (h : ChunksLent s) (hf : LentFacts s) (hok : waitsForChunks s l)
    (hstep : channelStep sdk s l = some t) (he : ChunkAbout s.core event) (hr : s.runs channel)
    (hl : s.lentFor event channel) : t.lentFor event channel := by
  have hsize := h.unreceived hf he hr
  have hover := h.not_over he hr
  cases l with
  | core i label => exact hl.core hstep
  | callback k =>
    have hmove := callbackStep_move hstep
    obtain ⟨hhttp,hmatter,hopen⟩ := hmove.channels
    have hpcs := fun channel : Channel => hmove.pcs (Ne.symm (applyClient_ne_channel k channel))
    cases channel with
    | http =>
      show t.http.pc.lentFor (t.core.pcs _) event
      rw [hhttp, hpcs]
      exact hl
    | matter =>
      show t.matterOpen = true ∧ t.matter.lentFor (t.core.pcs _) event
      rw [hmatter, hopen, hpcs]
      exact hl
  | http event' =>
    have hmove := httpStep_move hstep
    cases channel with
    | http =>
      have hactive : snfOtaStateIsActive (s.mirror .http).state = true := by
        simpa only [Channel.over, Bool.not_eq_false'] using hover
      exact hmove.lentFor hl hsize hactive
        (fun error ret hpc hret => h.not_refused he (show s.aborts .http from ⟨error, hpc⟩) hret)
        (fun error hpc => httpStep_abortWait hstep hpc hactive hok.2
          (h.abort_queued hf he hr (by simp only [ChannelState.abortSent, hpc])))
    | matter =>
      show t.matterOpen = true ∧ t.matter.lentFor (t.core.pcs _) event
      rw [hmove.matterOpen, hmove.matter,
        hmove.pcs (show Channel.matter.client ≠ Channel.http.client by decide)]
      exact hl
  | matter event' =>
    have hmove := matterStep_move hstep
    cases channel with
    | http =>
      show t.http.pc.lentFor (t.core.pcs _) event
      rw [hmove.http, hmove.pcs (show Channel.http.client ≠ Channel.matter.client by decide)]
      exact hl
    | matter =>
      refine hmove.lentFor hl.1 hl.2 hsize hover (fun ret hpc hret =>
        h.not_refused he (show s.aborts .matter from hpc) hret)
        (fun ret hpc => matterStep_idle hstep hpc hl.lends hok.2) ?_ hf.seen
        (fun hpc hactive => matterStep_abortWait hstep hpc hactive hok.2
          (h.abort_queued hf he hr (by simp only [ChannelState.abortSent, hpc])))
      exact fun hpc => active_of_begun (h.reported event he hr hpc) hover

theorem ChannelFacts.runs_kept (hf : ChannelFacts s) (hstep : channelStep sdk s l = some t)
    (hr : s.runs channel) (ht : t.core.shared.taskHandle ≠ none) : t.runs channel :=
  ⟨ht, (hf.session_kept hstep hr.1 ht).2.2 ▸ hr.2⟩

/-- A channel that is about to be admitted has no chunk about. -/
theorem ChunksLent.none_before {offset data len : ℕ} (h : ChunksLent s) (hf : LentFacts s)
    (hp : s.core.pcs i = .check (.write offset data len)) : NoChunk s.core := by
  intro event he
  obtain ⟨other,hr,-,hl⟩ := h.lent event he
  obtain ⟨channel,rfl,hw,-⟩ := hf.channels.writer hf.apart (i := i) (by rw [hp]; rfl)
  obtain rfl := (hf.apart.runs hw.uses hr.1).same hr
  cases other with
  | http =>
    have hl : s.http.pc.lentFor (s.core.pcs Channel.http.client) event := hl
    rw [show s.http.pc = _ from hw, hp] at hl
    cases hl.2
  | matter =>
    have hl := hl.2
    rw [hw.1, hp] at hl
    cases hl.2

theorem ChunksLent.lent_step (h : ChunksLent s) (hf : LentFacts s) (hft : LentFacts t)
    (hok : waitsForChunks s l) (hstep : channelStep sdk s l = some t)
    (he : ChunkAbout t.core event) :
    ∃ channel, t.runs channel ∧ event.data ∈ channel.buffers ∧ t.lentFor event channel := by
  have hrunning := hft.channels.core.events_running he.1
  rcases he.stepped hstep with hold | ⟨i,label,offset,data,len,rfl,hp,hsend,rfl,hshared,-⟩
  · obtain ⟨channel,hr,hdata,hl⟩ := h.lent event hold
    exact ⟨channel, hf.channels.runs_kept hstep hr hrunning, hdata, h.keeps hf hok hstep hold hr hl⟩
  · have hasks : (s.core.pcs i).asks = some (.write offset (some data) len) := by rw [hp]; rfl
    obtain ⟨channel,rfl,hw,hmatter⟩ := hf.channels.writer hf.apart hasks
    have hr := hf.apart.runs hw.uses (hshared ▸ hrunning)
    have hchannels := (coreStep_move hstep).channels
    refine ⟨channel, hf.channels.runs_kept hstep hr hrunning, ?_, ?_⟩
    · cases channel with
      | http => exact hf.points.call offset data len hasks
      | matter => exact List.mem_singleton.mpr (hmatter rfl)
    · cases channel with
      | http =>
        show t.http.pc.lentFor (t.core.pcs Channel.http.client) _
        rw [hchannels.1, show s.http.pc = _ from hw, hsend]
        exact ⟨rfl, rfl⟩
      | matter =>
        refine ⟨hchannels.2.2.trans hw.2, ?_⟩
        rw [hchannels.2.1, hw.1, hsend]
        exact ⟨rfl, rfl⟩

theorem ChunksLent.single_step {other : SnfOtaEvent} (h : ChunksLent s) (hf : LentFacts s)
    (hstep : channelStep sdk s l = some t) (he : ChunkAbout t.core event)
    (ho : ChunkAbout t.core other) : event = other := by
  rcases he.stepped hstep with hold | ⟨i,label,offset,data,len,rfl,hp,hsend,-⟩
  · rcases ho.stepped hstep with hold' | ⟨i,label,offset,data,len,rfl,hp,-⟩
    · exact h.single event other hold hold'
    · exact absurd hold (h.none_before hf hp event)
  · rcases ho.stepped hstep with hold' | ⟨i',label',offset',data',len',hl,hp',hsend',-⟩
    · exact absurd hold' (h.none_before hf hp other)
    · cases hl
      rw [hsend] at hsend'
      cases hsend'
      rfl

theorem ChunksLent.order_step (h : ChunksLent s) (hf : LentFacts s) (hft : LentFacts t)
    (hstep : channelStep sdk s l = some t) :
    (pendingEvents t.core).Pairwise fun first second => first.id = .abort →
      second.id ≠ .imageData := by
  cases hempty : pendingEvents t.core with
  | nil => exact .nil
  | cons event rest =>
    have hmem : event ∈ pendingEvents t.core := by rw [hempty]; exact List.mem_cons_self
    rw [← hempty]
    have hs := (pendingEvents_about hmem).running hf.channels hft.channels hstep
    obtain ⟨k,hk⟩ := Option.ne_none_iff_exists'.mp hs
    rcases hf.channels.pending_stepped hstep hk
      (hft.channels.pending_running hmem) with hsame | ⟨first,_,-,-,hpend⟩
      | ⟨i,_,request,sent,-,hp,-,hpend⟩
    · rw [hsame]
      exact h.order
    · have horder := h.order
      rw [hpend] at horder
      exact (List.pairwise_cons.mp horder).2
    · rw [hpend]
      refine List.pairwise_append.mpr ⟨h.order, List.pairwise_singleton _ _,
        fun first hfirst second hsecond habort hid => ?_⟩
      cases List.mem_singleton.mp hsecond
      exact h.sends_unaborted hf hp hid first hfirst habort

/-- A session that does not receive has no chunk about. -/
theorem ChunksLent.none_of_state (h : ChunksLent s) (hf : LentFacts s)
    (hst : s.core.shared.core.info.state ≠ .receiving) :
    NoChunk s.core := fun _ he => hf.channels.core.complete_no_chunk hst (h.active hf he) he

theorem ChunksLent.unaborted_step (h : ChunksLent s) (hf : LentFacts s) (hft : LentFacts t)
    (hstep : channelStep sdk s l = some t) (hr : t.runs channel) (hw : t.writable channel = true)
    (he : event ∈ pendingEvents t.core) : event.id ≠ .abort := by
  have hs := (pendingEvents_about he).running hf.channels hft.channels hstep
  obtain ⟨k,hk⟩ := Option.ne_none_iff_exists'.mp hs
  have hstarting : (s.core.pcs channel.client).starting = true → False :=
    fun hp => hs ((hf.channels.core.asserted channel.client).of_starting hp)
  have hruns : s.runs channel := by
    rcases hf.channels.runs_back hstep hr with hruns | ⟨hp,-⟩
    · exact hruns
    · exact (hstarting hp).elim
  have hold : ∀ event ∈ pendingEvents s.core, event.id ≠ .abort := by
    rcases hf.channels.writable_back hstep hw with hw | hp
    · exact h.unaborted channel hruns hw
    · exact (hstarting hp).elim
  rcases hf.channels.pending_stepped hstep hk
    (hft.channels.pending_running he) with hsame | ⟨first,_,-,-,hpend⟩
    | ⟨i,label,request,sent,rfl,hp,hq,hpend⟩
  · exact hold event (hsame ▸ he)
  · exact hold event (hpend ▸ List.mem_cons_of_mem _ he)
  · rw [hpend] at he
    rcases List.mem_append.mp he with he | he
    · exact hold event he
    · -- An abort that is sent ends the writes of its channel.
      obtain rfl := List.mem_singleton.mp he
      intro hid
      obtain ⟨other,rfl,ha,rfl⟩ := hf.abort_sender hp hid
      obtain rfl := hruns.same (hf.apart.runs ha.uses hs)
      have hpast : (t.core.pcs other.client).pastSend = true := by
        rw [hq]
        unfold afterSend
        rw [if_neg (by rintro ⟨-,hdata⟩; rw [hid] at hdata; cases hdata)]
        rfl
      have hsent := (ha.core hstep).sent
      rw [ChannelState.writable_unsent hw, hpast] at hsent
      cases hsent

/-- What a mirror shows of its session's end has come to pass. -/
theorem ChunksLent.shownOver_step (h : ChunksLent s) (hf : LentFacts s)
    (hstep : channelStep sdk s l = some t)
    (hr : t.runs channel) (hover : channel.over (t.mirror channel).state = true) :
    NoChunk t.core ∧ t.core.shared.core.info.state ≠ .receiving := by
  have hover_ne : channel.over .receiving = false := by cases channel <;> rfl
  -- A callback reports the state of its session.
  have hreported : ∀ {k state}, l = .callback k → (s.callbacks k).reports = some (channel, state) →
    state ≠ .receiving → NoChunk t.core ∧ t.core.shared.core.info.state ≠ .receiving := by
    rintro k state rfl hreports hne
    obtain ⟨-,-,hst⟩ := (hf.channels.reports k).inside channel state hreports
    have hst' : s.core.shared.core.info.state ≠ .receiving := hst ▸ hne
    refine ⟨(h.none_of_state hf hst').step hst' hstep, ?_⟩
    rw [((callbackStep_move hstep).stepped.shared nofun).1]
    exact hst'
  rcases channelStep_state hstep channel with hsame | hreset | ⟨k,hl,⟨data,hpc⟩ | ⟨hpc,-⟩⟩
  · rw [hsame] at hover
    rcases hf.channels.runs_back hstep hr with hs | ⟨hp,-⟩
    · obtain ⟨hnone,hst⟩ := h.shownOver channel hs hover
      exact ⟨hnone.step hst hstep, (hf.channels.progress hstep hs.1 hr.1).2 hst⟩
    · rw [h.starting channel hp] at hover
      cases hover
  · rw [hreset] at hover
    cases channel <;> cases hover
  · refine hreported hl (by rw [hpc]; rfl) fun hreceiving => ?_
    rw [hreceiving, hover_ne] at hover
    cases hover
  · refine @hreported k .verifySuccess hl (by rw [hpc]; rfl) ?_
    rintro ⟨⟩

theorem ChunksLent.starting_step (h : ChunksLent s) (hf : LentFacts s) (hok : waitsForChunks s l)
    (hstep : channelStep sdk s l = some t) (ht : (t.core.pcs channel.client).starting = true) :
    channel.over (t.mirror channel).state = false := by
  rcases channelStep_starting hstep ht with hp | ⟨⟨label,rfl⟩,⟨config,hp⟩,hno⟩
  · rcases channelStep_state hstep channel with hsame | hreset | ⟨k,-,hpc⟩
    · rw [hsame]
      exact h.starting channel hp
    · rw [hreset]
      cases channel <;> rfl
    · have hquiet := hf.channels.no_report (k := k) hp
      rcases hpc with ⟨data,hpc⟩ | ⟨hpc,-⟩ <;> rw [hpc] at hquiet <;> cases hquiet
  · have hguard := hok.2
    rw [(coreStep_move hstep).mirror]
    simp only [keepsChunks, hp, hno, ne_eq, not_true_eq_false, decide_false, Bool.false_or,
      Bool.and_eq_true, Bool.or_eq_true, decide_eq_true_eq, Bool.not_eq_true'] at hguard
    cases channel
    · exact hguard.2.1.resolve_left fun hne => hne rfl
    · exact hguard.2.2.resolve_left fun hne => hne rfl

end Sonoff.Ota
