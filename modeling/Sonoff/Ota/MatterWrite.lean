import Sonoff.Ota.ChunkOutcome

/-! # What a Matter write returns

`otaMatterWaitWrite` takes a chunk for received once the mirrored size has come to its end. Where
that size is not left from before, the chunk has been received; that the image was then verified
is not looked at.
-/
namespace Sonoff.Ota
open Bytes AesGcm NorFlash OtaParse Threads Machine

variable {G : Type} {sdk : Sdk G} {s t : ChannelState G} {i : ThreadId} {k : ℕ} {flash : Flash}
  {label : OtaLabel} {l : ChannelLabel} {base : List Observation} {event : SnfOtaEvent}
  {p q : OtaPc} {x y : OtaSystem G} {request : OtaRequest}

/-- A write of Matter that is admitted finds the mirrored size in front of its end. -/
def writesAhead (s : ChannelState G) : ChannelLabel → Bool
  | .core i _ =>
    match s.core.pcs i with
    | .check (.write offset data len) => i ≠ Channel.matter.client ||
        (otaCheck i s.core.shared (.write offset data len)).holds = none ||
        (s.mirror .matter).receivedSize < offset + len
    | _ => true
  | _ => true

/-- No poll of a write finds the mirrored size at the chunk's end together with a failed state. -/
def pollsClean (s : ChannelState G) : ChannelLabel → Bool
  | .matter .step =>
    match s.matter with
    | .waitSize expected =>
      (s.mirror .matter).receivedSize < expected || !snfOtaStateIsFailed (s.mirror .matter).state
    | _ => true
  | _ => true

def writesWatched (s : ChannelState G) (l : ChannelLabel) : Prop :=
  keepsOneMutex s l ∧ writesAhead s l = true ∧ pollsClean s l = true

instance (s : ChannelState G) (l : ChannelLabel) : Decidable (writesWatched s l) :=
  inferInstanceAs (Decidable (_ ∧ _ ∧ _))

theorem writesWatched.mutex (s : ChannelState G) (l : ChannelLabel) (h : writesWatched s l) :
    keepsOneMutex s l := h.1

def MatterPc.inWrite : MatterPc → Bool
  | .writing _ | .waitSize _ | .waitState _ => true
  | _ => false

/-- The mirror does not come to the chunk's end without a failed state, which a callback stores
before the size. -/
structure FailureShown (s : ChannelState G) (event : SnfOtaEvent) : Prop where
  shown : (s.mirror .matter).receivedSize < event.offset + event.size ∨
    snfOtaStateIsFailed (s.mirror .matter).state = true
  storing : ∀ k state data, s.callbacks k = .storeSize .matter state data →
    snfOtaStateIsFailed (s.mirror .matter).state = true
  inactive : s.runs .matter → snfOtaStateIsActive s.core.shared.core.info.state = false

/-- What has become of a chunk that Matter has sent when the history stood at `base`. One that is
lost the mirror does not reach any more. -/
inductive ChunkFate (base : List Observation) (s : ChannelState G) (event : SnfOtaEvent) : Prop
  | pending : event ∈ pendingEvents s.core →
      (s.mirror .matter).receivedSize < event.offset + event.size →
      ChunkFate base s event
  | taken : Taken base s.core event → ChunkFate base s event
  | failed : FailureShown s event → ChunkFate base s event
  | lost : (s.mirror .matter).receivedSize < event.offset + event.size →
      (s.runs .matter → s.core.shared.core.info.receivedSize < event.offset + event.size ∧
        s.core.shared.core.info.state ≠ .receiving) → ChunkFate base s event

/-- The mirror stays in front of what its session has not come to. -/
theorem ChannelFacts.mirror_below {last : ℕ} (hf : ChannelFacts s)
    (hstep : channelStep sdk s l = some t) (hmirror : (s.mirror .matter).receivedSize < last)
    (hinfo : s.runs .matter → s.core.shared.core.info.receivedSize < last) :
    (t.mirror .matter).receivedSize < last := by
  rcases channelStep_size hstep .matter with hsame | hreset | ⟨k,state,data,rfl,hpc,hstored⟩
  · rwa [hsame]
  · rw [hreset]
    exact Nat.zero_lt_of_lt hmirror
  · rw [hstored, (hf.reports k).sized data (by rw [hpc]; rfl)]
    obtain ⟨⟨next,hin⟩,hcallback,-⟩ := (hf.reports k).inside .matter state (by rw [hpc]; rfl)
    have hx := hf.core.running (k := k) (by rw [hin]; rfl)
    exact hinfo ⟨by rw [hx]; nofun, hcallback⟩

/-- In a write Matter starts no session. -/
theorem ChannelFacts.not_starting (hf : ChannelFacts s) (hin : s.matter.inWrite = true) :
    (s.core.pcs Channel.matter.client).starting = false := by
  by_contra hp
  rw [hf.calls.matter_starting (eq_true_of_ne_false hp)] at hin
  cases hin

/-- In a write only a callback touches the mirror of Matter. -/
theorem channelStep_inWrite (hin : s.matter.inWrite = true) (hl : ∀ k, l ≠ .callback k)
    (hstep : channelStep sdk s l = some t) : t.mirror .matter = s.mirror .matter := by
  cases l with
  | core i label => rw [(coreStep_move hstep).mirror]
  | callback k => exact absurd rfl (hl k)
  | http event => exact (httpStep_move hstep).mirror_matter
  | matter event =>
    rcases (matterStep_move hstep).mirror_matter with hsame | ⟨pc,f,hreset,-⟩
    · exact hsame
    · generalize s.matter = old at hin hreset
      cases hreset <;> cases hin

/-- A callback that is to store the size has stored the state. -/
theorem channelStep_storeSize {state : SnfOtaState} {data : SnfOtaEventData}
    (hstep : channelStep sdk s l = some t)
    (ht : t.callbacks k = .storeSize .matter state data) :
    s.callbacks k = .storeSize .matter state data ∨
      l = .callback k ∧ s.callbacks k = .storeState .matter state data := by
  have hset : ∀ {z : ChannelState G} {j : ℕ} {pc : CallbackPc}, z.callbacks = s.callbacks →
      (z.setCallback j pc).callbacks k = .storeSize .matter state data →
      s.callbacks k = .storeSize .matter state data ∨ k = j ∧
        pc = .storeSize .matter state data := by
    intro z j pc hz hk
    by_cases hkj : k = j
    · subst hkj
      rw [ChannelState.setCallback_self] at hk
      exact Or.inr ⟨rfl, hk⟩
    · rw [ChannelState.setCallback_other _ hkj, hz] at hk
      exact Or.inl hk
  cases l with
  | core i label =>
    cases coreStep_move hstep with
    | client n _ core _ _ => exact Or.inl ht
    | task j _ core _ _ _ =>
      refine (hset rfl ht).imp_right fun ⟨_,hpc⟩ => ?_
      unfold ChannelState.notified at hpc
      split at hpc <;> cases hpc
  | callback j =>
    cases callbackStep_move hstep with
    | state channel state' data' hpc =>
      refine (hset rfl ht).imp_right fun ⟨hkj,hstored⟩ => ?_
      cases hstored
      exact ⟨by rw [hkj], hkj ▸ hpc⟩
    | size channel _ _ _ =>
      refine (hset rfl ht).imp_right fun ⟨_,hpc⟩ => ?_
      cases channel <;> cases hpc
    | error _ _ _ => exact (hset rfl ht).imp_right fun ⟨_,hpc⟩ => nomatch hpc
    | percent _ _ _ _ =>
      refine (hset rfl ht).imp_right fun ⟨_,hpc⟩ => ?_
      split at hpc <;> cases hpc
    | apply _ s' _ hs' =>
      obtain ⟨ret,-,rfl⟩ := invoke_some hs'
      exact (hset rfl ht).imp_right fun ⟨_,hpc⟩ => nomatch hpc
    | applied _ _ _ => exact (hset rfl ht).imp_right fun ⟨_,hpc⟩ => nomatch hpc
    | applyFailed _ _ _ _ _ => exact (hset rfl ht).imp_right fun ⟨_,hpc⟩ => nomatch hpc
    | failed channel _ =>
      refine (hset rfl ht).imp_right fun ⟨_,hpc⟩ => ?_
      cases channel <;> cases hpc
    | failedError _ => exact (hset rfl ht).imp_right fun ⟨_,hpc⟩ => nomatch hpc
  | http event => exact Or.inl ((httpStep_move hstep).callbacks ▸ ht)
  | matter event => exact Or.inl ((matterStep_move hstep).callbacks ▸ ht)

/-- A callback of a session that is over stores a failed state. -/
theorem FailureShown.stored (h : FailureShown s event) (hf : ChannelFacts s)
    (hmove : CallbackMove sdk s k t) :
    ((t.mirror .matter).state = (s.mirror .matter).state ∧
      ∀ state data, s.callbacks k ≠ .storeState .matter state data)
      ∨ snfOtaStateIsFailed (t.mirror .matter).state = true := by
  rcases hmove.mirror_state .matter with hsame | ⟨state,data,hpc,hstored⟩ | ⟨-,hfailed⟩
  · exact Or.inl hsame
  · refine Or.inr ?_
    have hreports : (s.callbacks k).reports = some (.matter, state) := by rw [hpc]; rfl
    obtain ⟨⟨next,hin⟩,hcallback,hstate⟩ := (hf.reports k).inside .matter state hreports
    have hx := hf.core.running (k := k) (by rw [hin]; rfl)
    have hover := h.inactive ⟨by rw [hx]; nofun, hcallback⟩
    rw [hstored]
    by_contra hfailed
    rw [hstate, active_of_begun ((hf.reports k).begun .matter state hreports)
      (eq_false_of_ne_true hfailed)] at hover
    cases hover
  · rw [hfailed]
    exact Or.inr rfl

theorem FailureShown.step (h : FailureShown s event) (hf : ChannelFacts s)
    (hin : s.matter.inWrite = true)
    (hstep : channelStep sdk s l = some t) : FailureShown t event := by
  have hover : t.runs .matter → snfOtaStateIsActive t.core.shared.core.info.state = false := by
    intro ht
    rcases hf.runs_back hstep ht with hs | ⟨hp,-⟩
    · by_contra ha
      have hactive := hf.active_back hstep hs.1 ht.1 (eq_true_of_ne_false ha)
      rw [h.inactive hs] at hactive
      cases hactive
    · rw [hf.not_starting hin] at hp
      cases hp
  by_cases hl : ∃ k, l = .callback k
  · obtain ⟨k,rfl⟩ := hl
    have hmove := callbackStep_move hstep
    rcases h.stored hf hmove with ⟨hsame,hno⟩ | hfailed
    · refine ⟨?_, fun j state data ht => ?_, hover⟩
      · rw [hsame]
        rcases hmove.mirror_size .matter with hsize | ⟨state,data,hpc,-⟩
        · rw [hsize]
          exact h.shown
        · exact Or.inr (h.storing k state data hpc)
      · rw [hsame]
        rcases channelStep_storeSize hstep ht with hs | ⟨hj,hs⟩
        · exact h.storing j state data hs
        · cases hj
          exact absurd hs (hno state data)
    · exact ⟨Or.inr hfailed, fun _ _ _ _ => hfailed, hover⟩
  · have hl : ∀ k, l ≠ .callback k := fun k hk => hl ⟨k, hk⟩
    have hsame := channelStep_inWrite hin hl hstep
    refine ⟨hsame ▸ h.shown, fun j state data ht => ?_, hover⟩
    rw [hsame]
    rcases channelStep_storeSize hstep ht with hs | ⟨hj,-⟩
    · exact h.storing j state data hs
    · exact absurd hj (hl j)

section Fate
variable (hf : ChannelFacts s) (hstep : channelStep sdk s l = some t)
  (hin : s.matter.inWrite = true)
include hf hstep

include hin in
theorem ChunkFate.lost_step (hmirror : (s.mirror .matter).receivedSize < event.offset + event.size)
    (hover : s.runs .matter → s.core.shared.core.info.receivedSize < event.offset + event.size ∧
      s.core.shared.core.info.state ≠ .receiving) : ChunkFate base t event := by
  refine .lost (hf.mirror_below hstep hmirror fun hr => (hover hr).1) fun ht => ?_
  rcases hf.runs_back hstep ht with hs | ⟨hp,-⟩
  · obtain ⟨hlt,hst⟩ := hover hs
    refine ⟨?_, (hf.progress hstep hs.1 ht.1).2 hst⟩
    rcases hf.received hstep hs.1 ht.1 with hsame | ⟨_,_,-,-,hreceiving,-⟩
    · rwa [hsame]
    · exact absurd hreceiving hst
  · rw [hf.not_starting hin] at hp
    cases hp

/-- The task handles the chunk. -/
theorem ChunkFate.handled_step (hid : event.id = .imageData) (hl : l = .core (.task k) label)
    (hp : s.core.pcs (.task k) = .handle event)
    (hmirror : (t.mirror .matter).receivedSize < event.offset + event.size)
    (hahead : s.core.shared.core.info.receivedSize < event.offset + event.size)
    (hbase : ∃ new, s.core.shared.history = new ++ base) : ChunkFate base t event := by
  subst hl
  obtain ⟨new,hnew⟩ := hbase
  obtain ⟨r,hr,hmove⟩ := step_some (coreStep_core hstep).1
  dsimp only at hr
  rw [hp] at hr
  obtain ⟨bytes,results,rfl,hlen,hd⟩ := otaNext_chunk hr hid
  rcases otaHandleDataEvent_cases hlen hf.core.accounting.total
    hd with ⟨hsame,hst⟩ | ⟨-,-,hreceived,hst,callback,error,hhist⟩
  · refine .lost hmirror fun _ => ?_
    rw [hmove, Config.move_shared, hsame, hst]
    exact ⟨hahead, nofun⟩
  · rcases hst with hst | hst
    · refine .failed ⟨Or.inl hmirror, fun j state data ht => ?_, fun _ => ?_⟩
      · -- The callback of this report is still to store the state, and no other one runs.
        rcases channelStep_storeSize hstep ht with hs | ⟨hj,-⟩
        · obtain ⟨⟨next,hin'⟩,-⟩ := (hf.reports j).inside .matter state (by rw [hs]; rfl)
          have hj := hf.core.running (k := j) (by rw [hin']; rfl)
          rw [hf.core.running (k := k) (by rw [hp]; rfl)] at hj
          cases hj
          rw [hp] at hin'
          cases hin'
        · cases hj
      · rw [hmove, Config.move_shared, hst]
        rfl
    · refine .taken ⟨s.core.shared.session, callback, r.2.core.info.state,
        otaEventData r.2.core.info error, bytes, [], new, ?_, hreceived, hst⟩
      rw [hmove, Config.move_shared, hhist, hnew]
      rfl

include hin in
/-- The step lemma of the chunk. -/
theorem ChunkFate.step (h : ChunkFate base s event) (hahead : ChunksAhead s.core)
    (hid : event.id = .imageData) (hbase : ∃ new, s.core.shared.history = new ++ base) :
    ChunkFate base t event := by
  cases h with
  | taken htaken => exact .taken (htaken.step hstep)
  | failed hshown => exact .failed (hshown.step hf hin hstep)
  | lost hmirror hover => exact ChunkFate.lost_step hf hstep hin hmirror hover
  | pending hmem hmirror =>
    have hlt := hahead event ⟨pendingEvents_about hmem, hid⟩
    have hmirror' := hf.mirror_below hstep hmirror fun _ => hlt
    obtain ⟨k,hx⟩ := Option.ne_none_iff_exists'.mp (hf.pending_running hmem)
    by_cases ht : t.core.shared.taskHandle = none
    · exact .lost hmirror' fun hr => absurd ht hr.1
    · rcases hf.pending_stepped hstep hx
        ht with hsame | ⟨first,label,hl,hp,hpend⟩ | ⟨_,_,_,_,-,-,-,hpend⟩
      · exact .pending (hsame ▸ hmem) hmirror'
      · rw [hpend] at hmem
        rcases List.mem_cons.mp hmem with rfl | hrest
        · exact ChunkFate.handled_step hf hstep hid hl hp hmirror' hlt hbase
        · exact .pending hrest hmirror'
      · exact .pending (hpend ▸ List.mem_append_left _ hmem) hmirror'

end Fate

def ChannelState.sentTo (s : ChannelState G) : Option ℕ :=
  match s.matter with
  | .waitSize expected | .waitState expected => some expected
  | .writing expected => if (s.core.pcs Channel.matter.client).sentOk then some expected else none
  | _ => none

theorem ChannelState.inWrite_of_sentTo {expected : ℕ} (h : s.sentTo = some expected) :
    s.matter.inWrite = true := by
  unfold ChannelState.sentTo at h
  split at h
  · rw [‹s.matter = _›]
    rfl
  · rw [‹s.matter = _›]
    rfl
  · rw [‹s.matter = _›]
    rfl
  · cases h

def inOneWrite (s : ChannelState G) (l : ChannelLabel) : Prop :=
  writesWatched s l ∧ s.matter.inWrite = true

def Written (sdk : Sdk G) (flash : Flash) (s : ChannelState G) (expected : ℕ) : Prop :=
  ∃ s₀ event, Reach (channelStep sdk) writesWatched (channelBoot G flash) s₀ ∧
    s₀.core.pcs Channel.matter.client = .send (.write event.offset event.data event.size) event ∧
    event.id = .imageData ∧ event.offset + event.size = expected ∧
    Reach (channelStep sdk) inOneWrite s₀ s ∧ ChunkFate s₀.core.shared.history s event

/-- What holds of the write that Matter is in: a chunk that is about to be sent is still to be
received, and what has become of one that was sent is on record. -/
structure WriteInvariant (sdk : Sdk G) (flash : Flash) (s : ChannelState G) : Prop where
  sending : ∀ request event, s.core.pcs Channel.matter.client = .send request event →
    event.id = .imageData → (s.mirror .matter).receivedSize < event.offset + event.size ∧
    event.offset + event.size < 4294967296
  sent : ∀ expected, s.sentTo = some expected → Written sdk flash s expected

structure WriteFacts (s : ChannelState G) : Prop where
  channels : ChannelFacts s
  ahead : ChunksAhead s.core
  sends : SendsOwn s.core

theorem reach_writeFacts (h : Reach (channelStep sdk) writesWatched (channelBoot G flash) s) :
    WriteFacts s where
  channels := reach_channelFacts writesWatched.mutex h
  ahead := reach_chunksAhead writesWatched.mutex h
  sends := reach_sendsOwn (reach_core writesWatched.mutex h)

theorem Written.step {expected : ℕ} (h : Written sdk flash s expected) (hf : WriteFacts s)
    (hok : writesWatched s l) (hin : s.matter.inWrite = true)
    (hstep : channelStep sdk s l = some t) : Written sdk flash t expected := by
  obtain ⟨s₀,event,hs₀,hsend,hid,hend,hrun,hfate⟩ := h
  refine ⟨s₀, event, hs₀, hsend, hid, hend, hrun.step ⟨hok, hin⟩ hstep, ?_⟩
  exact hfate.step hf.channels hstep hin hf.ahead hid (reach_history hrun)

/-- The chunk of a write that is about to be sent. -/
theorem WriteFacts.sender (hf : WriteFacts s)
    (hp : s.core.pcs Channel.matter.client = .send request event)
    {expected : ℕ} (hpc : s.matter = .writing expected) :
    request = .write event.offset event.data event.size ∧
      event.id = .imageData ∧ expected = u32Add event.offset event.size := by
  obtain ⟨x,rfl⟩ := hf.sends _ _ _ hp
  have hcalling := hf.channels.calls.matter request.call (by rw [hp]; rfl)
  rw [hpc] at hcalling
  obtain ⟨offset,len,hcall,hexpected⟩ := hcalling
  cases request with
  | write offset' data' len' =>
    cases hcall
    exact ⟨rfl, rfl, hexpected⟩
  | _ => cases hcall

theorem writeCheck_bound {offset data len : ℕ}
    (h : otaCheck i x (.write offset data len) = .send request event)
    (htotal : x.core.info.totalSize < 4294967296) : offset + len < 4294967296 := by
  simp only [otaCheck] at h
  split at h
  · cases h
  · split at h
    case isTrue => cases h
    case isFalse hcheck =>
      have hcheck := not_not.mp hcheck
      unfold snfOtaWriteCheck at hcheck
      split at hcheck
      · cases hcheck
      · split at hcheck
        · cases hcheck
        · omega

namespace WriteInvariant

variable (h : WriteInvariant sdk flash s) (hf : WriteFacts s) (hok : writesWatched s l)
  (hstep : channelStep sdk s l = some t)
include h hf hok hstep

theorem sending_step (hp : t.core.pcs Channel.matter.client = .send request event)
    (hid : event.id = .imageData) :
    (t.mirror .matter).receivedSize < event.offset + event.size ∧
      event.offset + event.size < 4294967296 := by
  by_cases hback : s.core.pcs Channel.matter.client = .send request event
  · obtain ⟨hlt,hbound⟩ := h.sending request event hback hid
    have habout : ChunkAbout s.core event := ⟨Or.inr ⟨_, by rw [hback]; rfl⟩, hid⟩
    exact ⟨hf.channels.mirror_below hstep hlt fun _ => hf.ahead event habout, hbound⟩
  · -- Matter's call has just been admitted.
    by_cases hl : ∃ label, l = .core Channel.matter.client label
    · obtain ⟨label,rfl⟩ := hl
      obtain ⟨r,hr,hmove⟩ := step_some (coreStep_core hstep).1
      rw [hmove, Config.move_self] at hp
      obtain ⟨hcheck,hsend,hevent,-⟩ := (otaNext_move hr).send hp
      cases request with
      | write offset data len =>
        have hbound := writeCheck_bound hsend hf.channels.core.accounting.total
        have hahead := hok.2.1
        dsimp only at hcheck
        simp only [writesAhead, hcheck, hsend, OtaPc.holds, reduceCtorEq, ne_eq, not_true_eq_false,
          decide_false, Bool.false_or,
          decide_eq_true_eq] at hahead
        rw [hevent, (coreStep_move hstep).mirror]
        exact ⟨hahead, hbound⟩
      | _ =>
        rw [hevent] at hid
        cases hid
    · rcases (channelStep_stepped hstep).points Channel.matter.client fun label he =>
        hl ⟨label, he⟩ with hsame | ⟨call,hcall⟩
      · exact absurd (hsame ▸ hp) hback
      · rw [hcall] at hp
        cases hp

/-- The write sends its chunk. -/
theorem begins {expected : ℕ} {events : List SnfOtaEvent}
    (hs : Reach (channelStep sdk) writesWatched (channelBoot G flash) s)
    (hp : s.core.pcs Channel.matter.client = .send request event)
    (hpc : s.matter = .writing expected)
    (ht : t.core.shared = s.core.shared.setQueue (some (events ++ [event]))) :
    Written sdk flash t expected := by
  obtain ⟨rfl,hid,rfl⟩ := hf.sender hp hpc
  obtain ⟨hlt,hbound⟩ := h.sending _ _ hp hid
  have hin : s.matter.inWrite = true := by
    rw [hpc]
    rfl
  have hrun : s.core.shared.taskHandle ≠ none := by
    have hasserted := hf.channels.core.asserted Channel.matter.client
    rw [hp] at hasserted
    exact hasserted.1
  obtain ⟨k,hk⟩ := Option.ne_none_iff_exists'.mp hrun
  refine ⟨s, event, hs, hp, hid, (u32Add_eq hbound).symm, Reach.init.step ⟨hok, hin⟩ hstep,
    .pending ?_ ?_⟩
  · rw [pendingEvents_running (show t.core.shared.taskHandle = some k by rw [ht]; exact hk), ht]
    exact List.mem_append_right _ (List.mem_append_right _ (List.mem_singleton_self _))
  · have habout : ChunkAbout s.core event := ⟨Or.inr ⟨_, by rw [hp]; rfl⟩, hid⟩
    exact hf.channels.mirror_below hstep hlt fun _ => hf.ahead event habout

theorem sent_step {expected : ℕ}
    (hs : Reach (channelStep sdk) writesWatched (channelBoot G flash) s)
    (ht : t.sentTo = some expected) : Written sdk flash t expected := by
  have hback : s.sentTo = some expected → Written sdk flash t expected := fun hsent =>
    (h.sent expected hsent).step hf hok (ChannelState.inWrite_of_sentTo hsent) hstep
  have hsame : t.matter = s.matter →
    t.core.pcs Channel.matter.client = s.core.pcs Channel.matter.client →
      Written sdk flash t expected := by
    intro hmatter hpcs
    refine hback ?_
    unfold ChannelState.sentTo at ht ⊢
    rwa [hmatter, hpcs] at ht
  cases l with
  | core i label =>
    have hmatter := (coreStep_move hstep).channels.2.1
    obtain ⟨hcore,hidle⟩ := coreStep_core hstep
    obtain ⟨r,hr,hmove⟩ := step_some hcore
    by_cases hi : Channel.matter.client = i
    · subst hi
      obtain ⟨pc,hpc⟩ : ∃ pc, s.matter = pc := ⟨_, rfl⟩
      cases pc with
      | waitSize expected' | waitState expected' =>
        refine hback ?_
        simp only [ChannelState.sentTo, hmatter, hpc] at ht ⊢
        exact ht
      | writing expected' =>
        simp only [ChannelState.sentTo, hmatter, hpc, hmove, Config.move_self,
          Option.ite_none_right_eq_some, Option.some.injEq] at ht
        obtain ⟨hq,rfl⟩ := ht
        obtain ⟨call,hasks⟩ := hf.channels.core.client_asks hcore hidle
        have hcalling := hf.channels.calls.matter call hasks
        rw [hpc] at hcalling
        obtain ⟨offset,len,rfl,-⟩ := hcalling
        rcases (otaNext_move hr).sentOk hq hasks with hp | ⟨request,event,events,hp,-,hy⟩
        · refine hback ?_
          simp only [ChannelState.sentTo, hpc]
          exact if_pos hp
        · have hshared : t.core.shared = s.core.shared.setQueue (some (events ++ [event])) := by
            rw [hmove, Config.move_shared, hy]
          exact h.begins hf hok hstep hs hp hpc hshared
      | _ => simp only [ChannelState.sentTo, hmatter, hpc, reduceCtorEq] at ht
    · refine hsame hmatter ?_
      rw [hmove]
      exact Config.move_other _ hi _
  | callback k =>
    have hmove := callbackStep_move hstep
    exact hsame hmove.channels.2.1 (hmove.pcs (Ne.symm (applyClient_ne_channel k .matter)))
  | http event =>
    have hmove := httpStep_move hstep
    exact hsame hmove.matter
      (hmove.pcs (show Channel.matter.client ≠ Channel.http.client by rintro ⟨⟩))
  | matter event =>
    cases matterStep_move hstep with
    | look pc hlook =>
      obtain ⟨old,hold⟩ : ∃ old, s.matter = old := ⟨_, rfl⟩
      rw [hold] at hlook
      cases hlook with
      | waiting expected' _ | waitAgain expected' _ =>
        refine hback ?_
        simp only [ChannelState.sentTo, hold]
        exact ht
      | _ => cases ht
    | written expected' ret hpc hret =>
      refine hback ?_
      simp only [ChannelState.sentTo, hpc, asks_of_returned hret]
      by_cases hret' : ret = .ok
      · subst hret'
        exact ht
      · simp only [ChannelState.sentTo, ChannelState.matterAt, if_neg hret', reduceCtorEq] at ht
    | reset pc f hreset =>
      generalize s.matter = old at hreset
      cases hreset <;> cases ht
    | start imageSize s' hpc hs' =>
      obtain ⟨ret,-,rfl⟩ := invoke_some hs'
      cases ht
    | write offset len s' hpc hs' =>
      obtain ⟨ret,-,rfl⟩ := invoke_some hs'
      simp only [ChannelState.sentTo, ChannelState.matterAt, Config.move_self, OtaPc.sentOk,
        Bool.false_eq_true, if_false, reduceCtorEq] at ht
    | abort s' hpc hs' =>
      obtain ⟨ret,-,rfl⟩ := invoke_some hs'
      cases ht
    | _ => cases ht

end WriteInvariant

theorem reach_writeInvariant (h : Reach (channelStep sdk) writesWatched (channelBoot G flash) s) :
    WriteInvariant sdk flash s := by
  induction h with
  | init =>
    refine ⟨fun request event hp => ?_, fun expected hsent => ?_⟩
    · cases hp
    · cases hsent
  | step hs hok hstep ih =>
    have hf := reach_writeFacts hs
    exact ⟨fun request event hp hid => ih.sending_step hf hok hstep hp hid,
      fun expected ht => ih.sent_step hf hok hstep hs ht⟩

/-- A write that returns 0 has polled the mirror and found the size at its end. -/
theorem returns_zero (hstep : channelStep sdk s l = some t)
    (hbefore : s.matter ≠ .idle (some (.write 0)))
    (hzero : t.matter = .idle (some (.write 0))) :
    ∃ expected, s.matter = .waitSize expected ∧ l = .matter .step ∧
      expected ≤ (s.mirror .matter).receivedSize := by
  cases l with
  | core i label => exact absurd ((coreStep_move hstep).channels.2.1 ▸ hzero) hbefore
  | callback k => exact absurd ((callbackStep_move hstep).channels.2.1 ▸ hzero) hbefore
  | http event => exact absurd ((httpStep_move hstep).matter ▸ hzero) hbefore
  | matter event =>
    cases matterStep_move hstep with
    | look pc hlook =>
      obtain ⟨old,hold⟩ : ∃ old, s.matter = old := ⟨_, rfl⟩
      rw [hold] at hlook
      cases hlook with
      | received expected hle =>
        refine ⟨expected, hold, ?_, hle⟩
        simp only [channelStep, matterStep, hold] at hstep
        cases event with
        | step => rfl
        | _ => cases hstep
      | _ => cases hzero
    | written expected ret hpc hret =>
      change (if ret = .ok then MatterPc.waitSize expected else .idle (some (.write (-1)))) =
        _ at hzero
      split at hzero <;> cases hzero
    | reset pc f hreset =>
      generalize s.matter = old at hreset
      cases hreset <;> cases hzero
    | start imageSize s' hpc hs' =>
      obtain ⟨ret,-,rfl⟩ := invoke_some hs'
      cases hzero
    | write offset len s' hpc hs' =>
      obtain ⟨ret,-,rfl⟩ := invoke_some hs'
      cases hzero
    | abort s' hpc hs' =>
      obtain ⟨ret,-,rfl⟩ := invoke_some hs'
      cases hzero
    | _ => cases hzero

/-- Where a write returns 0, the session has received the stream up to its end since it has sent
its chunk, and it has not failed with that. -/
theorem matter_write_truthful (h : Reach (channelStep sdk) writesWatched (channelBoot G flash) s)
    (hok : writesWatched s l) (hstep : channelStep sdk s l = some t)
    (hbefore : s.matter ≠ .idle (some (.write 0)))
    (hzero : t.matter = .idle (some (.write 0))) :
    ∃ s₀ event, Reach (channelStep sdk) writesWatched (channelBoot G flash) s₀ ∧
      s₀.core.pcs Channel.matter.client = .send (.write event.offset event.data event.size) event ∧
      s.matter = .waitSize (event.offset + event.size) ∧ Reach (channelStep sdk) inOneWrite s₀ s ∧
      Taken s₀.core.shared.history t.core event := by
  obtain ⟨expected,hpc,rfl,hle⟩ := returns_zero hstep hbefore hzero
  have hsent : s.sentTo = some expected := by
    simp only [ChannelState.sentTo, hpc]
  obtain ⟨s₀,event,hs₀,hsend,-,rfl,hrun,hfate⟩ := (reach_writeInvariant h).sent expected hsent
  refine ⟨s₀, event, hs₀, hsend, hpc, hrun, ?_⟩
  cases hfate with
  | taken htaken => exact htaken.step hstep
  | pending _ hmirror => exact absurd hle (Nat.not_le.mpr hmirror)
  | failed hshown =>
    have hpoll := hok.2.2
    simp only [pollsClean, hpc, Bool.or_eq_true, decide_eq_true_eq, Bool.not_eq_true'] at hpoll
    rcases hpoll with hlt | hclean
    · exact absurd hle (Nat.not_le.mpr hlt)
    · rcases hshown.shown with hlt | hfailed
      · exact absurd hle (Nat.not_le.mpr hlt)
      · rw [hclean] at hfailed
        cases hfailed
  | lost hmirror _ => exact absurd hle (Nat.not_le.mpr hmirror)

def matterWrites (bytes : List UInt8) : List ChannelLabel :=
  matterStarts ++ coreSteps (.task 0) 1 ++ .matter (.callWrite 0 101) :: matterSteps 1 ++
    coreSteps Channel.matter.client 7
    ++ matterSteps 1 ++ coreSteps (.task 0) 1 ++ .core (.task 0) (.process bytes []) ::
      callbackSteps 0 2

theorem matter_write_truthful_byte :
    ∃ s t, execWithin (channelStep softSdk) writesWatched (channelBoot Unit blankFlash)
        (matterWrites bytePackage) = some s
      ∧ channelStep softSdk s (.matter .step) = some t ∧ t.matter = .idle (some (.write 0))
      ∧ ∃ s₀ event, Reach (channelStep softSdk) writesWatched (channelBoot Unit blankFlash) s₀ ∧
        s₀.core.pcs Channel.matter.client = .send (.write event.offset event.data event.size) event
          ∧
        s.matter = .waitSize (event.offset + event.size) ∧
          Reach (channelStep softSdk) inOneWrite s₀ s ∧
        Taken s₀.core.shared.history t.core event := by
  have hrun : (execWithin (channelStep softSdk) writesWatched (channelBoot Unit blankFlash)
      (matterWrites bytePackage)).bind (fun s => (channelStep softSdk s (.matter .step)).map
        (fun t => decide (writesWatched s (.matter .step) ∧ s.matter ≠ .idle (some (.write 0)) ∧
          t.matter = .idle (some (.write 0))))) = some true := by
    decide +kernel
  obtain ⟨s,hs,ht⟩ := Option.bind_eq_some_iff.mp hrun
  obtain ⟨t,hstep,hview⟩ := Option.map_eq_some_iff.mp ht
  obtain ⟨hok,hbefore,hzero⟩ := of_decide_eq_true hview
  exact ⟨s, t, hs, hstep, hzero,
    matter_write_truthful (Reach.execWithin .init hs) hok hstep hbefore hzero⟩

/-- Matter polls between the two stores of a failed verification, and finds the failure. -/
example : ((execWithin (channelStep softSdk) writesWatched (channelBoot Unit blankFlash)
    (matterStarts ++ coreSteps (.task 0) 1 ++ .matter (.callWrite 0 101) :: matterSteps 1
      ++ coreSteps Channel.matter.client 7 ++ matterSteps 1 ++ coreSteps (.task 0) 1
      ++ .core (.task 0) (.process (bytePackage.take 100 ++ [8]) []) :: callbackSteps 0 1 ++
        matterSteps 2)).map
    fun s => s.matter) = some (.idle (some (.write (-1)))) := by decide +kernel

/-- Nothing but failures is notified with it. -/
def Observation.failed : Observation → Bool
  | .notified _ _ state _ => snfOtaStateIsFailed state
  | _ => true

/-- The file of the package fails its check. The write of the whole package returns 0, and nothing
was notified in that session but the failure. -/
theorem matter_write_untruthful :
    ¬ ∀ s l t, Reach (channelStep softSdk) anyStep (channelBoot Unit blankFlash) s →
    channelStep softSdk s l = some t → s.matter ≠ .idle (some (.write 0)) →
      t.matter = .idle (some (.write 0)) →
    ∃ event, s.matter = .waitSize (event.offset + event.size) ∧ Taken [] t.core event := by
  intro h
  have hrun : (exec (channelStep softSdk) (channelBoot Unit blankFlash)
    (matterWrites (bytePackage.take 100 ++ [8]))).bind
      (fun s => (channelStep softSdk s (.matter .step)).map (fun t =>
        decide (s.matter ≠ .idle (some (.write 0)) ∧
        t.matter = .idle (some (.write 0)) ∧ t.core.shared.history.all Observation.failed =
          true))) = some true := by
    decide +kernel
  obtain ⟨s,hs,ht⟩ := Option.bind_eq_some_iff.mp hrun
  obtain ⟨t,hstep,hview⟩ := Option.map_eq_some_iff.mp ht
  obtain ⟨hbefore,hzero,hall⟩ := of_decide_eq_true hview
  obtain ⟨event,-,n,callback,state,data,bytes,after,before,hhist,-,hstate⟩ :=
    h s _ t (reach_of_exec hs) hstep hbefore hzero
  have hmem : .notified n callback state data ∈ t.core.shared.history := by
    rw [hhist]
    exact List.mem_append_right _ List.mem_cons_self
  have hfailed : snfOtaStateIsFailed state = true := List.all_eq_true.mp hall _ hmem
  rw [hstate] at hfailed
  cases hfailed

end Sonoff.Ota
