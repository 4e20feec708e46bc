import Sonoff.Ota.UploadChunks

/-! # What a successful upload has done

The session that an upload reports to is the one it has started. What it replies a success to, this
session has consumed and committed.
-/
namespace Sonoff.Ota
open Bytes AesGcm NorFlash OtaParse Threads Machine

variable {G : Type} {sdk : Sdk G} {s t : ChannelState G} {core core' : OtaState G} {i : ThreadId}
  {k : ℕ} {flash : Flash} {label : OtaLabel} {l : ChannelLabel} {p q : OtaPc} {x y : OtaSystem G}

theorem HttpUpload.headerReceived_before (u : HttpUpload) (header : List UInt8) :
    (u.headerReceived header).before = u.before := by
  unfold HttpUpload.headerReceived
  dsimp only
  split
  · rfl
  · split <;> rfl

/-- A request notes the session it finds, and its length stays once the head has been read. -/
theorem HttpMove.before (h : HttpMove sdk s t) :
    (∃ reply, s.http.pc = .idle reply) ∧ t.http.before = s.core.shared.session ∨
      t.http.before = s.http.before ∧
        (s.http.pc = .header ∨ t.http.contentLength = s.http.contentLength) := by
  cases h with
  | refuse reply data hpc => exact Or.inl ⟨⟨reply, hpc⟩, rfl⟩
  | request reply data hpc => exact Or.inl ⟨⟨reply, hpc⟩, HttpUpload.headerReceived_before _ _⟩
  | header data hpc => exact Or.inr ⟨HttpUpload.headerReceived_before _ _, Or.inl hpc⟩
  | start s' _ hs' | write _ _ _ s' _ hs' | abort _ s' _ hs' =>
    obtain ⟨ret,-,rfl⟩ := invoke_some hs'
    exact Or.inr ⟨rfl, Or.inr rfl⟩
  | _ => exact Or.inr ⟨rfl, Or.inr rfl⟩

theorem RecordMove.session_le (h : RecordMove i p x q y) : x.session ≤ y.session := by
  cases h with
  | keep _ hsession _ _ _ => exact Nat.le_of_eq hsession.symm
  | idle _ _ _ hle _ => exact hle
  | spawn config _ _ hy =>
    rw [hy]
    exact Nat.le_refl _

/-- The session that an upload creates comes behind the one it has found. -/
structure BeginsBefore (s : ChannelState G) : Prop where
  found : s.http.before ≤ s.core.shared.session
  creates : ∀ config, s.core.pcs Channel.http.client = .startTask config →
    s.http.before < s.core.shared.session

/-- Between its requests the channel is in no call. -/
theorem ChannelFacts.idle_not_starting (hf : ChannelFacts s) {reply : Option HttpReply}
    (hpc : s.http.pc = .idle reply)
    (config : SnfOtaConfig) : s.core.pcs Channel.http.client ≠ .startTask config := by
  intro hp
  have hcalling := hf.calls.http _
    (show (s.core.pcs Channel.http.client).asks = some _ by rw [hp]; rfl)
  simp only [HttpUpload.calling, hpc] at hcalling

theorem BeginsBefore.core_step (h : BeginsBefore s) (hf : ChannelFacts s)
    (hstep : channelStep sdk s (.core i label) = some t) :
    BeginsBefore t := by
  have hhttp := (coreStep_move hstep).channels.1
  obtain ⟨r,hr,hcore⟩ := step_some (coreStep_core hstep).1
  have hrecord := (otaNext_move hr).record (hf.core.asserted i)
  have hle := hrecord.session_le
  refine ⟨?_, fun config hp => ?_⟩ <;> rw [hhttp, hcore, Config.move_shared]
  · exact Nat.le_trans h.found hle
  · rw [hcore] at hp
    by_cases hi : Channel.http.client = i
    · subst hi
      rw [Config.move_self] at hp
      cases hrecord with
      | keep _ _ _ _ hno => exact absurd hp (hno config)
      | idle _ _ _ _ hlt => exact Nat.lt_of_le_of_lt h.found (hlt config hp)
      | spawn config' _ hq _ =>
        rw [hq] at hp
        cases hp
    · rw [Config.move_other _ hi] at hp
      exact Nat.lt_of_lt_of_le (h.creates config hp) hle

theorem BeginsBefore.step (h : BeginsBefore s) (hf : ChannelFacts s)
    (hstep : channelStep sdk s l = some t) :
    BeginsBefore t := by
  have hsame : t.http.before = s.http.before → t.core.shared = s.core.shared →
      (∀ config, t.core.pcs Channel.http.client = .startTask config →
        s.core.pcs Channel.http.client = .startTask config) →
      BeginsBefore t := by
    intro hbefore hshared hpcs
    refine ⟨?_, fun config hp => ?_⟩ <;> rw [hbefore, hshared]
    · exact h.found
    · exact h.creates config (hpcs config hp)
  have hpoint : (∀ label, l ≠ .core Channel.http.client label) → ∀ config,
      t.core.pcs Channel.http.client = .startTask config →
        s.core.pcs Channel.http.client = .startTask config := by
    intro hl config hp
    rcases (channelStep_stepped hstep).points Channel.http.client hl with hpcs | ⟨call,hcall⟩
    · exact hpcs ▸ hp
    · rw [hcall] at hp
      cases hp
  cases l with
  | core i label => exact h.core_step hf hstep
  | callback k =>
    have hmove := callbackStep_move hstep
    exact hsame (by rw [hmove.channels.1]) (hmove.stepped.shared nofun).1 (hpoint nofun)
  | matter event =>
    have hmove := matterStep_move hstep
    exact hsame (by rw [hmove.http]) ((hmove.stepped event).shared nofun).1 (hpoint nofun)
  | http event =>
    have hmove := httpStep_move hstep
    have hshared := ((hmove.stepped event).shared nofun).1
    rcases hmove.before with ⟨⟨reply,hpc⟩,hbefore⟩ | ⟨hbefore,-⟩
    · refine ⟨by rw [hbefore, hshared], fun config hp => ?_⟩
      exact absurd (hpoint nofun config hp) (hf.idle_not_starting hpc config)
    · exact hsame hbefore hshared (hpoint nofun)

/-- The running session is the one that this request has started. -/
structure OwnSession (s : ChannelState G) : Prop where
  later : s.http.before < s.core.shared.session
  started : .started Channel.http.client s.core.shared.session
    (Channel.http.config s.http.contentLength) ∈ s.core.shared.history

/-- The upload keeps to its session. -/
theorem OwnSession.kept (h : OwnSession s) (hf : ChannelFacts s)
    (hstep : channelStep sdk s l = some t)
    (hs : s.core.shared.taskHandle ≠ none) (ht : t.core.shared.taskHandle ≠ none)
    (hbefore : t.http.before = s.http.before)
    (hlength : t.http.contentLength = s.http.contentLength) : OwnSession t := by
  obtain ⟨-,hsession,-⟩ := hf.session_kept hstep hs ht
  obtain ⟨new,hnew⟩ := channelStep_history hstep
  refine ⟨?_, ?_⟩ <;> rw [hsession]
  · exact hbefore ▸ h.later
  · rw [hlength, hnew]
    exact List.mem_append_right _ h.started

/-- The start of an upload creates its session. -/
theorem OwnSession.spawned {config : SnfOtaConfig} (hb : BeginsBefore s) (hf : ChannelFacts s)
    (hstep : channelStep sdk s (.core Channel.http.client label) = some t)
    (hp : s.core.pcs Channel.http.client = .startTask config)
    (ht : t.core.shared.taskHandle ≠ none) : OwnSession t := by
  have hhttp := (coreStep_move hstep).channels.1
  obtain ⟨r,hr,hcore⟩ := step_some (coreStep_core hstep).1
  have hcalling := hf.calls.http _
    (show (s.core.pcs Channel.http.client).asks = some (.start (some config)) by rw [hp]; rfl)
  have hconfig : config = Channel.http.config s.http.contentLength := by
    unfold HttpUpload.calling at hcalling
    split at hcalling
    · cases hcalling
      rfl
    · obtain ⟨_,_,_,hno,-⟩ := hcalling
      cases hno
    · cases hcalling
    · exact hcalling.elim
  have hasserted := hf.core.asserted Channel.http.client
  rw [hcore, Config.move_shared] at ht
  cases (otaNext_move hr).record hasserted with
  | keep hh _ _ _ _ => exact absurd (hh.trans (hasserted.of_starting (by rw [hp]; rfl))) ht
  | idle _ hno _ _ _ => exact absurd hno ht
  | spawn config' hp' _ hy =>
    dsimp only at hp' hy
    rw [hp] at hp'
    cases hp'
    refine ⟨?_, ?_⟩ <;> rw [hhttp, hcore, Config.move_shared, hy]
    · exact hb.creates config hp
    · rw [← hconfig]
      exact List.mem_cons_self

/-- A start that is on its way has created no session yet. -/
theorem ChannelFacts.starting_unused (hf : ChannelFacts s)
    (hp : (s.core.pcs Channel.http.client).starting = true) :
    s.uses .http = false := by
  obtain ⟨config,hasks⟩ :
      ∃ config, (s.core.pcs Channel.http.client).asks = some (.start (some config)) := by
    generalize s.core.pcs Channel.http.client = pc at hp
    cases pc with
    | createMutex | startPrepare | startQueue | startInit | startTask => exact ⟨_, rfl⟩
    | _ => cases hp
  have hcalling := hf.calls.http _ hasks
  have hnot : (s.core.pcs Channel.http.client).hasStarted = false := by
    generalize s.core.pcs Channel.http.client = pc at hp
    cases pc with
    | idle | unlock => cases hp
    | _ => rfl
  simp only [ChannelState.uses, hnot, Bool.and_false, Bool.or_false]
  unfold HttpUpload.calling at hcalling
  generalize s.http.pc = pc at hcalling
  cases pc with
  | writing expected =>
    obtain ⟨_,_,_,hno,-⟩ := hcalling
    cases hno
  | aborting error => cases hcalling
  | starting => rfl
  | _ => exact hcalling.elim

/-- An upload that uses a session is past its head. -/
theorem ChannelState.uses_point (h : s.uses .http = true) : (∀ reply, s.http.pc ≠ .idle reply) ∧
    s.http.pc ≠ .header := by
  simp only [ChannelState.uses] at h
  generalize s.http.pc = pc at h
  cases pc with
  | idle reply => cases h
  | header => cases h
  | _ => refine ⟨fun _ hp => ?_, fun hp => ?_⟩ <;> cases hp

theorem OwnSession.step (h : s.uses .http = true → s.runs .http → OwnSession s)
    (hb : BeginsBefore s) (hf : ChannelFacts s)
    (hstep : channelStep sdk s l = some t) (hu : t.uses .http = true) (hr : t.runs .http) :
    OwnSession t := by
  rcases hf.uses_back hstep hu with hs | ⟨label,config,core,rfl,hp,-,-⟩ | ⟨hno,-⟩
  · have hrs : s.runs .http := by
      rcases hf.runs_back hstep hr with hrs | ⟨hp,-⟩
      · exact hrs
      · rw [hf.starting_unused hp] at hs
        cases hs
    obtain ⟨hidle,hheader⟩ := s.uses_point hs
    have hkept : t.http.before = s.http.before ∧ t.http.contentLength = s.http.contentLength := by
      by_cases hl : ∃ event, l = .http event
      · obtain ⟨event,rfl⟩ := hl
        rcases (httpStep_move hstep).before with ⟨⟨reply,hpc⟩,-⟩ | ⟨hbefore,hlength⟩
        · exact absurd hpc (hidle reply)
        · exact ⟨hbefore, hlength.resolve_left hheader⟩
      · rw [(channelStep_client hstep fun event he => hl ⟨event, he⟩).1]
        exact ⟨rfl, rfl⟩
    exact (h hs hrs).kept hf hstep hrs.1 hr.1 hkept.1 hkept.2
  · exact OwnSession.spawned hb hf hstep hp hr.1
  · cases hno

/-- A running session comes to success by its commit. -/
theorem OtaMove.success (h : OtaMove sdk i p x q y) (hp : p.starting = false)
    (hy : y.taskHandle ≠ none) (hst : y.core.info.state = .success) :
    x.core.info.state = .success ∨ ∃ event, .committed x.session event true ∈ y.history := by
  cases h with
  | given request ret hu =>
    rw [(otaUnlock_sameSession hu).core] at hst
    exact Or.inl hst
  | exitGiven hu =>
    rw [(otaUnlock_sameSession hu).core] at hst
    exact Or.inl hst
  | prepare x config sizeKnown => cases hp
  | init x config => cases hp
  | taskFailed x config => cases hp
  | teardown x => exact absurd rfl hy
  | timedOut _ => cases hst
  | data event bytes results _ _ hd =>
    obtain ⟨core,out,hres,-,rfl⟩ := otaHandleDataEvent_result hd
    have hst : out.state = .success := hst
    cases hres with
    | refused _ _ _ _ _ => cases hst
    | failed _ _ _ _ _ => cases hst
    | accepted _ _ _ _ _ =>
      rcases acceptedOutcome_cases core with ⟨-,hout⟩ | ⟨-,hout⟩ | ⟨-,error,hout⟩ <;>
        rw [hout] at hst <;> cases hst
  | apply x event _ => cases hst
  | abort x event _ => cases hst
  | committed x event => exact Or.inr ⟨event, List.mem_cons_of_mem _ List.mem_cons_self⟩
  | commitFailed x event => cases hst
  | _ => exact Or.inl hst

def SuccessCommitted (core : OtaState G) : Prop :=
  core.shared.taskHandle ≠ none → core.shared.core.info.state = .success →
    ∃ event, .committed core.shared.session event true ∈ core.shared.history

theorem SuccessCommitted.step (h : SuccessCommitted core) (hf : CoreFacts core)
    (hstep : otaStep sdk core (i, label) = some core') : SuccessCommitted core' := by
  obtain ⟨r,hr,rfl⟩ := step_some hstep
  have hmove := otaNext_move hr
  have hasserted := hf.asserted i
  intro hx hst
  rw [Config.move_shared] at hx hst ⊢
  cases hmove.record hasserted with
  | keep hh hsession _ _ _ =>
    rw [hsession]
    have hrunning : core.shared.taskHandle ≠ none := hh ▸ hx
    have hp : (core.pcs i).starting = false := eq_false_of_ne_true fun hp =>
      hrunning (hasserted.of_starting hp)
    rcases hmove.success hp hx hst with hold | hcommitted
    · obtain ⟨event,hcommitted⟩ := h hrunning hold
      obtain ⟨new,hnew⟩ := hmove.history
      exact ⟨event, hnew ▸ List.mem_append_right new hcommitted⟩
    · exact hcommitted
  | idle _ hno _ _ _ => exact absurd hno hx
  | spawn config hp _ hy =>
    dsimp only at hp hy
    rw [hp] at hasserted
    rw [hy] at hst
    have hst : core.shared.core.info.state = .success := hst
    rw [hasserted.2.info] at hst
    cases hst

theorem reach_successCommitted (h : Reach (otaStep sdk) keepsMutex (otaBoot G flash) core) :
    SuccessCommitted core := by
  refine @Reach.invariant_of _ _ _ _ _ SuccessCommitted CoreFacts (fun _ hs => reach_coreFacts hs)
    (fun hx => absurd rfl hx) ?_ core h
  rintro s ⟨i,label⟩ t hf hs _ hstep
  exact hs.step hf hstep

theorem OtaMove.callback_same {next : AfterNotify} (h : OtaMove sdk i p x q y)
    (hp : p = .callback next) : y = x := by
  cases h with
  | pc _ => rfl
  | _ => cases hp

/-- While the reboot does not return, nothing happens in a session in success any more. -/
theorem CoreFacts.success_stays (hf : CoreFacts core) (hn : NotificationInvariant core)
    (hstep : otaStep sdk core (i, label) = some core') (hreboot : core.pcs i ≠ .reboot)
    (hx : core.shared.taskHandle ≠ none) (hst : core.shared.core.info.state = .success) :
    Outsider (core.pcs i) core.shared core'.shared := by
  obtain ⟨k,hk⟩ := Option.ne_none_iff_exists'.mp hx
  obtain ⟨r,hr,rfl⟩ := step_some hstep
  have hmove := otaNext_move hr
  by_cases hi : i = .task k
  · subst hi
    have hfits := (hn.current k hk).2
    rw [hst] at hfits
    obtain ⟨pc,hpc⟩ : ∃ pc, core.pcs (.task k) = pc := ⟨_, rfl⟩
    rw [hpc] at hfits
    cases pc with
    | callback next =>
      rw [Config.move_shared, hmove.callback_same hpc]
      exact .refl _ _
    | reboot => exact absurd hpc hreboot
    | _ => cases hfits
  · rw [Config.move_shared]
    exact hmove.outsider (hf.asserted i) hk hi

structure Succeeded (s : ChannelState G) : Prop where
  runs : s.runs .http
  state : s.core.shared.core.info.state = .success

theorem Succeeded.stays (h : Succeeded s) (hf : UploadFacts s) (hok : uploadsFresh s l)
    (hstep : channelStep sdk s l = some t) :
    Succeeded t ∧ t.core.shared.session = s.core.shared.session ∧
      t.core.shared.history = s.core.shared.history := by
  by_cases hl : ∃ i label, l = .core i label
  · obtain ⟨i,label,rfl⟩ := hl
    have ho := hf.channels.core.success_stays hf.notes (coreStep_core hstep).1 hok.1.2 h.runs.1
      h.state
    refine ⟨⟨⟨ho.taskHandle ▸ h.runs.1, ho.configured ▸ h.runs.2⟩, ho.state.trans h.state⟩,
      ho.session, ho.history⟩
  · have hl : ∀ i label, l ≠ .core i label := fun i label he => hl ⟨i, label, he⟩
    have hshared := ((channelStep_stepped hstep).shared hl).1
    exact ⟨⟨⟨hshared ▸ h.runs.1, hshared ▸ h.runs.2⟩,
      hshared ▸ h.state⟩, by rw [hshared], by rw [hshared]⟩

/-- A success in the mirror is that of the running session. -/
theorem Succeeded.shown (h : (s.mirror .http).state = .success → Succeeded s) (hf : UploadFacts s)
    (hok : uploadsFresh s l) (hstep : channelStep sdk s l = some t)
    (ht : (t.mirror .http).state = .success) : Succeeded t := by
  rcases channelStep_state hstep .http with hsame | hreset | ⟨k,rfl,⟨data,hpc⟩ | ⟨-,hfailed⟩⟩
  · exact ((h (hsame ▸ ht)).stays hf hok hstep).1
  · rw [hreset] at ht
    cases ht
  · rw [ht] at hpc
    obtain ⟨⟨next,hin⟩,hcallback,hstate⟩ :=
      (hf.channels.reports k).inside .http .success (by rw [hpc]; rfl)
    have hx := hf.channels.core.running (k := k) (by rw [hin]; rfl)
    rw [← ((callbackStep_move hstep).stepped.shared nofun).1] at hx hcallback hstate
    exact ⟨⟨by rw [hx]; nofun, hcallback⟩, hstate⟩
  · rw [hfailed] at ht
    cases ht

/-- The whole body has been handed over, and one session that was started after the request, by the
upload and for this body, has consumed it and was committed. -/
structure Delivered (s : ChannelState G) : Prop where
  whole : requestLength s.http.stream = some (handedBytes s.http.handed).length
  session : ∃ n event, s.http.before < n ∧
    .started Channel.http.client n (Channel.http.config (handedBytes s.http.handed).length) ∈
      s.core.shared.history ∧
    receivedBytes n s.core.shared.history = handedBytes s.http.handed ∧
      .committed n event true ∈ s.core.shared.history

structure UploadInvariant (s : ChannelState G) : Prop where
  begins : BeginsBefore s
  own : s.uses .http = true → s.runs .http → OwnSession s
  follows : s.runs .http → snfOtaStateIsActive s.core.shared.core.info.state = true → Follows s
  shows : (s.mirror .http).state = .success → Succeeded s
  delivered : s.http.pc = .idle (some .success) → Succeeded s ∧ Delivered s

/-- The upload replies a success behind its last look at the mirror. -/
theorem HttpMove.succeeds (h : HttpMove sdk s t) (ht : t.http.pc = .idle (some .success)) :
    s.http.pc = .complete ∧ (s.mirror .http).state = .success ∧
      t = s.httpAt (.idle (some .success)) := by
  have hreceived : ∀ (u : HttpUpload) (header : List UInt8), (u.headerReceived header).pc ≠
      .idle (some .success) := by
    intro u header
    unfold HttpUpload.headerReceived
    dsimp only
    split
    · simp only [HttpUpload.moveTo]
      split <;> rintro ⟨⟩
    · split
      · rintro ⟨⟩
      · simp only [HttpUpload.moveTo]
        split <;> rintro ⟨⟩
  have hnext : ∀ {written}, s.http.next written ≠ .idle (some .success) := by
    intro written
    unfold HttpUpload.next
    split <;> rintro ⟨⟩
  cases h with
  | refuse reply data hpc => cases ht
  | request reply data hpc => exact absurd ht (hreceived _ _)
  | header data hpc => exact absurd ht (hreceived _ _)
  | reset pc f hr =>
    generalize s.http.pc = old at hr
    cases hr <;> cases ht
  | look pc hl =>
    obtain ⟨old,hpc⟩ : ∃ old, s.http.pc = old := ⟨_, rfl⟩
    rw [hpc] at hl
    cases hl with
    | success hmirror => exact ⟨hpc, hmirror, rfl⟩
    | reached expected _ => exact absurd ht hnext
    | _ => cases ht
  | start s' hpc hs' => cases ht
  | started ret hpc hret =>
    have ht : (if ret = .ok then s.http.receiveImage else .idle (some (.startFailed ret))) =
      .idle (some .success) := ht
    split at ht
    · unfold HttpUpload.receiveImage at ht
      split at ht
      · cases ht
      · split at ht
        · cases ht
        · exact absurd ht hnext
    · cases ht
  | fill written filled data hpc hdata hlen =>
    have ht : (if filled + data.length = s.http.chunkSize written then
      HttpPc.write httpDataBuffer written (s.http.chunkSize written)
        else .receive written (filled + data.length)) =
        .idle (some .success) := ht
    split at ht <;> cases ht
  | write pointer offset len s' hpc hs' => cases ht
  | written expected ret hpc hret =>
    have ht : (if ret = .ok then HttpPc.waitSize expected else .failed) = .idle (some .success) :=
      ht
    split at ht <;> cases ht
  | abort error s' hpc hs' => cases ht
  | aborting error ret hpc hret =>
    have ht : (if ret = .ok then HttpPc.abortWait error else .idle (some (.failed error))) =
      .idle (some .success) := ht
    split at ht <;> cases ht

/-- An upload that is complete in a session in success is delivered. -/
theorem Delivered.complete (hf : UploadFacts s) (hcommitted : SuccessCommitted s.core)
    (hpc : s.http.pc = .complete) (hs : Succeeded s) (hown : OwnSession s) (hsettled : Settled s) :
    Delivered s := by
  have hholds : s.http.Holds s.http.contentLength 0 := by
    have hprogress := hf.progress
    unfold HttpUpload.Progress at hprogress
    rwa [hpc] at hprogress
  have hlen : s.handed.length = s.http.contentLength := hholds.handed_length
  obtain ⟨k,hk⟩ := Option.ne_none_iff_exists'.mp hs.runs.1
  have hnotified := (hf.notes.current k hk).1
  -- No session receives more than its input.
  have hbound : s.consumed.length ≤ s.handed.length := by
    have hcounted := hf.counted.counted hs.runs.1 (by rw [hs.state]; rfl)
    have hconfig := hf.channels.core.record.only hs.runs.1 hown.started
    have htotal := hnotified.total
    rw [← hconfig] at htotal
    calc s.consumed.length = s.core.shared.core.info.receivedSize := hcounted
      _ ≤ s.core.shared.core.info.totalSize := hnotified.bounded
      _ = s.http.contentLength := htotal
      _ = s.handed.length := hlen.symm
  obtain ⟨event,hevent⟩ := hcommitted hs.runs.1 hs.state
  have hstarted := hown.started
  rw [← hlen] at hstarted
  exact ⟨hholds.parsed.request.1.trans (congrArg some hlen.symm), _, event, hown.later, hstarted,
    (hsettled.eq_of_length_le hbound).symm, hevent⟩

theorem UploadInvariant.step (h : UploadInvariant s) (hf : UploadFacts s)
    (hcommitted : SuccessCommitted s.core)
    (hok : uploadsFresh s l) (hstep : channelStep sdk s l = some t) : UploadInvariant t where
  begins := h.begins.step hf.channels hstep
  own := OwnSession.step h.own h.begins hf.channels hstep
  follows hr ha := by
    by_cases hl : ∃ event, l = .http event
    · obtain ⟨event,rfl⟩ := hl
      have hmove := httpStep_move hstep
      have hshared := ((hmove.stepped event).shared nofun).1
      have hrs : s.runs .http := ⟨hshared ▸ hr.1, hshared ▸ hr.2⟩
      have has : snfOtaStateIsActive s.core.shared.core.info.state = true := hshared ▸ ha
      exact hmove.follows hf hrs has (h.follows hrs has)
    · have hl : ∀ event, l ≠ .http event := fun event he => hl ⟨event, he⟩
      rcases hf.channels.runs_back hstep hr with hrs | ⟨hp,-⟩
      · exact (h.follows hrs (hf.channels.active_back hstep hrs.1 hr.1 ha)).step hf hstep hl hrs.1
          hr.1 ha
      · -- The start that creates the session has not returned.
        have hunused := hf.channels.starting_unused hp
        refine .of_noSession ?_
        rw [(channelStep_client hstep hl).1]
        exact (Bool.or_eq_false_iff.mp hunused).1
  shows := Succeeded.shown h.shows hf hok hstep
  delivered hpc := by
    by_cases hl : ∃ event, l = .http event
    · obtain ⟨event,rfl⟩ := hl
      obtain ⟨hcomplete,hmirror,rfl⟩ := (httpStep_move hstep).succeeds hpc
      have hs := h.shows hmirror
      have hsettled : Settled s := by
        have hfollows := h.follows hs.runs (by rw [hs.state]; rfl)
        unfold Follows at hfollows
        rwa [hcomplete] at hfollows
      have hown := h.own (by simp only [ChannelState.uses, hcomplete]; rfl) hs.runs
      obtain ⟨hwhole,hsession⟩ := Delivered.complete hf hcommitted hcomplete hs hown hsettled
      exact ⟨⟨hs.runs, hs.state⟩, hwhole, hsession⟩
    · have hhttp := (channelStep_client hstep fun event he => hl ⟨event, he⟩).1
      obtain ⟨hs,hdelivered⟩ := h.delivered (hhttp ▸ hpc)
      obtain ⟨hst,-,hhist⟩ := hs.stays hf hok hstep
      refine ⟨hst, ?_, ?_⟩ <;> rw [hhttp]
      · exact hdelivered.whole
      · rw [hhist]
        exact hdelivered.session

theorem channelBoot_uploadInvariant (flash : Flash) : UploadInvariant (channelBoot G flash) where
  begins := ⟨Nat.le_refl _, nofun⟩
  own := nofun
  follows := fun hr => absurd rfl hr.1
  shows := nofun
  delivered := nofun

theorem reach_uploadInvariant (h : Reach (channelStep sdk) uploadsFresh (channelBoot G flash) s) :
    UploadInvariant s := by
  refine @Reach.invariant_of _ _ _ _ _ UploadInvariant (fun s => UploadFacts s ∧
    SuccessCommitted s.core) (fun s hs =>
    ⟨reach_uploadFacts hs, reach_successCommitted (reach_core uploadsFresh.mutex hs)⟩)
    (channelBoot_uploadInvariant flash) ?_ s h
  rintro s l t ⟨hf,hcommitted⟩ hs hok hstep
  exact hs.step hf hcommitted hok hstep

/-- What an upload hands over is a part of its body in order, each byte once, and what it replies a
success to has been consumed and committed by the session that it has started. -/
theorem http_upload_faithful (h : Reach (channelStep sdk) uploadsFresh (channelBoot G flash) s) :
    HandedInOrder s.http ∧ (s.http.pc = .idle (some .success) → Delivered s) :=
  ⟨(reach_progress h).inOrder, fun hpc => ((reach_uploadInvariant h).delivered hpc).2⟩

def uploadSucceeds : List ChannelLabel :=
  httpStarts ++ .http (.recv bytePackage) :: httpSteps 1 ++ coreSteps Channel.http.client 7 ++
    httpSteps 1 ++ coreSteps (.task 0) 1 ++ .core (.task 0) (.process bytePackage []) ::
    callbackSteps 0 5 ++ coreSteps (applyClient 0) 6 ++ callbackSteps 0 1 ++
    coreSteps (.task 0) 3 ++ callbackSteps 0 4
    ++ coreSteps (.task 0) 2 ++ callbackSteps 0 4 ++ httpSteps 3

theorem http_upload_faithful_byte :
    ∃ s, execWithin (channelStep softSdk) uploadsFresh (channelBoot Unit blankFlash)
      uploadSucceeds = some s ∧ s.http.pc = .idle (some .success) ∧ HandedInOrder s.http ∧
      Delivered s := by
  have hrun : (execWithin (channelStep softSdk) uploadsFresh (channelBoot Unit blankFlash)
    uploadSucceeds).map (fun s => s.http.pc) = some (.idle (some .success)) := by
    decide +kernel
  obtain ⟨s,hs,hpc⟩ := Option.map_eq_some_iff.mp hrun
  obtain ⟨horder,hdelivered⟩ := http_upload_faithful (Reach.execWithin .init hs)
  exact ⟨s, hs, hpc, horder, hdelivered hpc⟩

def longHead : List UInt8 :=
  [80, 79, 83, 84, 13, 10] ++ httpContentLength ++ [58, 49, 48, 50, 53] ++ httpHeaderEnd

def longChunk : List UInt8 :=
  bytePackage ++ List.replicate (httpDataBufferSize - bytePackage.length) 0

/-- An upload is given up behind its first chunk. The task that ends its session has stored the
state in the mirror, and not yet the size. -/
def uploadEnds : List ChannelLabel :=
  .http (.request longHead) :: httpSteps 5 ++ coreSteps Channel.http.client 10 ++ httpSteps 1 ++
    coreSteps (.task 0) 1 ++ .http (.recv longChunk) :: httpSteps 1 ++ coreSteps Channel.http.client
    7 ++ httpSteps 1 ++ coreSteps (.task 0) 1 ++ .core (.task 0) (.process longChunk []) ::
    callbackSteps 0 4 ++ coreSteps (.task 0) 1
    ++ httpSteps 2 ++ .http .recvFailed :: httpSteps 3 ++ coreSteps Channel.http.client 6 ++
      httpSteps 1
    ++ coreSteps (.task 0) 2 ++ callbackSteps 0 1 ++ httpSteps 1

/-- The size is stored behind the reset of the next upload. Its first wait ends at once, and the
last byte overwrites the chunk that is queued. -/
def uploadOverwrites : List ChannelLabel :=
  .http (.request longHead) :: httpSteps 2 ++ callbackSteps 0 3 ++ coreSteps (.task 0) 5 ++
    httpSteps 3 ++ coreSteps Channel.http.client 9 ++ httpSteps 1 ++ coreSteps (.task 1) 1
    ++ .http (.recv (9 :: longChunk.tail)) :: httpSteps 1 ++ coreSteps Channel.http.client 7 ++
      httpSteps 3
    ++ .http (.recv (longChunk.take 1)) :: httpSteps 1 ++ coreSteps Channel.http.client 7
    ++ coreSteps (.task 1) 1 ++ .core (.task 1) (.process longChunk []) :: callbackSteps 1 4 ++
      coreSteps (.task 1) 2
    ++ .core (.task 1) (.process (longChunk.take 1) []) :: callbackSteps 1 5 ++
      coreSteps (applyClient 1) 6
    ++ callbackSteps 1 1 ++ coreSteps (.task 1) 3 ++ callbackSteps 1 4 ++ coreSteps (.task 1) 2 ++
      callbackSteps 1 4
    ++ httpSteps 4

/-- The upload replies a success, and its session has consumed the byte 1 in place of the byte 9. -/
theorem http_upload_unfaithful :
    ∃ s, execWithin (channelStep softSdk) keepsChannelProtocol (channelBoot Unit blankFlash)
      (uploadEnds ++ uploadOverwrites)
        = some s
      ∧ s.http.pc = .idle (some .success) ∧ ¬Delivered s := by
  have hrun : (execWithin (channelStep softSdk) keepsChannelProtocol (channelBoot Unit blankFlash)
      (uploadEnds ++ uploadOverwrites)).map (fun s =>
      decide (s.http.pc = .idle (some .success) ∧ s.http.before = 1
        ∧ s.core.shared.session = 2 ∧ receivedBytes 2 s.core.shared.history = longChunk ++
          longChunk.take 1
        ∧ handedBytes s.http.handed = 9 :: longChunk.tail ++ longChunk.take 1)) = some true := by
    decide +kernel
  obtain ⟨s,hs,hview⟩ := Option.map_eq_some_iff.mp hrun
  obtain ⟨hpc,hbefore,hsession,hconsumed,hhanded⟩ := of_decide_eq_true hview
  refine ⟨s, hs, hpc, fun ⟨_,n,event,hlater,hstarted,hreceived,_⟩ => ?_⟩
  have hcore := reach_core keepsChannelProtocol.mutex (Reach.execWithin .init hs)
  have hbounded := (reach_coreFacts hcore).record.bounded _ _ _ hstarted
  obtain rfl : n = 2 := by omega
  rw [hconsumed, hhanded] at hreceived
  exact absurd (congrArg (·.head?) hreceived) (by decide)

end Sonoff.Ota
