import Sonoff.Ota.ChannelCallback

/-! # The calls of the channels

While a channel waits for a call to return, its thread of the core is inside that call, and
nowhere else is it inside one.
-/
namespace Sonoff.Ota
open Bytes AesGcm NorFlash OtaParse Threads Machine

variable {G : Type} {sdk : Sdk G} {s t : ChannelState G} {i : ThreadId} {k : ℕ} {flash : Flash}
  {label : OtaLabel} {l : ChannelLabel}

def HttpUpload.calling (u : HttpUpload) (call : OtaCall) : Prop :=
  match u.pc with
  | .starting => call = .start (some (Channel.http.config u.contentLength))
  | .writing expected =>
    ∃ offset pointer len, call = .write offset (some pointer) len ∧ expected = u32Add offset len
  | .aborting _ => call = .abort
  | _ => False

def MatterPc.calling (pc : MatterPc) (call : OtaCall) : Prop :=
  match pc with
  | .starting => ∃ imageSize, call = .start (some (Channel.matter.config imageSize))
  | .writing expected =>
    ∃ offset len, call = .write offset (some matterBlock) len ∧ expected = u32Add offset len
  | .aborting => call = .abort
  | _ => False

structure ChannelCalls (s : ChannelState G) : Prop where
  http : ∀ call, (s.core.pcs Channel.http.client).asks = some call → s.http.calling call
  matter : ∀ call, (s.core.pcs Channel.matter.client).asks = some call → s.matter.calling call

theorem asks_of_returned {ret : SnfOtaRet} (h : s.returned i = some ret) :
    s.core.pcs i = .idle (some ret) := by
  unfold ChannelState.returned at h
  split at h
  case h_1 hp =>
    rw [hp, h]
  · cases h

theorem asks_invoked {call call' : OtaCall}
    (h : ((s.core.move i (.params call, s.core.shared)).pcs i).asks = some call') :
    call' = call := by
  rw [Config.move_self] at h
  exact (Option.some.inj h).symm

theorem HttpMove.calls (h : HttpMove sdk s t)
    (hs : ∀ call, (s.core.pcs Channel.http.client).asks = some call → s.http.calling call) :
    ∀ call, (t.core.pcs Channel.http.client).asks = some call → t.http.calling call := by
  -- A channel that waits for no call has made none.
  have hnone : ∀ pc, s.http.pc = pc →
    (∀ call, ¬({ s.http with pc := pc } : HttpUpload).calling call) →
      ∀ call, (s.core.pcs Channel.http.client).asks = some call → t.http.calling call := by
    intro pc hpc hno call hcall
    have := hs call hcall
    exact absurd (by rw [← hpc]; exact this) (hno call)
  have hreturned : ∀ {ret}, s.returned Channel.http.client = some ret →
      ∀ call, (s.core.pcs Channel.http.client).asks = some call → t.http.calling call := by
    intro ret hret call hcall
    rw [asks_of_returned hret] at hcall
    cases hcall
  cases h with
  | refuse reply data hpc => exact hnone _ hpc (fun _ h => h)
  | request reply data hpc => exact hnone _ hpc (fun _ h => h)
  | header data hpc => exact hnone _ hpc (fun _ h => h)
  | reset pc f hr =>
    generalize hpc : s.http.pc = old at hr
    cases hr <;> exact hnone _ hpc (fun _ h => h)
  | look pc hl =>
    generalize hpc : s.http.pc = old at hl
    cases hl <;> exact hnone _ hpc (fun _ h => h)
  | start s' hpc hs' =>
    obtain ⟨ret,-,rfl⟩ := invoke_some hs'
    intro call hcall
    exact asks_invoked hcall
  | started ret _ hret => exact hreturned hret
  | fill written filled data hpc _ _ => exact hnone _ hpc (fun _ h => h)
  | write pointer offset len s' hpc hs' =>
    obtain ⟨ret,-,rfl⟩ := invoke_some hs'
    intro call hcall
    exact ⟨offset, pointer, len, asks_invoked hcall, rfl⟩
  | written expected ret _ hret => exact hreturned hret
  | abort error s' hpc hs' =>
    obtain ⟨ret,-,rfl⟩ := invoke_some hs'
    intro call hcall
    exact asks_invoked hcall
  | aborting error ret _ hret => exact hreturned hret

theorem MatterMove.calls (h : MatterMove sdk s t)
    (hs : ∀ call, (s.core.pcs Channel.matter.client).asks = some call → s.matter.calling call) :
    ∀ call, (t.core.pcs Channel.matter.client).asks = some call → t.matter.calling call := by
  have hnone : ∀ pc, s.matter = pc → (∀ call, ¬pc.calling call) →
      ∀ call, (s.core.pcs Channel.matter.client).asks = some call → t.matter.calling call := by
    intro pc hpc hno call hcall
    exact absurd (hpc ▸ hs call hcall) (hno call)
  have hreturned : ∀ {ret}, s.returned Channel.matter.client = some ret →
      ∀ call, (s.core.pcs Channel.matter.client).asks = some call → t.matter.calling call := by
    intro ret hret call hcall
    rw [asks_of_returned hret] at hcall
    cases hcall
  cases h with
  | reset pc f hr =>
    generalize hpc : s.matter = old at hr
    cases hr <;> exact hnone _ hpc (fun _ h => h)
  | look pc hl =>
    generalize hpc : s.matter = old at hl
    cases hl <;> exact hnone _ hpc (fun _ h => h)
  | start imageSize s' hpc hs' =>
    obtain ⟨ret,-,rfl⟩ := invoke_some hs'
    intro call hcall
    exact ⟨imageSize, asks_invoked hcall⟩
  | write offset len s' hpc hs' =>
    obtain ⟨ret,-,rfl⟩ := invoke_some hs'
    intro call hcall
    exact ⟨offset, len, asks_invoked hcall, rfl⟩
  | abort s' hpc hs' =>
    obtain ⟨ret,-,rfl⟩ := invoke_some hs'
    intro call hcall
    exact asks_invoked hcall
  | started _ hret => exact hreturned hret
  | startFailed ret _ hret _ => exact hreturned hret
  | written expected ret _ hret => exact hreturned hret
  | inactive hpc _ => exact hnone _ hpc (fun _ h => h)
  | aborting _ hret => exact hreturned hret
  | abortRefused ret _ hret _ => exact hreturned hret
  | abortEnd hpc => exact hnone _ hpc (fun _ h => h)

/-- Inside the core a thread goes on with the call it has made. -/
theorem asks_back {core core' : OtaState G} {j : ThreadId} {call : OtaCall}
    (h : otaStep sdk core (j, label) = some core') (hlabel : ∀ call, label ≠ .invoke call)
    (hasks : (core'.pcs i).asks = some call) : (core.pcs i).asks = some call := by
  obtain ⟨r,hr,rfl⟩ := step_some h
  by_cases hi : i = j
  · subst hi
    rw [Config.move_self] at hasks
    rcases (otaNext_move hr).asks with hq | hq | ⟨ret,call',hp,hq⟩
    · exact hq ▸ hasks
    · rw [hq] at hasks
      cases hasks
    · dsimp only at hp hr
      rw [hp] at hr
      cases label with
      | invoke call => exact absurd rfl (hlabel call)
      | _ => cases hr
  · rwa [Config.move_other _ hi] at hasks

theorem ChannelCalls.step (h : ChannelCalls s) (hstep : channelStep sdk s l = some t) :
    ChannelCalls t := by
  cases l with
  | core i label =>
    cases coreStep_move hstep with
    | client n _ core hidle hcore =>
      exact ⟨fun call hcall => h.http call (asks_back hcore hidle hcall),
        fun call hcall => h.matter call (asks_back hcore hidle hcall)⟩
    | task k _ core _ _ hcore =>
      have hidle : ∀ call, label ≠ .invoke call := by
        rintro call rfl
        cases hstep
      exact ⟨fun call hcall => h.http call (asks_back hcore hidle hcall),
        fun call hcall => h.matter call (asks_back hcore hidle hcall)⟩
  | callback k =>
    have hmove := callbackStep_move hstep
    have hchannels := hmove.channels
    refine ⟨?_, ?_⟩
    · rw [hmove.pcs (Ne.symm (applyClient_ne_channel k .http)), hchannels.1]
      exact h.http
    · rw [hmove.pcs (Ne.symm (applyClient_ne_channel k .matter)), hchannels.2.1]
      exact h.matter
  | http event =>
    have hmove := httpStep_move hstep
    refine ⟨hmove.calls h.http, ?_⟩
    rw [hmove.pcs (show Channel.matter.client ≠ Channel.http.client from nofun), hmove.matter]
    exact h.matter
  | matter event =>
    have hmove := matterStep_move hstep
    refine ⟨?_, hmove.calls h.matter⟩
    rw [hmove.pcs (show Channel.http.client ≠ Channel.matter.client from nofun), hmove.http]
    exact h.http

theorem channelBoot_calls : ChannelCalls (channelBoot G flash) := by
  refine ⟨fun call h => ?_, fun call h => ?_⟩ <;> cases h

theorem reach_channelCalls {ok : ChannelState G → ChannelLabel → Prop}
    (h : Reach (channelStep sdk) ok (channelBoot G flash) s) : ChannelCalls s :=
  @Reach.invariant _ _ _ _ _ ChannelCalls channelBoot_calls (fun _ _ _ hs _ hstep => hs.step hstep)
    s h

theorem OtaPc.starting_asks {p : OtaPc} (h : p.starting = true) :
    ∃ config, p.asks = some (.start (some config)) := by
  cases p with
  | startPrepare config | startQueue config | startInit config | startTask config =>
    exact ⟨config, rfl⟩
  | _ => cases h

/-- The adapter waits for a start that is on its way. -/
theorem ChannelCalls.matter_starting (h : ChannelCalls s)
    (hp : (s.core.pcs Channel.matter.client).starting = true) :
    s.matter = .starting := by
  obtain ⟨config,hasks⟩ := OtaPc.starting_asks hp
  have hcalling := h.matter _ hasks
  generalize s.matter = pc at hcalling
  cases pc with
  | starting => rfl
  | writing expected =>
    obtain ⟨_,_,hcall,-⟩ := hcalling
    cases hcall
  | aborting => cases hcalling
  | _ => exact hcalling.elim

theorem ChannelCalls.http_starting (h : ChannelCalls s)
    (hp : (s.core.pcs Channel.http.client).starting = true) :
    s.http.pc = .starting := by
  obtain ⟨config,hasks⟩ := OtaPc.starting_asks hp
  have hcalling := h.http _ hasks
  unfold HttpUpload.calling at hcalling
  split at hcalling
  case h_1 hpc => exact hpc
  case h_2 hpc =>
    obtain ⟨_,_,_,hcall,-⟩ := hcalling
    cases hcall
  case h_3 hpc => cases hcalling
  case h_4 => exact hcalling.elim

structure ChannelFacts (s : ChannelState G) : Prop where
  core : CoreFacts s.core
  inactive : EndsInactive s.core
  asks : Asks ThreadId.may s.core
  calls : ChannelCalls s
  reports : CallbackReports s
  installed : s.core.shared.taskHandle ≠ none → ∃ channel imageSize,
    s.core.shared.core.config = Channel.config channel imageSize ∧
      .started channel.client s.core.shared.session (Channel.config channel imageSize) ∈
        s.core.shared.history

theorem reach_channelFacts {ok : ChannelState G → ChannelLabel → Prop}
    (hok : ∀ s l, ok s l → keepsOneMutex s l)
    (h : Reach (channelStep sdk) ok (channelBoot G flash) s) : ChannelFacts s where
  core := reach_coreFacts (reach_core hok h)
  inactive := reach_endsInactive (reach_core hok h)
  asks := reach_asks h
  calls := reach_channelCalls h
  reports := reach_callbackReports hok h
  installed := reach_installed hok h

/-- The session that runs after a step of the core ran before, or a channel's start has just
created it. -/
theorem ChannelFacts.session_back {core : OtaState G} (hf : ChannelFacts s)
    (hstep : otaStep sdk s.core (i, label) = some core) (hx : core.shared.taskHandle ≠ none) :
    (core.shared.taskHandle = s.core.shared.taskHandle ∧
      core.shared.session = s.core.shared.session ∧
      core.shared.core.config = s.core.shared.core.config) ∨
    ∃ channel imageSize, i = Channel.client channel ∧
      s.core.pcs i = .startTask (Channel.config channel imageSize) ∧
      core.shared.core.config = Channel.config channel imageSize := by
  obtain ⟨r,hr,rfl⟩ := step_some hstep
  rw [Config.move_shared] at hx ⊢
  cases (otaNext_move hr).record (hf.core.asserted i) with
  | keep hh hsession hconfig _ _ => exact Or.inl ⟨hh, hsession, hconfig⟩
  | idle _ hno _ _ _ => exact absurd hno hx
  | spawn config hp _ hy =>
    dsimp only at hp hy
    have ha := hf.core.asserted i
    rw [hp] at ha
    obtain ⟨channel,imageSize,rfl,rfl⟩ := may_start (hf.asks i _ (by rw [hp]; rfl))
    refine Or.inr ⟨channel, imageSize, rfl, hp, ?_⟩
    rw [hy]
    exact ha.2.configured

/-- A session that runs before and after a step is one session. -/
theorem ChannelFacts.session_kept (hf : ChannelFacts s) (hstep : channelStep sdk s l = some t)
    (hs : s.core.shared.taskHandle ≠ none) (ht : t.core.shared.taskHandle ≠ none) :
    t.core.shared.taskHandle = s.core.shared.taskHandle ∧
      t.core.shared.session = s.core.shared.session ∧
      t.core.shared.core.config = s.core.shared.core.config := by
  rcases channelStep_stepped hstep with hcore | ⟨i,label,hcore⟩
  · rw [hcore]
    exact ⟨rfl, rfl, rfl⟩
  · rcases hf.session_back hcore.step ht with hkept | ⟨channel,imageSize,-,hp,-⟩
    · exact hkept
    · exact absurd ((hf.core.asserted i).of_starting (by rw [hp]; rfl)) hs

theorem OtaPc.idle_or_asks {p : OtaPc} (h : p.ofTask = false) :
    (∃ ret, p = .idle ret) ∨ ∃ call, p.asks = some call := by
  cases p with
  | idle => exact Or.inl ⟨_, rfl⟩
  | created | receive | timeout | handle | callback | commit | reboot | exitLock | exitTake
  | teardown | exitUnlock | deleted => cases h
  | _ => exact Or.inr ⟨_, rfl⟩

/-- Between the calls the thread of a channel makes no step of its own. -/
theorem CoreFacts.client_asks {channel : Channel} {core core' : OtaState G} (hf : CoreFacts core)
    (hstep : otaStep sdk core (channel.client, label) = some core')
    (hidle : ∀ call, label ≠ .invoke call) :
    ∃ call, (core.pcs channel.client).asks = some call := by
  have hofTask : (core.pcs channel.client).ofTask = false := by
    rw [hf.ofTask]
    cases channel <;> rfl
  rcases OtaPc.idle_or_asks hofTask with ⟨ret,hp⟩ | hasks
  · obtain ⟨r,hr,-⟩ := step_some hstep
    dsimp only at hr
    rw [hp] at hr
    cases label with
    | invoke call => exact absurd rfl (hidle call)
    | _ => cases hr
  · exact hasks

/-- A start on its way was so before the step, or its call has just been admitted. -/
theorem channelStep_starting (hstep : channelStep sdk s l = some t)
    (ht : (t.core.pcs i).starting = true) : (s.core.pcs i).starting = true ∨
      (∃ label, l = .core i label) ∧ (∃ config, s.core.pcs i = .check (.start config)) ∧
        s.core.shared.taskHandle = none := by
  by_cases hl : ∃ j label, l = .core j label
  · obtain ⟨j,label,rfl⟩ := hl
    obtain ⟨hcore,-⟩ := coreStep_core hstep
    obtain ⟨r,hr,hmove⟩ := step_some hcore
    rw [hmove] at ht
    by_cases hi : i = j
    · subst hi
      rw [Config.move_self] at ht
      rcases (otaNext_move hr).starting ht with hp | ⟨hp,hno⟩
      · exact Or.inl hp
      · exact Or.inr ⟨⟨label, rfl⟩, hp, hno⟩
    · rw [Config.move_other _ hi] at ht
      exact Or.inl ht
  · have hl : ∀ j label, l ≠ .core j label := fun j label he => hl ⟨j, label, he⟩
    rcases (channelStep_stepped hstep).points i fun label => hl _ label with hsame | ⟨call,hp⟩
    · exact Or.inl (hsame ▸ ht)
    · rw [hp] at ht
      cases ht

end Sonoff.Ota
