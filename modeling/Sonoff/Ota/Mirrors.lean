import Sonoff.Ota.ChannelIsolation
import Sonoff.Ota.ChunkFlow

/-! # How far a mirror is behind its session

A mirror shows what the callbacks of its session have stored. It is not ahead of the session, as
long as every session is started with the mirror as its channel has reset it.
-/
namespace Sonoff.Ota
open Bytes AesGcm NorFlash OtaParse Threads Machine

variable {G : Type} {sdk : Sdk G} {s t : ChannelState G} {i : ThreadId} {k : ℕ} {flash : Flash}
  {label : OtaLabel} {l : ChannelLabel} {channel : Channel}

def Channel.resetState : Channel → SnfOtaState
  | .http => .receiving
  | .matter => .idle

theorem HttpMove.mirror_http (h : HttpMove sdk s t) : t.mirror .http = s.mirror .http ∨
    ∃ pc f, HttpReset s.http.pc pc f ∧ t.mirror .http = f (s.mirror .http) := by
  cases h with
  | reset pc f hr => exact Or.inr ⟨pc, f, hr, ChannelState.setMirror_self s .http f⟩
  | start s' _ hs | write _ _ _ s' _ hs | abort _ s' _ hs =>
    obtain ⟨ret,-,rfl⟩ := invoke_some hs
    exact Or.inl rfl
  | _ => exact Or.inl rfl

theorem MatterMove.mirror_matter (h : MatterMove sdk s t) : t.mirror .matter = s.mirror .matter ∨
    ∃ pc f, MatterReset s.matter pc f ∧ t.mirror .matter = f (s.mirror .matter) := by
  cases h with
  | reset pc f hr => exact Or.inr ⟨pc, f, hr, ChannelState.setMirror_self s .matter f⟩
  | start _ s' _ hs | write _ _ s' _ hs | abort s' _ hs =>
    obtain ⟨ret,-,rfl⟩ := invoke_some hs
    exact Or.inl rfl
  | _ => exact Or.inl rfl

theorem MatterMove.mirror_http (h : MatterMove sdk s t) : t.mirror .http = s.mirror .http := by
  cases h with
  | reset pc f _ => exact @ChannelState.setMirror_other _ s .matter .http nofun f
  | start _ s' _ hs | write _ _ s' _ hs | abort s' _ hs =>
    obtain ⟨ret,-,rfl⟩ := invoke_some hs
    rfl
  | _ => rfl

/-- What a callback does to the size in a mirror. -/
theorem CallbackMove.mirror_size (h : CallbackMove sdk s k t) (channel : Channel) :
    (t.mirror channel).receivedSize = (s.mirror channel).receivedSize ∨
      ∃ state data, s.callbacks k = .storeSize channel state data ∧
        (t.mirror channel).receivedSize = data.receivedSize := by
  have hset : ∀ {other : Channel} {f : ChannelMirror → ChannelMirror} {pc : CallbackPc},
      (∀ m, (f m).receivedSize = m.receivedSize) →
        (((s.setMirror other f).setCallback k pc).mirror channel).receivedSize =
          (s.mirror channel).receivedSize := by
    intro other f pc hf
    show ((s.setMirror other f).mirror channel).receivedSize = _
    by_cases hc : channel = other
    · subst hc
      rw [ChannelState.setMirror_self, hf]
    · rw [ChannelState.setMirror_other _ hc]
  cases h with
  | state other state data _ => exact Or.inl (hset fun _ => rfl)
  | size other state data hpc =>
    by_cases hc : channel = other
    · subst hc
      refine Or.inr ⟨state, data, hpc, ?_⟩
      rw [ChannelState.setCallback, ChannelState.setMirror_self]
    · refine Or.inl ?_
      rw [ChannelState.setCallback, ChannelState.setMirror_other _ hc]
  | error state data _ => exact Or.inl (hset fun _ => rfl)
  | percent other state data _ => exact Or.inl (hset fun m => by split <;> rfl)
  | apply other s' _ hs' =>
    obtain ⟨ret,-,rfl⟩ := invoke_some hs'
    exact Or.inl rfl
  | failed other _ => exact Or.inl (hset fun _ => rfl)
  | failedError _ => exact Or.inl (hset fun _ => rfl)
  | _ => exact Or.inl rfl

/-- The size in a mirror is reset, or a callback stores it. -/
theorem channelStep_size (h : channelStep sdk s l = some t) (channel : Channel) :
    (t.mirror channel).receivedSize = (s.mirror channel).receivedSize ∨
      (t.mirror channel).receivedSize = 0 ∨
      ∃ k state data, l = .callback k ∧ s.callbacks k = .storeSize channel state data ∧
        (t.mirror channel).receivedSize = data.receivedSize := by
  cases l with
  | core i label =>
    rw [(coreStep_move h).mirror]
    exact Or.inl rfl
  | callback k =>
    rcases (callbackStep_move h).mirror_size channel with hsame | ⟨state,data,hpc,hstored⟩
    · exact Or.inl hsame
    · exact Or.inr (Or.inr ⟨k, state, data, rfl, hpc, hstored⟩)
  | http event =>
    have hmove := httpStep_move h
    cases channel with
    | http =>
      rcases hmove.mirror_http with hsame | ⟨pc,f,hr,hm⟩
      · rw [hsame]
        exact Or.inl rfl
      · rw [hm]
        generalize s.http.pc = old at hr
        cases hr with
        | received => exact Or.inr (Or.inl rfl)
        | _ => exact Or.inl rfl
    | matter =>
      rw [hmove.mirror_matter]
      exact Or.inl rfl
  | matter event =>
    have hmove := matterStep_move h
    cases channel with
    | http =>
      rw [hmove.mirror_http]
      exact Or.inl rfl
    | matter =>
      rcases hmove.mirror_matter with hsame | ⟨pc,f,hr,hm⟩
      · rw [hsame]
        exact Or.inl rfl
      · rw [hm]
        generalize s.matter = old at hr
        cases hr with
        | received => exact Or.inr (Or.inl rfl)
        | _ => exact Or.inl rfl

/-- The state in a mirror is reset, or a callback stores it. -/
theorem channelStep_state (h : channelStep sdk s l = some t) (channel : Channel) :
    (t.mirror channel).state = (s.mirror channel).state ∨
      (t.mirror channel).state = channel.resetState ∨
      ∃ k, l = .callback k ∧
        ((∃ data, s.callbacks k = .storeState channel (t.mirror channel).state data) ∨
        s.callbacks k = .storeFailed channel ∧ (t.mirror channel).state = .failed) := by
  cases l with
  | core i label =>
    rw [(coreStep_move h).mirror]
    exact Or.inl rfl
  | callback k =>
    rcases (callbackStep_move h).mirror_state
      channel with ⟨hsame,-⟩ | ⟨state,data,hpc,rfl⟩ | ⟨hpc,hfailed⟩
    · exact Or.inl hsame
    · exact Or.inr (Or.inr ⟨k, rfl, Or.inl ⟨data, hpc⟩⟩)
    · exact Or.inr (Or.inr ⟨k, rfl, Or.inr ⟨hpc, hfailed⟩⟩)
  | http event =>
    have hmove := httpStep_move h
    cases channel with
    | http =>
      rcases hmove.mirror_http with hsame | ⟨pc,f,hr,hm⟩
      · rw [hsame]
        exact Or.inl rfl
      · rw [hm]
        generalize s.http.pc = old at hr
        cases hr with
        | state => exact Or.inr (Or.inl rfl)
        | _ => exact Or.inl rfl
    | matter =>
      rw [hmove.mirror_matter]
      exact Or.inl rfl
  | matter event =>
    have hmove := matterStep_move h
    cases channel with
    | http =>
      rw [hmove.mirror_http]
      exact Or.inl rfl
    | matter =>
      rcases hmove.mirror_state with ⟨hsame,-⟩ | ⟨hidle,-⟩ | ⟨hsame,-⟩
      · exact Or.inl hsame
      · exact Or.inr (Or.inl hidle)
      · exact Or.inl hsame

def ChannelState.runs (s : ChannelState G) (channel : Channel) : Prop :=
  s.core.shared.taskHandle ≠ none ∧ s.core.shared.core.config.eventCallback = some channel.callback

/-- The session of a channel ran before the step, or its client has just created it. -/
theorem ChannelFacts.runs_back (hf : ChannelFacts s) (hstep : channelStep sdk s l = some t)
    (hr : t.runs channel) : s.runs channel ∨ (s.core.pcs channel.client).starting = true ∧
    ∃ label, l = .core channel.client label := by
  by_cases hl : ∃ i label, l = .core i label
  · obtain ⟨i,label,rfl⟩ := hl
    obtain ⟨hcore,-⟩ := coreStep_core hstep
    rcases hf.session_back hcore hr.1 with ⟨hh,-,hconfig⟩ | ⟨other,imageSize,rfl,hp,hconfig⟩
    · exact Or.inl ⟨hh ▸ hr.1, hconfig ▸ hr.2⟩
    · obtain rfl := config_callback (hconfig ▸ hr.2)
      exact Or.inr ⟨by rw [hp]; rfl, label, rfl⟩
  · have hl : ∀ i label, l ≠ .core i label := fun i label he => hl ⟨i, label, he⟩
    have hshared := ((channelStep_stepped hstep).shared hl).1
    exact Or.inl ⟨hshared ▸ hr.1, hshared ▸ hr.2⟩

/-- In the session of a channel that runs on, what is received grows, and reception does not come
back. -/
theorem ChannelFacts.progress (hf : ChannelFacts s) (hstep : channelStep sdk s l = some t)
    (hs : s.core.shared.taskHandle ≠ none) (ht : t.core.shared.taskHandle ≠ none) :
    s.core.shared.core.info.receivedSize ≤ t.core.shared.core.info.receivedSize ∧
      (s.core.shared.core.info.state ≠ .receiving →
        t.core.shared.core.info.state ≠ .receiving) := by
  rcases channelStep_stepped hstep with hcore | ⟨i,label,hcore⟩
  · rw [hcore]
    exact ⟨Nat.le_refl _, id⟩
  · obtain ⟨r,hr,hmove⟩ := step_some hcore.step
    rw [hmove] at ht ⊢
    refine (otaNext_move hr).progress ?_ ht hf.core.accounting.total
    by_contra hp
    exact hs ((hf.core.asserted i).of_starting (eq_true_of_ne_false hp))

/-- While a start is on its way no callback runs. -/
theorem ChannelFacts.no_report (hf : ChannelFacts s) (hp : (s.core.pcs i).starting = true) :
    (s.callbacks k).reports = none := by
  by_contra hrun
  obtain ⟨⟨channel,state⟩,hc⟩ := Option.ne_none_iff_exists'.mp hrun
  obtain ⟨⟨next,hin⟩,-,-⟩ := (hf.reports k).inside channel state hc
  have hx := hf.core.running (k := k) (by rw [hin]; rfl)
  rw [(hf.core.asserted i).of_starting hp] at hx
  cases hx

/-- The start of the channel that finds no task finds the size in its mirror reset. -/
def startsEmpty (s : ChannelState G) (channel : Channel) (i : ThreadId) : Bool :=
  match s.core.pcs i with
  | .check (.start _) =>
    i ≠ channel.client || s.core.shared.taskHandle ≠ none || (s.mirror channel).receivedSize = 0
  | _ => true

structure MirrorBehind (s : ChannelState G) (channel : Channel) : Prop where
  starting : (s.core.pcs channel.client).starting = true → (s.mirror channel).receivedSize = 0
  behind : s.runs channel → (s.mirror channel).receivedSize ≤ s.core.shared.core.info.receivedSize

theorem MirrorBehind.step (h : MirrorBehind s channel) (hf : ChannelFacts s)
    (hok : ∀ i label, l = .core i label → startsEmpty s channel i = true)
    (hstep : channelStep sdk s l = some t) : MirrorBehind t channel where
  starting ht := by
    have hzero : (s.mirror channel).receivedSize = 0 := by
      rcases channelStep_starting hstep ht with hs | ⟨⟨label,hl⟩,⟨config,hp⟩,hno⟩
      · exact h.starting hs
      · have hguard := hok _ label hl
        simpa only [startsEmpty, hp, hno, ne_eq, not_true_eq_false, decide_false, Bool.false_or,
          decide_eq_true_eq] using hguard
    rcases channelStep_size hstep channel with hsame | hreset | ⟨k,state,data,rfl,hpc,-⟩
    · exact hsame.trans hzero
    · exact hreset
    · rcases channelStep_starting hstep ht with hs | ⟨⟨label,hl⟩,-⟩
      · have := hf.no_report (k := k) hs
        rw [hpc] at this
        cases this
      · cases hl
  behind hr := by
    rcases channelStep_size hstep channel with hsame | hreset | ⟨k,state,data,rfl,hpc,hstored⟩
    · rw [hsame]
      rcases hf.runs_back hstep hr with hs | ⟨hp,-⟩
      · exact Nat.le_trans (h.behind hs) (hf.progress hstep hs.1 hr.1).1
      · rw [h.starting hp]
        exact Nat.zero_le _
    · rw [hreset]
      exact Nat.zero_le _
    · rw [hstored, (hf.reports k).sized data (by rw [hpc]; rfl)]
      rw [((callbackStep_move hstep).stepped.shared nofun).1]

theorem channelBoot_behind (flash : Flash) : MirrorBehind (channelBoot G flash) channel := by
  refine ⟨fun h => ?_, fun h => absurd rfl h.1⟩
  cases channel <;> cases h

theorem reach_behind {ok : ChannelState G → ChannelLabel → Prop}
    (hok : ∀ s l, ok s l → keepsOneMutex s l)
    (hempty : ∀ s i label, ok s (.core i label) → startsEmpty s channel i = true)
    (h : Reach (channelStep sdk) ok (channelBoot G flash) s) : MirrorBehind s channel := by
  refine @Reach.invariant_of _ _ _ _ _ (fun s => MirrorBehind s channel) ChannelFacts
    (fun s hs => reach_channelFacts hok hs) (channelBoot_behind flash) ?_ s h
  intro s l t hf hs hl hstep
  refine hs.step hf ?_ hstep
  rintro i label rfl
  exact hempty s i label hl

end Sonoff.Ota
