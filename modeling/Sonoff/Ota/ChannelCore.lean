import Sonoff.Ota.ChannelMoves
import Sonoff.Ota.CoreCallers

/-! # The core under the channels

The core of a run of the channels is on a run of its own, called by nobody but the channels and
the callbacks. While a callback runs, the session is the one it was called for.
-/
namespace Sonoff.Ota
open Bytes AesGcm NorFlash OtaParse Threads Machine

variable {G : Type} {sdk : Sdk G} {s t : ChannelState G} {i : ThreadId} {call : OtaCall} {k : ℕ}

def Channel.may (channel : Channel) : OtaCall → Prop
  | .start (some config) => ∃ imageSize, config = channel.config imageSize
  | .write _ _ _ => True
  | .abort => True
  | _ => False

def ThreadId.may : ThreadId → OtaCall → Prop
  | .client 0, call => Channel.http.may call
  | .client 1, call => Channel.matter.may call
  | .client _, call => call = .apply
  | .task _, _ => False

def keepsOneMutex (s : ChannelState G) : ChannelLabel → Prop
  | .core i label => keepsMutex s.core (i, label)
  | _ => True

instance (s : ChannelState G) : (l : ChannelLabel) → Decidable (keepsOneMutex s l)
  | .core i label => inferInstanceAs (Decidable (keepsMutex s.core (i, label)))
  | .callback _ | .http _ | .matter _ => inferInstanceAs (Decidable True)

theorem otaNext_invoke {p : OtaPc} {x : OtaSystem G} {r : OtaPc × OtaSystem G}
    (h : otaNext sdk i p x (.invoke call) = some r) :
    (∃ ret, p = .idle ret) ∧ r = (.params call, x) := by
  cases p with
  | idle ret =>
    simp only [otaNext] at h
    split at h <;> cases h
    exact ⟨⟨ret, rfl⟩, rfl⟩
  | _ => cases h

theorem invoke_some (h : s.invoke sdk i call = some t) :
    ∃ ret, s.core.pcs i = .idle ret ∧
      t = { s with core := s.core.move i (.params call, s.core.shared) } := by
  obtain ⟨core,hcore,rfl⟩ := Option.map_eq_some_iff.mp h
  obtain ⟨r,hr,rfl⟩ := step_some hcore
  obtain ⟨⟨ret,hp⟩,rfl⟩ := otaNext_invoke hr
  exact ⟨ret, hp, rfl⟩

theorem invoke_step (h : s.invoke sdk i call = some t) :
    otaStep sdk s.core (i, .invoke call) = some t.core := by
  obtain ⟨core,hcore,rfl⟩ := Option.map_eq_some_iff.mp h
  exact hcore

/-- The step of the core behind a step of the channels: the label's own one, or a call. -/
structure CoreStep (sdk : Sdk G) (s t : ChannelState G) (l : ChannelLabel) (i : ThreadId)
    (label : OtaLabel) : Prop where
  step : otaStep sdk s.core (i, label) = some t.core
  may : ∀ call, label = .invoke call → i.may call
  own : l = .core i label ∨ ∃ call, label = .invoke call

theorem CoreStep.invoke {l : ChannelLabel} {s' : ChannelState G} (h : s.invoke sdk i call = some s')
    (hmay : i.may call) (ht : t.core = s'.core) : CoreStep sdk s t l i (.invoke call) where
  step := ht ▸ invoke_step h
  may call' hc := by
    cases hc
    exact hmay
  own := Or.inr ⟨call, rfl⟩

def Stepped (sdk : Sdk G) (s t : ChannelState G) (l : ChannelLabel) : Prop :=
  t.core = s.core ∨ ∃ i label, CoreStep sdk s t l i label

theorem HttpMove.stepped (h : HttpMove sdk s t) (event : HttpEvent) :
    Stepped sdk s t (.http event) := by
  cases h with
  | start s' _ hs => exact Or.inr ⟨_, _, .invoke hs ⟨_, rfl⟩ rfl⟩
  | write pointer offset len s' _ hs => exact Or.inr ⟨_, _, .invoke hs trivial rfl⟩
  | abort error s' _ hs => exact Or.inr ⟨_, _, .invoke hs trivial rfl⟩
  | _ => exact Or.inl rfl

theorem MatterMove.stepped (h : MatterMove sdk s t) (event : MatterEvent) :
    Stepped sdk s t (.matter event) := by
  cases h with
  | start imageSize s' _ hs => exact Or.inr ⟨_, _, .invoke hs ⟨_, rfl⟩ rfl⟩
  | write offset len s' _ hs => exact Or.inr ⟨_, _, .invoke hs trivial rfl⟩
  | abort s' _ hs => exact Or.inr ⟨_, _, .invoke hs trivial rfl⟩
  | _ => exact Or.inl rfl

theorem CallbackMove.stepped (h : CallbackMove sdk s k t) : Stepped sdk s t (.callback k) := by
  cases h with
  | apply channel s' _ hs => exact Or.inr ⟨_, _, .invoke hs rfl rfl⟩
  | _ => exact Or.inl rfl

/-- Each channel moves one thread of the core. -/
theorem HttpMove.pcs (h : HttpMove sdk s t) (hi : i ≠ Channel.http.client) :
    t.core.pcs i = s.core.pcs i := by
  cases h with
  | start s' _ hs | write _ _ _ s' _ hs | abort _ s' _ hs =>
    obtain ⟨ret,-,rfl⟩ := invoke_some hs
    exact Config.move_other _ hi _
  | _ => rfl

theorem MatterMove.pcs (h : MatterMove sdk s t) (hi : i ≠ Channel.matter.client) :
    t.core.pcs i = s.core.pcs i := by
  cases h with
  | start _ s' _ hs | write _ _ s' _ hs | abort s' _ hs =>
    obtain ⟨ret,-,rfl⟩ := invoke_some hs
    exact Config.move_other _ hi _
  | _ => rfl

theorem CallbackMove.pcs (h : CallbackMove sdk s k t) (hi : i ≠ applyClient k) :
    t.core.pcs i = s.core.pcs i := by
  cases h with
  | apply _ s' _ hs =>
    obtain ⟨ret,-,rfl⟩ := invoke_some hs
    exact Config.move_other _ hi _
  | _ => rfl

theorem applyClient_ne_channel (k : ℕ) (channel : Channel) : applyClient k ≠ channel.client := by
  unfold applyClient
  cases channel
  · exact fun h => by cases ThreadId.client.inj h
  · exact fun h => by cases ThreadId.client.inj h

theorem applyClient_injective {j k : ℕ} (h : applyClient j = applyClient k) : j = k := by
  have := ThreadId.client.inj h
  omega

theorem HttpMove.mirror_matter (h : HttpMove sdk s t) : t.mirror .matter = s.mirror .matter := by
  cases h with
  | reset pc f _ => exact @ChannelState.setMirror_other _ s .http .matter nofun f
  | start s' _ hs | write _ _ _ s' _ hs | abort _ s' _ hs =>
    obtain ⟨ret,-,rfl⟩ := invoke_some hs
    rfl
  | _ => rfl

theorem CoreMove.mirror (h : CoreMove sdk s i label t) : t.mirror = s.mirror := by
  cases h <;> rfl

theorem CoreMove.channels (h : CoreMove sdk s i label t) :
    t.http = s.http ∧ t.matter = s.matter ∧ t.matterOpen = s.matterOpen := by
  cases h <;> exact ⟨rfl, rfl, rfl⟩

theorem HttpMove.matterOpen (h : HttpMove sdk s t) : t.matterOpen = s.matterOpen := by
  cases h with
  | start s' _ hs | write _ _ _ s' _ hs | abort _ s' _ hs =>
    obtain ⟨ret,-,rfl⟩ := invoke_some hs
    rfl
  | _ => rfl

theorem HttpMove.matter (h : HttpMove sdk s t) : t.matter = s.matter := by
  cases h with
  | start s' _ hs | write _ _ _ s' _ hs | abort _ s' _ hs =>
    obtain ⟨ret,-,rfl⟩ := invoke_some hs
    rfl
  | _ => rfl

theorem MatterMove.http (h : MatterMove sdk s t) : t.http = s.http := by
  cases h with
  | start _ s' _ hs | write _ _ s' _ hs | abort s' _ hs =>
    obtain ⟨ret,-,rfl⟩ := invoke_some hs
    rfl
  | _ => rfl

theorem CallbackMove.channels (h : CallbackMove sdk s k t) :
    t.http = s.http ∧ t.matter = s.matter ∧ t.matterOpen = s.matterOpen := by
  cases h with
  | apply _ s' _ hs =>
    obtain ⟨ret,-,rfl⟩ := invoke_some hs
    exact ⟨rfl, rfl, rfl⟩
  | _ => exact ⟨rfl, rfl, rfl⟩

def MatterPc.aborts : MatterPc → Bool
  | .abort | .aborting | .abortWait | .abortEnd => true
  | _ => false

/-- What the adapter does to the state in its mirror: a start resets it, and an abort goes on from
an active one. -/
theorem MatterMove.mirror_state (h : MatterMove sdk s t) :
    (((t.mirror .matter).state = (s.mirror .matter).state ∧
      (t.matter.aborts = true → s.matter.aborts = true))
      ∨ ((t.mirror .matter).state = .idle ∧ t.matter.aborts = false ∧
        ∃ imageSize, s.matter = .startState imageSize)
      ∨ (t.mirror .matter).state = (s.mirror .matter).state ∧
        snfOtaStateIsActive (s.mirror .matter).state = true) := by
  have hkeep : ∀ {z : ChannelState G} {pc : MatterPc}, z.mirror = s.mirror →
    (pc.aborts = true → s.matter.aborts = true) →
      ((z.matterAt pc).mirror .matter).state = (s.mirror .matter).state ∧
        ((z.matterAt pc).matter.aborts = true → s.matter.aborts = true) := by
    intro z pc hz hpc
    refine ⟨?_, hpc⟩
    show (z.mirror .matter).state = _
    rw [hz]
  cases h with
  | reset pc f hr =>
    generalize hp : s.matter = p at hr
    cases hr with
    | state imageSize =>
      exact Or.inr (Or.inl
        ⟨by rw [ChannelState.matterAt, ChannelState.setMirror_self], rfl, imageSize, rfl⟩)
    | received imageSize =>
      exact Or.inl ⟨by rw [ChannelState.matterAt, ChannelState.setMirror_self], nofun⟩
    | percent imageSize =>
      exact Or.inl ⟨by rw [ChannelState.matterAt, ChannelState.setMirror_self], nofun⟩
  | look pc hl =>
    generalize hp : s.matter = p at hl
    cases hl with
    | active hactive => exact Or.inr (Or.inr ⟨rfl, hactive⟩)
    | abortAgain _ => exact Or.inl ⟨rfl, fun _ => rfl⟩
    | aborted _ => exact Or.inl ⟨rfl, fun _ => rfl⟩
    | abortTimeout => exact Or.inl ⟨rfl, fun _ => rfl⟩
    | _ => exact Or.inl ⟨rfl, nofun⟩
  | start imageSize s' hp hs =>
    obtain ⟨ret,-,rfl⟩ := invoke_some hs
    exact Or.inl (hkeep rfl nofun)
  | write offset len s' hp hs =>
    obtain ⟨ret,-,rfl⟩ := invoke_some hs
    exact Or.inl (hkeep rfl nofun)
  | written expected ret _ _ => exact Or.inl (hkeep rfl (by split <;> exact nofun))
  | abort s' hp hs =>
    obtain ⟨ret,-,rfl⟩ := invoke_some hs
    exact Or.inl (hkeep rfl (fun _ => by rw [hp]; rfl))
  | aborting hp _ => exact Or.inl (hkeep rfl (fun _ => by rw [hp]; rfl))
  | _ => exact Or.inl (hkeep rfl nofun)

/-- What a callback does to the state in a mirror. -/
theorem CallbackMove.mirror_state (h : CallbackMove sdk s k t) (channel : Channel) :
    ((t.mirror channel).state = (s.mirror channel).state ∧
      ∀ state data, s.callbacks k ≠ .storeState channel state data)
      ∨ (∃ state data, s.callbacks k = .storeState channel state data ∧
        (t.mirror channel).state = state)
      ∨ s.callbacks k = .storeFailed channel ∧ (t.mirror channel).state = .failed := by
  have hset : ∀ {other : Channel} {f : ChannelMirror → ChannelMirror} {pc : CallbackPc},
      (∀ m, (f m).state = m.state) →
        (((s.setMirror other f).setCallback k pc).mirror channel).state =
        (s.mirror channel).state := by
    intro other f pc hf
    show ((s.setMirror other f).mirror channel).state = _
    by_cases hc : channel = other
    · subst hc
      rw [ChannelState.setMirror_self, hf]
    · rw [ChannelState.setMirror_other _ hc]
  have hno : ∀ {pc}, s.callbacks k = pc → (∀ state data, pc ≠ .storeState channel state data) →
      ∀ state data, s.callbacks k ≠ .storeState channel state data := by
    intro pc hpc hne state data he
    exact hne state data (hpc ▸ he)
  cases h with
  | state other state data hpc =>
    by_cases hc : channel = other
    · subst hc
      refine Or.inr (Or.inl ⟨state, data, hpc, ?_⟩)
      rw [ChannelState.setCallback, ChannelState.setMirror_self]
    · refine Or.inl ⟨?_, hno hpc (fun _ _ he => hc (CallbackPc.storeState.inj he).1.symm)⟩
      rw [ChannelState.setCallback, ChannelState.setMirror_other _ hc]
  | size other state data hpc => exact Or.inl ⟨hset (fun _ => rfl), hno hpc nofun⟩
  | error state data hpc => exact Or.inl ⟨hset (fun _ => rfl), hno hpc nofun⟩
  | percent other state data hpc => exact Or.inl ⟨hset (fun m => by split <;> rfl), hno hpc nofun⟩
  | apply other s' hpc hs' =>
    obtain ⟨ret,-,rfl⟩ := invoke_some hs'
    exact Or.inl ⟨rfl, hno hpc nofun⟩
  | applied other hpc _ => exact Or.inl ⟨rfl, hno hpc nofun⟩
  | applyFailed other ret hpc _ _ => exact Or.inl ⟨rfl, hno hpc nofun⟩
  | failed other hpc =>
    by_cases hc : channel = other
    · subst hc
      refine Or.inr (Or.inr ⟨hpc, ?_⟩)
      rw [ChannelState.setCallback, ChannelState.setMirror_self]
    · refine Or.inl ⟨?_, hno hpc nofun⟩
      rw [ChannelState.setCallback, ChannelState.setMirror_other _ hc]
  | failedError hpc => exact Or.inl ⟨hset (fun _ => rfl), hno hpc nofun⟩

theorem CoreMove.stepped {label : OtaLabel} (h : CoreMove sdk s i label t)
    (hlabel : ∀ call, label ≠ .invoke call) : Stepped sdk s t (.core i label) := by
  cases h with
  | client n _ core _ hstep =>
    exact Or.inr ⟨_, _, hstep, fun call hc => absurd hc (hlabel call), Or.inl rfl⟩
  | task k _ core _ _ hstep =>
    exact Or.inr ⟨_, _, hstep, fun call hc => absurd hc (hlabel call), Or.inl rfl⟩

theorem channelStep_stepped {l : ChannelLabel} (h : channelStep sdk s l = some t) :
    Stepped sdk s t l := by
  cases l with
  | core i label =>
    refine (coreStep_move h).stepped ?_
    rintro call rfl
    simp only [channelStep, coreStep, reduceCtorEq] at h
  | callback k => exact (callbackStep_move h).stepped
  | http event => exact (httpStep_move h).stepped event
  | matter event => exact (matterStep_move h).stepped event

theorem coreStep_core {label : OtaLabel} (h : channelStep sdk s (.core i label) = some t) :
    otaStep sdk s.core (i, label) = some t.core ∧ ∀ call, label ≠ .invoke call := by
  refine ⟨?_, ?_⟩
  · cases coreStep_move h with
    | client n _ core _ hcore => exact hcore
    | task k _ core _ _ hcore => exact hcore
  · rintro call rfl
    simp only [channelStep, coreStep, reduceCtorEq] at h

/-- A step beside a task: it leaves the core, or another thread moves there. -/
def Beside (sdk : Sdk G) (s t : ChannelState G) (l : ChannelLabel) (k : ℕ) : Prop :=
  t.core = s.core ∨ ∃ i label, i ≠ .task k ∧ CoreStep sdk s t l i label

theorem Stepped.beside {l : ChannelLabel} (h : Stepped sdk s t l)
    (hl : ∀ label, l ≠ .core (.task k) label) :
    Beside sdk s t l k := by
  rcases h with hcore | ⟨i,label,hcore⟩
  · exact Or.inl hcore
  · refine Or.inr ⟨i, label, ?_, hcore⟩
    rintro rfl
    rcases hcore.own with rfl | ⟨call,rfl⟩
    · exact hl label rfl
    · exact hcore.may call rfl

/-- A step that is none of the core leaves it alone but for a call. -/
theorem Stepped.shared {l : ChannelLabel} (h : Stepped sdk s t l)
    (hl : ∀ i label, l ≠ .core i label) :
    t.core.shared = s.core.shared ∧ ∀ k, t.core.pcs (.task k) = s.core.pcs (.task k) := by
  rcases h with hcore | ⟨i,label,hcore⟩
  · rw [hcore]
    exact ⟨rfl, fun _ => rfl⟩
  · rcases hcore.own with rfl | ⟨call,rfl⟩
    · exact absurd rfl (hl i label)
    · have hmay := hcore.may call rfl
      obtain ⟨r,hr,ht⟩ := step_some hcore.step
      obtain ⟨-,rfl⟩ := otaNext_invoke hr
      rw [ht]
      refine ⟨rfl, fun k => Config.move_other _ ?_ _⟩
      rintro rfl
      exact hmay

/-- A thread that has just called stands at the call's parameters. -/
theorem Stepped.points {l : ChannelLabel} (h : Stepped sdk s t l) (j : ThreadId)
    (hl : ∀ label, l ≠ .core j label) :
    t.core.pcs j = s.core.pcs j ∨ ∃ call, t.core.pcs j = .params call := by
  rcases h with hcore | ⟨i,label,hcore⟩
  · rw [hcore]
    exact Or.inl rfl
  · obtain ⟨r,hr,ht⟩ := step_some hcore.step
    rw [ht]
    by_cases hj : j = i
    · subst hj
      rcases hcore.own with rfl | ⟨call,rfl⟩
      · exact absurd rfl (hl label)
      · obtain ⟨-,rfl⟩ := otaNext_invoke hr
        exact Or.inr ⟨call, Config.move_self _ _ _⟩
    · exact Or.inl (Config.move_other _ hj _)

variable {ok : ChannelState G → ChannelLabel → Prop} {flash : Flash}

theorem keepsMutex_invoke {core : OtaState G} {core' : OtaState G}
    (h : otaStep sdk core (i, .invoke call) = some core') :
    keepsMutex core (i, .invoke call) := by
  intro hcreates
  obtain ⟨r,hr,-⟩ := step_some h
  obtain ⟨⟨ret,hp⟩,-⟩ := otaNext_invoke hr
  rw [hp] at hcreates
  cases hcreates

/-- The core runs as a core does, within whatever the channels' steps of the core and all calls keep
to. -/
theorem reach_coreWithin {okCore : OtaState G → ThreadId × OtaLabel → Prop}
    (hok : ∀ s i label, ok s (.core i label) → okCore s.core (i, label))
    (hinvoke : ∀ {core core' : OtaState G} {i : ThreadId} {call : OtaCall},
      otaStep sdk core (i, .invoke call) = some core' → okCore core (i, .invoke call))
    (h : Reach (channelStep sdk) ok (channelBoot G flash) s) :
    Reach (otaStep sdk) okCore (otaBoot G flash) s.core := by
  refine Reach.project ChannelState.core rfl ?_ h
  intro s l t hl hstep
  rcases channelStep_stepped hstep with hcore | ⟨i,label,hcore⟩
  · exact Or.inl hcore
  · refine Or.inr ⟨(i, label), ?_, hcore.step⟩
    rcases hcore.own with rfl | ⟨call,rfl⟩
    · exact hok s i label hl
    · exact hinvoke hcore.step

theorem reach_core (hok : ∀ s l, ok s l → keepsOneMutex s l)
    (h : Reach (channelStep sdk) ok (channelBoot G flash) s) :
    Reach (otaStep sdk) keepsMutex (otaBoot G flash) s.core :=
  reach_coreWithin (fun s _ _ hl => hok s _ hl) keepsMutex_invoke h

theorem reach_asks (h : Reach (channelStep sdk) ok (channelBoot G flash) s) :
    Asks ThreadId.may s.core := by
  refine @Reach.invariant _ _ _ _ _ (fun s => Asks ThreadId.may s.core) ?_ ?_ s h
  · intro i call hcall
    cases i <;> cases hcall
  · intro s l t hs _ hstep
    rcases channelStep_stepped hstep with hcore | ⟨i,label,hcore⟩
    · exact hcore ▸ hs
    · exact hs.step hcore.step hcore.may

end Sonoff.Ota
