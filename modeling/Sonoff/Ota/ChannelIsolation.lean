import Sonoff.Ota.EventFlow
import Sonoff.Ota.MatterAbort

/-! # The sessions of one channel and the calls of the other

The core takes chunks and aborts from anyone. They come from the channel that has started the
session as long as no session is started while the other channel still uses one.
-/
namespace Sonoff.Ota
open Bytes AesGcm NorFlash OtaParse Threads Machine

variable {G : Type} {sdk : Sdk G} {s t : ChannelState G} {i : ThreadId} {k n : ℕ} {flash : Flash}
  {p q : OtaPc} {x y : OtaSystem G} {label : OtaLabel} {l : ChannelLabel} {channel : Channel}

def OtaPc.hasStarted : OtaPc → Bool
  | .unlock (.start _) .ok | .idle (some .ok) => true
  | _ => false

def HttpPc.hasSession : HttpPc → Bool
  | .idle _ | .header | .startState | .startReceived | .startPercent | .startError | .start
  | .starting => false
  | _ => true

/-- The upload from its start to its reply, the Matter adapter from its start to the return of an
abort. -/
def ChannelState.uses (s : ChannelState G) : Channel → Bool
  | .http =>
    s.http.pc.hasSession || (s.http.pc = .starting && (s.core.pcs Channel.http.client).hasStarted)
  | .matter =>
    s.matterOpen || s.matter.aborts ||
      (s.matter = .starting && (s.core.pcs Channel.matter.client).hasStarted)

def findsUnused (s : ChannelState G) (i : ThreadId) : Bool :=
  match s.core.pcs i with
  | .check (.start _) =>
    s.core.shared.taskHandle ≠ none ||
      ((i = Channel.http.client || !s.uses .http) && (i = Channel.matter.client || !s.uses .matter))
  | _ => true

/-- Sessions are started one after the other, and Matter writes into its own. -/
def startsApart (s : ChannelState G) : ChannelLabel → Prop
  | .core i label => keepsMutex s.core (i, label) ∧ findsUnused s i = true
  | .matter (.callWrite _ _) => s.matterOpen = true
  | _ => True

instance (s : ChannelState G) : (l : ChannelLabel) → Decidable (startsApart s l)
  | .core i label =>
    inferInstanceAs (Decidable (keepsMutex s.core (i, label) ∧ findsUnused s i = true))
  | .matter (.callWrite _ _) => inferInstanceAs (Decidable (s.matterOpen = true))
  | .matter (.callStart _) | .matter .callAbort | .matter .step | .matter .timeout | .callback
      _ | .http _ =>
    inferInstanceAs (Decidable True)

theorem startsApart.mutex (s : ChannelState G) (l : ChannelLabel) (h : startsApart s l) :
    keepsOneMutex s l := by
  cases l with
  | core i label => exact h.1
  | _ => trivial

/-- An active state in the mirror of Matter is that of a running session of Matter, which has not
reported its end. -/
def MatterShows (s : ChannelState G) : Prop :=
  snfOtaStateIsActive (s.mirror .matter).state = true → ∃ k, s.core.shared.taskHandle = some k ∧
    s.core.shared.core.config.eventCallback = some Channel.matter.callback ∧
      ((s.core.pcs (.task k)).ending = true →
        ∃ state data, s.callbacks k = .storeState .matter state data)

theorem MatterShows.same (h : MatterShows s)
    (hmirror : snfOtaStateIsActive (t.mirror .matter).state = true →
      snfOtaStateIsActive (s.mirror .matter).state = true)
    (hshared : t.core.shared = s.core.shared)
    (htasks : ∀ k, t.core.pcs (.task k) = s.core.pcs (.task k))
    (hcallbacks : ∀ k state data, s.callbacks k = .storeState .matter state data →
      t.callbacks k = s.callbacks k) :
    MatterShows t := by
  intro ha
  obtain ⟨k,hk,hc,he⟩ := h (hmirror ha)
  rw [hshared]
  refine ⟨k, hk, hc, fun hending => ?_⟩
  rw [htasks] at hending
  obtain ⟨state,data,hpc⟩ := he hending
  exact ⟨state, data, (hcallbacks k state data hpc).trans hpc⟩

/-- The task that notifies the end of a session of Matter calls its callback. -/
theorem MatterShows.task_step {core : OtaState G} (h : MatterShows s) (hf : ChannelFacts s)
    (hstep : otaStep sdk s.core (.task k, label) = some core)
    (hreturned : s.callbacks k = .returned) :
    MatterShows ({ s with core := core }.setCallback k (ChannelState.notified core k)) := by
  intro ha
  obtain ⟨j,hj,hc,he⟩ := h ha
  by_cases hjk : j = k
  · subst hjk
    have hnot : (s.core.pcs (.task j)).ending = false := by
      by_contra hending
      obtain ⟨state,data,hpc⟩ := he (eq_true_of_ne_false hending)
      rw [hreturned] at hpc
      cases hpc
    obtain ⟨hx,-,hconfig,hexit⟩ := hf.core.task_step hj hstep hnot
    refine ⟨j, hx, hconfig ▸ hc, fun hending => ?_⟩
    have hq := hexit hending
    obtain ⟨r,hr,rfl⟩ := step_some hstep
    rw [Config.move_self] at hq
    obtain ⟨z,state,errorCode,hz,-⟩ := (otaNext_move hr).callback hq
    have hcallback : z.core.config.eventCallback = some .otaMatterEventCallback := by
      have hc' := hconfig ▸ hc
      rw [Config.move_shared, hz] at hc'
      exact hc'
    refine ⟨state, otaEventData z.core.info errorCode, ?_⟩
    rw [ChannelState.setCallback_self]
    unfold ChannelState.notified
    rw [Config.move_self, Config.move_shared, hz, hq]
    simp only [otaNotify, OtaSystem.observe, OtaSystem.setCore, hcallback]
  · obtain ⟨r,hr,rfl⟩ := step_some hstep
    have hne : ThreadId.task j ≠ .task k := fun he => hjk (ThreadId.task.inj he)
    have ho := (otaNext_move hr).outsider (hf.core.asserted (.task k)) hj (Ne.symm hne)
    refine ⟨j, ho.taskHandle.trans hj, ho.configured ▸ hc, fun hending => ?_⟩
    rw [ChannelState.setCallback_other _ hjk]
    have hpc : (s.core.move (.task k) r).pcs (.task j) = s.core.pcs (.task j) :=
      Config.move_other _ hne r
    exact he (hpc ▸ hending)

theorem MatterShows.step (h : MatterShows s) (hf : ChannelFacts s)
    (hstep : channelStep sdk s l = some t) :
    MatterShows t := by
  cases l with
  | core i label =>
    cases coreStep_move hstep with
    | client n _ core _ hcore =>
      intro ha
      obtain ⟨k,hk,hc,he⟩ := h ha
      obtain ⟨r,hr,rfl⟩ := step_some hcore
      have ho := (otaNext_move hr).outsider (hf.core.asserted (.client n)) hk nofun
      refine ⟨k, ho.taskHandle.trans hk, ho.configured ▸ hc, fun hending => he ?_⟩
      have hpc : (s.core.move (.client n) r).pcs (.task k) = s.core.pcs (.task k) :=
        Config.move_other _ (show ThreadId.task k ≠ .client n from nofun) r
      exact hpc ▸ hending
    | task k _ core hreturned _ hcore => exact h.task_step hf hcore hreturned
  | callback k =>
    have hmove := callbackStep_move hstep
    obtain ⟨hshared,htasks⟩ := hmove.stepped.shared nofun
    have hother := (hmove.reports (hf.reports k)).2
    rcases hmove.mirror_state .matter with ⟨hsame,hno⟩ | ⟨state,data,hpc,hstored⟩ | ⟨-,hfailed⟩
    · refine h.same (by rw [hsame]; exact id) hshared htasks (fun j state data hj => hother j ?_)
      rintro rfl
      exact hno state data hj
    · -- What it stores is the state of its own session, active only if that has not ended.
      intro ha
      obtain ⟨⟨next,hin⟩,hcallback,hstate⟩ := (hf.reports k).inside .matter state (by rw [hpc]; rfl)
      have hx := hf.core.running (k := k) (by rw [hin]; rfl)
      rw [hshared]
      refine ⟨k, hx, hcallback, fun hending => ?_⟩
      rw [htasks] at hending
      rw [hstored, ← hstate, hf.inactive k hx hending] at ha
      cases ha
    · intro ha
      rw [hfailed] at ha
      cases ha
  | http event =>
    have hmove := httpStep_move hstep
    obtain ⟨hshared,htasks⟩ := (hmove.stepped event).shared nofun
    exact h.same (by rw [hmove.mirror_matter]; exact id) hshared htasks
      (fun k _ _ _ => by rw [hmove.callbacks])
  | matter event =>
    have hmove := matterStep_move hstep
    obtain ⟨hshared,htasks⟩ := (hmove.stepped event).shared nofun
    refine h.same ?_ hshared htasks (fun k _ _ _ => by rw [hmove.callbacks])
    rcases hmove.mirror_state with ⟨hsame,-⟩ | ⟨hidle,-⟩ | ⟨hsame,-⟩
    · rw [hsame]
      exact id
    · rw [hidle]
      nofun
    · rw [hsame]
      exact id

theorem otaParams_error {call : OtaCall} {ret : SnfOtaRet} (h : otaParams call = .error ret) :
    ret = .errInvalidParam := by
  unfold otaParams at h
  split at h
  · cases h
    rfl
  · repeat' split at h
    all_goals cases h
    all_goals rfl
  · cases h
    rfl
  · split at h <;> cases h
    rfl
  · cases h
  · cases h

/-- A start returns success only if its session has just been created. -/
theorem OtaMove.hasStarted (h : OtaMove sdk i p x q y) (ha : Asserted i p x) {config : SnfOtaConfig}
    (hcall : p.asks = some (.start (some config))) (hq : q.hasStarted = true) :
    p.hasStarted = true ∨ p = .startTask config := by
  have hrequest : ∀ {request : OtaRequest}, some request.call = some (.start (some config)) →
      request = .start config := by
    intro request hr
    cases request <;> cases hr
    rfl
  cases h with
  | pc hpc =>
    cases hpc with
    | refuse call ret hret =>
      rw [otaParams_error hret] at hq
      cases hq
    | check request =>
      obtain rfl := hrequest hcall
      simp only [otaCheck] at hq
      split at hq <;> cases hq
    | sendFailed request event ret hret =>
      obtain rfl := hrequest hcall
      cases ret with
      | ok => exact absurd rfl hret
      | _ => cases hq
    | «return» next => cases hcall
    | first | request | noMutex | wait | keepQueue | noQueue => cases hq
    | _ => cases hcall
  | prepare x config' sizeKnown =>
    split at hq
    case isTrue => cases hq
    case isFalse hret =>
      generalize (snfOtaStartPrepare x config' sizeKnown).1 = ret at hq hret
      cases ret with
      | ok => exact absurd rfl hret
      | _ => cases hq
  | task x config' =>
    cases hcall
    exact Or.inr rfl
  | sent request event _ =>
    obtain rfl := hrequest hcall
    cases ha.2
  | count x request len =>
    obtain rfl := hrequest hcall
    cases ha.2
  | given request ret _ =>
    obtain rfl := hrequest hcall
    cases ret with
    | ok => exact Or.inl rfl
    | _ => cases hq
  | mutex | mutexFailed | taken | queue | init | taskFailed => cases hq
  | _ => cases hcall

theorem HttpUpload.headerReceived_pc (u : HttpUpload) (header : List UInt8) :
    (u.headerReceived header).pc.hasSession = false ∧ (u.headerReceived header).pc ≠ .starting := by
  unfold HttpUpload.headerReceived
  dsimp only
  split
  · simp only [HttpUpload.moveTo]
    split <;> exact ⟨rfl, nofun⟩
  · split
    · exact ⟨rfl, nofun⟩
    · simp only [HttpUpload.moveTo]
      split <;> exact ⟨rfl, nofun⟩

/-- An upload comes to use a session by its start. -/
theorem HttpMove.uses (h : HttpMove sdk s t) (ht : t.uses .http = true) : s.uses .http = true := by
  have hsession : ∀ {pc}, s.http.pc = pc → pc.hasSession = true → s.uses .http = true := by
    intro pc hpc hs
    simp only [ChannelState.uses, hpc, hs, Bool.true_or]
  have hunused : t.http.pc.hasSession = false → t.http.pc ≠ .starting → s.uses .http = true := by
    intro hs hne
    simp only [ChannelState.uses, hs, decide_eq_false hne, Bool.false_and, Bool.or_false] at ht
    cases ht
  cases h with
  | refuse reply data hpc => exact hunused rfl nofun
  | request reply data hpc =>
    obtain ⟨hs,hne⟩ := (s.http.begin data s.core.shared.session).headerReceived_pc data
    exact hunused hs hne
  | header data hpc =>
    obtain ⟨hs,hne⟩ :=
      HttpUpload.headerReceived_pc { s.http with stream := s.http.stream ++ data }
      (s.http.header ++ data)
    exact hunused hs hne
  | reset pc f hr =>
    generalize s.http.pc = old at hr
    cases hr <;> exact hunused rfl nofun
  | look pc hl =>
    obtain ⟨old,hpc⟩ : ∃ old, s.http.pc = old := ⟨_, rfl⟩
    rw [hpc] at hl
    cases hl with
    | headerFailed => exact hunused rfl nofun
    | _ => exact hsession hpc rfl
  | start s' hpc hs' =>
    obtain ⟨ret,-,rfl⟩ := invoke_some hs'
    simp only [ChannelState.uses, ChannelState.httpAt, HttpUpload.moveTo, Config.move_self] at ht
    cases ht
  | started ret hpc hret =>
    by_cases hok : ret = .ok
    · subst hok
      simp only [ChannelState.uses, hpc, asks_of_returned hret]
      rfl
    · rw [if_neg hok] at hunused
      exact hunused rfl nofun
  | fill written filled data hpc _ _ => exact hsession hpc rfl
  | write pointer offset len s' hpc hs' => exact hsession hpc rfl
  | written expected ret hpc hret => exact hsession hpc rfl
  | abort error s' hpc hs' => exact hsession hpc rfl
  | aborting error ret hpc hret => exact hsession hpc rfl

/-- Matter comes to use one by its start, too, or goes on to abort the one that its mirror shows. -/
theorem MatterMove.uses (h : MatterMove sdk s t) (ht : t.uses .matter = true) :
    s.uses .matter = true ∨ s.matter = .abortCheck ∧ snfOtaStateIsActive (s.mirror .matter).state =
      true := by
  have hopen : t.matterOpen = s.matterOpen → t.matter.aborts = false →
    decide (t.matter = .starting) = false →
      s.uses .matter = true := by
    intro ho ha hne
    simp only [ChannelState.uses, ha, ho, hne, Bool.or_false, Bool.false_and] at ht
    simp only [ChannelState.uses, ht, Bool.true_or]
  have haborts : ∀ {pc}, s.matter = pc → pc.aborts = true → s.uses .matter = true := by
    intro pc hpc ha
    simp only [ChannelState.uses, hpc, ha, Bool.true_or, Bool.or_true]
  cases h with
  | reset pc f hr =>
    refine Or.inl ?_
    generalize s.matter = old at hr
    cases hr <;> exact hopen rfl rfl rfl
  | look pc hl =>
    obtain ⟨old,hpc⟩ : ∃ old, s.matter = old := ⟨_, rfl⟩
    rw [hpc] at hl
    cases hl with
    | active hactive => exact Or.inr ⟨hpc, hactive⟩
    | abortAgain _ => exact Or.inl (haborts hpc rfl)
    | aborted _ => exact Or.inl (haborts hpc rfl)
    | abortTimeout => exact Or.inl (haborts hpc rfl)
    | _ => exact Or.inl (hopen rfl rfl rfl)
  | start imageSize s' hpc hs' =>
    obtain ⟨ret,-,rfl⟩ := invoke_some hs'
    refine Or.inl ?_
    simp only [ChannelState.uses, ChannelState.matterAt, Config.move_self, MatterPc.aborts,
      OtaPc.hasStarted, Bool.or_false, Bool.and_false] at ht
    simp only [ChannelState.uses, ht, Bool.true_or]
  | started hpc hret =>
    refine Or.inl ?_
    simp only [ChannelState.uses, hpc, asks_of_returned hret, OtaPc.hasStarted, decide_true,
      Bool.and_true, Bool.or_true]
  | startFailed ret hpc hret _ => exact Or.inl (hopen rfl rfl rfl)
  | write offset len s' hpc hs' =>
    obtain ⟨ret,-,rfl⟩ := invoke_some hs'
    exact Or.inl (hopen rfl rfl rfl)
  | written expected ret hpc _ =>
    refine Or.inl (hopen rfl ?_ ?_) <;> simp only [ChannelState.matterAt] <;> split
    all_goals rfl
  | inactive hpc _ => cases ht
  | abort s' hpc hs' => exact Or.inl (haborts hpc rfl)
  | aborting hpc _ => exact Or.inl (haborts hpc rfl)
  | abortRefused ret hpc _ _ => exact Or.inl (haborts hpc rfl)
  | abortEnd hpc => exact Or.inl (haborts hpc rfl)

/-- Inside a start its client comes to success by creating the session. -/
theorem CoreFacts.hasStarted_back {core core' : OtaState G} (hf : CoreFacts core)
    (hstep : otaStep sdk core (i, label) = some core') (hidle : ∀ call, label ≠ .invoke call)
    (hcall : ∀ call, (core.pcs channel.client).asks = some call →
      ∃ config, call = .start (some config))
    (hq : (core'.pcs channel.client).hasStarted = true) :
    (core.pcs channel.client).hasStarted = true ∨ i = channel.client ∧
      ∃ config, core.pcs i = .startTask config := by
  obtain ⟨r,hr,rfl⟩ := step_some hstep
  by_cases hi : channel.client = i
  · subst hi
    rw [Config.move_self] at hq
    obtain ⟨call,hasks⟩ := hf.client_asks hstep hidle
    obtain ⟨config,rfl⟩ := hcall call hasks
    rcases (otaNext_move hr).hasStarted (hf.asserted channel.client) hasks hq with hp | hp
    · exact Or.inl hp
    · exact Or.inr ⟨rfl, config, hp⟩
  · rw [Config.move_other _ hi] at hq
    exact Or.inl hq

theorem ChannelFacts.uses_core {core : OtaState G} (hf : ChannelFacts s)
    (hstep : otaStep sdk s.core (i, label) = some core)
    (hidle : ∀ call, label ≠ .invoke call) (ht : t.core = core) (hhttp : t.http = s.http)
    (hmatter : t.matter = s.matter)
    (hopen : t.matterOpen = s.matterOpen) (hu : t.uses channel = true) :
    s.uses channel = true ∨ i = channel.client ∧ ∃ config, s.core.pcs i = .startTask config := by
  cases channel with
  | http =>
    simp only [ChannelState.uses, hhttp, ht, Bool.or_eq_true, Bool.and_eq_true,
      decide_eq_true_eq] at hu ⊢
    rcases hu with hs | ⟨hpc,hq⟩
    · exact Or.inl (Or.inl hs)
    · have hcall : ∀ call, (s.core.pcs Channel.http.client).asks = some call →
          ∃ config, call = .start (some config) := by
        intro call hasks
        have hc := hf.calls.http call hasks
        simp only [HttpUpload.calling, hpc] at hc
        exact ⟨_, hc⟩
      rcases hf.core.hasStarted_back hstep hidle hcall hq with hp | hp
      · exact Or.inl (Or.inr ⟨hpc, hp⟩)
      · exact Or.inr hp
  | matter =>
    simp only [ChannelState.uses, hmatter, hopen, ht, Bool.or_eq_true, Bool.and_eq_true,
      decide_eq_true_eq] at hu ⊢
    rcases hu with hs | ⟨hpc,hq⟩
    · exact Or.inl (Or.inl hs)
    · have hcall : ∀ call, (s.core.pcs Channel.matter.client).asks = some call →
          ∃ config, call = .start (some config) := by
        intro call hasks
        have hc := hf.calls.matter call hasks
        rw [hpc] at hc
        obtain ⟨imageSize,rfl⟩ := hc
        exact ⟨_, rfl⟩
      rcases hf.core.hasStarted_back hstep hidle hcall hq with hp | hp
      · exact Or.inl (Or.inr ⟨hpc, hp⟩)
      · exact Or.inr hp

/-- How a channel comes to use a session. -/
theorem ChannelFacts.uses_back (hf : ChannelFacts s) (hstep : channelStep sdk s l = some t)
    (hu : t.uses channel = true) : s.uses channel = true
      ∨ (∃ label config core, l = .core channel.client label ∧
        s.core.pcs channel.client = .startTask config ∧
          otaStep sdk s.core (channel.client, label) = some core ∧ t.core = core)
      ∨ channel = .matter ∧ snfOtaStateIsActive (s.mirror .matter).state = true ∧
        ∃ event, l = .matter event := by
  have hcore : ∀ {i label core}, l = .core i label → otaStep sdk s.core (i, label) = some core →
      (∀ call, label ≠ .invoke call) → t.core = core → t.http = s.http → t.matter = s.matter →
      t.matterOpen = s.matterOpen → s.uses channel = true ∨
        (∃ label config core, l = .core channel.client label ∧
          s.core.pcs channel.client = .startTask config ∧
          otaStep sdk s.core (channel.client, label) = some core ∧ t.core = core)
        ∨ channel = .matter ∧ snfOtaStateIsActive (s.mirror .matter).state = true ∧
          ∃ event, l = .matter event := by
    intro i label core hl hc hidle ht hhttp hmatter hopen
    rcases hf.uses_core hc hidle ht hhttp hmatter hopen hu with hs | ⟨rfl,config,hp⟩
    · exact Or.inl hs
    · exact Or.inr (Or.inl ⟨label, config, core, hl, hp, hc, ht⟩)
  have hsame : (∀ channel : Channel, t.core.pcs channel.client = s.core.pcs channel.client) →
    t.http = s.http → t.matter = s.matter → t.matterOpen = s.matterOpen →
    s.uses channel = true := by
    intro hpcs hhttp hmatter hopen
    cases channel
    · simpa only [ChannelState.uses, hhttp, hpcs] using hu
    · simpa only [ChannelState.uses, hmatter, hopen, hpcs] using hu
  cases l with
  | core i label =>
    have hidle : ∀ call, label ≠ .invoke call := by
      rintro call rfl
      simp only [channelStep, coreStep, reduceCtorEq] at hstep
    cases coreStep_move hstep with
    | client n _ core _ hc => exact hcore rfl hc hidle rfl rfl rfl rfl
    | task k _ core _ _ hc => exact hcore rfl hc hidle rfl rfl rfl rfl
  | callback k =>
    have hmove := callbackStep_move hstep
    obtain ⟨hhttp,hmatter,hopen⟩ := hmove.channels
    exact Or.inl (hsame (fun c => hmove.pcs (Ne.symm (applyClient_ne_channel k c))) hhttp hmatter
      hopen)
  | http event =>
    have hmove := httpStep_move hstep
    cases channel with
    | http => exact Or.inl (hmove.uses hu)
    | matter =>
      refine Or.inl ?_
      have hpcs := hmove.pcs (show Channel.matter.client ≠ Channel.http.client by rintro ⟨⟩)
      simpa only [ChannelState.uses, hmove.matter, hmove.matterOpen, hpcs] using hu
  | matter event =>
    have hmove := matterStep_move hstep
    cases channel with
    | http =>
      refine Or.inl ?_
      have hpcs := hmove.pcs (show Channel.http.client ≠ Channel.matter.client by rintro ⟨⟩)
      simpa only [ChannelState.uses, hmove.http, hpcs] using hu
    | matter =>
      rcases hmove.uses hu with hs | ⟨-,hactive⟩
      · exact Or.inl hs
      · exact Or.inr (Or.inr ⟨rfl, hactive, event, rfl⟩)

def MatterPc.writes : MatterPc → Bool
  | .write _ _ | .writing _ | .waitSize _ | .waitState _ => true
  | _ => false

def Issued (x : OtaSystem G) (event : SnfOtaEvent) : Prop :=
  event.id ≠ .imageApply → ∃ channel :
  Channel, x.core.config.eventCallback = some channel.callback ∧
    event.issuer = channel.client

structure ChannelsApart (s : ChannelState G) : Prop where
  owner : ∀ channel, s.uses channel = true → s.core.shared.taskHandle ≠ none →
    s.core.shared.core.config.eventCallback = some channel.callback
  starting : ∀ channel other, (s.core.pcs channel.client).starting = true → other ≠ channel →
    s.uses other = false
  writing : s.matter.writes = true → s.matterOpen = true
  shows : MatterShows s
  issued : ∀ event, EventAbout s.core event → Issued s.core.shared event

theorem config_callback {other : Channel} {imageSize : ℕ}
    (h : (other.config imageSize).eventCallback = some channel.callback) : other = channel := by
  match other, channel, h with
  | .http, .http, _ => rfl
  | .matter, .matter, _ => rfl

theorem channel_client_injective {other : Channel} (h : channel.client = other.client) :
    channel = other := by
  match channel, other, h with
  | .http, .http, _ => rfl
  | .matter, .matter, _ => rfl

theorem ChannelsApart.owner_step (h : ChannelsApart s) (hf : ChannelFacts s)
    (hstep : channelStep sdk s l = some t)
    (channel : Channel) (hu : t.uses channel = true) (hx : t.core.shared.taskHandle ≠ none) :
    t.core.shared.core.config.eventCallback = some channel.callback := by
  have hback := hf.uses_back hstep hu
  by_cases hl : ∃ i label, l = .core i label
  · obtain ⟨i,label,rfl⟩ := hl
    obtain ⟨hcore,-⟩ := coreStep_core hstep
    have hstarting : ∀ {config}, s.core.pcs i = .startTask config →
        s.core.shared.taskHandle = none := by
      intro config hp
      exact (hf.core.asserted i).of_starting (by rw [hp]; rfl)
    rcases hf.session_back hcore hx with ⟨hh,-,hconfig⟩ | ⟨other,imageSize,rfl,hp,hconfig⟩
    · rw [hconfig]
      rcases hback with hs | ⟨label',config,core,hl,hp,-⟩ | ⟨-,-,event,hl⟩
      · exact h.owner channel hs (hh ▸ hx)
      · cases hl
        exact absurd (hh.trans (hstarting hp)) hx
      · cases hl
    · rw [hconfig]
      by_cases hc : channel = other
      · rw [hc]
        rfl
      · rcases hback with hs | ⟨label',config,core,hl,-⟩ | ⟨-,-,event,hl⟩
        · rw [h.starting other channel (by rw [hp]; rfl) hc] at hs
          cases hs
        · exact absurd (channel_client_injective (ChannelLabel.core.inj hl).1).symm hc
        · cases hl
  · have hl : ∀ i label, l ≠ .core i label := fun i label he => hl ⟨i, label, he⟩
    rw [((channelStep_stepped hstep).shared hl).1] at hx ⊢
    rcases hback with hs | ⟨label,config,core,he,-⟩ | ⟨rfl,hactive,-⟩
    · exact h.owner channel hs hx
    · exact absurd he (hl _ label)
    · obtain ⟨k,-,hc,-⟩ := h.shows hactive
      exact hc

theorem findsUnused_check {config : SnfOtaConfig} (h : findsUnused s channel.client = true)
    (hp : s.core.pcs channel.client = .check (.start config))
    (hno : s.core.shared.taskHandle = none) {other : Channel}
    (ho : other ≠ channel) : s.uses other = false := by
  simp only [findsUnused, hp, hno, ne_eq, not_true_eq_false, decide_false, Bool.false_or,
    Bool.and_eq_true, Bool.or_eq_true, decide_eq_true_eq, Bool.not_eq_true'] at h
  cases other with
  | http =>
    rcases h.1 with he | he
    · exact absurd (channel_client_injective he).symm ho
    · exact he
  | matter =>
    rcases h.2 with he | he
    · exact absurd (channel_client_injective he).symm ho
    · exact he

theorem ChannelsApart.starting_step (h : ChannelsApart s) (hf : ChannelFacts s)
    (hok : startsApart s l) (hstep : channelStep sdk s l = some t) (channel other : Channel)
    (hstart : (t.core.pcs channel.client).starting = true) (ho : other ≠ channel) :
    t.uses other = false := by
  by_contra hu
  have hback := hf.uses_back hstep (eq_true_of_ne_false hu)
  by_cases hl : ∃ i label, l = .core i label
  · obtain ⟨i,label,rfl⟩ := hl
    obtain ⟨hcore,-⟩ := coreStep_core hstep
    obtain ⟨r,hr,hmove⟩ := step_some hcore
    rw [hmove] at hstart
    rcases hback with hs | ⟨label',config,core,hl,hp,-⟩ | ⟨-,-,event,hl⟩
    · by_cases hi : channel.client = i
      · subst hi
        rw [Config.move_self] at hstart
        rcases (otaNext_move hr).starting hstart with hp | ⟨⟨config,hp⟩,hno⟩
        · rw [h.starting channel other hp ho] at hs
          cases hs
        · rw [findsUnused_check hok.2 hp hno ho] at hs
          cases hs
      · rw [Config.move_other _ hi] at hstart
        rw [h.starting channel other hstart ho] at hs
        cases hs
    · obtain rfl := (ChannelLabel.core.inj hl).1
      have hne : channel.client ≠ other.client := fun he => ho (channel_client_injective he).symm
      rw [Config.move_other _ hne] at hstart
      have hcrit : (s.core.pcs other.client).critical = true := by
        rw [hp]
        rfl
      exact hne (hf.core.owned.exclusive (starting_critical hstart) hcrit)
    · cases hl
  · have hl : ∀ i label, l ≠ .core i label := fun i label he => hl ⟨i, label, he⟩
    have hstart' : (s.core.pcs channel.client).starting = true := by
      rcases (channelStep_stepped hstep).points channel.client fun label =>
        hl _ label with hsame | ⟨call,hp⟩
      · exact hsame ▸ hstart
      · rw [hp] at hstart
        cases hstart
    rcases hback with hs | ⟨label,config,core,he,-⟩ | ⟨rfl,hactive,-⟩
    · rw [h.starting channel other hstart' ho] at hs
      cases hs
    · exact hl _ label he
    · obtain ⟨k,hk,-⟩ := h.shows hactive
      exact nomatch hk.symm.trans ((hf.core.asserted channel.client).of_starting hstart')

/-- Matter writes only between its start and the return of an abort. -/
theorem MatterMove.writing (h : MatterMove sdk s t) (ht : t.matter.writes = true) :
    (t.matterOpen = s.matterOpen ∧ s.matter.writes = true) ∨
      ∃ ret offset len, s.matter = .idle ret ∧ t = s.matterAt (.write offset len) := by
  cases h with
  | reset pc f hr =>
    generalize s.matter = old at hr
    cases hr <;> cases ht
  | look pc hl =>
    obtain ⟨old,hpc⟩ : ∃ old, s.matter = old := ⟨_, rfl⟩
    rw [hpc] at hl
    cases hl with
    | callWrite ret offset len => exact Or.inr ⟨ret, offset, len, hpc, rfl⟩
    | waiting expected _ => exact Or.inl ⟨rfl, by rw [hpc]; rfl⟩
    | waitAgain expected _ => exact Or.inl ⟨rfl, by rw [hpc]; rfl⟩
    | _ => cases ht
  | write offset len s' hpc hs' =>
    obtain ⟨ret,-,rfl⟩ := invoke_some hs'
    exact Or.inl ⟨rfl, by rw [hpc]; rfl⟩
  | written expected ret hpc _ => exact Or.inl ⟨rfl, by rw [hpc]; rfl⟩
  | start _ s' _ hs' | abort s' _ hs' =>
    obtain ⟨ret,-,rfl⟩ := invoke_some hs'
    cases ht
  | _ => cases ht

theorem matterStep_callWrite {event : MatterEvent} {ret : Option MatterReturn} {offset len : ℕ}
    (h : matterStep sdk s event = some (s.matterAt (.write offset len)))
    (hpc : s.matter = .idle ret) : event = .callWrite offset len := by
  cases event with
  | callStart imageSize =>
    simp only [matterStep, hpc, ChannelState.matterAt] at h
    split at h <;> cases congrArg ChannelState.matter (Option.some.inj h)
  | callWrite offset' len' =>
    simp only [matterStep, hpc, ChannelState.matterAt] at h
    cases congrArg ChannelState.matter (Option.some.inj h)
    rfl
  | callAbort =>
    simp only [matterStep, hpc, ChannelState.matterAt] at h
    cases congrArg ChannelState.matter (Option.some.inj h)
  | step => simp only [matterStep, hpc, reduceCtorEq] at h
  | timeout => simp only [matterStep, hpc, reduceCtorEq] at h

theorem ChannelsApart.writing_step (h : ChannelsApart s) (hok : startsApart s l)
    (hstep : channelStep sdk s l = some t) (ht : t.matter.writes = true) : t.matterOpen = true := by
  cases l with
  | core i label =>
    cases coreStep_move hstep with
    | client n _ core _ _ => exact h.writing ht
    | task k _ core _ _ _ => exact h.writing ht
  | callback k =>
    obtain ⟨-,hmatter,hopen⟩ := (callbackStep_move hstep).channels
    rw [hopen]
    exact h.writing (hmatter ▸ ht)
  | http event =>
    have hmove := httpStep_move hstep
    rw [hmove.matterOpen]
    exact h.writing (hmove.matter ▸ ht)
  | matter event =>
    rcases (matterStep_move hstep).writing ht with ⟨hopen,hw⟩ | ⟨ret,offset,len,hpc,rfl⟩
    · rw [hopen]
      exact h.writing hw
    · obtain rfl := matterStep_callWrite hstep hpc
      exact hok

/-- What a channel's client has called the core with, its channel uses the session for. -/
theorem ChannelsApart.admitted (h : ChannelsApart s) (hf : ChannelFacts s) {request : OtaRequest}
    (hp : s.core.pcs i = .check request) (hrunning : s.core.shared.taskHandle ≠ none)
    (hstart : request.isStart = false) (hid : (otaEvent i s.core.shared request).id ≠ .imageApply) :
    Issued s.core.shared (otaEvent i s.core.shared request) := by
  intro _
  have hasks : (s.core.pcs i).asks = some request.call := by
    rw [hp]
    rfl
  have hissuer : (otaEvent i s.core.shared request).issuer = i := by
    cases request <;> rfl
  have hnotStart : ∀ config, request.call ≠ .start config := by
    intro config he
    cases request with
    | start _ => cases hstart
    | _ => cases he
  have hmay := hf.asks i _ hasks
  rw [hissuer]
  match i, hmay, hasks with
  | .client 0, _, hasks =>
    have hc := hf.calls.http _ hasks
    have hu : s.uses .http = true := by
      simp only [ChannelState.uses]
      unfold HttpUpload.calling at hc
      split at hc
      · exact absurd hc (hnotStart _)
      case h_2 hpc =>
        rw [hpc]
        rfl
      case h_3 hpc =>
        rw [hpc]
        rfl
      · exact hc.elim
    exact ⟨.http, h.owner .http hu hrunning, rfl⟩
  | .client 1, _, hasks =>
    have hc := hf.calls.matter _ hasks
    have hu : s.uses .matter = true := by
      simp only [ChannelState.uses]
      unfold MatterPc.calling at hc
      split at hc
      · obtain ⟨imageSize,hc⟩ := hc
        exact absurd hc (hnotStart _)
      case h_2 hpc =>
        rw [h.writing (by rw [hpc]; rfl)]
        rfl
      case h_3 hpc =>
        rw [hpc]
        simp only [MatterPc.aborts, Bool.or_true, Bool.true_or]
      · exact hc.elim
    exact ⟨.matter, h.owner .matter hu hrunning, rfl⟩
  | .client (n + 2), hmay, _ =>
    have happly : request = .apply := by
      cases request with
      | apply => rfl
      | _ => cases hmay
    subst happly
    exact absurd rfl hid
  | .task n, hmay, _ => exact hmay.elim

/-- Where an event comes from in a step of the channels. -/
theorem EventAbout.stepped {event : SnfOtaEvent} (he : EventAbout t.core event)
    (hstep : channelStep sdk s l = some t) :
    EventAbout s.core event ∨ ∃ i label request, l = .core i label ∧ s.core.pcs i = .check request ∧
      t.core.pcs i = .send request event ∧ event = otaEvent i s.core.shared request ∧
        t.core.shared = s.core.shared := by
  by_cases hl : ∃ i label, l = .core i label
  · obtain ⟨i,label,rfl⟩ := hl
    rcases he.back (coreStep_core hstep).1 with hold | ⟨request,hp,hsend,hevent,hshared⟩
    · exact Or.inl hold
    · exact Or.inr ⟨i, label, request, rfl, hp, hsend, hevent, hshared⟩
  · have hl : ∀ i label, l ≠ .core i label := fun i label he => hl ⟨i, label, he⟩
    have hstepped := channelStep_stepped hstep
    have hshared := (hstepped.shared hl).1
    refine Or.inl ?_
    rcases he with ⟨events,hq,hmem⟩ | ⟨i,hi⟩
    · exact Or.inl ⟨events, hshared ▸ hq, hmem⟩
    · rcases hstepped.points i fun label => hl _ label with hsame | ⟨call,hp⟩
      · exact Or.inr ⟨i, hsame ▸ hi⟩
      · rw [hp] at hi
        cases hi

theorem ChannelsApart.issued_step (h : ChannelsApart s) (hf : ChannelFacts s) (hft : ChannelFacts t)
    (hstep : channelStep sdk s l = some t) (event : SnfOtaEvent) (he : EventAbout t.core event) :
    Issued t.core.shared event := by
  have hx := hft.core.events_running he
  rcases he.stepped hstep with hold | ⟨i,label,request,-,hp,hsend,rfl,hshared⟩
  · intro hid
    rw [(hf.session_kept hstep (hf.core.events_running hold) hx).2.2]
    exact h.issued event hold hid
  · have hasserted := hft.core.asserted i
    rw [hsend] at hasserted
    intro hid
    rw [hshared] at hx ⊢
    exact h.admitted hf hp hx hasserted.2 hid hid

theorem channelBoot_apart (flash : Flash) : ChannelsApart (channelBoot G flash) where
  owner := fun channel hu => by cases channel <;> cases hu
  starting := fun channel other hs => by cases channel <;> cases hs
  writing := nofun
  shows := nofun
  issued := by
    rintro event (⟨events,hq,-⟩ | ⟨i,hi⟩)
    · cases hq
    · cases i <;> cases hi

theorem reach_apart (h : Reach (channelStep sdk) startsApart (channelBoot G flash) s) :
    ChannelsApart s := by
  refine @Reach.invariant_along _ _ _ _ _ ChannelsApart ChannelFacts
    (fun s hs => reach_channelFacts startsApart.mutex hs) (channelBoot_apart flash) ?_ s h
  intro s l t hf hft hs hok hstep
  exact
    { owner := hs.owner_step hf hstep
      starting := hs.starting_step hf hok hstep
      writing := hs.writing_step hok hstep
      shows := hs.shows.step hf hstep
      issued := hs.issued_step hf hft hstep }

/-- Every chunk consumed and every abort carried out comes from the starter of its session. -/
def EffectsOwn (core : OtaState G) : Prop :=
  ∀ o n event, o ∈ core.shared.history → o.effect = some (n, event) →
    ∃ config, .started event.issuer n config ∈ core.shared.history

theorem EffectsOwn.step {core : OtaState G} (h : EffectsOwn s.core) (hf : ChannelFacts s)
    (ha : ChannelsApart s) (hstep : otaStep sdk s.core (i, label) = some core) :
    EffectsOwn core := by
  obtain ⟨r,hr,rfl⟩ := step_some hstep
  have hmove := otaNext_move hr
  intro o n event ho he
  have hkept : ∀ {j n config}, .started j n config ∈ s.core.shared.history →
      .started j n config ∈ r.2.history := by
    intro j n config hs
    cases hmove.record (hf.core.asserted i) with
    | keep _ _ _ hsame _ => exact (hsame j n config).mpr hs
    | idle _ _ hhist _ _ => exact hhist ▸ hs
    | spawn config' _ _ hy =>
      rw [hy]
      exact List.mem_cons_of_mem _ hs
  rcases hmove.effect ho he with hold | ⟨rfl,hp,hid⟩
  · obtain ⟨config,hs⟩ := h o n event hold he
    exact ⟨config, hkept hs⟩
  · have habout : EventAbout s.core event := Or.inr ⟨i, by rw [hp]; rfl⟩
    obtain ⟨channel,hcallback,hissuer⟩ := ha.issued event habout hid
    obtain ⟨other,imageSize,hconfig,hs⟩ := hf.installed (hf.core.events_running habout)
    obtain rfl : other = channel := config_callback (hconfig ▸ hcallback)
    rw [hissuer]
    exact ⟨_, hkept hs⟩

/-- In every session started while the other channel uses none, the chunks that are consumed and the
aborts that are carried out were issued by the channel whose start created the session. -/
theorem channels_isolated (h : Reach (channelStep sdk) startsApart (channelBoot G flash) s) :
    (∀ n event bytes, .consumed n event bytes ∈ s.core.shared.history →
      ∃ config, .started event.issuer n config ∈ s.core.shared.history) ∧
    ∀ n event, .aborted n event ∈ s.core.shared.history →
      ∃ config, .started event.issuer n config ∈ s.core.shared.history := by
  have hown : EffectsOwn s.core := by
    refine @Reach.invariant_of _ _ _ _ _ (fun s => EffectsOwn s.core) (fun s => ChannelFacts s ∧
      ChannelsApart s) (fun s hs => ⟨reach_channelFacts startsApart.mutex hs, reach_apart hs⟩)
      (fun _ _ _ ho _ => absurd ho List.not_mem_nil) ?_ s h
    rintro s l t ⟨hf,ha⟩ hs _ hstep
    rcases channelStep_stepped hstep with hcore | ⟨i,label,hcore⟩
    · exact hcore ▸ hs
    · exact hs.step hf ha hcore.step
  exact ⟨fun n event bytes ho => hown _ n event ho rfl, fun n event ho => hown _ n event ho rfl⟩

theorem channels_isolated_half :
    ∃ s, execWithin (channelStep softSdk) startsApart (channelBoot Unit blankFlash) matterAborts =
      some s ∧ (∀ n event bytes, .consumed n event bytes ∈ s.core.shared.history →
        ∃ config, .started event.issuer n config ∈ s.core.shared.history)
      ∧ ∀ n event, .aborted n event ∈ s.core.shared.history →
        ∃ config, .started event.issuer n config ∈ s.core.shared.history := by
  have hrun : (execWithin (channelStep softSdk) startsApart (channelBoot Unit blankFlash)
      matterAborts).isSome = true := by
    decide +kernel
  obtain ⟨s,hs⟩ := Option.isSome_iff_exists.mp hrun
  exact ⟨s, hs, channels_isolated (Reach.execWithin .init hs)⟩

def httpStarts : List ChannelLabel :=
  .http (.request uploadHead) :: httpSteps 5 ++ coreSteps Channel.http.client 10 ++ httpSteps 1 ++
    coreSteps (.task 0) 1

def waitsOut (k : ℕ) :
    List ChannelLabel := [.core (.task k) .elapse, .core (.task k) (.proceed true)]

/-- The client of an upload sends no byte of the body until its session has timed out and Matter has
started the next. -/
def lateChunk : List ChannelLabel :=
  httpStarts ++ waitsOut 0 ++ waitsOut 0 ++ waitsOut 0 ++ callbackSteps 0 4 ++ coreSteps (.task 0) 5
    ++ .matter (.callStart 101) :: matterSteps 4 ++ coreSteps Channel.matter.client 9 ++
      matterSteps 1
    ++ coreSteps (.task 1) 1 ++ .http (.recv bytePackage) :: httpSteps 1 ++
      coreSteps Channel.http.client 7
    ++ coreSteps (.task 1) 1 ++ [.core (.task 1) (.process bytePackage [])]

/-- The chunk of the upload is consumed in the session of Matter. -/
theorem channels_not_isolated :
    ∃ s event bytes config, exec (channelStep softSdk) (channelBoot Unit blankFlash) lateChunk =
      some s ∧ .consumed 2 event bytes ∈ s.core.shared.history ∧ event.issuer = Channel.http.client
      ∧ .started Channel.matter.client 2 config ∈ s.core.shared.history
      ∧ ∀ config, .started event.issuer 2 config ∉ s.core.shared.history := by
  have hrun : (exec (channelStep softSdk) (channelBoot Unit blankFlash) lateChunk).map (fun s =>
    decide (.consumed 2 ⟨.imageData, 0, httpDataBuffer, 101, Channel.http.client, 2, .receiving⟩
    bytePackage ∈ s.core.shared.history
        ∧ .started Channel.matter.client 2 (Channel.matter.config 101) ∈ s.core.shared.history
        ∧ s.core.shared.history.all (fun o => match o with
          | .started i n _ => i ≠ Channel.http.client || n ≠ 2
          | _ => true))) = some true := by
    decide +kernel
  obtain ⟨s,hs,hview⟩ := Option.map_eq_some_iff.mp hrun
  obtain ⟨hconsumed,hstarted,hall⟩ := of_decide_eq_true hview
  refine ⟨s, _, _, _, hs, hconsumed, rfl, hstarted, fun config hmem => ?_⟩
  have := List.all_eq_true.mp hall _ hmem
  cases this

end Sonoff.Ota
