import Sonoff.Ota.Mirrors

/-! # The chunk in flight

A channel lends a buffer with every write and waits until the chunk has been received. At most one
chunk is about, and it belongs to the write that its channel waits for or gives up.
-/
namespace Sonoff.Ota
open Bytes AesGcm NorFlash OtaParse Threads Machine

variable {G : Type} {sdk : Sdk G} {s t : ChannelState G} {i : ThreadId} {k : ℕ} {flash : Flash}
  {label : OtaLabel} {l : ChannelLabel} {channel : Channel} {event : SnfOtaEvent} {p q : OtaPc}
  {x y : OtaSystem G}

def Channel.buffers : Channel → List ℕ
  | .http => [httpHeaderBuffer, httpDataBuffer]
  | .matter => [matterBlock]

/-- The points at which an upload has lent a buffer: from its write to the end of the wait, and of
the abort behind a wait that has failed. -/
def HttpPc.lends : HttpPc → Bool
  | .writing _ | .waitSize _ | .waitState _ | .failed | .abortCheck _ | .abort _ | .aborting
      _ | .abortWait _ => true
  | _ => false

/-- A write that fails is followed by an abort. -/
def MatterPc.lends : MatterPc → Bool
  | .writing _ | .waitSize _ | .waitState _ | .abortCheck | .abort | .aborting | .abortWait => true
  | .idle (some (.write ret)) => ret ≠ 0
  | _ => false

def ChannelState.lends (s : ChannelState G) : Channel → Bool
  | .http => s.http.pc.lends
  | .matter => s.matter.lends

def OtaPc.pastCheck : OtaPc → Bool
  | .send _ _ | .count _ _ | .unlock _ _ | .idle _ => true
  | _ => false

def OtaPc.pastSend : OtaPc → Bool
  | .unlock _ _ | .idle _ => true
  | _ => false

/-- The upload has lent the chunk; what it waits for is the chunk's end. -/
def HttpPc.lentFor (pc : HttpPc) (caller : OtaPc) (event : SnfOtaEvent) : Prop :=
  match pc with
  | .writing expected => expected = u32Add event.offset event.size ∧ caller.pastCheck = true
  | .waitSize expected | .waitState expected => expected = u32Add event.offset event.size
  | pc => pc.lends = true

def MatterPc.lentFor (pc : MatterPc) (caller : OtaPc) (event : SnfOtaEvent) : Prop :=
  match pc with
  | .writing expected => expected = u32Add event.offset event.size ∧ caller.pastCheck = true
  | .waitSize expected | .waitState expected => expected = u32Add event.offset event.size
  | pc => pc.lends = true

def ChannelState.lentFor (s : ChannelState G) (event : SnfOtaEvent) : Channel → Prop
  | .http => s.http.pc.lentFor (s.core.pcs Channel.http.client) event
  | .matter => s.matterOpen = true ∧ s.matter.lentFor (s.core.pcs Channel.matter.client) event

theorem ChannelState.lentFor.lends (h : s.lentFor event channel) : s.lends channel = true := by
  cases channel with
  | http =>
    have h : s.http.pc.lentFor (s.core.pcs Channel.http.client) event := h
    show s.http.pc.lends = true
    generalize s.http.pc = pc at h
    cases pc with
    | writing | waitSize | waitState | failed | abortCheck | abort | aborting | abortWait => rfl
    | _ => exact h
  | matter =>
    have h : s.matter.lentFor (s.core.pcs Channel.matter.client) event := h.2
    show s.matter.lends = true
    generalize s.matter = pc at h
    cases pc with
    | writing | waitSize | waitState | abortCheck | abort | aborting | abortWait => rfl
    | _ => exact h

def ChannelState.abortSent (s : ChannelState G) : Channel → Bool
  | .http =>
    match s.http.pc with
    | .aborting _ => (s.core.pcs Channel.http.client).pastSend
    | .abortWait _ => true
    | _ => false
  | .matter =>
    match s.matter with
    | .aborting => (s.core.pcs Channel.matter.client).pastSend
    | .abortWait | .abortEnd => true
    | _ => false

/-- The channel has a session that it has not aborted. -/
def ChannelState.writable (s : ChannelState G) : Channel → Bool
  | .http => s.uses .http && !s.abortSent .http
  | .matter =>
    (s.matterOpen || (s.matter = .starting && (s.core.pcs Channel.matter.client).hasStarted)) &&
    !s.abortSent .matter

theorem ChannelState.writable_uses (h : s.writable channel = true) : s.uses channel = true := by
  cases channel with
  | http => exact (Bool.and_eq_true_iff.mp h).1
  | matter =>
    have h := (Bool.and_eq_true_iff.mp h).1
    simp only [ChannelState.uses, Bool.or_eq_true] at h ⊢
    rcases h with h | h
    · exact Or.inl (Or.inl h)
    · exact Or.inr h

theorem ChannelState.writable_unsent (h : s.writable channel = true) :
    s.abortSent channel = false := by
  cases channel
  · exact Bool.not_eq_true' _ ▸ (Bool.and_eq_true_iff.mp h).2
  · exact Bool.not_eq_true' _ ▸ (Bool.and_eq_true_iff.mp h).2

def ChannelState.writes (s : ChannelState G) (expected : ℕ) : Channel → Prop
  | .http => s.http.pc = .writing expected
  | .matter => s.matter = .writing expected ∧ s.matterOpen = true

def ChannelState.aborts (s : ChannelState G) : Channel → Prop
  | .http => ∃ error, s.http.pc = .aborting error
  | .matter => s.matter = .aborting

theorem ChannelState.writes.uses {expected : ℕ} (h : s.writes expected channel) :
    s.uses channel = true := by
  cases channel with
  | http =>
    have h : s.http.pc = .writing expected := h
    simp only [ChannelState.uses, h]
    rfl
  | matter => simp only [ChannelState.uses, h.2, Bool.true_or]

theorem ChannelState.aborts.uses (h : s.aborts channel) : s.uses channel = true := by
  cases channel with
  | http =>
    obtain ⟨error,h⟩ := h
    simp only [ChannelState.uses, h]
    rfl
  | matter =>
    have h : s.matter = .aborting := h
    simp only [ChannelState.uses, h, MatterPc.aborts, Bool.or_true, Bool.true_or]

theorem ChannelState.aborts.sent (h : s.aborts channel) :
    s.abortSent channel = (s.core.pcs channel.client).pastSend := by
  cases channel with
  | http =>
    obtain ⟨error,h⟩ := h
    simp only [ChannelState.abortSent, h]
  | matter =>
    have h : s.matter = .aborting := h
    simp only [ChannelState.abortSent, h]

theorem ChannelState.writes.writable {expected : ℕ} (h : s.writes expected channel) :
    s.writable channel = true := by
  cases channel with
  | http =>
    have h : s.http.pc = .writing expected := h
    simp only [ChannelState.writable, ChannelState.uses, ChannelState.abortSent, h]
    rfl
  | matter =>
    obtain ⟨h,hopen⟩ := h
    simp only [ChannelState.writable, ChannelState.abortSent, h, hopen]
    rfl

/-- A write inside the core is that of its channel. -/
theorem ChannelFacts.writer {offset data len : ℕ} (hf : ChannelFacts s) (ha : ChannelsApart s)
    (hasks : (s.core.pcs i).asks = some (.write offset (some data) len)) :
    ∃ channel : Channel, i = channel.client ∧ s.writes (u32Add offset len) channel ∧
      (channel = .matter → data = matterBlock) := by
  have hmay := hf.asks i _ hasks
  match i, hmay, hasks with
  | .client 0, _, hasks =>
    have hc := hf.calls.http _ hasks
    refine ⟨.http, rfl, ?_⟩
    unfold HttpUpload.calling at hc
    split at hc
    · cases hc
    case h_2 expected hpc =>
      obtain ⟨offset',pointer,len',hcall,rfl⟩ := hc
      cases hcall
      exact ⟨hpc, nofun⟩
    · cases hc
    · exact hc.elim
  | .client 1, _, hasks =>
    have hc := hf.calls.matter _ hasks
    refine ⟨.matter, rfl, ?_⟩
    unfold MatterPc.calling at hc
    split at hc
    · obtain ⟨imageSize,hc⟩ := hc
      cases hc
    case h_2 expected hpc =>
      obtain ⟨offset',len',hcall,rfl⟩ := hc
      cases hcall
      exact ⟨⟨hpc, ha.writing (by rw [hpc]; rfl)⟩, fun _ => rfl⟩
    · cases hc
    · exact hc.elim
  | .client (n + 2), hmay, _ => cases hmay
  | .task n, hmay, _ => exact hmay.elim

theorem ChannelFacts.aborter (hf : ChannelFacts s) (hasks : (s.core.pcs i).asks = some .abort) :
    ∃ channel : Channel, i = channel.client ∧ s.aborts channel := by
  have hmay := hf.asks i _ hasks
  match i, hmay, hasks with
  | .client 0, _, hasks =>
    have hc := hf.calls.http _ hasks
    refine ⟨.http, rfl, ?_⟩
    unfold HttpUpload.calling at hc
    split at hc
    · cases hc
    · obtain ⟨_,_,_,hc,-⟩ := hc
      cases hc
    case h_3 error hpc =>
      exact ⟨error, hpc⟩
    · exact hc.elim
  | .client 1, _, hasks =>
    have hc := hf.calls.matter _ hasks
    refine ⟨.matter, rfl, ?_⟩
    unfold MatterPc.calling at hc
    split at hc
    · obtain ⟨_,hc⟩ := hc
      cases hc
    · obtain ⟨_,_,hc,-⟩ := hc
      cases hc
    case h_3 hpc =>
      exact hpc
    · exact hc.elim
  | .client (n + 2), hmay, _ => cases hmay
  | .task n, hmay, _ => exact hmay.elim

/-- The channel that uses a session is the one that it reports to. -/
theorem ChannelsApart.runs (ha : ChannelsApart s) (hu : s.uses channel = true)
    (hx : s.core.shared.taskHandle ≠ none) :
    s.runs channel := ⟨hx, ha.owner channel hu hx⟩

theorem ChannelState.runs.same {other : Channel} (h : s.runs channel) (ho : s.runs other) :
    other = channel := by
  match channel, other, h.2.symm.trans ho.2 with
  | .http, .http, _ => rfl
  | .matter, .matter, _ => rfl

theorem OtaMove.pastCheck (h : OtaMove sdk i p x q y) (hp : p.pastCheck = true) :
    q.pastCheck = true ∨ ∃ ret, p = .idle ret := by
  cases h with
  | pc hpc =>
    cases hpc with
    | invoke ret call _ => exact Or.inr ⟨ret, rfl⟩
    | sendFailed request event ret _ => exact Or.inl rfl
    | _ => cases hp
  | given request ret _ => exact Or.inl rfl
  | sent request event _ =>
    refine Or.inl ?_
    unfold afterSend
    split <;> rfl
  | count x request len => exact Or.inl rfl
  | _ => cases hp

theorem OtaMove.pastSend (h : OtaMove sdk i p x q y) (hp : p.pastSend = true) :
    q.pastSend = true ∨ ∃ ret, p = .idle ret := by
  cases h with
  | pc hpc =>
    cases hpc with
    | invoke ret call _ => exact Or.inr ⟨ret, rfl⟩
    | _ => cases hp
  | given request ret _ => exact Or.inl rfl
  | _ => cases hp

theorem otaNext_idle {ret : Option SnfOtaRet} {r : OtaPc × OtaSystem G}
    (h : otaNext sdk i (.idle ret) x label = some r) : ∃ call, label = .invoke call := by
  cases label with
  | invoke call => exact ⟨call, rfl⟩
  | _ => cases h

/-- What a call keeps up to its return, the steps of the core keep of all threads. -/
theorem call_keeps {A : OtaPc → Prop} {core core' : OtaState G} {j : ThreadId}
    (hmove : ∀ {p q : OtaPc} {x y : OtaSystem G}, OtaMove sdk i p x q y → A p → A q ∨
      ∃ ret, p = .idle ret)
    (hstep : otaStep sdk core (i, label) = some core') (hidle : ∀ call, label ≠ .invoke call)
    (hp : A (core.pcs j)) : A (core'.pcs j) := by
  obtain ⟨r,hr,rfl⟩ := step_some hstep
  by_cases hj : j = i
  · subst hj
    rw [Config.move_self]
    rcases hmove (otaNext_move hr) hp with hq | ⟨ret,hret⟩
    · exact hq
    · dsimp only at hr hret
      rw [hret] at hr
      obtain ⟨call,hcall⟩ := otaNext_idle hr
      exact absurd hcall (hidle call)
  · rwa [Config.move_other _ hj]

/-- Behind the checks a call stays until it returns. -/
theorem pastCheck_step {core core' : OtaState G} {j : ThreadId}
    (hstep : otaStep sdk core (i, label) = some core')
    (hidle : ∀ call, label ≠ .invoke call) (hp : (core.pcs j).pastCheck = true) :
    (core'.pcs j).pastCheck = true :=
  @call_keeps _ sdk i label (fun p => p.pastCheck = true) core core' j OtaMove.pastCheck hstep hidle
    hp

theorem pastSend_step {core core' : OtaState G} {j : ThreadId}
    (hstep : otaStep sdk core (i, label) = some core')
    (hidle : ∀ call, label ≠ .invoke call) (hp : (core.pcs j).pastSend = true) :
    (core'.pcs j).pastSend = true :=
  @call_keeps _ sdk i label (fun p => p.pastSend = true) core core' j OtaMove.pastSend hstep hidle
    hp

theorem HttpMove.writable (h : HttpMove sdk s t) (ht : t.writable .http = true) :
    s.writable .http = true := by
  obtain ⟨hu,hsent⟩ := Bool.and_eq_true_iff.mp ht
  refine Bool.and_eq_true_iff.mpr ⟨h.uses hu, ?_⟩
  have hother : ∀ {pc}, s.http.pc = pc → (∀ error, pc ≠ .aborting error ∧ pc ≠ .abortWait error) →
      (!s.abortSent .http) = true := by
    intro pc hpc hne
    simp only [ChannelState.abortSent, hpc]
    cases pc with
    | aborting error => exact absurd rfl (hne error).1
    | abortWait error => exact absurd rfl (hne error).2
    | _ => rfl
  cases h with
  | refuse reply data hpc => exact hother hpc (fun _ => ⟨nofun, nofun⟩)
  | request reply data hpc => exact hother hpc (fun _ => ⟨nofun, nofun⟩)
  | header data hpc => exact hother hpc (fun _ => ⟨nofun, nofun⟩)
  | reset pc f hr =>
    obtain ⟨old,hpc⟩ : ∃ old, s.http.pc = old := ⟨_, rfl⟩
    rw [hpc] at hr
    cases hr <;> exact hother hpc (fun _ => ⟨nofun, nofun⟩)
  | look pc hl =>
    obtain ⟨old,hpc⟩ : ∃ old, s.http.pc = old := ⟨_, rfl⟩
    rw [hpc] at hl
    cases hl with
    | abortAgain error _ => cases hsent
    | aborted error _ => cases hu
    | abortTimeout error => cases hu
    | _ => exact hother hpc (fun _ => ⟨nofun, nofun⟩)
  | start s' hpc hs' => exact hother hpc (fun _ => ⟨nofun, nofun⟩)
  | started ret hpc hret => exact hother hpc (fun _ => ⟨nofun, nofun⟩)
  | fill written filled data hpc _ _ => exact hother hpc (fun _ => ⟨nofun, nofun⟩)
  | write pointer offset len s' hpc hs' => exact hother hpc (fun _ => ⟨nofun, nofun⟩)
  | written expected ret hpc hret => exact hother hpc (fun _ => ⟨nofun, nofun⟩)
  | abort error s' hpc hs' => exact hother hpc (fun _ => ⟨nofun, nofun⟩)
  | aborting error ret hpc hret =>
    by_cases hok : ret = .ok
    · rw [if_pos hok] at hsent
      cases hsent
    · rw [if_neg hok] at hu
      cases hu

theorem MatterMove.writable (h : MatterMove sdk s t) (ht : t.writable .matter = true) :
    s.writable .matter = true := by
  have hopen : ∀ {pc pc'}, s.matter = pc → t.matter = pc' → t.matterOpen = s.matterOpen →
      decide (pc' = .starting) = false →
        decide (pc = .aborting ∨ pc = .abortWait ∨ pc = .abortEnd) = false →
        s.writable .matter = true := by
    intro pc pc' hpc hpc' ho hstart hno
    simp only [ChannelState.writable, hpc', ho, hstart, Bool.false_and, Bool.or_false,
      Bool.and_eq_true] at ht
    simp only [ChannelState.writable, ChannelState.abortSent, hpc, ht.1, Bool.true_or,
      Bool.true_and]
    cases pc with
    | aborting | abortWait | abortEnd => cases hno
    | _ => rfl
  cases h with
  | reset pc f hr =>
    obtain ⟨old,hpc⟩ : ∃ old, s.matter = old := ⟨_, rfl⟩
    rw [hpc] at hr
    cases hr <;> exact hopen hpc rfl rfl rfl rfl
  | look pc hl =>
    obtain ⟨old,hpc⟩ : ∃ old, s.matter = old := ⟨_, rfl⟩
    rw [hpc] at hl
    cases hl with
    | abortAgain _ => cases (Bool.and_eq_true_iff.mp ht).2
    | aborted _ => cases (Bool.and_eq_true_iff.mp ht).2
    | abortTimeout => cases (Bool.and_eq_true_iff.mp ht).2
    | _ => exact hopen hpc rfl rfl rfl rfl
  | start imageSize s' hpc hs' =>
    obtain ⟨ret,-,rfl⟩ := invoke_some hs'
    simp only [ChannelState.writable, ChannelState.matterAt, Config.move_self, OtaPc.hasStarted,
      Bool.and_false, Bool.or_false, Bool.and_eq_true] at ht
    simp only [ChannelState.writable, ChannelState.abortSent, hpc, ht.1]
    rfl
  | started hpc hret =>
    simp only [ChannelState.writable, ChannelState.abortSent, hpc, asks_of_returned hret,
      OtaPc.hasStarted, decide_true, Bool.and_true, Bool.or_true, Bool.not_false]
  | startFailed ret hpc hret _ => exact hopen hpc rfl rfl rfl rfl
  | write offset len s' hpc hs' =>
    obtain ⟨ret,-,rfl⟩ := invoke_some hs'
    exact hopen hpc rfl rfl rfl rfl
  | written expected ret hpc _ =>
    refine hopen hpc rfl rfl ?_ rfl
    split <;> rfl
  | inactive hpc _ => cases ht
  | abort s' hpc hs' =>
    obtain ⟨ret,-,rfl⟩ := invoke_some hs'
    exact hopen hpc rfl rfl rfl rfl
  | aborting hpc _ => cases (Bool.and_eq_true_iff.mp ht).2
  | abortRefused ret hpc _ _ => cases ht
  | abortEnd hpc => cases ht

/-- The steps of the core. -/
theorem ChannelFacts.writable_core (hf : ChannelFacts s)
    (hstep : channelStep sdk s (.core i label) = some t)
    (ht : t.writable channel = true) : s.writable channel = true ∨ (s.core.pcs channel.client).starting = true := by
  obtain ⟨hcore,hidle⟩ := coreStep_core hstep
  obtain ⟨hhttp,hmatter,hopen⟩ := (coreStep_move hstep).channels
  have huses := hf.uses_core hcore hidle rfl hhttp hmatter hopen (ChannelState.writable_uses ht)
  have hsent : s.abortSent channel = true → t.abortSent channel = true := by
    intro hs
    cases channel with
    | http =>
      simp only [ChannelState.abortSent, hhttp] at hs ⊢
      split at hs
      · exact pastSend_step hcore hidle hs
      · rfl
      · cases hs
    | matter =>
      simp only [ChannelState.abortSent, hmatter] at hs ⊢
      split at hs
      · exact pastSend_step hcore hidle hs
      · rfl
      · rfl
      · cases hs
  rcases huses with hu | ⟨rfl,config,hp⟩
  · refine Or.inl ?_
    cases channel with
    | http =>
      have hno : s.abortSent .http = false := by
        by_contra hs
        have := (Bool.and_eq_true_iff.mp ht).2
        rw [hsent (eq_true_of_ne_false hs)] at this
        cases this
      simp only [ChannelState.writable, hu, hno]
      rfl
    | matter =>
      obtain ⟨hgo,hunsent⟩ := Bool.and_eq_true_iff.mp ht
      have hno : s.abortSent .matter = false := by
        by_contra hs
        rw [hsent (eq_true_of_ne_false hs)] at hunsent
        cases hunsent
      refine Bool.and_eq_true_iff.mpr ⟨?_, by rw [hno]; rfl⟩
      rw [hopen, hmatter] at hgo
      simp only [ChannelState.uses, Bool.or_eq_true, Bool.and_eq_true,
        decide_eq_true_eq] at hgo hu ⊢
      rcases hgo with ho | ⟨hpc,-⟩
      · exact Or.inl ho
      · rcases hu with (ho | ha) | hstarted
        · exact Or.inl ho
        · rw [hpc] at ha
          cases ha
        · exact Or.inr hstarted
  · exact Or.inr (by rw [hp]; rfl)

/-- A channel comes to a session that it has not aborted by its start only. -/
theorem ChannelFacts.writable_back (hf : ChannelFacts s) (hstep : channelStep sdk s l = some t)
    (ht : t.writable channel = true) :
    s.writable channel = true ∨ (s.core.pcs channel.client).starting = true := by
  have hsame : t.http = s.http → t.matter = s.matter → t.matterOpen = s.matterOpen →
      t.core.pcs channel.client = s.core.pcs channel.client → s.writable channel = true := by
    intro hhttp hmatter hopen hpcs
    cases channel
    · simpa only [ChannelState.writable, ChannelState.uses, ChannelState.abortSent, hhttp,
        hpcs] using ht
    · simpa only [ChannelState.writable, ChannelState.abortSent, hmatter, hopen, hpcs] using ht
  cases l with
  | core i label => exact hf.writable_core hstep ht
  | callback k =>
    have hmove := callbackStep_move hstep
    obtain ⟨hhttp,hmatter,hopen⟩ := hmove.channels
    exact Or.inl (hsame hhttp hmatter hopen
      (hmove.pcs (Ne.symm (applyClient_ne_channel k channel))))
  | http event =>
    have hmove := httpStep_move hstep
    cases channel with
    | http => exact Or.inl (hmove.writable ht)
    | matter =>
      have hpcs := hmove.pcs (show Channel.matter.client ≠ Channel.http.client from by rintro ⟨⟩)
      refine Or.inl ?_
      simpa only [ChannelState.writable, ChannelState.abortSent, hmove.matter, hmove.matterOpen,
        hpcs] using ht
  | matter event =>
    have hmove := matterStep_move hstep
    cases channel with
    | http =>
      have hpcs := hmove.pcs (show Channel.http.client ≠ Channel.matter.client from by rintro ⟨⟩)
      refine Or.inl ?_
      simpa only [ChannelState.writable, ChannelState.uses, ChannelState.abortSent, hmove.http,
        hpcs] using ht
    | matter => exact Or.inl (hmove.writable ht)

theorem ChannelFacts.pending_running (hf : ChannelFacts s) (h : event ∈ pendingEvents s.core) :
    s.core.shared.taskHandle ≠ none := hf.core.events_running (pendingEvents_about h)

/-- A step after which an event is about begins in a running session. -/
theorem EventAbout.running (he : EventAbout t.core event) (hf : ChannelFacts s)
    (hft : ChannelFacts t) (hstep : channelStep sdk s l = some t) :
    s.core.shared.taskHandle ≠ none := by
  rcases he.stepped hstep with hold | ⟨i,label,request,-,-,-,-,hshared⟩
  · exact hf.core.events_running hold
  · exact hshared ▸ hft.core.events_running he

/-- What a step does to the pending events. -/
theorem ChannelFacts.pending_stepped (hf : ChannelFacts s) (hstep : channelStep sdk s l = some t)
    (hs : s.core.shared.taskHandle = some k) (ht : t.core.shared.taskHandle ≠ none) :
    pendingEvents t.core = pendingEvents s.core
      ∨ (∃ event label, l = .core (.task k) label ∧ s.core.pcs (.task k) = .handle event ∧
          pendingEvents s.core = event :: pendingEvents t.core)
      ∨ ∃ i label request event, l = .core i label ∧ s.core.pcs i = .send request event ∧
          t.core.pcs i = afterSend request event .ok ∧
            pendingEvents t.core = pendingEvents s.core ++ [event] := by
  have htk : t.core.shared.taskHandle = some k :=
    (hf.session_kept hstep (by rw [hs]; nofun) ht).1.trans hs
  by_cases hl : ∃ i label, l = .core i label
  · obtain ⟨i,label,rfl⟩ := hl
    rcases hf.core.pending_step (coreStep_core hstep).1 hs
      htk with hsame | ⟨event,rfl,hp,hpend⟩ | ⟨request,event,hp,hq,hpend⟩
    · exact Or.inl hsame
    · exact Or.inr (Or.inl ⟨event, label, rfl, hp, hpend⟩)
    · exact Or.inr (Or.inr ⟨i, label, request, event, rfl, hp, hq, hpend⟩)
  · have hl : ∀ i label, l ≠ .core i label := fun i label he => hl ⟨i, label, he⟩
    obtain ⟨hshared,htasks⟩ := (channelStep_stepped hstep).shared hl
    exact Or.inl (by rw [pendingEvents_running hs, pendingEvents_running htk, htasks, hshared])

structure PointsIntoBuffers (s : ChannelState G) : Prop where
  point : ∀ pointer offset len, s.http.pc = .write pointer offset len →
    pointer ∈ Channel.http.buffers
  call : ∀ offset pointer len, (s.core.pcs Channel.http.client).asks =
    some (.write offset (some pointer) len) → pointer ∈ Channel.http.buffers

theorem HttpUpload.next_pc (u : HttpUpload) (written pointer offset len : ℕ) :
    u.next written ≠ .write pointer offset len := by
  unfold HttpUpload.next
  split <;> exact nofun

theorem HttpMove.points (h : HttpMove sdk s t) {pointer offset len : ℕ}
    (ht : t.http.pc = .write pointer offset len) : pointer ∈ Channel.http.buffers := by
  cases h with
  | refuse reply data hpc => cases ht
  | request reply data hpc =>
    have hno := ((s.http.begin data s.core.shared.session).headerReceived_pc data).1
    have ht : ((s.http.begin data s.core.shared.session).headerReceived data).pc = _ := ht
    rw [ht] at hno
    cases hno
  | header data hpc =>
    have hno := (HttpUpload.headerReceived_pc { s.http with stream := s.http.stream ++ data }
      (s.http.header ++ data)).1
    have ht : (HttpUpload.headerReceived { s.http with stream := s.http.stream ++ data }
      (s.http.header ++ data)).pc = _ := ht
    rw [ht] at hno
    cases hno
  | reset pc f hr =>
    generalize s.http.pc = old at hr
    cases hr <;> cases ht
  | look pc hl =>
    generalize s.http.pc = old at hl
    cases hl with
    | reached expected _ => exact absurd ht (HttpUpload.next_pc _ _ _ _ _)
    | _ => cases ht
  | start s' hpc hs' => cases ht
  | started ret hpc hret =>
    have ht : (if ret = .ok then s.http.receiveImage else .idle (some (.startFailed ret))) =
      .write pointer offset len := ht
    split at ht
    · unfold HttpUpload.receiveImage at ht
      split at ht
      · cases ht
      · split at ht
        · cases ht
          exact List.mem_cons_self
        · exact absurd ht (HttpUpload.next_pc _ _ _ _ _)
    · cases ht
  | fill written filled data hpc _ _ =>
    have ht : (if filled + data.length = s.http.chunkSize written then
      HttpPc.write httpDataBuffer written (s.http.chunkSize written)
        else .receive written (filled + data.length)) =
        .write pointer offset len := ht
    split at ht
    · cases ht
      exact List.mem_cons_of_mem _ List.mem_cons_self
    · cases ht
  | write pointer' offset' len' s' hpc hs' => cases ht
  | written expected ret hpc hret =>
    have ht : (if ret = .ok then HttpPc.waitSize expected else .failed) =
      .write pointer offset len := ht
    split at ht <;> cases ht
  | abort error s' hpc hs' => cases ht
  | aborting error ret hpc hret =>
    have ht : (if ret = .ok then HttpPc.abortWait error else .idle (some (.failed error))) =
      .write pointer offset len := ht
    split at ht <;> cases ht

theorem PointsIntoBuffers.step (h : PointsIntoBuffers s) (hstep : channelStep sdk s l = some t) :
    PointsIntoBuffers t := by
  cases l with
  | core i label =>
    obtain ⟨hcore,hidle⟩ := coreStep_core hstep
    exact ⟨by rw [(coreStep_move hstep).channels.1]; exact h.point,
      fun offset pointer len hasks => h.call offset pointer len (asks_back hcore hidle hasks)⟩
  | callback k =>
    have hmove := callbackStep_move hstep
    refine ⟨by rw [hmove.channels.1]; exact h.point, ?_⟩
    rw [hmove.pcs (Ne.symm (applyClient_ne_channel k .http))]
    exact h.call
  | http event =>
    have hmove := httpStep_move hstep
    refine ⟨fun _ _ _ ht => hmove.points ht, ?_⟩
    cases hmove with
    | start s' _ hs' =>
      obtain ⟨ret,-,rfl⟩ := invoke_some hs'
      intro offset pointer len hasks
      cases asks_invoked hasks
    | write pointer offset len s' hpc hs' =>
      obtain ⟨ret,-,rfl⟩ := invoke_some hs'
      intro offset' pointer' len' hasks
      cases asks_invoked hasks
      exact h.point _ _ _ hpc
    | abort error s' _ hs' =>
      obtain ⟨ret,-,rfl⟩ := invoke_some hs'
      intro offset pointer len hasks
      cases asks_invoked hasks
    | _ => exact h.call
  | matter event =>
    have hmove := matterStep_move hstep
    refine ⟨by rw [hmove.http]; exact h.point, ?_⟩
    rw [hmove.pcs (show Channel.http.client ≠ Channel.matter.client from nofun)]
    exact h.call

theorem reach_points {ok : ChannelState G → ChannelLabel → Prop}
    (h : Reach (channelStep sdk) ok (channelBoot G flash) s) : PointsIntoBuffers s := by
  refine @Reach.invariant _ _ _ _ _ PointsIntoBuffers ?_ (fun _ _ _ hs _ hstep => hs.step hstep) s h
  constructor
  · intro pointer offset len hpc
    cases hpc
  · intro offset pointer len hasks
    cases hasks

/-- A chunk was there before the step, or its write has just been admitted. -/
theorem ChunkAbout.stepped (h : ChunkAbout t.core event) (hstep : channelStep sdk s l = some t) :
    ChunkAbout s.core event ∨ ∃ i label offset data len, l = .core i label ∧
      s.core.pcs i = .check (.write offset data len) ∧
      t.core.pcs i = .send (.write offset data len) event ∧
        event = otaEvent i s.core.shared (.write offset data len) ∧
      t.core.shared = s.core.shared ∧ s.core.shared.core.info.state = .receiving := by
  obtain ⟨habout,hid⟩ := h
  rcases habout.stepped hstep with hold | ⟨i,label,request,rfl,hp,hsend,hevent,hshared⟩
  · exact Or.inl ⟨hold, hid⟩
  · refine Or.inr ?_
    cases request with
    | write offset data len =>
      refine ⟨i, label, offset, data, len, rfl, hp, hsend, hevent, hshared, ?_⟩
      obtain ⟨hcore,hidle⟩ := coreStep_core hstep
      obtain ⟨r,hr,hmove⟩ := step_some hcore
      rw [hmove, Config.move_self] at hsend
      dsimp only at hr
      rw [hp] at hr
      cases label with
      | proceed success =>
        simp only [otaNext, otaCheck] at hr
        cases hr
        dsimp only at hsend
        split at hsend
        · cases hsend
        · split at hsend
          case isTrue => cases hsend
          case isFalse hcheck =>
            by_contra hst
            rw [snfOtaWriteCheck, if_pos hst] at hcheck
            exact hcheck (by rintro ⟨⟩)
      | _ => cases hr
    | _ =>
      rw [hevent] at hid
      cases hid

def NoChunk (core : OtaState G) : Prop := ∀ event, ¬ChunkAbout core event

/-- A session that does not receive admits none. -/
theorem NoChunk.step (h : NoChunk s.core) (hst : s.core.shared.core.info.state ≠ .receiving)
    (hstep : channelStep sdk s l = some t) : NoChunk t.core := by
  intro event he
  rcases he.stepped hstep with hold | ⟨_,_,_,_,_,-,-,-,-,-,hreceiving⟩
  · exact h event hold
  · exact hst hreceiving

theorem HttpMove.lentFor (h : HttpMove sdk s t)
    (hl : s.http.pc.lentFor (s.core.pcs Channel.http.client) event)
    (hsize : (s.mirror .http).receivedSize < u32Add event.offset event.size)
    (hactive : snfOtaStateIsActive (s.mirror .http).state = true)
    (hreturned : ∀ error ret, s.http.pc = .aborting error →
      s.returned Channel.http.client = some ret → ret = .ok)
    (hwait : ∀ error, s.http.pc = .abortWait error → t.http.pc = .abortWait error) :
    t.http.pc.lentFor (t.core.pcs Channel.http.client) event := by
  have hquiet : ∀ {pc}, s.http.pc = pc → pc.lends = false →
      t.http.pc.lentFor (t.core.pcs Channel.http.client) event := by
    intro pc hpc hno
    have hlends : s.lends .http = true := ChannelState.lentFor.lends hl
    rw [ChannelState.lends, hpc, hno] at hlends
    cases hlends
  cases h with
  | refuse reply data hpc => exact hquiet hpc rfl
  | request reply data hpc => exact hquiet hpc rfl
  | header data hpc => exact hquiet hpc rfl
  | reset pc f hr =>
    obtain ⟨old,hpc⟩ : ∃ old, s.http.pc = old := ⟨_, rfl⟩
    rw [hpc] at hr
    cases hr <;> exact hquiet hpc rfl
  | look pc hlook =>
    obtain ⟨old,hpc⟩ : ∃ old, s.http.pc = old := ⟨_, rfl⟩
    rw [hpc] at hlook hl
    cases hlook with
    | received expected hle =>
      have hl : expected = u32Add event.offset event.size := hl
      exact absurd hsize (by omega)
    | waiting expected _ => exact hl
    | waitFailed expected _ => rfl
    | waitAgain expected _ => exact hl
    | waitTimeout expected => rfl
    | failed => rfl
    | active error _ => rfl
    | inactive error hno => exact nomatch hno.symm.trans hactive
    | abortAgain error _ => rfl
    | aborted error hno => exact nomatch hno.symm.trans hactive
    | abortTimeout error => cases hwait error hpc
    | _ => exact hquiet hpc rfl
  | start s' hpc hs' => exact hquiet hpc rfl
  | started ret hpc hret => exact hquiet hpc rfl
  | fill written filled data hpc _ _ => exact hquiet hpc rfl
  | write pointer offset len s' hpc hs' => exact hquiet hpc rfl
  | written expected ret hpc hret =>
    rw [hpc] at hl
    show (if ret = .ok then HttpPc.waitSize expected else .failed).lentFor _ _
    split
    · exact hl.1
    · rfl
  | abort error s' hpc hs' => rfl
  | aborting error ret hpc hret =>
    obtain rfl := hreturned error ret hpc hret
    rfl

theorem active_of_begun {state : SnfOtaState} (h : state ≠ .idle)
    (hfailed : snfOtaStateIsFailed state = false) :
    snfOtaStateIsActive state = true := by
  cases state with
  | idle => exact absurd rfl h
  | verifyFailed | abort | failed => cases hfailed
  | _ => rfl

theorem MatterMove.lentFor (h : MatterMove sdk s t) (hopen : s.matterOpen = true)
    (hl : s.matter.lentFor (s.core.pcs Channel.matter.client) event)
    (hsize : (s.mirror .matter).receivedSize < u32Add event.offset event.size)
    (hover : snfOtaStateIsFailed (s.mirror .matter).state = false)
    (hreturned : ∀ ret, s.matter = .aborting → s.returned Channel.matter.client = some ret →
      ret = .ok)
    (hidle : ∀ ret, s.matter = .idle ret → t.matter = .abortCheck)
    (hcheck : s.matter = .abortCheck → snfOtaStateIsActive (s.mirror .matter).state = true)
    (hbegun : s.matter.aborts = true → (s.mirror .matter).state ≠ .idle)
    (hwait : s.matter = .abortWait → snfOtaStateIsActive (s.mirror .matter).state = true →
      t.matter = .abortWait) :
    t.matterOpen = true ∧ t.matter.lentFor (t.core.pcs Channel.matter.client) event := by
  have hquiet : ∀ {pc}, s.matter = pc → pc.lends = false →
      t.matterOpen = true ∧ t.matter.lentFor (t.core.pcs Channel.matter.client) event := by
    intro pc hpc hno
    have hlends : s.lends .matter = true := ChannelState.lentFor.lends ⟨hopen, hl⟩
    rw [ChannelState.lends, hpc, hno] at hlends
    cases hlends
  cases h with
  | reset pc f hr =>
    obtain ⟨old,hpc⟩ : ∃ old, s.matter = old := ⟨_, rfl⟩
    rw [hpc] at hr
    cases hr <;> exact hquiet hpc rfl
  | look pc hlook =>
    obtain ⟨old,hpc⟩ : ∃ old, s.matter = old := ⟨_, rfl⟩
    rw [hpc] at hlook hl
    cases hlook with
    | callStart ret imageSize => cases hidle ret hpc
    | refuse ret => cases hidle ret hpc
    | callWrite ret offset len => cases hidle ret hpc
    | callAbort ret => exact ⟨hopen, rfl⟩
    | received expected hle =>
      have hl : expected = u32Add event.offset event.size := hl
      exact absurd hsize (by omega)
    | waiting expected _ => exact ⟨hopen, hl⟩
    | waitFailed expected _ => exact ⟨hopen, rfl⟩
    | waitAgain expected _ => exact ⟨hopen, hl⟩
    | waitTimeout expected => exact ⟨hopen, rfl⟩
    | active _ => exact ⟨hopen, rfl⟩
    | abortAgain _ => exact ⟨hopen, rfl⟩
    | aborted _ => cases hwait hpc (active_of_begun (hbegun (by rw [hpc]; rfl)) hover)
    | abortTimeout => cases hwait hpc (active_of_begun (hbegun (by rw [hpc]; rfl)) hover)
  | start imageSize s' hpc hs' => exact hquiet hpc rfl
  | started hpc hret => exact hquiet hpc rfl
  | startFailed ret hpc hret _ => exact hquiet hpc rfl
  | write offset len s' hpc hs' => exact hquiet hpc rfl
  | written expected ret hpc hret =>
    rw [hpc] at hl
    refine ⟨hopen, ?_⟩
    show (if ret = .ok then MatterPc.waitSize expected else .idle (some (.write (-1)))).lentFor _ _
    split
    · exact hl.1
    · rfl
  | inactive hpc hno => exact nomatch hno.symm.trans (hcheck hpc)
  | abort s' hpc hs' =>
    obtain ⟨ret,-,rfl⟩ := invoke_some hs'
    exact ⟨hopen, rfl⟩
  | aborting hpc _ => exact ⟨hopen, rfl⟩
  | abortRefused ret hpc hret hne => exact absurd (hreturned ret hpc hret) hne
  | abortEnd hpc => exact hquiet hpc rfl

end Sonoff.Ota
