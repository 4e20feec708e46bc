import Sonoff.Ota.Channels

/-! # What one step of the channels can do

The inversion of the channels' steps, one constructor for each way a channel moves on, and what
each leaves alone. The core under the channels runs as a core does.
-/
namespace Sonoff.Ota
open Bytes AesGcm NorFlash OtaParse Threads Machine

variable {G : Type} {sdk : Sdk G} {s t : ChannelState G}

inductive HttpReset : HttpPc → HttpPc → (ChannelMirror → ChannelMirror) → Prop
  | state : HttpReset .startState .startReceived fun m => { m with state := .receiving }
  | received : HttpReset .startReceived .startPercent fun m => { m with receivedSize := 0 }
  | percent : HttpReset .startPercent .startError fun m => { m with percent := 0 }
  | error : HttpReset .startError .start fun m => { m with errorCode := .none }

inductive HttpLook (u : HttpUpload) (mirror : ChannelMirror) : HttpPc → HttpPc → Prop
  | headerFailed : HttpLook u mirror .header (.idle (some .headerError))
  | receiveFailed (written filled : ℕ) : HttpLook u mirror (.receive written filled) .failed
  | received (expected : ℕ) : expected ≤ mirror.receivedSize →
      HttpLook u mirror (.waitSize expected) (.waitReached expected)
  | waiting (expected : ℕ) : mirror.receivedSize < expected →
      HttpLook u mirror (.waitSize expected) (.waitState expected)
  | reachedFailed (expected : ℕ) : snfOtaStateIsFailed mirror.state = true →
      HttpLook u mirror (.waitReached expected) .failed
  | reached (expected : ℕ) : snfOtaStateIsFailed mirror.state = false →
      HttpLook u mirror (.waitReached expected) (u.next expected)
  | waitFailed (expected : ℕ) : snfOtaStateIsFailed mirror.state = true →
      HttpLook u mirror (.waitState expected) .failed
  | waitAgain (expected : ℕ) : snfOtaStateIsFailed mirror.state = false →
      HttpLook u mirror (.waitState expected) (.waitSize expected)
  | waitTimeout (expected : ℕ) : HttpLook u mirror (.waitSize expected) .failed
  | success : mirror.state = .success → HttpLook u mirror .complete (.idle (some .success))
  | completeFailed : snfOtaStateIsFailed mirror.state = true → HttpLook u mirror .complete .failed
  | completeAgain : HttpLook u mirror .complete .complete
  | completeTimeout : HttpLook u mirror .complete .failed
  | failed : HttpLook u mirror .failed (.abortCheck mirror.errorCode)
  | active (error : SnfOtaErrorCode) : snfOtaStateIsActive mirror.state = true →
      HttpLook u mirror (.abortCheck error) (.abort error)
  | inactive (error : SnfOtaErrorCode) : snfOtaStateIsActive mirror.state = false →
      HttpLook u mirror (.abortCheck error) (.idle (some (.failed error)))
  | abortAgain (error : SnfOtaErrorCode) : snfOtaStateIsActive mirror.state = true →
      HttpLook u mirror (.abortWait error) (.abortWait error)
  | aborted (error : SnfOtaErrorCode) : snfOtaStateIsActive mirror.state = false →
      HttpLook u mirror (.abortWait error) (.idle (some (.failed error)))
  | abortTimeout (error : SnfOtaErrorCode) :
      HttpLook u mirror (.abortWait error) (.idle (some (.failed error)))

def HttpUpload.begin (u : HttpUpload) (data : List UInt8) (session : ℕ) : HttpUpload :=
  { u with stream := data, handed := [], before := session }

inductive HttpMove (sdk : Sdk G) (s : ChannelState G) : ChannelState G → Prop
  | refuse (reply : Option HttpReply) (data : List UInt8) : s.http.pc = .idle reply →
      HttpMove sdk s { s with http :=
        (s.http.begin data s.core.shared.session).moveTo (.idle (some .headerError)) }
  | request (reply : Option HttpReply) (data : List UInt8) : s.http.pc = .idle reply →
      HttpMove sdk s { s with http :=
        (s.http.begin data s.core.shared.session).headerReceived data }
  | header (data : List UInt8) : s.http.pc = .header →
      HttpMove sdk s { s with
        http := { s.http with stream := s.http.stream ++ data }.headerReceived
          (s.http.header ++ data) }
  | reset (pc : HttpPc) (f : ChannelMirror → ChannelMirror) : HttpReset s.http.pc pc f →
      HttpMove sdk s ((s.setMirror .http f).httpAt pc)
  | look (pc : HttpPc) : HttpLook s.http (s.mirror .http) s.http.pc pc →
      HttpMove sdk s (s.httpAt pc)
  | start (s' : ChannelState G) : s.http.pc = .start →
      s.invoke sdk Channel.http.client (.start (some (Channel.http.config s.http.contentLength))) =
        some s' →
      HttpMove sdk s (s'.httpAt .starting)
  | started (ret : SnfOtaRet) : s.http.pc = .starting → s.returned Channel.http.client = some ret →
      HttpMove sdk s (s.httpAt (if ret = .ok then s.http.receiveImage
        else .idle (some (.startFailed ret))))
  | fill (written filled : ℕ) (data : List UInt8) : s.http.pc = .receive written filled →
      data ≠ [] → data.length ≤ s.http.chunkSize written - filled →
      HttpMove sdk s ({ s with http := s.http.fill filled data }.httpAt
        (if filled + data.length = s.http.chunkSize written then
          .write httpDataBuffer written (s.http.chunkSize written)
          else .receive written (filled + data.length)))
  | write (pointer offset len : ℕ) (s' : ChannelState G) : s.http.pc = .write pointer offset len →
      s.invoke sdk Channel.http.client (.write offset (some pointer) len) = some s' →
      HttpMove sdk s ({ s' with
        http := { s'.http with handed :=
          s'.http.handed ++ [(offset, (s'.http.contents pointer).take len)] } }.httpAt
          (.writing (u32Add offset len)))
  | written (expected : ℕ) (ret : SnfOtaRet) : s.http.pc = .writing expected →
      s.returned Channel.http.client = some ret →
      HttpMove sdk s (s.httpAt (if ret = .ok then .waitSize expected else .failed))
  | abort (error : SnfOtaErrorCode) (s' : ChannelState G) : s.http.pc = .abort error →
      s.invoke sdk Channel.http.client .abort = some s' →
        HttpMove sdk s (s'.httpAt (.aborting error))
  | aborting (error : SnfOtaErrorCode) (ret : SnfOtaRet) : s.http.pc = .aborting error →
      s.returned Channel.http.client = some ret →
      HttpMove sdk s (s.httpAt (if ret = .ok then .abortWait error
        else .idle (some (.failed error))))

theorem httpStep_move {event : HttpEvent} (h : httpStep sdk s event = some t) :
    HttpMove sdk s t := by
  have hlook : ∀ {pc pc' : HttpPc}, s.http.pc = pc → HttpLook s.http (s.mirror .http) pc pc' →
      some (s.httpAt pc') = some t → HttpMove sdk s t := by
    intro pc pc' hpc hl ht
    cases ht
    exact .look pc' (hpc ▸ hl)
  have hreset : ∀ {pc pc' : HttpPc} {f : ChannelMirror → ChannelMirror}, s.http.pc = pc →
    HttpReset pc pc' f → some ((s.setMirror .http f).httpAt pc') = some t → HttpMove sdk s t := by
    intro pc pc' f hpc hr ht
    cases ht
    exact .reset pc' f (hpc ▸ hr)
  unfold httpStep at h
  dsimp only at h
  split at h
  case h_1 reply data hpc =>
    split at h <;> cases h
    · exact .refuse reply data hpc
    · exact .request reply data hpc
  case h_2 data hpc =>
    split at h <;> cases h
    exact .header data hpc
  case h_3 hpc => exact hlook hpc .headerFailed h
  case h_4 hpc => exact hreset hpc .state h
  case h_5 hpc => exact hreset hpc .received h
  case h_6 hpc => exact hreset hpc .percent h
  case h_7 hpc => exact hreset hpc .error h
  case h_8 hpc =>
    obtain ⟨s',hs',rfl⟩ := Option.map_eq_some_iff.mp h
    exact .start s' hpc hs'
  case h_9 hpc =>
    obtain ⟨ret,hret,rfl⟩ := Option.map_eq_some_iff.mp h
    exact .started ret hpc hret
  case h_10 written filled data hpc =>
    split at h
    case isTrue => cases h
    case isFalse hdata =>
      cases h
      exact .fill written filled data hpc (fun he => hdata (Or.inl he))
        (Nat.le_of_not_lt fun hlt => hdata (Or.inr hlt))
  case h_11 written filled hpc => exact hlook hpc (.receiveFailed written filled) h
  case h_12 pointer offset len hpc =>
    obtain ⟨s',hs',rfl⟩ := Option.map_eq_some_iff.mp h
    exact .write pointer offset len s' hpc hs'
  case h_13 expected hpc =>
    obtain ⟨ret,hret,rfl⟩ := Option.map_eq_some_iff.mp h
    exact .written expected ret hpc hret
  case h_14 expected hpc =>
    split at h
    · exact hlook hpc (.received expected ‹_›) h
    · exact hlook hpc (.waiting expected (Nat.lt_of_not_le ‹_›)) h
  case h_15 expected hpc =>
    split at h
    · exact hlook hpc (.reachedFailed expected ‹_›) h
    · exact hlook hpc (.reached expected (eq_false_of_ne_true ‹_›)) h
  case h_16 expected hpc =>
    split at h
    · exact hlook hpc (.waitFailed expected ‹_›) h
    · exact hlook hpc (.waitAgain expected (eq_false_of_ne_true ‹_›)) h
  case h_17 hpc =>
    split at h
    · exact hlook hpc (.success ‹_›) h
    · split at h
      · exact hlook hpc (.completeFailed ‹_›) h
      · exact hlook hpc .completeAgain h
  case h_18 expected hpc => exact hlook hpc (.waitTimeout expected) h
  case h_19 hpc => exact hlook hpc .completeTimeout h
  case h_20 hpc => exact hlook hpc .failed h
  case h_21 error hpc =>
    split at h
    · exact hlook hpc (.active error ‹_›) h
    · exact hlook hpc (.inactive error (eq_false_of_ne_true ‹_›)) h
  case h_22 error hpc =>
    obtain ⟨s',hs',rfl⟩ := Option.map_eq_some_iff.mp h
    exact .abort error s' hpc hs'
  case h_23 error hpc =>
    obtain ⟨ret,hret,rfl⟩ := Option.map_eq_some_iff.mp h
    exact .aborting error ret hpc hret
  case h_24 error hpc =>
    split at h
    · exact hlook hpc (.abortAgain error ‹_›) h
    · exact hlook hpc (.aborted error (eq_false_of_ne_true ‹_›)) h
  case h_25 error hpc => exact hlook hpc (.abortTimeout error) h
  case h_26 => cases h

inductive MatterReset : MatterPc → MatterPc → (ChannelMirror → ChannelMirror) → Prop
  | state (imageSize : ℕ) : MatterReset (.startState imageSize) (.startReceived imageSize) fun m =>
    { m with state := .idle }
  | received (imageSize : ℕ) :
      MatterReset (.startReceived imageSize) (.startPercent imageSize) fun m =>
        { m with receivedSize := 0 }
  | percent (imageSize : ℕ) : MatterReset (.startPercent imageSize) (.start imageSize) fun m =>
    { m with percent := 0 }

inductive MatterLook (mirror : ChannelMirror) : MatterPc → MatterPc → Prop
  | callStart (ret : Option MatterReturn) (imageSize : ℕ) :
      MatterLook mirror (.idle ret) (.startState imageSize)
  | refuse (ret : Option MatterReturn) : MatterLook mirror (.idle ret) (.idle (some (.start (-1))))
  | callWrite (ret : Option MatterReturn) (offset len : ℕ) :
      MatterLook mirror (.idle ret) (.write offset len)
  | callAbort (ret : Option MatterReturn) : MatterLook mirror (.idle ret) .abortCheck
  | received (expected : ℕ) : expected ≤ mirror.receivedSize →
      MatterLook mirror (.waitSize expected) (.idle (some (.write 0)))
  | waiting (expected : ℕ) : mirror.receivedSize < expected →
      MatterLook mirror (.waitSize expected) (.waitState expected)
  | waitFailed (expected : ℕ) : snfOtaStateIsFailed mirror.state = true →
      MatterLook mirror (.waitState expected) (.idle (some (.write (-1))))
  | waitAgain (expected : ℕ) : snfOtaStateIsFailed mirror.state = false →
      MatterLook mirror (.waitState expected) (.waitSize expected)
  | waitTimeout (expected : ℕ) : MatterLook mirror (.waitSize expected) (.idle (some (.write (-1))))
  | active : snfOtaStateIsActive mirror.state = true → MatterLook mirror .abortCheck .abort
  | abortAgain : snfOtaStateIsActive mirror.state = true → MatterLook mirror .abortWait .abortWait
  | aborted : snfOtaStateIsActive mirror.state = false → MatterLook mirror .abortWait .abortEnd
  | abortTimeout : MatterLook mirror .abortWait .abortEnd

def ChannelState.matterAborted (s : ChannelState G) (ret : Int) : ChannelState G :=
  { s with matterOpen := false }.matterAt (.idle (some (.abort ret)))

inductive MatterMove (sdk : Sdk G) (s : ChannelState G) : ChannelState G → Prop
  | reset (pc : MatterPc) (f : ChannelMirror → ChannelMirror) : MatterReset s.matter pc f →
      MatterMove sdk s ((s.setMirror .matter f).matterAt pc)
  | look (pc : MatterPc) : MatterLook (s.mirror .matter) s.matter pc →
      MatterMove sdk s (s.matterAt pc)
  | start (imageSize : ℕ) (s' : ChannelState G) : s.matter = .start imageSize →
      s.invoke sdk Channel.matter.client (.start (some (Channel.matter.config imageSize))) =
        some s' →
      MatterMove sdk s (s'.matterAt .starting)
  | started : s.matter = .starting → s.returned Channel.matter.client = some .ok →
      MatterMove sdk s ({ s with matterOpen := true }.matterAt (.idle (some (.start 0))))
  | startFailed (ret : SnfOtaRet) :
      s.matter = .starting → s.returned Channel.matter.client = some ret → ret ≠ .ok →
      MatterMove sdk s (s.matterAt (.idle (some (.start (-1)))))
  | write (offset len : ℕ) (s' : ChannelState G) : s.matter = .write offset len →
      s.invoke sdk Channel.matter.client (.write offset (some matterBlock) len) = some s' →
      MatterMove sdk s (s'.matterAt (.writing (u32Add offset len)))
  | written (expected : ℕ) (ret : SnfOtaRet) : s.matter = .writing expected →
      s.returned Channel.matter.client = some ret →
      MatterMove sdk s (s.matterAt (if ret = .ok then .waitSize expected
        else .idle (some (.write (-1)))))
  | inactive : s.matter = .abortCheck → snfOtaStateIsActive (s.mirror .matter).state = false →
      MatterMove sdk s (s.matterAborted 0)
  | abort (s' : ChannelState G) :
      s.matter = .abort → s.invoke sdk Channel.matter.client .abort = some s' →
      MatterMove sdk s (s'.matterAt .aborting)
  | aborting : s.matter = .aborting → s.returned Channel.matter.client = some .ok →
      MatterMove sdk s (s.matterAt .abortWait)
  | abortRefused (ret : SnfOtaRet) :
      s.matter = .aborting → s.returned Channel.matter.client = some ret → ret ≠ .ok →
      MatterMove sdk s (s.matterAborted (-1))
  | abortEnd : s.matter = .abortEnd →
      MatterMove sdk s (s.matterAborted (if snfOtaStateIsActive (s.mirror .matter).state then -1
        else 0))

theorem matterStep_move {event : MatterEvent} (h : matterStep sdk s event = some t) :
    MatterMove sdk s t := by
  have hlook : ∀ {pc pc' : MatterPc}, s.matter = pc → MatterLook (s.mirror .matter) pc pc' →
      some (s.matterAt pc') = some t → MatterMove sdk s t := by
    intro pc pc' hpc hl ht
    cases ht
    exact .look pc' (hpc ▸ hl)
  have hreset : ∀ {pc pc' : MatterPc} {f : ChannelMirror → ChannelMirror}, s.matter = pc →
    MatterReset pc pc' f → some ((s.setMirror .matter f).matterAt pc') = some t →
    MatterMove sdk s t := by
    intro pc pc' f hpc hr ht
    cases ht
    exact .reset pc' f (hpc ▸ hr)
  unfold matterStep at h
  dsimp only at h
  split at h
  case h_1 ret imageSize hpc =>
    split at h
    · exact hlook hpc (.refuse ret) h
    · exact hlook hpc (.callStart ret imageSize) h
  case h_2 ret offset len hpc => exact hlook hpc (.callWrite ret offset len) h
  case h_3 ret hpc => exact hlook hpc (.callAbort ret) h
  case h_4 imageSize hpc => exact hreset hpc (.state imageSize) h
  case h_5 imageSize hpc => exact hreset hpc (.received imageSize) h
  case h_6 imageSize hpc => exact hreset hpc (.percent imageSize) h
  case h_7 imageSize hpc =>
    obtain ⟨s',hs',rfl⟩ := Option.map_eq_some_iff.mp h
    exact .start imageSize s' hpc hs'
  case h_8 hpc =>
    obtain ⟨ret,hret,rfl⟩ := Option.map_eq_some_iff.mp h
    by_cases hok : ret = .ok
    · subst hok
      rw [if_pos rfl, show (s.matterOpen || SnfOtaRet.ok == SnfOtaRet.ok) =
        true from Bool.or_true _]
      exact .started hpc hret
    · rw [if_neg hok, show (ret == SnfOtaRet.ok) = false from beq_eq_false_iff_ne.mpr hok,
        Bool.or_false]
      exact .startFailed ret hpc hret hok
  case h_9 offset len hpc =>
    obtain ⟨s',hs',rfl⟩ := Option.map_eq_some_iff.mp h
    exact .write offset len s' hpc hs'
  case h_10 expected hpc =>
    obtain ⟨ret,hret,rfl⟩ := Option.map_eq_some_iff.mp h
    exact .written expected ret hpc hret
  case h_11 expected hpc =>
    split at h
    · exact hlook hpc (.received expected ‹_›) h
    · exact hlook hpc (.waiting expected (Nat.lt_of_not_le ‹_›)) h
  case h_12 expected hpc =>
    split at h
    · exact hlook hpc (.waitFailed expected ‹_›) h
    · exact hlook hpc (.waitAgain expected (eq_false_of_ne_true ‹_›)) h
  case h_13 expected hpc => exact hlook hpc (.waitTimeout expected) h
  case h_14 hpc =>
    split at h
    · exact hlook hpc (.active ‹_›) h
    · cases h
      exact .inactive hpc (eq_false_of_ne_true ‹_›)
  case h_15 hpc =>
    obtain ⟨s',hs',rfl⟩ := Option.map_eq_some_iff.mp h
    exact .abort s' hpc hs'
  case h_16 hpc =>
    obtain ⟨ret,hret,rfl⟩ := Option.map_eq_some_iff.mp h
    by_cases hok : ret = .ok
    · subst hok
      exact .aborting hpc hret
    · rw [if_neg hok]
      exact .abortRefused ret hpc hret hok
  case h_17 hpc =>
    split at h
    · exact hlook hpc (.abortAgain ‹_›) h
    · exact hlook hpc (.aborted (eq_false_of_ne_true ‹_›)) h
  case h_18 hpc => exact hlook hpc .abortTimeout h
  case h_19 hpc =>
    cases h
    exact .abortEnd hpc
  case h_20 => cases h

inductive CallbackMove (sdk : Sdk G) (s : ChannelState G) (k : ℕ) : ChannelState G → Prop
  | state (channel : Channel) (state : SnfOtaState) (data : SnfOtaEventData) :
      s.callbacks k = .storeState channel state data →
      CallbackMove sdk s k ((s.setMirror channel fun m => { m with state := state }).setCallback k
        (.storeSize channel state data))
  | size (channel : Channel) (state : SnfOtaState) (data : SnfOtaEventData) :
      s.callbacks k = .storeSize channel state data →
      CallbackMove sdk s k
        ((s.setMirror channel fun m => { m with receivedSize := data.receivedSize }).setCallback k
        (if channel = .http then .storeError state data else .storePercent channel state data))
  | error (state : SnfOtaState) (data : SnfOtaEventData) : s.callbacks k = .storeError state data →
      CallbackMove sdk s k
        ((s.setMirror .http fun m => { m with errorCode := data.errorCode }).setCallback k
        (.storePercent .http state data))
  | percent (channel : Channel) (state : SnfOtaState) (data : SnfOtaEventData) :
      s.callbacks k = .storePercent channel state data →
      CallbackMove sdk s k ((s.setMirror channel fun m =>
          if m.state = .receiving ∧ m.percent ≠ data.percent then { m with percent := data.percent }
            else m).setCallback k
        (if state = .verifySuccess then .apply channel else .returned))
  | apply (channel : Channel) (s' : ChannelState G) : s.callbacks k = .apply channel →
      s.invoke sdk (applyClient k) .apply = some s' →
        CallbackMove sdk s k (s'.setCallback k (.applying channel))
  | applied (channel : Channel) : s.callbacks k = .applying channel →
      s.returned (applyClient k) = some .ok → CallbackMove sdk s k (s.setCallback k .returned)
  | applyFailed (channel : Channel) (ret : SnfOtaRet) : s.callbacks k = .applying channel →
      s.returned (applyClient k) = some ret → ret ≠ .ok →
        CallbackMove sdk s k (s.setCallback k (.storeFailed channel))
  | failed (channel : Channel) : s.callbacks k = .storeFailed channel →
      CallbackMove sdk s k ((s.setMirror channel fun m => { m with state := .failed }).setCallback k
        (if channel = .http then .storeApplyFailed else .returned))
  | failedError : s.callbacks k = .storeApplyFailed →
      CallbackMove sdk s k
        ((s.setMirror .http fun m => { m with errorCode := .applyFailed }).setCallback k .returned)

theorem callbackStep_move {k : ℕ} (h : callbackStep sdk s k = some t) : CallbackMove sdk s k t := by
  unfold callbackStep at h
  split at h
  case h_1 => cases h
  case h_2 channel state data hpc =>
    cases h
    exact .state channel state data hpc
  case h_3 channel state data hpc =>
    cases h
    exact .size channel state data hpc
  case h_4 state data hpc =>
    cases h
    exact .error state data hpc
  case h_5 channel state data hpc =>
    cases h
    exact .percent channel state data hpc
  case h_6 channel hpc =>
    obtain ⟨s',hs',rfl⟩ := Option.map_eq_some_iff.mp h
    exact .apply channel s' hpc hs'
  case h_7 channel hpc =>
    obtain ⟨ret,hret,rfl⟩ := Option.map_eq_some_iff.mp h
    by_cases hok : ret = .ok
    · subst hok
      exact .applied channel hpc hret
    · rw [if_neg hok]
      exact .applyFailed channel ret hpc hret hok
  case h_8 channel hpc =>
    cases h
    exact .failed channel hpc
  case h_9 hpc =>
    cases h
    exact .failedError hpc

inductive CoreMove (sdk : Sdk G) (s : ChannelState G) : ThreadId → OtaLabel → ChannelState G → Prop
  | client (n : ℕ) (label : OtaLabel) (core : OtaState G) : (∀ call, label ≠ .invoke call) →
      otaStep sdk s.core (.client n, label) = some core →
        CoreMove sdk s (.client n) label { s with core := core }
  | task (k : ℕ) (label : OtaLabel) (core : OtaState G) : s.callbacks k = .returned →
      (∀ event bytes results, s.core.pcs (.task k) = .handle event →
        label = .process bytes results →
        s.readable event bytes = true) → otaStep sdk s.core (.task k, label) = some core →
      CoreMove sdk s (.task k) label
        ({ s with core := core }.setCallback k (ChannelState.notified core k))

theorem coreStep_move {i : ThreadId} {label : OtaLabel} (h : coreStep sdk s i label = some t) :
    CoreMove sdk s i label t := by
  unfold coreStep at h
  split at h
  · cases h
  case h_2 n hinvoke =>
    obtain ⟨core,hcore,rfl⟩ := Option.map_eq_some_iff.mp h
    exact .client n _ core (fun call hc => hinvoke call hc) hcore
  case h_3 k hinvoke =>
    split at h
    case isTrue => cases h
    case isFalse hreturned =>
      have hreturned := not_not.mp hreturned
      split at h
      case h_1 event bytes results hpc =>
        split at h
        case isTrue hread =>
          obtain ⟨core,hcore,rfl⟩ := Option.map_eq_some_iff.mp h
          refine .task k _ core hreturned ?_ hcore
          intro event' bytes' results' hpc' hlabel
          rw [hpc] at hpc'
          cases hpc'
          cases hlabel
          exact hread
        case isFalse => cases h
      case h_2 hother =>
        obtain ⟨core,hcore,rfl⟩ := Option.map_eq_some_iff.mp h
        exact .task k _ core hreturned (fun event bytes results hpc hlabel =>
          absurd hlabel (hother event bytes results hpc))
          hcore

end Sonoff.Ota
