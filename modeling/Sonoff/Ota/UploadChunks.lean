import Sonoff.Ota.MatterWrite
import Sonoff.Ota.Notifications
import Sonoff.Ota.ReceivedBytes
import Sonoff.Ota.UploadBytes

/-! # The chunks of an upload

An upload hands over the next chunk once its session has consumed the one before, as long as the
mirrored size is not left from an earlier session.
-/
namespace Sonoff.Ota
open Bytes AesGcm NorFlash OtaParse Threads Machine

variable {G : Type} {sdk : Sdk G} {s t : ChannelState G} {i : ThreadId} {k : ℕ} {flash : Flash}
  {label : OtaLabel} {l : ChannelLabel} {event : SnfOtaEvent} {p q : OtaPc} {x y : OtaSystem G}
  {offset pointer len : ℕ}

/-- The mutex is kept, and the reboot does not return. -/
def keepsChannelProtocol (s : ChannelState G) : ChannelLabel → Prop
  | .core i label => keepsProtocol s.core (i, label)
  | _ => True

instance (s : ChannelState G) : (l : ChannelLabel) → Decidable (keepsChannelProtocol s l)
  | .core i label => inferInstanceAs (Decidable (keepsProtocol s.core (i, label)))
  | .callback _ | .http _ | .matter _ => inferInstanceAs (Decidable True)

/-- The start of an upload that finds no task finds the mirrored size reset, too. -/
def uploadsFresh (s : ChannelState G) : ChannelLabel → Prop
  | .core i label => keepsProtocol s.core (i, label) ∧ startsEmpty s .http i = true
  | _ => True

instance (s : ChannelState G) : (l : ChannelLabel) → Decidable (uploadsFresh s l)
  | .core i label =>
    inferInstanceAs (Decidable (keepsProtocol s.core (i, label) ∧ startsEmpty s .http i = true))
  | .callback _ | .http _ | .matter _ => inferInstanceAs (Decidable True)

theorem keepsChannelProtocol.mutex (s : ChannelState G) (l : ChannelLabel)
    (h : keepsChannelProtocol s l) :
    keepsOneMutex s l := by
  cases l with
  | core i label => exact h.1
  | _ => trivial

theorem uploadsFresh.mutex (s : ChannelState G) (l : ChannelLabel) (h : uploadsFresh s l) :
    keepsOneMutex s l := by
  cases l with
  | core i label => exact h.1.1
  | _ => trivial

theorem keepsProtocol_invoke {core core' : OtaState G} {call : OtaCall}
    (h : otaStep sdk core (i, .invoke call) = some core') :
    keepsProtocol core (i, .invoke call) := by
  refine ⟨keepsMutex_invoke h, fun hp => ?_⟩
  obtain ⟨r,hr,-⟩ := step_some h
  obtain ⟨⟨ret,hidle⟩,-⟩ := otaNext_invoke hr
  exact nomatch hidle.symm.trans hp

structure UploadFacts (s : ChannelState G) : Prop where
  channels : ChannelFacts s
  progress : s.http.Progress
  points : PointsIntoBuffers s
  behind : MirrorBehind s .http
  counted : ReceivedCounted s.core
  notes : NotificationInvariant s.core
  sends : SendsOwn s.core

theorem reach_uploadFacts (h : Reach (channelStep sdk) uploadsFresh (channelBoot G flash) s) :
    UploadFacts s where
  channels := reach_channelFacts uploadsFresh.mutex h
  progress := reach_progress h
  points := reach_points h
  behind := reach_behind uploadsFresh.mutex (fun _ _ _ hl => hl.2) h
  counted := reach_receivedCounted (reach_core uploadsFresh.mutex h)
  notes := reach_notificationInvariant
    (reach_coreWithin (fun _ _ _ hl => hl.1) keepsProtocol_invoke h)
  sends := reach_sendsOwn (reach_core uploadsFresh.mutex h)

def ChannelState.handed (s : ChannelState G) : List UInt8 := handedBytes s.http.handed

def ChannelState.consumed (s : ChannelState G) :
    List UInt8 := receivedBytes s.core.shared.session s.core.shared.history

def Settled (s : ChannelState G) : Prop := s.handed <+: s.consumed

/-- What has been handed over ends with this chunk, and all before it has been consumed. -/
structure HandsOver (s : ChannelState G) (offset pointer len : ℕ) : Prop where
  buffer : pointer ∈ Channel.http.buffers
  whole : ((s.http.contents pointer).take len).length = len
  ends : ∃ before, before <+: s.consumed ∧ before.length = offset ∧
    s.handed = before ++ (s.http.contents pointer).take len

/-- The last chunk has been consumed, or it is pending. -/
def Sent (s : ChannelState G) : Prop :=
  Settled s ∨ ∃ event ∈ pendingEvents s.core, event.id = .imageData ∧
    HandsOver s event.offset event.data event.size

/-- Inside the write of the last chunk. -/
structure Handing (s : ChannelState G) : Prop where
  call : ∀ offset pointer len, (s.core.pcs Channel.http.client).asks =
    some (.write offset (some pointer) len) → HandsOver s offset pointer len
  sent : (s.core.pcs Channel.http.client).sentOk = true → Sent s

def FollowsAt (s : ChannelState G) : HttpPc → Prop
  | .receive _ _ | .write _ _ _ | .waitReached _ | .complete => Settled s
  | .writing _ => Handing s
  | .waitSize _ | .waitState _ => Sent s
  | _ => True

def Follows (s : ChannelState G) : Prop := FollowsAt s s.http.pc

section Grows
variable (hconsumed : s.consumed <+: t.consumed) (hhttp : t.http = s.http)
include hconsumed hhttp

theorem Settled.grows (h : Settled s) : Settled t := by
  unfold Settled ChannelState.handed
  rw [hhttp]
  exact h.trans hconsumed

theorem HandsOver.grows (h : HandsOver s offset pointer len) : HandsOver t offset pointer len := by
  obtain ⟨before,hbefore,hlen,hends⟩ := h.ends
  refine ⟨h.buffer, by rw [hhttp]; exact h.whole, before, hbefore.trans hconsumed, hlen, ?_⟩
  unfold ChannelState.handed
  rw [hhttp]
  exact hends

end Grows

theorem HandsOver.handed_length (h : HandsOver s offset pointer len) :
    s.handed.length = offset + len := by
  obtain ⟨before,-,hlen,hends⟩ := h.ends
  rw [hends, List.length_append, hlen, h.whole]

/-- Only the control point of the upload moves. -/
theorem Sent.httpAt (h : Sent s) (pc : HttpPc) : Sent (s.httpAt pc) := by
  rcases h with hsettled | ⟨event,hmem,hid,hover⟩
  · exact Or.inl hsettled
  · exact Or.inr ⟨event, hmem, hid, hover.buffer, hover.whole, hover.ends⟩

/-- A task reads from the buffers of the upload what they hold. -/
theorem ChannelState.readable_contents {bytes : List UInt8} (h : s.readable event bytes = true)
    (hbuffer : event.data ∈ Channel.http.buffers) (hpc : ∀ reply, s.http.pc ≠ .idle reply) :
    bytes = (s.http.contents event.data).take event.size := by
  unfold ChannelState.readable at h
  unfold HttpUpload.contents
  rcases List.mem_cons.mp hbuffer with hdata | hdata
  · rw [if_neg (by rw [hdata]; decide), if_pos hdata] at h
    rw [if_pos hdata]
    split at h
    · exact absurd ‹_› (hpc _)
    · exact of_decide_eq_true h
  · obtain hdata := List.mem_singleton.mp hdata
    rw [if_pos hdata] at h
    rw [if_neg (by rw [hdata]; decide)]
    exact of_decide_eq_true h

/-- The session that runs on has consumed what it had, and more. -/
theorem ChannelFacts.consumed_grows (hf : ChannelFacts s) (hstep : channelStep sdk s l = some t)
    (hs : s.core.shared.taskHandle ≠ none) (ht : t.core.shared.taskHandle ≠ none) :
    s.consumed <+: t.consumed := by
  unfold ChannelState.consumed
  rw [(hf.session_kept hstep hs ht).2.1]
  exact receivedBytes_prefix (channelStep_history hstep)

/-- The task consumes the last chunk. -/
theorem HandsOver.consumed (h : HandsOver s event.offset event.data event.size) (hf : UploadFacts s)
    (hstep : channelStep sdk s (.core (.task k) label) = some t)
    (hp : s.core.pcs (.task k) = .handle event)
    (hid : event.id = .imageData) (hpc : ∀ reply, s.http.pc ≠ .idle reply)
    (hs : s.core.shared.taskHandle ≠ none)
    (hactive : snfOtaStateIsActive s.core.shared.core.info.state = true)
    (ha : snfOtaStateIsActive t.core.shared.core.info.state = true) : Settled t := by
  have hmove := coreStep_move hstep
  have hhttp := hmove.channels.1
  obtain ⟨r,hr,hcore⟩ := step_some (coreStep_core hstep).1
  dsimp only at hr
  rw [hp] at hr
  obtain ⟨bytes,results,rfl,hlen,hd⟩ := otaNext_chunk hr hid
  have hread : s.readable event bytes = true := by
    cases hmove with
    | task k _ core _ hread _ => exact hread event bytes results hp rfl
  obtain ⟨before,hbefore,hoffset,hends⟩ := h.ends
  rcases otaHandleDataEvent_cases hlen hf.channels.core.accounting.total
    hd with ⟨-,hst⟩ | ⟨-,hsize,-,-,callback,error,hhist⟩
  · rw [hcore, Config.move_shared, hst] at ha
    cases ha
  · have hall : before = s.consumed := by
      refine hbefore.eq_of_length ?_
      rw [hoffset, hsize]
      exact (hf.counted.counted hs hactive).symm
    have hsession : t.core.shared.session = s.core.shared.session := by
      obtain ⟨core,out,-,-,hy⟩ := otaHandleDataEvent_result hd
      rw [hcore, Config.move_shared, hy]
      rfl
    unfold Settled ChannelState.handed ChannelState.consumed
    rw [hhttp, hsession, hcore, Config.move_shared, hhist, receivedBytes_data]
    show s.handed <+: s.consumed ++ bytes
    exact ⟨[], by rw [List.append_nil, hends, hall, s.readable_contents hread h.buffer hpc]⟩

/-- The last chunk stays pending until it is consumed. -/
theorem Sent.step (h : Sent s) (hf : UploadFacts s) (hstep : channelStep sdk s l = some t)
    (hhttp : t.http = s.http) (hpc : ∀ reply, s.http.pc ≠ .idle reply)
    (hs : s.core.shared.taskHandle ≠ none)
    (ht : t.core.shared.taskHandle ≠ none)
    (ha : snfOtaStateIsActive t.core.shared.core.info.state = true) : Sent t := by
  have hgrows := hf.channels.consumed_grows hstep hs ht
  rcases h with hsettled | ⟨event,hmem,hid,hover⟩
  · exact Or.inl (hsettled.grows hgrows hhttp)
  · obtain ⟨k,hk⟩ := Option.ne_none_iff_exists'.mp hs
    rcases hf.channels.pending_stepped hstep hk
      ht with hsame | ⟨first,label,rfl,hp,hpend⟩ | ⟨_,_,_,_,-,-,-,hpend⟩
    · exact Or.inr ⟨event, hsame ▸ hmem, hid, hover.grows hgrows hhttp⟩
    · rw [hpend] at hmem
      rcases List.mem_cons.mp hmem with rfl | hrest
      · exact Or.inl (hover.consumed hf hstep hp hid hpc hs (hf.channels.active_back hstep hs ht ha)
          ha)
      · exact Or.inr ⟨event, hrest, hid, hover.grows hgrows hhttp⟩
    · exact Or.inr ⟨event, hpend ▸ List.mem_append_left _ hmem, hid, hover.grows hgrows hhttp⟩

/-- A step of another channel or of the core leaves the point at which the upload calls, or makes a
move there. -/
theorem channelStep_client (hstep : channelStep sdk s l = some t) (hl : ∀ event, l ≠ .http event) :
    t.http = s.http ∧ (t.core.pcs Channel.http.client = s.core.pcs Channel.http.client ∨
      ∃ label, l = .core Channel.http.client label) := by
  cases l with
  | core i label =>
    refine ⟨(coreStep_move hstep).channels.1, ?_⟩
    by_cases hi : Channel.http.client = i
    · exact Or.inr ⟨label, by rw [hi]⟩
    · obtain ⟨r,-,hcore⟩ := step_some (coreStep_core hstep).1
      rw [hcore]
      exact Or.inl (Config.move_other _ hi _)
  | callback k =>
    have hmove := callbackStep_move hstep
    exact ⟨hmove.channels.1, Or.inl (hmove.pcs (Ne.symm (applyClient_ne_channel k .http)))⟩
  | http event => exact absurd rfl (hl event)
  | matter event =>
    have hmove := matterStep_move hstep
    exact ⟨hmove.http,
      Or.inl (hmove.pcs (show Channel.http.client ≠ Channel.matter.client by rintro ⟨⟩))⟩

/-- The chunk is sent. -/
theorem Handing.send {request : OtaRequest} {events : List SnfOtaEvent} (h : Handing s)
    (hf : UploadFacts s)
    (hasks : (s.core.pcs Channel.http.client).asks = some (.write offset (some pointer) len))
    (hp : s.core.pcs Channel.http.client = .send request event) (hgrows : s.consumed <+: t.consumed)
    (hhttp : t.http = s.http) (ht : t.core.shared.taskHandle ≠ none)
    (hqueue : t.core.shared.eventQueue = some (events ++ [event])) : Sent t := by
  have hrequest : request.call = .write offset (some pointer) len := by
    rw [hp] at hasks
    exact Option.some.inj hasks
  obtain ⟨x,rfl⟩ := hf.sends _ _ _ hp
  obtain ⟨k,hk⟩ := Option.ne_none_iff_exists'.mp ht
  cases request with
  | write offset' data' len' =>
    cases hrequest
    refine Or.inr ⟨otaEvent Channel.http.client x (.write offset pointer len), ?_, rfl, ?_⟩
    · rw [pendingEvents_running hk, hqueue]
      exact List.mem_append_right _ (List.mem_append_right _ (List.mem_singleton_self _))
    · exact (h.call offset pointer len hasks).grows hgrows hhttp
  | _ => cases hrequest

section Steps
variable (hf : UploadFacts s) (hstep : channelStep sdk s l = some t) (hl : ∀ event, l ≠ .http event)
  (hs : s.core.shared.taskHandle ≠ none) (ht : t.core.shared.taskHandle ≠ none)
  (ha : snfOtaStateIsActive t.core.shared.core.info.state = true)
include hf hstep hl hs ht ha

theorem Handing.step {expected : ℕ} (h : Handing s) (hpc : s.http.pc = .writing expected) :
    Handing t := by
  obtain ⟨hhttp,hclient⟩ := channelStep_client hstep hl
  have hgrows := hf.channels.consumed_grows hstep hs ht
  have hsent : Sent s → Sent t := fun hsent =>
    hsent.step hf hstep hhttp (fun reply => by rw [hpc]; exact nofun) hs ht ha
  rcases hclient with hsame | ⟨label,rfl⟩
  · refine ⟨fun offset pointer len hasks => ?_, fun hok => ?_⟩
    · rw [hsame] at hasks
      exact (h.call offset pointer len hasks).grows hgrows hhttp
    · rw [hsame] at hok
      exact hsent (h.sent hok)
  · obtain ⟨hcore,hidle⟩ := coreStep_core hstep
    refine ⟨fun offset pointer len hasks => ?_, fun hok => ?_⟩
    · exact (h.call offset pointer len (asks_back hcore hidle hasks)).grows hgrows hhttp
    · obtain ⟨call,hasks⟩ := hf.channels.core.client_asks hcore hidle
      have hcalling := hf.channels.calls.http call hasks
      simp only [HttpUpload.calling, hpc] at hcalling
      obtain ⟨offset,pointer,len,rfl,-⟩ := hcalling
      obtain ⟨r,hr,hmove⟩ := step_some hcore
      rw [hmove, Config.move_self] at hok
      rcases (otaNext_move hr).sentOk hok hasks with hp | ⟨request,event,events,hp,-,hy⟩
      · exact hsent (h.sent hp)
      · exact h.send hf hasks hp hgrows hhttp ht (by rw [hmove, Config.move_shared, hy]; rfl)

/-- The session goes on, and the upload stays where it is. -/
theorem Follows.step (h : Follows s) : Follows t := by
  have hhttp := (channelStep_client hstep hl).1
  have hgrows := hf.channels.consumed_grows hstep hs ht
  unfold Follows at h ⊢
  rw [hhttp]
  obtain ⟨pc,hpc⟩ : ∃ pc, s.http.pc = pc := ⟨_, rfl⟩
  rw [hpc] at h ⊢
  cases pc with
  | receive written filled => exact h.grows hgrows hhttp
  | write pointer offset len => exact h.grows hgrows hhttp
  | waitReached expected => exact h.grows hgrows hhttp
  | complete => exact h.grows hgrows hhttp
  | writing expected => exact Handing.step hf hstep hl hs ht ha h hpc
  | waitSize expected =>
    exact Sent.step h hf hstep hhttp (fun reply => by rw [hpc]; exact nofun) hs ht ha
  | waitState expected =>
    exact Sent.step h hf hstep hhttp (fun reply => by rw [hpc]; exact nofun) hs ht ha
  | _ => trivial

end Steps

theorem Follows.of_noSession (h : s.http.pc.hasSession = false) : Follows s := by
  unfold Follows
  generalize s.http.pc = pc at h
  cases pc <;> trivial

/-- The wait for a chunk ends with its consumption. -/
theorem Sent.reached {expected : ℕ} (h : Sent s) (hf : UploadFacts s) (hr : s.runs .http)
    (ha : snfOtaStateIsActive s.core.shared.core.info.state = true)
    (hholds : s.http.Holds expected 0)
    (hmirror : expected ≤ (s.mirror .http).receivedSize) : Settled s := by
  rcases h with hsettled | ⟨event,hmem,hid,hover⟩
  · exact hsettled
  · have hend : s.handed.length = expected := hholds.handed_length
    have hlen := hover.handed_length
    have hbehind := hf.behind.behind hr
    have hbounds := hf.channels.core.chunk_bounds ⟨pendingEvents_about hmem, hid⟩ ha
    omega

theorem HttpMove.follows (h : HttpMove sdk s t) (hf : UploadFacts s) (hr : s.runs .http)
    (ha : snfOtaStateIsActive s.core.shared.core.info.state = true) (hs : Follows s) :
    Follows t := by
  have hof : ∀ {pc}, s.http.pc = pc → FollowsAt s pc := fun hpc => hpc ▸ hs
  have hprogress : ∀ {pc}, s.http.pc = pc → s.http.ProgressAt pc := fun hpc => hpc ▸ hf.progress
  have hnext : ∀ {written}, Settled s → Follows (s.httpAt (s.http.next written)) := by
    intro written hsettled
    show FollowsAt (s.httpAt _) (s.http.next written)
    unfold HttpUpload.next
    split <;> exact hsettled
  cases h with
  | refuse reply data hpc => exact .of_noSession rfl
  | request reply data hpc =>
    exact .of_noSession ((s.http.begin data s.core.shared.session).headerReceived_pc data).1
  | header data hpc =>
    exact .of_noSession
      (HttpUpload.headerReceived_pc { s.http with stream := s.http.stream ++ data }
        (s.http.header ++ data)).1
  | reset pc f hr =>
    generalize s.http.pc = old at hr
    cases hr <;> exact .of_noSession rfl
  | look pc hl =>
    obtain ⟨old,hpc⟩ : ∃ old, s.http.pc = old := ⟨_, rfl⟩
    rw [hpc] at hl
    have hold := hof hpc
    cases hl with
    | received expected hmirror => 
      have hsent : Sent s := hold
      exact hsent.reached hf hr ha (hprogress hpc) hmirror
    | waiting expected _ => exact Sent.httpAt hold _
    | waitAgain expected _ => exact Sent.httpAt hold _
    | reached expected _ => exact hnext hold
    | completeAgain => exact hold
    | _ => trivial
  | start s' hpc hs' => exact .of_noSession rfl
  | started ret hpc hret =>
    have hnil : Settled s := by
      show handedBytes s.http.handed <+: _
      rw [(hprogress hpc).2.1]
      exact List.nil_prefix
    show Follows (s.httpAt (if ret = .ok then s.http.receiveImage
      else .idle (some (.startFailed ret))))
    split
    · unfold HttpUpload.receiveImage
      split
      · trivial
      · split
        · exact hnil
        · exact hnext hnil
    · exact .of_noSession rfl
  | fill written filled data hpc hdata hlen =>
    have hold := hof hpc
    show Follows (({ s with http := s.http.fill filled data } : ChannelState G).httpAt _)
    split <;> exact hold
  | write pointer offset len s' hpc hs' =>
    obtain ⟨ret,-,rfl⟩ := invoke_some hs'
    have hold := hof hpc
    obtain ⟨hholds,hbuffer⟩ := hprogress hpc
    have hlen : ((s.http.contents pointer).take len).length = len := by
      rw [hbuffer, List.length_drop, hholds.content]
      omega
    refine ⟨fun offset' pointer' len' hasks => ?_, fun hok => ?_⟩
    · have hcall := asks_invoked hasks
      cases hcall
      refine ⟨hf.points.point _ _ _ hpc, hlen, s.handed, hold, hholds.handed_length, ?_⟩
      exact handedBytes_append _ _ _
    · simp only [ChannelState.httpAt, Config.move_self, OtaPc.sentOk, Bool.false_eq_true] at hok
  | written expected ret hpc hret =>
    have hold := hof hpc
    show Follows (s.httpAt (if ret = .ok then HttpPc.waitSize expected else .failed))
    split
    case isTrue hok =>
      subst hok
      exact (hold.sent (by rw [asks_of_returned hret]; rfl)).httpAt _
    case isFalse => trivial
  | abort error s' hpc hs' =>
    obtain ⟨ret,-,rfl⟩ := invoke_some hs'
    trivial
  | aborting error ret hpc hret =>
    show Follows (s.httpAt (if ret = .ok then HttpPc.abortWait error
      else .idle (some (.failed error))))
    split <;> trivial

end Sonoff.Ota
