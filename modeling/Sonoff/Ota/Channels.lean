import Mathlib.Logic.Function.Basic
import Sonoff.Ota.SystemMoves
import Sonoff.Ota.HttpRequest

/-! # The HTTP and the Matter channel of the OTA core

Each channel mirrors the state of its session in data of its own, which the callback writes from
the OTA task and the channel reads while it waits. A channel, a callback and the core each move
by the steps at which they touch what they share.
-/
namespace Sonoff.Ota
open Bytes AesGcm NorFlash OtaParse Threads Machine

inductive Channel
  | http
  | matter
  deriving DecidableEq, Repr

namespace Channel

/-- The thread a channel calls the core from: the HTTP server has one, the Matter stack another. -/
def client : Channel → ThreadId
  | .http => .client 0
  | .matter => .client 1

def callback : Channel → SnfOtaEventCallback
  | .http => .otaHttpEventCallback
  | .matter => .otaMatterEventCallback

def config (channel : Channel) (imageSize : ℕ) : SnfOtaConfig where
  imageInfo := ⟨imageSize, snfOtaCheckNone, snfOtaCipherNone⟩
  eventCallback := some channel.callback
  format := .package
  fileName := snfOtaDefaultFileName ++
    List.replicate (snfOtaFileNameSize + 1 - snfOtaDefaultFileName.length) 0

end Channel

def applyClient (t : ℕ) : ThreadId := .client (t + 2)

/-- `SnfHttpOtaState` and `SnfMatterOtaState`, the latter without an error code. -/
structure ChannelMirror where
  state : SnfOtaState
  receivedSize : ℕ
  percent : ℕ
  errorCode : SnfOtaErrorCode
  deriving DecidableEq, Repr

inductive CallbackPc
  | returned
  | storeState (channel : Channel) (state : SnfOtaState) (data : SnfOtaEventData)
  | storeSize (channel : Channel) (state : SnfOtaState) (data : SnfOtaEventData)
  | storeError (state : SnfOtaState) (data : SnfOtaEventData)
  | storePercent (channel : Channel) (state : SnfOtaState) (data : SnfOtaEventData)
  | apply (channel : Channel)
  | applying (channel : Channel)
  | storeFailed (channel : Channel)
  | storeApplyFailed
  deriving DecidableEq, Repr

inductive HttpReply
  | headerError
  | lengthError
  | bodyError
  | startFailed (ret : SnfOtaRet)
  | success
  | failed (errorCode : SnfOtaErrorCode)
  deriving DecidableEq, Repr

inductive HttpPc
  | idle (reply : Option HttpReply)
  | header
  | startState
  | startReceived
  | startPercent
  | startError
  | start
  | starting
  /-- In `otaHttpReceiveBuffer`. -/
  | receive (written filled : ℕ)
  | write (pointer offset len : ℕ)
  | writing (expected : ℕ)
  /-- In `otaHttpWaitWrite`, before each look at the mirror. -/
  | waitSize (expected : ℕ)
  | waitReached (expected : ℕ)
  | waitState (expected : ℕ)
  | complete
  | failed
  | abortCheck (error : SnfOtaErrorCode)
  | abort (error : SnfOtaErrorCode)
  | aborting (error : SnfOtaErrorCode)
  | abortWait (error : SnfOtaErrorCode)
  deriving DecidableEq, Repr

/-- The upload in hand. What stands behind the buffers no code reads: the bytes taken from the
connection, those handed to the core with their offsets, and the session at the request. -/
structure HttpUpload where
  pc : HttpPc
  header : List UInt8
  headerEnd : ℕ
  contentLength : ℕ
  dataBuffer : List UInt8
  stream : List UInt8
  handed : List (ℕ × List UInt8)
  before : ℕ

inductive MatterReturn
  | start (ret : Int)
  | write (ret : Int)
  | abort (ret : Int)
  deriving DecidableEq, Repr

inductive MatterPc
  | idle (ret : Option MatterReturn)
  | startState (imageSize : ℕ)
  | startReceived (imageSize : ℕ)
  | startPercent (imageSize : ℕ)
  | start (imageSize : ℕ)
  | starting
  | write (offset len : ℕ)
  | writing (expected : ℕ)
  | waitSize (expected : ℕ)
  | waitState (expected : ℕ)
  | abortCheck
  | abort
  | aborting
  | abortWait
  | abortEnd
  deriving DecidableEq, Repr

/-- `matterOpen` no code reads: whether the last start has succeeded and no abort has returned
since. -/
structure ChannelState (G : Type) where
  core : OtaState G
  callbacks : ℕ → CallbackPc
  mirror : Channel → ChannelMirror
  http : HttpUpload
  matter : MatterPc
  matterOpen : Bool

def channelMirrorInit : ChannelMirror := ⟨.idle, 0, 0, .none⟩

def httpHeaderBufferSize : ℕ := 1024
def httpDataBufferSize : ℕ := 1024

def httpHeaderBuffer : ℕ := 0
def httpDataBuffer : ℕ := 1
def matterBlock : ℕ := 2

def channelBoot (G : Type) (flash : Flash) : ChannelState G where
  core := otaBoot G flash
  callbacks := fun _ => .returned
  mirror := fun _ => channelMirrorInit
  http := ⟨.idle none, [], 0, 0, List.replicate httpDataBufferSize 0, [], [], 0⟩
  matter := .idle none
  matterOpen := false

inductive HttpEvent
  | request (data : List UInt8)
  | recv (data : List UInt8)
  | recvFailed
  | step
  | timeout
  deriving DecidableEq, Repr

inductive MatterEvent
  | callStart (imageSize : ℕ)
  | callWrite (offset len : ℕ)
  | callAbort
  | step
  | timeout
  deriving DecidableEq, Repr

inductive ChannelLabel
  | core (i : ThreadId) (label : OtaLabel)
  | callback (t : ℕ)
  | http (event : HttpEvent)
  | matter (event : MatterEvent)
  deriving DecidableEq, Repr

namespace HttpUpload

def body (u : HttpUpload) : List UInt8 := u.header.drop u.headerEnd

def chunkSize (u : HttpUpload) (written : ℕ) :
    ℕ := min httpDataBufferSize (u.contentLength - written)

def moveTo (u : HttpUpload) (pc : HttpPc) : HttpUpload := { u with pc := pc }

def next (u : HttpUpload) (written : ℕ) : HttpPc :=
  if written < u.contentLength then .receive written 0 else .complete

def receiveImage (u : HttpUpload) : HttpPc :=
  if u.body.length > u.contentLength then .failed
  else if u.body.length ≠ 0 then .write httpHeaderBuffer 0 u.body.length
  else u.next 0

/-- `otaHttpReceiveHeader` with the bytes so far, and the checks behind it. -/
def headerReceived (u : HttpUpload) (header : List UInt8) : HttpUpload :=
  let headerEnd := otaHttpFindHeaderEnd header
  let u := { u with header := header, headerEnd := headerEnd }
  if headerEnd = 0 then
    u.moveTo (if header.length < httpHeaderBufferSize then .header else .idle (some .headerError))
  else
    match otaHttpParseContentLength (header.take headerEnd) with
    | none => u.moveTo (.idle (some .lengthError))
    | some contentLength =>
      let u := { u with contentLength := contentLength }
      u.moveTo (if u.body.length > contentLength then .idle (some .bodyError) else .startState)

/-- `memcpy` into the data buffer at the end of what it holds. -/
def fill (u : HttpUpload) (filled : ℕ) (data : List UInt8) : HttpUpload :=
  { u with
    dataBuffer := u.dataBuffer.take filled ++ data ++ u.dataBuffer.drop (filled + data.length)
    stream := u.stream ++ data }

def contents (u : HttpUpload) (pointer : ℕ) : List UInt8 := if pointer = httpHeaderBuffer then
    u.body else u.dataBuffer

end HttpUpload

namespace ChannelState

variable {G : Type}

def setMirror (s : ChannelState G) (channel : Channel) (f : ChannelMirror → ChannelMirror) :
    ChannelState G :=
  { s with mirror := Function.update s.mirror channel (f (s.mirror channel)) }

def setCallback (s : ChannelState G) (t : ℕ) (pc : CallbackPc) : ChannelState G :=
  { s with callbacks := Function.update s.callbacks t pc }

def httpAt (s : ChannelState G) (pc : HttpPc) :
    ChannelState G := { s with http := s.http.moveTo pc }
def matterAt (s : ChannelState G) (pc : MatterPc) : ChannelState G := { s with matter := pc }

@[simp] theorem setCallback_self (s : ChannelState G) (t : ℕ) (pc : CallbackPc) :
    (s.setCallback t pc).callbacks t = pc :=
  Function.update_self _ _ _

theorem setCallback_other (s : ChannelState G) {t u : ℕ} (h : u ≠ t) (pc : CallbackPc) :
    (s.setCallback t pc).callbacks u = s.callbacks u := Function.update_of_ne h _ _

@[simp] theorem setMirror_self (s : ChannelState G) (channel : Channel)
    (f : ChannelMirror → ChannelMirror) :
    (s.setMirror channel f).mirror channel = f (s.mirror channel) := Function.update_self _ _ _

theorem setMirror_other (s : ChannelState G) {channel other : Channel} (h : other ≠ channel)
    (f : ChannelMirror → ChannelMirror) : (s.setMirror channel f).mirror other = s.mirror other :=
  Function.update_of_ne h _ _

def returned (s : ChannelState G) (i : ThreadId) : Option SnfOtaRet :=
  match s.core.pcs i with
  | .idle ret => ret
  | _ => none

/-- The data behind a pointer, where it is a buffer of the upload. -/
def readable (s : ChannelState G) (event : SnfOtaEvent) (bytes : List UInt8) : Bool :=
  if event.data = httpDataBuffer then bytes = s.http.dataBuffer.take event.size
  else if event.data = httpHeaderBuffer then
    match s.http.pc with
    | .idle _ => true
    | _ => bytes = s.http.body.take event.size
  else true

def notified (core : OtaState G) (t : ℕ) : CallbackPc :=
  match core.pcs (.task t), core.shared.history with
  | .callback _, .notified _ (some .otaHttpEventCallback) state data :: _ =>
    .storeState .http state data
  | .callback _, .notified _ (some .otaMatterEventCallback) state data :: _ =>
    .storeState .matter state data
  | _, _ => .returned

end ChannelState

variable {G : Type} (sdk : Sdk G)

def ChannelState.invoke (s : ChannelState G) (i : ThreadId) (call : OtaCall) :
    Option (ChannelState G) :=
  (otaStep sdk s.core (i, .invoke call)).map fun core => { s with core := core }

/-- A step of the core. Calls come from the channels, a task waits for its callback, and it reads
what a lent buffer holds. -/
def coreStep (s : ChannelState G) (i : ThreadId) (label : OtaLabel) : Option (ChannelState G) :=
  match i, label with
  | _, .invoke _ => none
  | .client n, label =>
    (otaStep sdk s.core (.client n, label)).map fun core => { s with core := core }
  | .task t, label =>
    if s.callbacks t ≠ .returned then none
    else
      match s.core.pcs (.task t), label with
      | .handle event, .process bytes results =>
        if s.readable event bytes then
          (otaStep sdk s.core (.task t, .process bytes results)).map fun core =>
            { s with core := core }.setCallback t (ChannelState.notified core t)
        else none
      | _, label =>
        (otaStep sdk s.core (.task t, label)).map fun core =>
          { s with core := core }.setCallback t (ChannelState.notified core t)

def callbackStep (s : ChannelState G) (t : ℕ) : Option (ChannelState G) :=
  match s.callbacks t with
  | .returned => none
  | .storeState channel state data =>
    some ((s.setMirror channel fun m => { m with state := state }).setCallback t
      (.storeSize channel state data))
  | .storeSize channel state data =>
    some ((s.setMirror channel fun m => { m with receivedSize := data.receivedSize }).setCallback t
      (if channel = .http then .storeError state data else .storePercent channel state data))
  | .storeError state data =>
    some ((s.setMirror .http fun m => { m with errorCode := data.errorCode }).setCallback t
      (.storePercent .http state data))
  | .storePercent channel state data =>
    some ((s.setMirror channel fun m =>
        if m.state = .receiving ∧ m.percent ≠ data.percent then { m with percent := data.percent }
          else m).setCallback t
      (if state = .verifySuccess then .apply channel else .returned))
  | .apply channel =>
    (s.invoke sdk (applyClient t) .apply).map (·.setCallback t (.applying channel))
  | .applying channel =>
    (s.returned (applyClient t)).map fun ret =>
    s.setCallback t (if ret = .ok then .returned else .storeFailed channel)
  | .storeFailed channel =>
    some ((s.setMirror channel fun m => { m with state := .failed }).setCallback t
      (if channel = .http then .storeApplyFailed else .returned))
  | .storeApplyFailed =>
    some ((s.setMirror .http fun m => { m with errorCode := .applyFailed }).setCallback t .returned)

def httpStep (s : ChannelState G) (event : HttpEvent) : Option (ChannelState G) :=
  let mirror := s.mirror .http
  match s.http.pc, event with
  | .idle _, .request data =>
    let u := { s.http with stream := data, handed := [], before := s.core.shared.session }
    if data = [] ∨ data.length > httpHeaderBufferSize then
      some { s with http := u.moveTo (.idle (some .headerError)) }
    else some { s with http := u.headerReceived data }
  | .header, .recv data =>
    if data = [] ∨ data.length > httpHeaderBufferSize - s.http.header.length then none
    else some { s with http :=
      { s.http with stream := s.http.stream ++ data }.headerReceived (s.http.header ++ data) }
  | .header, .recvFailed => some (s.httpAt (.idle (some .headerError)))
  | .startState, .step =>
    some ((s.setMirror .http fun m => { m with state := .receiving }).httpAt .startReceived)
  | .startReceived, .step =>
    some ((s.setMirror .http fun m => { m with receivedSize := 0 }).httpAt .startPercent)
  | .startPercent, .step =>
    some ((s.setMirror .http fun m => { m with percent := 0 }).httpAt .startError)
  | .startError, .step =>
    some ((s.setMirror .http fun m => { m with errorCode := .none }).httpAt .start)
  | .start, .step =>
    (s.invoke sdk Channel.http.client
      (.start (some (Channel.http.config s.http.contentLength)))).map (·.httpAt .starting)
  | .starting, .step =>
    (s.returned Channel.http.client).map fun ret =>
      s.httpAt (if ret = .ok then s.http.receiveImage else .idle (some (.startFailed ret)))
  | .receive written filled, .recv data =>
    let chunk := s.http.chunkSize written
    if data = [] ∨ data.length > chunk - filled then none
    else
      some ({ s with http := s.http.fill filled data }.httpAt
        (if filled + data.length = chunk then .write httpDataBuffer written chunk
          else .receive written (filled + data.length)))
  | .receive _ _, .recvFailed => some (s.httpAt .failed)
  | .write pointer offset len, .step =>
    (s.invoke sdk Channel.http.client (.write offset (some pointer) len)).map fun s =>
      { s with http := { s.http with handed :=
        s.http.handed ++ [(offset, (s.http.contents pointer).take len)] } }.httpAt
        (.writing (u32Add offset len))
  | .writing expected, .step =>
    (s.returned Channel.http.client).map fun ret =>
    s.httpAt (if ret = .ok then .waitSize expected else .failed)
  | .waitSize expected, .step =>
    some (s.httpAt (if mirror.receivedSize ≥ expected then .waitReached expected
      else .waitState expected))
  | .waitReached expected, .step =>
    some (s.httpAt (if snfOtaStateIsFailed mirror.state then .failed else s.http.next expected))
  | .waitState expected, .step =>
    some (s.httpAt (if snfOtaStateIsFailed mirror.state then .failed else .waitSize expected))
  | .complete, .step =>
    some (s.httpAt (if mirror.state = .success then .idle (some .success)
      else if snfOtaStateIsFailed mirror.state then .failed else .complete))
  | .waitSize _, .timeout | .complete, .timeout => some (s.httpAt .failed)
  | .failed, .step => some (s.httpAt (.abortCheck mirror.errorCode))
  | .abortCheck error, .step =>
    some (s.httpAt (if snfOtaStateIsActive mirror.state then .abort error
      else .idle (some (.failed error))))
  | .abort error, .step =>
    (s.invoke sdk Channel.http.client .abort).map (·.httpAt (.aborting error))
  | .aborting error, .step =>
    (s.returned Channel.http.client).map fun ret =>
      s.httpAt (if ret = .ok then .abortWait error else .idle (some (.failed error)))
  | .abortWait error, .step =>
    some (s.httpAt (if snfOtaStateIsActive mirror.state then .abortWait error
      else .idle (some (.failed error))))
  | .abortWait error, .timeout => some (s.httpAt (.idle (some (.failed error))))
  | _, _ => none

/-- A step of the Matter adapter, whose functions its stack calls one after the other. -/
def matterStep (s : ChannelState G) (event : MatterEvent) : Option (ChannelState G) :=
  let mirror := s.mirror .matter
  match s.matter, event with
  | .idle _, .callStart imageSize =>
    some (s.matterAt (if imageSize = 0 then .idle (some (.start (-1))) else .startState imageSize))
  | .idle _, .callWrite offset len => some (s.matterAt (.write offset len))
  | .idle _, .callAbort => some (s.matterAt .abortCheck)
  | .startState imageSize, .step =>
    some ((s.setMirror .matter fun m => { m with state := .idle }).matterAt
      (.startReceived imageSize))
  | .startReceived imageSize, .step =>
    some ((s.setMirror .matter fun m => { m with receivedSize := 0 }).matterAt
      (.startPercent imageSize))
  | .startPercent imageSize, .step =>
    some ((s.setMirror .matter fun m => { m with percent := 0 }).matterAt (.start imageSize))
  | .start imageSize, .step =>
    (s.invoke sdk Channel.matter.client (.start (some (Channel.matter.config imageSize)))).map
    (·.matterAt .starting)
  | .starting, .step =>
    (s.returned Channel.matter.client).map fun ret =>
      { s with matterOpen := s.matterOpen || ret == SnfOtaRet.ok }.matterAt
        (.idle (some (.start (if ret = SnfOtaRet.ok then 0 else -1))))
  | .write offset len, .step =>
    (s.invoke sdk Channel.matter.client (.write offset (some matterBlock) len)).map
      (·.matterAt (.writing (u32Add offset len)))
  | .writing expected, .step =>
    (s.returned Channel.matter.client).map fun ret =>
      s.matterAt (if ret = .ok then .waitSize expected else .idle (some (.write (-1))))
  | .waitSize expected, .step =>
    some (s.matterAt (if mirror.receivedSize ≥ expected then .idle (some (.write 0))
      else .waitState expected))
  | .waitState expected, .step =>
    some (s.matterAt (if snfOtaStateIsFailed mirror.state then .idle (some (.write (-1)))
      else .waitSize expected))
  | .waitSize _, .timeout => some (s.matterAt (.idle (some (.write (-1)))))
  | .abortCheck, .step =>
    some (if snfOtaStateIsActive mirror.state then s.matterAt .abort
      else { s with matterOpen := false }.matterAt (.idle (some (.abort 0))))
  | .abort, .step => (s.invoke sdk Channel.matter.client .abort).map (·.matterAt .aborting)
  | .aborting, .step =>
    (s.returned Channel.matter.client).map fun ret =>
      if ret = .ok then s.matterAt .abortWait
        else { s with matterOpen := false }.matterAt (.idle (some (.abort (-1))))
  | .abortWait, .step =>
    some (s.matterAt (if snfOtaStateIsActive mirror.state then .abortWait else .abortEnd))
  | .abortWait, .timeout => some (s.matterAt .abortEnd)
  | .abortEnd, .step =>
    some ({ s with matterOpen := false }.matterAt
      (.idle (some (.abort (if snfOtaStateIsActive mirror.state then -1 else 0)))))
  | _, _ => none

def channelStep (s : ChannelState G) : ChannelLabel → Option (ChannelState G)
  | .core i label => coreStep sdk s i label
  | .callback t => callbackStep sdk s t
  | .http event => httpStep sdk s event
  | .matter event => matterStep sdk s event

end Sonoff.Ota
