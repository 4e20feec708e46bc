import Sonoff.Base.Threads
import Sonoff.Ota.DataHandling

/-! # The OTA core under concurrent use

Any number of clients call the interface while the OTA task handles its queue.
A thread's control point is where it stands in the source between two accesses
of data it shares with others: the interface functions are split at every access
of the mutex, the queue and the counters, a handler of the task is one step up to
its notification, since until then nobody else accesses the data it works on.
The label of a step resolves what the source leaves open: which call a client
makes, whether a fallible operation succeeds, the bytes behind a data pointer
when they are read, and the outcomes of the flash operations.
-/
namespace Sonoff.Ota
open Bytes AesGcm NorFlash OtaParse Threads

variable {G : Type}

inductive ThreadId
  | client (n : ℕ)
  | task (n : ℕ)
  deriving DecidableEq, Repr

/-- A call of the interface; pointers may be NULL. -/
inductive OtaCall
  | start (config : Option SnfOtaConfig)
  | write (offset : ℕ) (data : Option ℕ) (len : ℕ)
  | apply
  | abort
  deriving DecidableEq, Repr

def OtaCall.inRange : OtaCall → Bool
  | .start (some config) => config.imageInfo.size < 4294967296
  | .write offset _ len => offset < 4294967296 && len < 4294967296
  | _ => true

inductive OtaRequest
  | start (config : SnfOtaConfig)
  | write (offset data len : ℕ)
  | apply
  | abort
  deriving DecidableEq, Repr

inductive SnfOtaEventId
  | imageData
  | imageApply
  | abort
  deriving DecidableEq, Repr

/-- An event of the queue. Only the first four fields are the source's; the
others record who issued it, in which session and in which state. -/
structure SnfOtaEvent where
  id : SnfOtaEventId
  offset : ℕ
  data : ℕ
  size : ℕ
  issuer : ThreadId
  session : ℕ
  admitted : SnfOtaState
  deriving DecidableEq, Repr

inductive AfterNotify
  | receive
  | commit (event : SnfOtaEvent)
  | reboot
  | exit
  deriving DecidableEq, Repr

inductive OtaPc
  /-- Outside, with the last call's return value. -/
  | idle (ret : Option SnfOtaRet)
  | params (call : OtaCall)
  | createMutex (config : SnfOtaConfig)
  | lock (request : OtaRequest)
  | take (mutex : ℕ) (request : OtaRequest)
  | check (request : OtaRequest)
  | startPrepare (config : SnfOtaConfig)
  | startQueue (config : SnfOtaConfig)
  | startInit (config : SnfOtaConfig)
  | startTask (config : SnfOtaConfig)
  | send (request : OtaRequest) (event : SnfOtaEvent)
  | count (request : OtaRequest) (len : ℕ)
  | unlock (request : OtaRequest) (ret : SnfOtaRet)
  /-- Not yet running. -/
  | created
  | receive
  | timeout
  | handle (event : SnfOtaEvent)
  | callback (next : AfterNotify)
  | commit (event : SnfOtaEvent)
  | reboot
  | exitLock
  | exitTake (mutex : ℕ)
  | teardown
  | exitUnlock
  | deleted
  deriving DecidableEq, Repr

def AfterNotify.pc : AfterNotify → OtaPc
  | .receive => .receive
  | .commit event => .commit event
  | .reboot => .reboot
  | .exit => .exitLock

inductive OtaLabel
  | invoke (call : OtaCall)
  | proceed (success : Bool)
  | elapse
  | process (bytes : List UInt8) (results : List OpResult)
  deriving DecidableEq, Repr

/-- What a run records, by session. -/
inductive Observation
  | started (issuer : ThreadId) (session : ℕ) (config : SnfOtaConfig)
  | consumed (session : ℕ) (event : SnfOtaEvent) (bytes : List UInt8)
  | aborted (session : ℕ) (event : SnfOtaEvent)
  | notified (session : ℕ) (callback : Option SnfOtaEventCallback) (state : SnfOtaState)
      (data : SnfOtaEventData)
  | committed (session : ℕ) (event : SnfOtaEvent) (success : Bool)
  deriving DecidableEq, Repr

/-- The shared data: the control block, the run information, the partition, the
holders of the mutexes, and the history, newest first. -/
structure OtaSystem (G : Type) where
  taskHandle : Option ℕ
  eventQueue : Option (List SnfOtaEvent)
  mutex : Option ℕ
  core : OtaCore G
  holder : ℕ → Option ThreadId
  mutexCount : ℕ
  taskCount : ℕ
  session : ℕ
  history : List Observation

def snfOtaEventQueueLength : ℕ := 10

namespace OtaSystem

def setHolder (x : OtaSystem G) (mutex : ℕ) (holder : Option ThreadId) : OtaSystem G :=
  { x with holder := fun m => if m = mutex then holder else x.holder m }

def setCore (x : OtaSystem G) (core : OtaCore G) : OtaSystem G := { x with core := core }
def setQueue (x : OtaSystem G) (queue : Option (List SnfOtaEvent)) :
    OtaSystem G := { x with eventQueue := queue }
def observe (x : OtaSystem G) (o : Observation) :
    OtaSystem G := { x with history := o :: x.history }

/-- `control->mutex = xSemaphoreCreateMutex()`; a failed creation stores NULL. -/
def createMutex (x : OtaSystem G) (success : Bool) : OtaSystem G :=
  if success then { x.setHolder x.mutexCount none with mutex := some x.mutexCount, mutexCount :=
    x.mutexCount + 1 }
  else { x with mutex := none }

end OtaSystem

/-- `xSemaphoreGive` fails on a free mutex and does not return on another thread's. -/
def otaUnlock (i : ThreadId) (x : OtaSystem G) : Option (OtaSystem G) :=
  match x.mutex with
  | none => some x
  | some m =>
    if x.holder m = some i then some (x.setHolder m none)
    else if x.holder m = none then some x
    else none

def otaQueueEventSend (x : OtaSystem G) (event : SnfOtaEvent) : SnfOtaRet × OtaSystem G :=
  match x.eventQueue with
  | none => (.errState, x)
  | some events =>
    if events.length < snfOtaEventQueueLength then (.ok, x.setQueue (some (events ++ [event])))
    else (.errQueueFull, x)

def otaClearSessionLocked (x : OtaSystem G) : OtaSystem G :=
  { x with
    core := { x.core with config := .zero, parser := snfOtaParseFree x.core.parser, info := .zero }
    taskHandle := none }

def otaNotify (x : OtaSystem G) (state : SnfOtaState) (errorCode : SnfOtaErrorCode) : OtaSystem G :=
  (x.setCore (x.core.notified state)).observe
    (.notified x.session x.core.config.eventCallback state (otaEventData x.core.info errorCode))

def otaParams : OtaCall → Except SnfOtaRet OtaRequest
  | .start none => .error .errInvalidParam
  | .start (some config) =>
    if config.imageInfo.size = 0 then .error .errInvalidParam
    else if config.imageInfo.cipherType ≠ snfOtaCipherNone then .error .errInvalidParam
    else if config.format ≠ .raw ∧ config.format ≠ .package then .error .errInvalidParam
    else if config.format = .package ∧ config.imageInfo.checkType ≠ snfOtaCheckNone then
      .error .errInvalidParam
    else .ok (.start config)
  | .write _ none _ => .error .errInvalidParam
  | .write offset (some data) len =>
    if len = 0 then .error .errInvalidParam else .ok (.write offset data len)
  | .apply => .ok .apply
  | .abort => .ok .abort

/-- The partition size, the raw size check and the parser of a new session. -/
def snfOtaStartPrepare (x : OtaSystem G) (config : SnfOtaConfig) (sizeKnown : Bool) :
    SnfOtaRet × OtaSystem G :=
  if !sizeKnown then (.errState, x)
  else if config.format = .raw ∧ config.imageInfo.size > x.core.flash.length then
    (.errInvalidParam, x)
  else if config.format = .package then
    let r := snfOtaParseInit config.imageInfo.size (some config.fileName) x.core.flash.length
    (if r.2 ≠ .none then .errInvalidParam else .ok, x.setCore (x.core.setParser r.1))
  else (.ok, x)

/-- The configuration and the run information of a new session, whose flash log
starts here. -/
def snfOtaStartInit (x : OtaSystem G) (config : SnfOtaConfig) : OtaSystem G :=
  { x with
    core :=
      { config := config
        parser := x.core.parser
        info := { SnfOtaInfo.zero with totalSize := config.imageInfo.size, state := .receiving }
        flash := { x.core.flash with log := [] } }
    session := x.session + 1 }

/-- `xTaskCreate` stores the new task's handle. -/
def snfOtaStartTask (i : ThreadId) (x : OtaSystem G) (config : SnfOtaConfig) : OtaSystem G :=
  { x.observe (.started i x.session config) with taskHandle := some x.taskCount, taskCount :=
    x.taskCount + 1 }

def otaEvent (i : ThreadId) (x : OtaSystem G) (request : OtaRequest) : SnfOtaEvent :=
  match request with
  | .write offset data len => ⟨.imageData, offset, data, len, i, x.session, x.core.info.state⟩
  | .apply => ⟨.imageApply, 0, 0, 0, i, x.session, x.core.info.state⟩
  | _ => ⟨.abort, 0, 0, 0, i, x.session, x.core.info.state⟩

def snfOtaWriteCheck (x : OtaSystem G) (offset len : ℕ) : SnfOtaRet :=
  if x.core.info.state ≠ .receiving then .errState
  else if offset ≠ x.core.info.queuedSize ∨ offset > x.core.info.totalSize
      ∨ len > x.core.info.totalSize - offset then .errInvalidParam
  else .ok

def otaCheck (i : ThreadId) (x : OtaSystem G) (request : OtaRequest) : OtaPc :=
  match request with
  | .start config => if x.taskHandle ≠ none then .unlock request .errBusy else .startPrepare config
  | .write offset _ len =>
    if x.taskHandle = none then .unlock request .errState
    else if snfOtaWriteCheck x offset len ≠ .ok then .unlock request (snfOtaWriteCheck x offset len)
    else .send request (otaEvent i x request)
  | .apply =>
    if x.taskHandle = none then .unlock request .errState
    else if x.core.info.state ≠ .verifySuccess then .unlock request .errState
    else .send request (otaEvent i x request)
  | .abort =>
    if x.taskHandle = none then .unlock request .errState else .send request (otaEvent i x request)

/-- The next point after the event was sent: a data event is still to be counted. -/
def afterSend (request : OtaRequest) (event : SnfOtaEvent) (ret : SnfOtaRet) : OtaPc :=
  if ret = .ok ∧ event.id = .imageData then .count request event.size else .unlock request ret

def addQueued (x : OtaSystem G) (len : ℕ) : OtaSystem G :=
  x.setCore { x.core with info :=
    { x.core.info with queuedSize := u32Add x.core.info.queuedSize len } }

def setTimeoutCount (x : OtaSystem G) (count : ℕ) : OtaSystem G :=
  x.setCore { x.core with info := { x.core.info with timeoutCount := count } }

def otaHandleTimeout (x : OtaSystem G) : OtaPc × OtaSystem G :=
  if x.core.info.state ≠ .receiving then (.receive, x)
  else
    let x := setTimeoutCount x (x.core.info.timeoutCount + 1)
    if x.core.info.timeoutCount < snfOtaMaxTimeoutCount then (.receive, x)
    else (.callback .exit, otaNotify x .failed .timeout)

/-- A data event up to its notification. The timeout counter is reset with it; it
is read only after the handler has returned. -/
def otaHandleDataEvent (sdk : Sdk G) (x : OtaSystem G) (event : SnfOtaEvent) (bytes : List UInt8)
    (results : List OpResult) : Option (OtaPc × OtaSystem G) :=
  let x := setTimeoutCount (x.observe (.consumed x.session event bytes)) 0
  (otaHandleData sdk (x.core.setFlash { x.core.flash with results := results }) ⟨event.offset,
    some bytes⟩).map fun r =>
    (.callback (if r.2.ret = 0 then .receive else .exit),
    otaNotify (x.setCore r.1) r.2.state r.2.errorCode)

/-- `otaHandleApply` up to the commit. -/
def otaHandleApply (x : OtaSystem G) (event : SnfOtaEvent) : OtaPc × OtaSystem G :=
  (.callback (.commit event), otaNotify (setTimeoutCount x 0) .apply .none)

/-- `otaHandleApply` from the commit on; a successful one ends in the reboot. -/
def otaHandleCommit (x : OtaSystem G) (event : SnfOtaEvent) (success : Bool) :
    OtaPc × OtaSystem G :=
  let x := x.observe (.committed x.session event success)
  if success then (.callback .reboot, otaNotify x .success .none)
  else (.callback .exit, otaNotify x .failed .applyFailed)

def otaHandleAbort (x : OtaSystem G) (event : SnfOtaEvent) : OtaPc × OtaSystem G :=
  (.callback .exit, otaNotify ((setTimeoutCount x 0).observe (.aborted x.session event)) .abort
    .aborted)

def otaTaskTeardown (x : OtaSystem G) : OtaSystem G := otaClearSessionLocked (x.setQueue none)

variable (sdk : Sdk G)

def otaNext (i : ThreadId) (pc : OtaPc) (x : OtaSystem G) (label : OtaLabel) :
    Option (OtaPc × OtaSystem G) :=
  match pc, label with
  | .idle _, .invoke call => if call.inRange then some (.params call, x) else none
  | .params call, .proceed _ =>
    match otaParams call with
    | .error ret => some (.idle (some ret), x)
    | .ok (.start config) =>
      some (if x.mutex = none then .createMutex config else .lock (.start config), x)
    | .ok request => some (.lock request, x)
  | .createMutex config, .proceed success =>
    some (if success then .lock (.start config) else .idle (some .errNoMemory),
      x.createMutex success)
  | .lock request, .proceed _ =>
    match x.mutex with
    | none => some (.idle (some .errState), x)
    | some m => some (.take m request, x)
  | .take m request, .proceed _ =>
    if x.holder m = none then some (.check request, x.setHolder m (some i)) else none
  | .check request, .proceed _ => some (otaCheck i x request, x)
  | .startPrepare config, .proceed success =>
    let r := snfOtaStartPrepare x config success
    some (if r.1 = .ok then .startQueue config else .unlock (.start config) r.1, r.2)
  | .startQueue config, .proceed success =>
    if x.eventQueue ≠ none then some (.startInit config, x)
    else if success then some (.startInit config, x.setQueue (some []))
    else some (.unlock (.start config) .errNoMemory, x)
  | .startInit config, .proceed _ => some (.startTask config, snfOtaStartInit x config)
  | .startTask config, .proceed success =>
    if success then some (.unlock (.start config) .ok, snfOtaStartTask i x config)
    -- Deleting a queue that is gone does not return.
    else if x.eventQueue = none then none
    else some (.unlock (.start config) .errNoMemory, otaClearSessionLocked (x.setQueue none))
  | .send request event, .proceed _ =>
    let r := otaQueueEventSend x event
    some (afterSend request event r.1, r.2)
  | .count request len, .proceed _ => some (.unlock request .ok, addQueued x len)
  | .unlock _ ret, .proceed _ => (otaUnlock i x).map fun x => (.idle (some ret), x)
  | .created, .proceed _ =>
    match i with
    | .task t => if t < x.taskCount then some (.receive, x) else none
    | .client _ => none
  | .receive, .proceed _ =>
    match x.eventQueue with
    | some (event :: rest) => some (.handle event, x.setQueue (some rest))
    | _ => none
  | .receive, .elapse => if x.eventQueue = some [] then some (.timeout, x) else none
  | .timeout, .proceed _ => some (otaHandleTimeout x)
  | .handle event, .process bytes results =>
    if event.id = .imageData ∧ bytes.length = event.size then
      otaHandleDataEvent sdk x event bytes results else none
  | .handle event, .proceed _ =>
    match event.id with
    | .imageData => none
    | .imageApply => some (otaHandleApply x event)
    | .abort => some (otaHandleAbort x event)
  | .callback next, .proceed _ => some (next.pc, x)
  | .commit event, .proceed success => some (otaHandleCommit x event success)
  | .reboot, .proceed _ => some (.receive, x)
  | .exitLock, .proceed _ =>
    match x.mutex with
    | none => some (.deleted, x)
    | some m => some (.exitTake m, x)
  | .exitTake m, .proceed _ =>
    if x.holder m = none then some (.teardown, x.setHolder m (some i)) else none
  | .teardown, .proceed _ => some (.exitUnlock, otaTaskTeardown x)
  | .exitUnlock, .proceed _ => (otaUnlock i x).map fun x => (.deleted, x)
  | _, _ => none

abbrev OtaState (G : Type) := Config ThreadId OtaPc (OtaSystem G)

def otaStep (s : OtaState G) (label : ThreadId × OtaLabel) :
    Option (OtaState G) := Threads.step (otaNext sdk) s label

/-- After boot: no session, no mutex, and a partition with any content. -/
def otaBoot (G : Type) (flash : Flash) : OtaState G where
  shared :=
    { taskHandle := none
      eventQueue := none
      mutex := none
      core := ⟨.zero, .zero, .zero, flash⟩
      holder := fun _ => none
      mutexCount := 0
      taskCount := 0
      session := 0
      history := [] }
  pcs := fun i =>
    match i with
    | .client _ => .idle none
    | .task _ => .created

end Sonoff.Ota
