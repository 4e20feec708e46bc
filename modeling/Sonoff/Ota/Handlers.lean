import Sonoff.Base.NorFlash
import Sonoff.Ota.Parse

/-! # Flash adapter and event handlers of the OTA task

Every handler of a data or verify event ends in one notification, so a handler
returns the new working data together with the notification it makes and its
return value.
-/
namespace Sonoff.Ota
open Bytes AesGcm NorFlash OtaParse

inductive SnfOtaEventCallback
  | otaHttpEventCallback
  | otaMatterEventCallback
  | other (id : ℕ)
  deriving DecidableEq, Repr

structure SnfOtaConfig where
  imageInfo : SnfOtaImageInfo
  eventCallback : Option SnfOtaEventCallback
  format : SnfOtaFormat
  fileName : List UInt8
  deriving DecidableEq, Repr

def SnfOtaConfig.zero : SnfOtaConfig :=
  ⟨⟨0, snfOtaCheckNone, snfOtaCipherNone⟩, Option.none, .raw,
    List.replicate (snfOtaFileNameSize + 1) 0⟩

structure SnfOtaInfo where
  state : SnfOtaState
  totalSize : ℕ
  receivedSize : ℕ
  queuedSize : ℕ
  nextEraseOffset : ℕ
  timeoutCount : ℕ
  deriving DecidableEq, Repr

def SnfOtaInfo.zero : SnfOtaInfo := ⟨.idle, 0, 0, 0, 0, 0⟩

def snfOtaEraseSectorSize : ℕ := 4096
def snfOtaMaxTimeoutCount : ℕ := 3
def uint32Max : ℕ := 4294967295

def otaAdapterCheckRange (flash : Flash) (offset size : ℕ) : Bool :=
  offset ≤ flash.length && size ≤ flash.length - offset

/-- One adapter call: a zero size, a missing partition or a range outside it is refused. -/
def snfOtaAdapterIssue (flash : Flash) (op : FlashOp) : Bool × Flash :=
  let result := flash.results.headD .ok
  let result := if op.size = 0 ∨ otaAdapterCheckRange flash op.offset op.size = false then .refused
    else result
  (result == .ok, { flash with results := flash.results.tail }.record snfOtaEraseSectorSize op
    result)

def snfOtaAdapterErase (flash : Flash) (offset size : ℕ) : Bool × Flash :=
  snfOtaAdapterIssue flash (.erase offset size)

def snfOtaAdapterWrite (flash : Flash) (offset : ℕ) (data : List UInt8) : Bool × Flash :=
  snfOtaAdapterIssue flash (.write offset data)

/-- The data the OTA task works on while it handles an event. -/
structure OtaCore (G : Type) where
  config : SnfOtaConfig
  parser : SnfOtaParseContext G
  info : SnfOtaInfo
  flash : Flash

/-- A data event as the task reads it: the bytes behind its pointer, `none` for NULL. -/
structure SnfOtaImageData where
  offset : ℕ
  data : Option (List UInt8)
  deriving DecidableEq, Repr

/-- The notification a handler ends with, and its return value. -/
structure OtaOutcome where
  state : SnfOtaState
  errorCode : SnfOtaErrorCode
  ret : Int
  deriving DecidableEq, Repr

def otaCalculatePercent (receivedSize totalSize : ℕ) : ℕ :=
  if totalSize = 0 then 0
  else
    let percentValue := receivedSize * 100 / totalSize
    if percentValue > 100 then 100 else percentValue

def otaEventData (info : SnfOtaInfo) (errorCode : SnfOtaErrorCode) : SnfOtaEventData :=
  ⟨info.receivedSize, info.totalSize, otaCalculatePercent info.receivedSize info.totalSize,
    errorCode⟩

def otaVerifyImage (imageInfo : SnfOtaImageInfo) : SnfOtaErrorCode :=
  if imageInfo.checkType = snfOtaCheckNone then .none else .unsupported

variable {G : Type}

namespace OtaCore

def setNextErase (core : OtaCore G) (offset : ℕ) : OtaCore G :=
  { core with info := { core.info with nextEraseOffset := offset } }

def setFlash (core : OtaCore G) (flash : Flash) : OtaCore G := { core with flash := flash }
def setParser (core : OtaCore G) (parser : SnfOtaParseContext G) :
    OtaCore G := { core with parser := parser }

def notified (core : OtaCore G) (state : SnfOtaState) : OtaCore G :=
  { core with info := { core.info with state := state } }

def addReceived (core : OtaCore G) (size : ℕ) : OtaCore G :=
  { core with info := { core.info with receivedSize := u32Add core.info.receivedSize size } }

end OtaCore

/-- The erase loop; the gap to `writeEnd` bounds its iterations. -/
def otaEraseLoop (writeEnd : ℕ) : ℕ → OtaCore G → SnfOtaErrorCode × OtaCore G
  | 0, core => (.none, core)
  | fuel + 1, core =>
    if writeEnd > core.info.nextEraseOffset then
      let eraseOffset := core.info.nextEraseOffset
      if eraseOffset > uint32Max - snfOtaEraseSectorSize then (.eraseFailed, core)
      else
        let (ok, flash) := snfOtaAdapterErase core.flash eraseOffset snfOtaEraseSectorSize
        let core := core.setFlash flash
        if !ok then (.eraseFailed, core)
        else otaEraseLoop writeEnd fuel (core.setNextErase (eraseOffset + snfOtaEraseSectorSize))
    else (.none, core)

def otaEraseBeforeWrite (core : OtaCore G) (offset size : ℕ) : SnfOtaErrorCode × OtaCore G :=
  if size > uint32Max - offset then (.invalidParam, core)
  else
    let writeEnd := offset + size
    otaEraseLoop writeEnd (writeEnd - core.info.nextEraseOffset) core

def otaEraseAndWrite (core : OtaCore G) (offset : ℕ) (data : List UInt8) :
    SnfOtaErrorCode × OtaCore G :=
  let (errorCode, core) := otaEraseBeforeWrite core offset data.length
  if errorCode ≠ .none then (errorCode, core)
  else
    let (ok, flash) := snfOtaAdapterWrite core.flash offset data
    let core := core.setFlash flash
    if !ok then (.writeFailed, core) else (.none, core)

def writePayload (core : OtaCore G) (payload : SnfOtaPayload) : SnfOtaErrorCode × OtaCore G :=
  if payload.size ≠ 0 then otaEraseAndWrite core payload.offset payload.data else (.none, core)

variable (sdk : Sdk G)

/-- The loop of `otaHandlePackage`; `none` when the fuel runs out first. -/
def otaHandlePackageLoop : ℕ → OtaCore G → List UInt8 → Option (SnfOtaErrorCode × OtaCore G)
  | 0, _, _ => Option.none
  | fuel + 1, core, data =>
    if data = [] then some (.none, core)
    else
      let r := snfOtaParseData sdk core.parser data
      let core := core.setParser r.context
      if r.error ≠ .none then some (r.error, core)
      else
        let (error, core) := writePayload core r.payload
        if error ≠ .none then some (error, core)
        else otaHandlePackageLoop fuel core (data.drop r.consumed)

def otaHandlePackage (core : OtaCore G) (data : List UInt8) :
    Option (SnfOtaErrorCode × OtaCore G) :=
  otaHandlePackageLoop sdk (data.length + 1) core data

def otaHandleImage (core : OtaCore G) (offset : ℕ) (data : List UInt8) :
    Option (SnfOtaErrorCode × OtaCore G) :=
  if core.config.format = .package then otaHandlePackage sdk core data
    else some (otaEraseAndWrite core offset data)

def otaHandleVerify (core : OtaCore G) : OtaOutcome :=
  if core.info.receivedSize ≠ core.info.totalSize then ⟨.verifyFailed, .imageIncomplete, -1⟩
  else
    let errorCode := if core.config.format = .package then snfOtaParseFinish core.parser
      else otaVerifyImage core.config.imageInfo
    if errorCode ≠ .none then ⟨.verifyFailed, errorCode, -1⟩ else ⟨.verifySuccess, .none, 0⟩

def otaHandleData (core : OtaCore G) (event : SnfOtaImageData) : Option (OtaCore G × OtaOutcome) :=
  let imageSize := core.info.totalSize
  if core.info.state ≠ .receiving then some (core, ⟨.failed, .invalidParam, -1⟩)
  else
    match event.data with
    | Option.none => some (core, ⟨.failed, .invalidParam, -1⟩)
    | some data =>
      if data.length = 0 then some (core, ⟨.failed, .invalidParam, -1⟩)
      else if event.offset ≠ core.info.receivedSize then some (core, ⟨.failed, .invalidParam, -1⟩)
      else if event.offset > imageSize ∨ data.length > imageSize - event.offset then
        some (core, ⟨.failed, .invalidParam, -1⟩)
      else
        (otaHandleImage sdk core event.offset data).map fun r =>
          if r.1 ≠ .none then (r.2, ⟨.failed, r.1, -1⟩)
          else
            let core := r.2.addReceived data.length
            if core.info.receivedSize < imageSize then (core, ⟨.receiving, .none, 0⟩)
            else (core, otaHandleVerify core)

end Sonoff.Ota
