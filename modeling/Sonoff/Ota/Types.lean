import Mathlib.Data.List.Basic
import Mathlib.Tactic.Common

/-! # Public types and constants of the OTA module -/
namespace Sonoff.Ota

inductive SnfOtaRet
  | ok
  | errInvalidParam
  | errState
  | errBusy
  | errQueueFull
  | errNoMemory
  deriving DecidableEq, Repr

inductive SnfOtaState
  | idle
  | receiving
  | verifySuccess
  | verifyFailed
  | apply
  | abort
  | failed
  | success
  deriving DecidableEq, Repr

inductive SnfOtaErrorCode
  | none
  | invalidParam
  | unsupported
  | timeout
  | eraseFailed
  | writeFailed
  | imageIncomplete
  | checkFailed
  | applyFailed
  | aborted
  | fileNotFound
  | decryptFailed
  deriving DecidableEq, Repr

/-- `check_type` and `cipher_type` are plain `uint8_t` fields. -/
def snfOtaCheckNone : UInt8 := 0
def snfOtaCipherNone : UInt8 := 0
def snfOtaCipherAes256Gcm : UInt8 := 1

def snfOtaFileNameSize : ℕ := 32

/-- The target name the HTTP and Matter channels ask for. -/
def snfOtaDefaultFileName : List UInt8 := [111, 116, 97, 46, 98, 105, 110]

/-- The input format; a C enum may carry any other value, which Start refuses. -/
inductive SnfOtaFormat
  | raw
  | package
  | other (value : ℕ)
  deriving DecidableEq, Repr

structure SnfOtaImageInfo where
  size : ℕ
  checkType : UInt8
  cipherType : UInt8
  deriving DecidableEq, Repr

structure SnfOtaEventData where
  receivedSize : ℕ
  totalSize : ℕ
  percent : ℕ
  errorCode : SnfOtaErrorCode
  deriving DecidableEq, Repr

def snfOtaStateIsFailed (state : SnfOtaState) : Bool :=
  state == .failed || state == .verifyFailed || state == .abort

/-- Still executing, including the wait for the reboot after a success. -/
def snfOtaStateIsActive (state : SnfOtaState) : Bool :=
  state == .receiving || state == .verifySuccess || state == .apply || state == .success

end Sonoff.Ota
