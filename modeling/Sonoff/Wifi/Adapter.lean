import Mathlib.Data.Int.Notation
import Sonoff.Base.Machine

/-! # The Wi-Fi adapter

`sonoff_wifi_adapter.c` starts and stops the two interfaces of the SDK. A change of mode is up
to two such calls; one that fails is followed by a call that takes the other back. What the SDK
answers is an argument of each function, and whether an interface really runs is part of the
state.
-/
namespace Sonoff.Wifi

inductive SnfWifiMode
  | none
  | sta
  | ap
  | apSta
  deriving DecidableEq, Repr

def SnfWifiMode.ofInt : ℤ → Option SnfWifiMode
  | 0 => some .none
  | 1 => some .sta
  | 2 => some .ap
  | 3 => some .apSta
  | _ => Option.none

def SnfWifiMode.toInt : SnfWifiMode → ℤ
  | .none => 0
  | .sta => 1
  | .ap => 2
  | .apSta => 3

def SnfWifiMode.hasSta : SnfWifiMode → Bool
  | .sta | .apSta => true
  | _ => false

def SnfWifiMode.hasAp : SnfWifiMode → Bool
  | .ap | .apSta => true
  | _ => false

inductive SnfWifiAdapterErr
  | ok
  | invalidParam
  | notInit
  | busy
  | timeout
  | notSupported
  | internal
  deriving DecidableEq, Repr

inductive BkErr
  | ok
  | nullParam
  | param
  | wifiChanRange
  | wifiChanNumber
  | wifiCountryPolicy
  | wifiReservedField
  | wifiStaNotConfig
  | wifiApNotConfig
  | wifiNotInit
  | wifiStaNotStarted
  | wifiApNotStarted
  | notInit
  | busy
  | inProgress
  | timeout
  | notSupport
  | eventCbExist
  | other (code : ℤ)
  deriving DecidableEq, Repr

def snfMapSdkError : BkErr → SnfWifiAdapterErr
  | .ok => .ok
  | .nullParam | .param | .wifiChanRange | .wifiChanNumber | .wifiCountryPolicy | .wifiReservedField
  | .wifiStaNotConfig | .wifiApNotConfig => .invalidParam
  | .wifiNotInit | .wifiStaNotStarted | .wifiApNotStarted | .notInit => .notInit
  | .busy | .inProgress => .busy
  | .timeout => .timeout
  | .notSupport => .notSupported
  | _ => .internal

/-- Only `BK_OK` is mapped to success. -/
@[simp] theorem snfMapSdkError_eq_ok {error : BkErr} :
    snfMapSdkError error = .ok ↔ error = .ok := by
  cases error <;> simp [snfMapSdkError]

structure SnfWifiAdapterState where
  init : Bool
  staStarted : Bool
  apStarted : Bool
  scanStarted : Bool
  mode : SnfWifiMode
  -- the interfaces that the SDK runs
  staRuns : Bool
  apRuns : Bool
  deriving DecidableEq, Repr

def SnfWifiAdapterState.boot :
    SnfWifiAdapterState := ⟨false, false, false, false, .none, false, false⟩

/-- What the SDK answers in one change of mode; it is asked each of these at most once. -/
structure SdkAnswers where
  staSplitInit : BkErr
  staSplitStart : BkErr
  staStop : BkErr
  apStart : BkErr
  apStop : BkErr
  deriving DecidableEq, Repr

def SdkAnswers.allOk : SdkAnswers := ⟨.ok, .ok, .ok, .ok, .ok⟩

variable (answers : SdkAnswers)

def snfInitStateGet (s : SnfWifiAdapterState) : SnfWifiAdapterErr := if s.init = false then .notInit
    else .ok

def snfStartSta (s : SnfWifiAdapterState) : SnfWifiAdapterErr × SnfWifiAdapterState :=
  if answers.staSplitInit ≠ .ok then (snfMapSdkError answers.staSplitInit, s)
  else if answers.staSplitStart ≠ .ok then (snfMapSdkError answers.staSplitStart, s)
  else (.ok, { s with staStarted := true, staRuns := true })

def snfStopSta (s : SnfWifiAdapterState) : SnfWifiAdapterErr × SnfWifiAdapterState :=
  if s.staStarted = false then (.ok, s)
  -- what `bk_wifi_sta_disconnect` answers is dropped
  else if answers.staStop ≠ .ok then (snfMapSdkError answers.staStop, s)
  else (.ok, { s with staStarted := false, staRuns := false })

def snfStartAp (s : SnfWifiAdapterState) : SnfWifiAdapterErr × SnfWifiAdapterState :=
  if answers.apStart ≠ .ok then (snfMapSdkError answers.apStart, s)
  else (.ok, { s with apStarted := true, apRuns := true })

def snfStopAp (s : SnfWifiAdapterState) : SnfWifiAdapterErr × SnfWifiAdapterState :=
  if s.apStarted = false then (.ok, s)
  else if answers.apStop ≠ .ok then (snfMapSdkError answers.apStop, s)
  else (.ok, { s with apStarted := false, apRuns := false })

/-- What the SDK answers to `snfWifiAdapterInit`, and whether its Wi-Fi was already up. -/
structure InitAnswers where
  eventInit : BkErr
  wifiIsInited : Bool
  wifiInit : BkErr
  registerCb : BkErr
  deriving DecidableEq, Repr

def snfWifiAdapterInit (answers : InitAnswers) (s : SnfWifiAdapterState) :
    SnfWifiAdapterErr × SnfWifiAdapterState :=
  if s.init then (.ok, s)
  else if answers.eventInit ≠ .ok then (snfMapSdkError answers.eventInit, s)
  else if answers.wifiIsInited = false ∧ answers.wifiInit ≠ .ok then
    (snfMapSdkError answers.wifiInit, s)
  else if answers.registerCb ≠ .ok ∧ answers.registerCb ≠ .eventCbExist then
    (snfMapSdkError answers.registerCb, s)
  else (.ok, { s with init := true, staStarted := false, apStarted := false, scanStarted := false, mode := .none })

/-- `snfWifiAdapterSetMode` behind its checks. -/
def changeMode (mode : SnfWifiMode) (s : SnfWifiAdapterState) :
    SnfWifiAdapterErr × SnfWifiAdapterState :=
  let staHereStarted := mode.hasSta && !s.staStarted
  let (adapterError, s) := if staHereStarted then snfStartSta answers s else (.ok, s)
  if adapterError ≠ .ok then (adapterError, s)
  else
    let apHereStarted := mode.hasAp && !s.apStarted
    let (adapterError, s) := if apHereStarted then snfStartAp answers s else (.ok, s)
    if adapterError ≠ .ok then
      (adapterError, if staHereStarted then (snfStopSta answers s).2 else s)
    else
      let (adapterError, s) := if !mode.hasSta && s.staStarted then snfStopSta answers s
        else (.ok, s)
      if adapterError ≠ .ok then
        (adapterError, if apHereStarted then (snfStopAp answers s).2 else s)
      else
        let (adapterError, s) := if !mode.hasAp && s.apStarted then snfStopAp answers s
          else (.ok, s)
        if adapterError ≠ .ok then
          (adapterError, if staHereStarted then (snfStopSta answers s).2 else s)
        else (.ok, { s with mode := mode })

def snfWifiAdapterSetMode (mode : ℤ) (s : SnfWifiAdapterState) :
    SnfWifiAdapterErr × SnfWifiAdapterState :=
  if snfInitStateGet s ≠ .ok then (snfInitStateGet s, s)
  else
    match SnfWifiMode.ofInt mode with
    | none => (.invalidParam, s)
    | some mode => if mode = s.mode then (.ok, s) else changeMode answers mode s

end Sonoff.Wifi
