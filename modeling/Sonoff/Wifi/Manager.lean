import Sonoff.Base.Bytes
import Sonoff.Net.Manager
import Sonoff.Wifi.Adapter

/-! # The Wi-Fi task

`sonoff_wifi.c` queues the requests and the events of the radio and works them off one by one.
Each event asks the adapter and then writes the mode, the status of the link and what is known
of the access point.
-/
namespace Sonoff.Wifi
open Bytes Machine
open Sonoff.Net (SnfWifiManageMode SnfWifiLinkStatus SnfWifiExternalEventId snfWifiEventQueueSize)

inductive SnfWifiSecurity
  | open
  | wep
  | wpa
  | wpa2
  | wpa3
  | unknown
  deriving DecidableEq, Repr

/-- Texts are buffers with a terminator, if they have one. -/
structure SnfWifiStaConfig where
  ssid : List UInt8
  password : List UInt8
  deriving DecidableEq, Repr

structure SnfWifiApConfig where
  ssid : List UInt8
  password : List UInt8
  channel : UInt8
  maxConnections : UInt8
  security : SnfWifiSecurity
  deriving DecidableEq, Repr

structure SnfWifiLinkInfo where
  ssid : List UInt8
  bssid : List UInt8
  rssi : ℤ
  channel : UInt8
  security : SnfWifiSecurity
  deriving DecidableEq, Repr

inductive SnfWifiDisconnectReason
  | unknown
  | user
  | authFailed
  | apNotFound
  | assocFailed
  | handshakeTimeout
  | beaconLost
  | apDisconnected
  deriving DecidableEq, Repr

def snfWifiSsidMaxLen : ℕ := 32
def snfWifiPasswordMaxLen : ℕ := 64

def snfValidateString (value : List UInt8) (maxLength : ℕ) : Option ℕ :=
  if (cString value).length > maxLength then none else some (cString value).length

def snfWifiAdapterStaSetConfig (answer : BkErr) (config : SnfWifiStaConfig)
    (s : SnfWifiAdapterState) : SnfWifiAdapterErr :=
  if snfInitStateGet s ≠ .ok then snfInitStateGet s
  else
    match snfValidateString config.ssid snfWifiSsidMaxLen,
        snfValidateString config.password snfWifiPasswordMaxLen with
    | some ssidLength, some _ => if ssidLength = 0 then .invalidParam else snfMapSdkError answer
    | _, _ => .invalidParam

/-- The address of the AP is a constant that is handed to the SDK. -/
def snfWifiAdapterApSetConfig (answer : BkErr) (config : SnfWifiApConfig)
    (s : SnfWifiAdapterState) : SnfWifiAdapterErr :=
  if snfInitStateGet s ≠ .ok then snfInitStateGet s
  else
    match snfValidateString config.ssid snfWifiSsidMaxLen,
        snfValidateString config.password snfWifiPasswordMaxLen with
    | some ssidLength, some passwordLength =>
      if ssidLength = 0 ∨ config.security = .unknown then .invalidParam
      else if config.security = .open ∧ passwordLength ≠ 0 then .invalidParam
      else if config.security ≠ .open ∧
        (passwordLength < 8 ∨ passwordLength > snfWifiPasswordMaxLen) then .invalidParam
      else snfMapSdkError answer
    | _, _ => .invalidParam

def snfWifiAdapterStaConnect (answer : BkErr) (s : SnfWifiAdapterState) : SnfWifiAdapterErr :=
  if snfInitStateGet s ≠ .ok then snfInitStateGet s
  else if s.staStarted = false then .notInit
  else snfMapSdkError answer

def snfWifiAdapterStaDisconnect (answer : BkErr) (s : SnfWifiAdapterState) : SnfWifiAdapterErr :=
  if snfInitStateGet s ≠ .ok then snfInitStateGet s else snfMapSdkError answer

def snfWifiAdapterScan (answer : BkErr) (s : SnfWifiAdapterState) :
    SnfWifiAdapterErr × SnfWifiAdapterState :=
  if snfInitStateGet s ≠ .ok then (.notInit, s)
  else if s.scanStarted then (.busy, s)
  else (snfMapSdkError answer, { s with scanStarted := s.scanStarted || answer = .ok })

inductive SnfWifiInternalEvent
  | setToAp (config : SnfWifiApConfig)
  | setToSta (config : SnfWifiStaConfig)
  | setToIdle
  | disconnect
  | scan
  | cbConnected (info : SnfWifiLinkInfo)
  | cbDisconnected (reason : SnfWifiDisconnectReason)
  | cbScanDone
  deriving DecidableEq, Repr

structure SnfWifiManageState where
  eventQueue : List SnfWifiInternalEvent
  apConfig : SnfWifiApConfig
  staConfig : SnfWifiStaConfig
  linkInfo : SnfWifiLinkInfo
  mode : SnfWifiManageMode
  linkStatus : SnfWifiLinkStatus
  scanStatus : Bool
  adapter : SnfWifiAdapterState
  deriving DecidableEq, Repr

def SnfWifiLinkInfo.zero : SnfWifiLinkInfo := ⟨List.replicate 33 0, List.replicate 6 0, 0, 0, .open⟩

/-- The initial link information differs from it in the security. -/
def SnfWifiLinkInfo.initial : SnfWifiLinkInfo := { zero with security := .unknown }

def wifiInit : SnfWifiManageState where
  eventQueue := []
  apConfig := ⟨List.replicate 33 0, List.replicate 65 0, 0, 0, .open⟩
  staConfig := ⟨List.replicate 33 0, List.replicate 65 0⟩
  linkInfo := .initial
  mode := .idle
  linkStatus := .idle
  scanStatus := false
  adapter := { SnfWifiAdapterState.boot with init := true }

/-- A full queue does not wait. -/
def snfWifiEventSend (event : SnfWifiInternalEvent) (s : SnfWifiManageState) : SnfWifiManageState :=
  if s.eventQueue.length < snfWifiEventQueueSize then
    { s with eventQueue := s.eventQueue ++ [event] } else s

/-- What reaches the adapter from the SDK. For a connection it asks the SDK for the link, and
may get none. -/
inductive SdkEvent
  | scanDone
  | staConnected (linkInfo : Option SnfWifiLinkInfo)
  | staDisconnected (reason : SnfWifiDisconnectReason)
  | apStart
  | apStop
  | apConnected
  | apDisconnected
  deriving DecidableEq, Repr

/-- `snfWifiAdapterEventCallback`: the events of the AP are dropped. -/
def SdkEvent.internal : SdkEvent → Option SnfWifiInternalEvent
  | .scanDone => some .cbScanDone
  | .staConnected linkInfo => some (.cbConnected (linkInfo.getD .zero))
  | .staDisconnected reason => some (.cbDisconnected reason)
  | _ => none

def snfSdkEventHandler (event : SdkEvent) (s : SnfWifiManageState) : SnfWifiManageState :=
  let s := if event = .scanDone then { s with adapter := { s.adapter with scanStarted := false } }
    else s
  match event.internal with
  | some internal => snfWifiEventSend internal s
  | none => s

structure ProcessAnswers where
  config : BkErr
  mode : SdkAnswers
  connect : BkErr
  disconnect : BkErr
  scan : BkErr
  deriving DecidableEq, Repr

def ProcessAnswers.allOk : ProcessAnswers := ⟨.ok, .allOk, .ok, .ok, .ok⟩

abbrev Report := Option (SnfWifiExternalEventId × Option SnfWifiLinkInfo)

section Process
variable (answers : ProcessAnswers) (s : SnfWifiManageState)

def processSetToAp (config : SnfWifiApConfig) : SnfWifiManageState × Report :=
  if snfWifiAdapterApSetConfig answers.config config s.adapter ≠ .ok then (s, none)
  else
    let (adapterError, adapter) := snfWifiAdapterSetMode answers.mode SnfWifiMode.ap.toInt s.adapter
    if adapterError ≠ .ok then ({ s with adapter := adapter }, none)
    else
      ({ s with adapter := adapter, apConfig := config, linkInfo := .zero, mode := .ap, linkStatus := .idle },
        some (.apStarted, none))

def processSetToSta (config : SnfWifiStaConfig) : SnfWifiManageState × Report :=
  if snfWifiAdapterStaSetConfig answers.config config s.adapter ≠ .ok then (s, none)
  else
    let (adapterError, adapter) :=
      snfWifiAdapterSetMode answers.mode SnfWifiMode.sta.toInt s.adapter
    if adapterError ≠ .ok then ({ s with adapter := adapter }, none)
    else
      let linkStatus : SnfWifiLinkStatus :=
        if snfWifiAdapterStaConnect answers.connect adapter ≠ .ok then .disconnected
          else .connecting
      ({ s with adapter := adapter, staConfig := config, linkInfo := .zero, mode := .sta, linkStatus := linkStatus },
        some (.staConnecting, none))

def processSetToIdle : SnfWifiManageState × Report :=
  let (adapterError, adapter) := snfWifiAdapterSetMode answers.mode SnfWifiMode.none.toInt s.adapter
  if adapterError ≠ .ok then ({ s with adapter := adapter }, none)
  else ({ s with adapter := adapter, linkInfo := .zero, mode := .idle, linkStatus := .idle }, none)

def processDisconnect : SnfWifiManageState × Report :=
  if s.mode = .sta ∧ snfWifiAdapterStaDisconnect answers.disconnect s.adapter = .ok then
    ({ s with linkInfo := .zero, linkStatus := .disconnecting }, none)
  else (s, none)

def processScan : SnfWifiManageState × Report :=
  let (adapterError, adapter) := snfWifiAdapterScan answers.scan s.adapter
  ({ s with adapter := adapter, scanStatus := s.scanStatus || adapterError = .ok }, none)

/-- The mode is not asked for. -/
def processCbConnected (info : SnfWifiLinkInfo) : SnfWifiManageState × Report :=
  ({ s with linkInfo := info, linkStatus := .connected }, some (.staConnected, some info))

def processCbDisconnected : SnfWifiManageState × Report :=
  ({ s with linkInfo := .zero, linkStatus := .disconnected }, some (.staDisconnected, none))

def processCbScanDone : SnfWifiManageState × Report :=
  ({ s with scanStatus := false }, some (.scanDone, none))

def snfWifiProcessEvent : SnfWifiInternalEvent → SnfWifiManageState × Report
  | .setToAp config => processSetToAp answers s config
  | .setToSta config => processSetToSta answers s config
  | .setToIdle => processSetToIdle answers s
  | .disconnect => processDisconnect answers s
  | .scan => processScan answers s
  | .cbConnected info => processCbConnected s info
  | .cbDisconnected _ => processCbDisconnected s
  | .cbScanDone => processCbScanDone s

end Process

def snfWifiGetMode (s : SnfWifiManageState) : SnfWifiManageMode := s.mode

def snfWifiGetLinkStatus (s : SnfWifiManageState) : SnfWifiLinkStatus := s.linkStatus

inductive WifiRequest
  | staConnect (config : SnfWifiStaConfig)
  | staDisconnect
  | apStart (config : SnfWifiApConfig)
  | apStop
  | scan
  deriving DecidableEq, Repr

def WifiRequest.event : WifiRequest → SnfWifiInternalEvent
  | .staConnect config => .setToSta config
  | .staDisconnect => .disconnect
  | .apStart config => .setToAp config
  | .apStop => .setToIdle
  | .scan => .scan

inductive WifiLabel
  | request (request : WifiRequest)
  | sdkEvent (event : SdkEvent)
  | process (answers : ProcessAnswers)
  deriving DecidableEq, Repr

def wifiStep (s : SnfWifiManageState) : WifiLabel → Option SnfWifiManageState
  | .request request => some (snfWifiEventSend request.event s)
  | .sdkEvent event => some (snfSdkEventHandler event s)
  | .process answers =>
    match s.eventQueue with
    | event :: queue => some (snfWifiProcessEvent answers { s with eventQueue := queue } event).1
    | [] => none

end Sonoff.Wifi
