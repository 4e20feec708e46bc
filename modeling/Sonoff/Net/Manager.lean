import Mathlib.Logic.Function.Basic
import Sonoff.Base.Machine

/-! # The network manager and the Wi-Fi task

A caller puts its request into the queue of the Wi-Fi task and updates the network state
afterwards. The Wi-Fi task takes the requests and the events of the radio in order and
reports to the same state, the IP events come to it past the queue. Each of the three
first looks at the state and then writes it, and any other may move in between.
-/
namespace Sonoff.Net

inductive SnfNetState
  | idle
  | connecting
  | waitIp
  | ready
  | reconnectWait
  | apStarting
  | apReady
  deriving DecidableEq, Repr

inductive SnfWifiManageMode
  | idle
  | sta
  | ap
  deriving DecidableEq, Repr

inductive SnfWifiLinkStatus
  | idle
  | connecting
  | connected
  | disconnecting
  | disconnected
  deriving DecidableEq, Repr

inductive SnfWifiInternalEventId
  | setToAp
  | setToSta
  | setToIdle
  | disconnect
  | scan
  | cbConnected
  | cbDisconnected
  | cbScanDone
  deriving DecidableEq, Repr

inductive SnfWifiExternalEventId
  | staConnecting
  | staConnected
  | staConnectFailed
  | staDisconnected
  | apStarted
  | apStartFailed
  | apStopped
  | scanDone
  | scanFailed
  deriving DecidableEq, Repr

/-- `snfNetStaConnect`, `snfNetStaDisconnect`, `snfNetApStart` and `snfNetApStop`. -/
inductive NetRequest
  | staConnect
  | staDisconnect
  | apStart
  | apStop
  deriving DecidableEq, Repr

/-- The event a request puts into the queue. -/
def NetRequest.event : NetRequest → SnfWifiInternalEventId
  | .staConnect => .setToSta
  | .staDisconnect => .disconnect
  | .apStart => .setToAp
  | .apStop => .setToIdle

def NetRequest.state : NetRequest → SnfNetState
  | .staConnect => .connecting
  | .staDisconnect => .idle
  | .apStart => .apStarting
  | .apStop => .idle

structure WifiItem where
  event : SnfWifiInternalEventId
  request : Option ℕ
  deriving DecidableEq, Repr

inductive CallerPc
  | returned
  | update (request : NetRequest) (number : ℕ)
  deriving DecidableEq, Repr

inductive WifiPc
  | receive
  | process (item : WifiItem)
  | callback (event : SnfWifiExternalEventId)
  | notify (event : SnfWifiExternalEventId)
  deriving DecidableEq, Repr

/-- The event task of the SDK behind its look at the state. -/
inductive IpPc
  | returned
  | gotIp (ip : UInt32)
  | lostIp
  deriving DecidableEq, Repr

/-- The state of the managers, and behind it what no code reads: the accepted requests are
numbered; `last` is the last of them, `updated` the number of the last state update by a caller,
`served` whether the Wi-Fi task has carried the last one out, and `address` whether the
station holds an address since it was last told to connect. -/
structure NetManager where
  net : SnfNetState
  ipv4 : UInt32
  queue : List WifiItem
  mode : SnfWifiManageMode
  linkStatus : SnfWifiLinkStatus
  scanStatus : Bool
  callers : ℕ → CallerPc
  wifi : WifiPc
  ip : IpPc
  accepted : ℕ
  last : Option NetRequest
  updated : ℕ
  served : Bool
  address : Bool

def netInit : NetManager where
  net := .idle
  ipv4 := 0
  queue := []
  mode := .idle
  linkStatus := .idle
  scanStatus := false
  callers := fun _ => .returned
  wifi := .receive
  ip := .returned
  accepted := 0
  last := none
  updated := 0
  served := false
  address := false

def snfWifiEventQueueSize : ℕ := 10

/-- The check of `snfNetWifiEventCallback`. -/
def wifiEventApplies (event : SnfWifiExternalEventId) (net : SnfNetState)
    (mode : SnfWifiManageMode) : Bool :=
  match event with
  | .staConnecting => net ≠ .idle && net ≠ .apStarting && net ≠ .apReady
  | .staConnected => net ≠ .idle && net ≠ .apStarting && net ≠ .apReady && net ≠ .ready
  | .staConnectFailed | .staDisconnected => !(net = .idle || net = .apStarting || net = .apReady)
  | .apStarted => mode = .ap
  | .apStartFailed | .apStopped => net = .apStarting || net = .apReady
  | .scanDone | .scanFailed => false

def wifiEventState : SnfWifiExternalEventId → SnfNetState
  | .staConnecting => .connecting
  | .staConnected => .waitIp
  | .staConnectFailed | .staDisconnected => .reconnectWait
  | .apStarted => .apReady
  | .apStartFailed | .apStopped | .scanDone | .scanFailed => .idle

/-- The checks of `snfNetAdapterEventCallback`. -/
def gotIpApplies (net : SnfNetState) : Bool :=
  !(net = .idle || net = .reconnectWait || net = .apStarting || net = .apReady)

def lostIpApplies (net : SnfNetState) : Bool := net = .waitIp || net = .ready

namespace NetManager

/-- `snfWifiEventSend`: a full queue does not wait. -/
def send (s : NetManager) (item : WifiItem) : Option NetManager :=
  if s.queue.length < snfWifiEventQueueSize then some { s with queue := s.queue ++ [item] }
    else none

/-- A control function up to its request; a refused one returns. -/
def request (s : NetManager) (i : ℕ) (r : NetRequest) : NetManager :=
  match s.send ⟨r.event, some (s.accepted + 1)⟩ with
  | some s' => { s' with
      callers := Function.update s.callers i (.update r (s.accepted + 1))
      accepted := s.accepted + 1
      last := some r
      served := false }
  | none => s

def update (s : NetManager) (i : ℕ) (r : NetRequest) (number : ℕ) : NetManager :=
  { s with
    ipv4 := 0
    net := r.state
    callers := Function.update s.callers i .returned
    updated := number }

/-- An event of the radio is lost where the queue is full. -/
def sdkSend (s : NetManager) (event : SnfWifiInternalEventId) :
    NetManager := (s.send ⟨event, none⟩).getD s

/-- The radio has changed its mode: the request counts, and any address is gone. -/
def serve (s : NetManager) (item : WifiItem) : NetManager :=
  { s with served := s.served || item.request == some s.accepted, address := false }

/-- `snfWifiProcessEvent` up to its report. `adapterOk` is whether the adapter accepts the
configuration and the mode, or the call; `connectOk` whether the station starts to connect. -/
def process (s : NetManager) (item : WifiItem) (adapterOk connectOk : Bool) : NetManager :=
  match item.event with
  | .setToAp =>
    if adapterOk then { s.serve item with mode := .ap, linkStatus := .idle, wifi := .callback .apStarted }
    else { s with wifi := .receive }
  | .setToSta =>
    if adapterOk then
      { s.serve item with
        mode := .sta
        linkStatus := if connectOk then .connecting else .disconnected
        wifi := .callback .staConnecting }
    else { s with wifi := .receive }
  | .setToIdle =>
    if adapterOk then { s.serve item with mode := .idle, linkStatus := .idle, wifi := .receive }
    else { s with wifi := .receive }
  | .disconnect =>
    if s.mode = .sta && adapterOk then { s with linkStatus := .disconnecting, wifi := .receive }
    else { s with wifi := .receive }
  | .scan => { s with scanStatus := s.scanStatus || adapterOk, wifi := .receive }
  | .cbConnected => { s with linkStatus := .connected, wifi := .callback .staConnected }
  | .cbDisconnected => { s with linkStatus := .disconnected, wifi := .callback .staDisconnected }
  | .cbScanDone => { s with scanStatus := false, wifi := .callback .scanDone }

def notify (s : NetManager) (event : SnfWifiExternalEventId) : NetManager :=
  { s with
    net := wifiEventState event
    ipv4 := if event = .staConnectFailed ∨ event = .staDisconnected then 0 else s.ipv4
    wifi := .receive }

def ipNotify (s : NetManager) : NetManager :=
  match s.ip with
  | .gotIp ip => { s with net := .ready, ipv4 := ip, ip := .returned }
  | .lostIp => { s with net := .reconnectWait, ipv4 := 0, ip := .returned }
  | .returned => s

end NetManager

inductive NetLabel
  | request (caller : ℕ) (r : NetRequest)
  | update (caller : ℕ)
  | scan
  | receive
  | process (adapterOk connectOk : Bool)
  | callback
  | notify
  | sdkConnected
  | sdkDisconnected
  | sdkScanDone
  | gotIp (ip : UInt32)
  | lostIp
  | ipNotify
  deriving DecidableEq, Repr

def netStep (s : NetManager) : NetLabel → Option NetManager
  | .request i r => if s.callers i = .returned then some (s.request i r) else none
  | .update i =>
    match s.callers i with
    | .update r number => some (s.update i r number)
    | .returned => none
  | .scan => some (s.sdkSend .scan)
  | .receive =>
    match s.wifi, s.queue with
    | .receive, item :: queue => some { s with wifi := .process item, queue := queue }
    | _, _ => none
  | .process adapterOk connectOk =>
    match s.wifi with
    | .process item => some (s.process item adapterOk connectOk)
    | _ => none
  | .callback =>
    match s.wifi with
    | .callback event =>
      some { s with wifi := if wifiEventApplies event s.net s.mode then .notify event
        else .receive }
    | _ => none
  | .notify =>
    match s.wifi with
    | .notify event => some (s.notify event)
    | _ => none
  | .sdkConnected => some (s.sdkSend .cbConnected)
  | .sdkDisconnected => some ({ s with address := false }.sdkSend .cbDisconnected)
  | .sdkScanDone => some (s.sdkSend .cbScanDone)
  | .gotIp ip =>
    if s.ip = .returned then
      some { s with address := true, ip := if gotIpApplies s.net then .gotIp ip else .returned }
    else none
  | .lostIp =>
    if s.ip = .returned then
      some { s with address := false, ip := if lostIpApplies s.net then .lostIp else .returned }
    else none
  | .ipNotify => if s.ip = .returned then none else some s.ipNotify

end Sonoff.Net
