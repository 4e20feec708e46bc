import Sonoff.Wifi.AdapterModes
import Sonoff.Wifi.Manager

/-! # The mode and the link

The manager's mode is always the adapter's. Outside the station mode it shows no link as long
as no event of a link is worked off there: such an event is queued while the station runs, and
a request that stands before it may have stopped the station.
-/
namespace Sonoff.Wifi
open Machine
open Sonoff.Net (SnfWifiManageMode SnfWifiLinkStatus SnfWifiExternalEventId NetManager WifiItem
      WifiPc SnfWifiInternalEventId)

variable {answers : ProcessAnswers} {event : SnfWifiInternalEvent} {s t : SnfWifiManageState}

def adapterMode : SnfWifiManageMode → SnfWifiMode
  | .idle => .none
  | .sta => .sta
  | .ap => .ap

def ModesMatch (s : SnfWifiManageState) : Prop := s.adapter.mode = adapterMode s.mode

def Cleared (info : SnfWifiLinkInfo) : Prop := info = .zero ∨ info = .initial

structure NoLink (s : SnfWifiManageState) : Prop where
  status : snfWifiGetLinkStatus s = .idle
  info : Cleared s.linkInfo

structure LinkFacts (s : SnfWifiManageState) : Prop where
  modes : ModesMatch s
  link : snfWifiGetMode s ≠ .sta → NoLink s

def SnfWifiInternalEvent.isLink : SnfWifiInternalEvent → Bool
  | .cbConnected _ | .cbDisconnected _ => true
  | _ => false

/-- The next event is about a link, and the manager is not a station. -/
def staleLink (s : SnfWifiManageState) : Bool := (s.eventQueue.head?.any (·.isLink)) &&
    s.mode ≠ .sta

def linksInSta (s : SnfWifiManageState) : WifiLabel → Bool
  | .process _ => !staleLink s
  | _ => true

/-- What one event can do to the modes and the link. -/
inductive LinkMove (s : SnfWifiManageState) (event : SnfWifiInternalEvent)
    (t : SnfWifiManageState) : Prop
  /-- Nothing; a change of mode that fails changes flags of the adapter at most. -/
  | same (link : event.isLink = false) (adapter : t.adapter.mode = s.adapter.mode)
      (mode : t.mode = s.mode) (info : t.linkInfo = s.linkInfo)
      (status : t.linkStatus = s.linkStatus)
  | switched (link : event.isLink = false) (adapter : t.adapter.mode = adapterMode t.mode)
      (info : t.linkInfo = .zero) (status : t.mode ≠ .sta → t.linkStatus = .idle)
  | disconnecting (link : event.isLink = false) (adapter : t.adapter.mode = s.adapter.mode)
      (mode : t.mode = .sta) (was : s.mode = .sta)
  | linked (link : event.isLink = true) (adapter : t.adapter.mode = s.adapter.mode)
      (mode : t.mode = s.mode) (status : t.linkStatus ≠ .idle)

theorem snfWifiAdapterScan_mode (answer : BkErr) (a : SnfWifiAdapterState) :
    (snfWifiAdapterScan answer a).2.mode = a.mode := by
  unfold snfWifiAdapterScan
  split_ifs <;> rfl

theorem processSetToAp_move (answers : ProcessAnswers) (s : SnfWifiManageState)
    (config : SnfWifiApConfig) :
    LinkMove s (.setToAp config) (processSetToAp answers s config).1 := by
  obtain ⟨hok,herror⟩ := setMode_mode answers.mode .ap s.adapter
  unfold processSetToAp
  by_cases hconfig : snfWifiAdapterApSetConfig answers.config config s.adapter ≠ .ok
  · rw [if_pos hconfig]
    exact .same rfl rfl rfl rfl rfl
  · rw [if_neg hconfig]
    dsimp only
    by_cases hmode : (snfWifiAdapterSetMode answers.mode SnfWifiMode.ap.toInt s.adapter).1 ≠ .ok
    · rw [if_pos hmode]
      exact .same rfl (herror hmode) rfl rfl rfl
    · rw [if_neg hmode]
      exact .switched rfl (hok (not_not.mp hmode)) rfl fun _ => rfl

theorem processSetToSta_move (answers : ProcessAnswers) (s : SnfWifiManageState)
    (config : SnfWifiStaConfig) :
    LinkMove s (.setToSta config) (processSetToSta answers s config).1 := by
  obtain ⟨hok,herror⟩ := setMode_mode answers.mode .sta s.adapter
  unfold processSetToSta
  by_cases hconfig : snfWifiAdapterStaSetConfig answers.config config s.adapter ≠ .ok
  · rw [if_pos hconfig]
    exact .same rfl rfl rfl rfl rfl
  · rw [if_neg hconfig]
    dsimp only
    by_cases hmode : (snfWifiAdapterSetMode answers.mode SnfWifiMode.sta.toInt s.adapter).1 ≠ .ok
    · rw [if_pos hmode]
      exact .same rfl (herror hmode) rfl rfl rfl
    · rw [if_neg hmode]
      exact .switched rfl (hok (not_not.mp hmode)) rfl fun hsta => absurd rfl hsta

theorem processSetToIdle_move (answers : ProcessAnswers) (s : SnfWifiManageState) :
    LinkMove s .setToIdle (processSetToIdle answers s).1 := by
  obtain ⟨hok,herror⟩ := setMode_mode answers.mode .none s.adapter
  unfold processSetToIdle
  dsimp only
  by_cases hmode : (snfWifiAdapterSetMode answers.mode SnfWifiMode.none.toInt s.adapter).1 ≠ .ok
  · rw [if_pos hmode]
    exact .same rfl (herror hmode) rfl rfl rfl
  · rw [if_neg hmode]
    exact .switched rfl (hok (not_not.mp hmode)) rfl fun _ => rfl

theorem process_move (answers : ProcessAnswers) (s : SnfWifiManageState)
    (event : SnfWifiInternalEvent) : LinkMove s event (snfWifiProcessEvent answers s event).1 := by
  cases event with
  | setToAp config => exact processSetToAp_move answers s config
  | setToSta config => exact processSetToSta_move answers s config
  | setToIdle => exact processSetToIdle_move answers s
  | disconnect =>
    show LinkMove s .disconnect (processDisconnect answers s).1
    unfold processDisconnect
    split_ifs with hsta
    · exact .disconnecting rfl rfl hsta.1 hsta.1
    · exact .same rfl rfl rfl rfl rfl
  | scan => exact .same rfl (snfWifiAdapterScan_mode answers.scan s.adapter) rfl rfl rfl
  | cbConnected info => exact .linked rfl rfl rfl nofun
  | cbDisconnected reason => exact .linked rfl rfl rfl nofun
  | cbScanDone => exact .same rfl rfl rfl rfl rfl

theorem LinkMove.modes (h : LinkMove s event t) (hs : ModesMatch s) : ModesMatch t := by
  unfold ModesMatch at hs ⊢
  cases h with
  | same link adapter mode info status => rw [adapter, mode, hs]
  | switched link adapter info status => exact adapter
  | disconnecting link adapter mode was => rw [adapter, mode, hs, was]
  | linked link adapter mode status => rw [adapter, mode, hs]

/-- Of all events only one of a link shows a link outside the station mode, and it does so. -/
theorem LinkMove.noLink (h : LinkMove s event t) (hs : s.mode ≠ .sta → NoLink s) :
    (t.mode ≠ .sta → NoLink t) ↔ (event.isLink = true → s.mode = .sta) := by
  cases h with
  | same link adapter mode info status =>
    refine iff_of_true (fun hmode => ?_) fun hlink => absurd (link.symm.trans hlink) nofun
    obtain ⟨hstatus,hinfo⟩ := hs (mode ▸ hmode)
    exact ⟨status.trans hstatus, info.symm ▸ hinfo⟩
  | switched link adapter info status =>
    exact iff_of_true (fun hmode => ⟨status hmode, Or.inl info⟩) fun hlink =>
      absurd (link.symm.trans hlink) nofun
  | disconnecting link adapter mode was =>
    exact iff_of_true (fun hmode => absurd mode hmode) fun _ => was
  | linked link adapter mode status =>
    constructor
    · intro ht _
      by_contra hmode
      exact status (ht (mode.symm ▸ hmode)).status
    · intro hsta hmode
      exact absurd (mode.trans (hsta link)) hmode

structure Queued (s t : SnfWifiManageState) : Prop where
  mode : t.mode = s.mode
  status : t.linkStatus = s.linkStatus
  info : t.linkInfo = s.linkInfo
  adapter : t.adapter.mode = s.adapter.mode

theorem snfWifiEventSend_queued (event : SnfWifiInternalEvent) (s : SnfWifiManageState) :
    Queued s (snfWifiEventSend event s) := by
  unfold snfWifiEventSend
  split_ifs <;> exact ⟨rfl, rfl, rfl, rfl⟩

theorem snfSdkEventHandler_queued (event : SdkEvent) (s : SnfWifiManageState) :
    Queued s (snfSdkEventHandler event s) := by
  obtain ⟨u,hu,hq⟩ : ∃ u, u = (if event = .scanDone then
      { s with adapter := { s.adapter with scanStarted := false } } else s) ∧ Queued s u := by
    refine ⟨_, rfl, ?_⟩
    split_ifs <;> exact ⟨rfl, rfl, rfl, rfl⟩
  unfold snfSdkEventHandler
  rw [← hu]
  cases event.internal with
  | none => exact hq
  | some internal =>
    have hsend := snfWifiEventSend_queued internal u
    exact ⟨hsend.mode.trans hq.mode, hsend.status.trans hq.status, hsend.info.trans hq.info,
      hsend.adapter.trans hq.adapter⟩

theorem Queued.facts (h : Queued s t) (hs : LinkFacts s) : LinkFacts t where
  modes := by
    unfold ModesMatch
    rw [h.adapter, h.mode]
    exact hs.modes
  link hmode := by
    obtain ⟨hstatus,hinfo⟩ := hs.link fun hsta => hmode (h.mode.trans hsta)
    exact ⟨h.status.trans hstatus, h.info.symm ▸ hinfo⟩

/-- What a turn of the task does to the event in front of the queue. -/
theorem wifiStep_process (hstep : wifiStep s (.process answers) = some t) :
    ∃ event queue, s.eventQueue = event :: queue ∧
      LinkMove { s with eventQueue := queue } event t := by
  unfold wifiStep at hstep
  cases hqueue : s.eventQueue with
  | nil =>
    rw [hqueue] at hstep
    cases hstep
  | cons event queue =>
    rw [hqueue] at hstep
    obtain rfl := Option.some.inj hstep
    exact ⟨event, queue, rfl, process_move answers { s with eventQueue := queue } event⟩

/-- A turn keeps the invariant where it meets no stale event of a link, and only there. -/
theorem process_facts (hs : LinkFacts s) (hstep : wifiStep s (.process answers) = some t) :
    LinkFacts t ↔ linksInSta s (.process answers) = true := by
  obtain ⟨event,queue,hqueue,hmove⟩ := wifiStep_process hstep
  have hpopped := (show Queued s { s with eventQueue := queue } from ⟨rfl, rfl, rfl, rfl⟩).facts hs
  have hmodes := hmove.modes hpopped.modes
  have hlink := hmove.noLink hpopped.link
  have hguard : linksInSta s (.process answers) = true ↔ (event.isLink = true → s.mode = .sta) := by
    unfold linksInSta staleLink
    rw [hqueue]
    cases hevent : event.isLink <;> simp [hevent]
  rw [hguard]
  exact ⟨fun h => hlink.mp h.link, fun h => ⟨hmodes, hlink.mpr h⟩⟩

theorem linkFacts_step {label : WifiLabel} (hs : LinkFacts s) (hguard : linksInSta s label = true)
    (hstep : wifiStep s label = some t) : LinkFacts t := by
  cases label with
  | request request =>
    obtain rfl := Option.some.inj hstep
    exact (snfWifiEventSend_queued _ s).facts hs
  | sdkEvent event =>
    obtain rfl := Option.some.inj hstep
    exact (snfSdkEventHandler_queued event s).facts hs
  | process answers => exact (process_facts hs hstep).mpr hguard

/-- The modes agree in every run. -/
theorem reach_modesMatch (h : Reach wifiStep anyStep wifiInit s) : ModesMatch s := by
  have hinit : ModesMatch wifiInit := rfl
  refine h.invariant hinit fun s label t hs _ hstep => ?_
  cases label with
  | request request =>
    obtain rfl := Option.some.inj hstep
    have hq := snfWifiEventSend_queued request.event s
    exact hq.adapter.trans (hs.trans (congrArg adapterMode hq.mode.symm))
  | sdkEvent event =>
    obtain rfl := Option.some.inj hstep
    have hq := snfSdkEventHandler_queued event s
    exact hq.adapter.trans (hs.trans (congrArg adapterMode hq.mode.symm))
  | process answers =>
    obtain ⟨event,queue,-,hmove⟩ := wifiStep_process hstep
    exact hmove.modes hs

/-- As long as no event of a link is worked off outside the station mode, the manager has the
adapter's mode and shows no link outside the station mode; and the turn that works one off
breaks this. -/
theorem wifi_link_invariant
    (h : Reach wifiStep (fun s label => linksInSta s label = true) wifiInit s) :
    LinkFacts s ∧ ∀ answers t, wifiStep s (.process answers) = some t →
      (LinkFacts t ↔ linksInSta s (.process answers) = true) := by
  have hs : LinkFacts s :=
      h.invariant ⟨rfl, fun _ => ⟨rfl, Or.inr rfl⟩⟩ fun _ _ _ hs hguard hstep =>
    linkFacts_step hs hguard hstep
  exact ⟨hs, fun _ _ hstep => process_facts hs hstep⟩

def homeSta : SnfWifiStaConfig := ⟨[104, 111, 109, 101, 0], [0]⟩
def plugAp : SnfWifiApConfig := ⟨[112, 108, 117, 103, 0], [0], 1, 4, .open⟩
def homeLink : SnfWifiLinkInfo := ⟨[104, 111, 109, 101, 0], [1, 2, 3, 4, 5, 6], -40, 6, .wpa2⟩

/-- A station connects, loses its link, and gives way to an AP. -/
theorem wifi_link_invariant_run : ∃ s,
    execWithin wifiStep (fun s label => linksInSta s label = true) wifiInit
      [.request (.staConnect homeSta), .process .allOk, .sdkEvent (.staConnected (some homeLink)),
        .process .allOk, .sdkEvent (.staDisconnected .beaconLost), .process .allOk,
        .request (.apStart plugAp), .process .allOk] = some s ∧
    s.mode = .ap ∧ LinkFacts s := by
  obtain ⟨s,hs⟩ := Option.isSome_iff_exists.mp
    (show (execWithin wifiStep (fun s label => linksInSta s label = true) wifiInit
    [.request (.staConnect homeSta), .process .allOk, .sdkEvent (.staConnected (some homeLink)),
      .process .allOk, .sdkEvent (.staDisconnected .beaconLost), .process .allOk,
      .request (.apStart plugAp), .process .allOk]).isSome =
        true by decide +kernel)
  have hmode : (some s).map SnfWifiManageState.mode = some .ap := by
    rw [← hs]
    decide +kernel
  exact ⟨s, hs, Option.some.inj hmode, (wifi_link_invariant (Reach.init.execWithin hs)).1⟩

/-- The connection of the station is queued behind the request for the AP: the AP shows it. -/
theorem wifi_link_in_ap : ¬ ∀ s, Reach wifiStep anyStep wifiInit s → LinkFacts s := by
  intro hall
  obtain ⟨s,hs⟩ := Option.isSome_iff_exists.mp (show (exec wifiStep wifiInit
    [.request (.staConnect homeSta), .process .allOk, .request (.apStart plugAp),
      .sdkEvent (.staConnected (some homeLink)), .process .allOk, .process .allOk]).isSome =
        true by decide +kernel)
  have hshown : (some s).map (fun s => (s.mode, s.linkStatus)) = some (.ap, .connected) := by
    rw [← hs]
    decide +kernel
  obtain ⟨hmode,hstatus⟩ := Prod.mk.inj (Option.some.inj hshown)
  have hidle := ((hall s (reach_of_exec hs)).link fun hsta => nomatch hmode.symm.trans hsta).status
  exact absurd (hstatus.symm.trans hidle) nofun

structure Shows (n : NetManager) (s : SnfWifiManageState) : Prop where
  mode : n.mode = s.mode
  status : n.linkStatus = s.linkStatus
  scan : n.scanStatus = s.scanStatus

def SnfWifiInternalEvent.id : SnfWifiInternalEvent → SnfWifiInternalEventId
  | .setToAp _ => .setToAp
  | .setToSta _ => .setToSta
  | .setToIdle => .setToIdle
  | .disconnect => .disconnect
  | .scan => .scan
  | .cbConnected _ => .cbConnected
  | .cbDisconnected _ => .cbDisconnected
  | .cbScanDone => .cbScanDone

/-- Where the task stands behind an event with this report. -/
def Report.pc (report : Report) : WifiPc := (report.map fun r => WifiPc.callback r.1).getD .receive

/-- For some answer of the adapter the Wi-Fi task of the network model does the same. -/
def Simulated (n : NetManager) (item : WifiItem) (result : SnfWifiManageState × Report) : Prop :=
  ∃ adapterOk connectOk, Shows (n.process item adapterOk connectOk) result.1 ∧
    (n.process item adapterOk connectOk).wifi = Report.pc result.2

section Simulation
variable {n : NetManager} {request : Option ℕ}

/-- An event that the adapter refuses. -/
theorem Shows.refused (h : Shows n s) {a : SnfWifiAdapterState} :
    Shows { n with wifi := .receive } { s with adapter := a } := ⟨h.mode, h.status, h.scan⟩

theorem processSetToAp_simulated (h : Shows n s) (answers : ProcessAnswers)
    (config : SnfWifiApConfig) :
    Simulated n ⟨.setToAp, request⟩ (processSetToAp answers s config) := by
  unfold processSetToAp
  split_ifs with hconfig
  · exact ⟨false, true, h.refused, rfl⟩
  · dsimp only
    split_ifs with hmode
    · exact ⟨false, true, h.refused, rfl⟩
    · exact ⟨true, true, ⟨rfl, rfl, h.scan⟩, rfl⟩

theorem processSetToSta_simulated (h : Shows n s) (answers : ProcessAnswers)
    (config : SnfWifiStaConfig) :
    Simulated n ⟨.setToSta, request⟩ (processSetToSta answers s config) := by
  unfold processSetToSta
  by_cases hconfig : snfWifiAdapterStaSetConfig answers.config config s.adapter ≠ .ok
  · rw [if_pos hconfig]
    exact ⟨false, true, h.refused, rfl⟩
  · rw [if_neg hconfig]
    dsimp only
    split_ifs with hmode hconnect
    · exact ⟨false, true, h.refused, rfl⟩
    · exact ⟨true, false, ⟨rfl, rfl, h.scan⟩, rfl⟩
    · exact ⟨true, true, ⟨rfl, rfl, h.scan⟩, rfl⟩

theorem processSetToIdle_simulated (h : Shows n s) (answers : ProcessAnswers) :
    Simulated n ⟨.setToIdle, request⟩ (processSetToIdle answers s) := by
  unfold processSetToIdle
  dsimp only
  split_ifs with hmode
  · exact ⟨false, true, h.refused, rfl⟩
  · exact ⟨true, true, ⟨rfl, rfl, h.scan⟩, rfl⟩

theorem processDisconnect_simulated (h : Shows n s) (answers : ProcessAnswers) :
    Simulated n ⟨.disconnect, request⟩ (processDisconnect answers s) := by
  unfold processDisconnect
  split_ifs with hsta
  · refine ⟨true, true, ?_⟩
    simp only [NetManager.process, h.mode, hsta.1, decide_true, Bool.and_self, if_true]
    exact ⟨⟨rfl, rfl, h.scan⟩, rfl⟩
  · refine ⟨false, true, ?_⟩
    simp only [NetManager.process, Bool.and_false, Bool.false_eq_true, if_false]
    exact ⟨h.refused, rfl⟩

theorem processScan_simulated (h : Shows n s) (answers : ProcessAnswers) :
    Simulated n ⟨.scan, request⟩ (processScan answers s) := by
  refine ⟨(snfWifiAdapterScan answers.scan s.adapter).1 = .ok, true, ⟨h.mode, h.status, ?_⟩, rfl⟩
  exact congrArg (· || decide ((snfWifiAdapterScan answers.scan s.adapter).1 = .ok)) h.scan

/-- The Wi-Fi task of the network model does with every event what this one does. -/
theorem process_simulated (h : Shows n s) (answers : ProcessAnswers)
    (event : SnfWifiInternalEvent) :
    Simulated n ⟨event.id, request⟩ (snfWifiProcessEvent answers s event) := by
  cases event with
  | setToAp config => exact processSetToAp_simulated h answers config
  | setToSta config => exact processSetToSta_simulated h answers config
  | setToIdle => exact processSetToIdle_simulated h answers
  | disconnect => exact processDisconnect_simulated h answers
  | scan => exact processScan_simulated h answers
  | cbConnected info => exact ⟨true, true, ⟨h.mode, rfl, h.scan⟩, rfl⟩
  | cbDisconnected reason => exact ⟨true, true, ⟨h.mode, rfl, h.scan⟩, rfl⟩
  | cbScanDone => exact ⟨true, true, ⟨h.mode, h.status, rfl⟩, rfl⟩

end Simulation

end Sonoff.Wifi
