import Sonoff.Net.Manager

/-! # The final state of the network

Which steps keep the state in step with the last accepted request: a caller that updates
before its request has led anywhere, and reports that are still true when they are written.
-/
namespace Sonoff.Net
open Machine

namespace NetManager

/-- The caller of the last accepted request has updated the state. -/
def settled (s : NetManager) : Bool := s.updated = s.accepted

/-- The last accepted request has led to its end: the access point has been reported, or the
station has its address. -/
def reached (s : NetManager) : Bool :=
  s.served && match s.last with
    | some .apStart => s.wifi ≠ .callback .apStarted && s.wifi ≠ .notify .apStarted
    | some .staConnect => s.address
    | _ => false

structure Delivered (s : NetManager) : Prop where
  callers : ∀ i, s.callers i = .returned
  wifi : s.wifi = .receive
  ip : s.ip = .returned

def Agrees (s : NetManager) : Prop :=
  match s.last with
  | none => s.net = .idle
  | some .apStart => s.served = true → s.net = .apReady
  | some .staConnect => s.served = true → s.address = true → s.net = .ready
  | some .staDisconnect | some .apStop => s.net = .idle

end NetManager

/-- A caller's update stands behind the updates of earlier requests, and that of the last request
comes before the request has led to its end. -/
def UpdateInOrder (s : NetManager) : CallerPc → Prop
  | .update _ number => s.updated < number ∧ (number = s.accepted → s.reached = false)
  | .returned => True

/-- With the last update in place a report is written while its check still holds, an access
point is reported for an access point, and a station is reported to be connecting or
disconnected while it has no address. -/
def ReportInOrder (s : NetManager) : WifiPc → Prop
  | .notify event => s.settled = true → wifiEventApplies event s.net s.mode = true ∧
      (event = .apStarted → s.last = some .apStart) ∧
        (event = .staConnecting ∨ event = .staDisconnected → s.reached = false)
  | _ => True

/-- With the last update in place an IP event is reported while its check still holds. -/
def AddressInOrder (s : NetManager) : IpPc → Prop
  | .gotIp _ => s.settled = true → gotIpApplies s.net = true
  | .lostIp => s.settled = true → lostIpApplies s.net = true
  | .returned => True

/-- All three orders, and an address does not come to a station that waits to reconnect. -/
def InOrder (s : NetManager) : NetLabel → Prop
  | .update i => UpdateInOrder s (s.callers i)
  | .notify => ReportInOrder s s.wifi
  | .ipNotify => AddressInOrder s s.ip
  | .gotIp _ =>
    s.settled = true → s.last = some .staConnect → s.served = true → s.net ≠ .reconnectWait
  | _ => True

instance (s : NetManager) (pc : CallerPc) : Decidable (UpdateInOrder s pc) := by
  cases pc <;> unfold UpdateInOrder <;> infer_instance

instance (s : NetManager) (pc : WifiPc) : Decidable (ReportInOrder s pc) := by
  cases pc <;> unfold ReportInOrder <;> infer_instance

instance (s : NetManager) (pc : IpPc) : Decidable (AddressInOrder s pc) := by
  cases pc <;> unfold AddressInOrder <;> infer_instance

instance (s : NetManager) (l : NetLabel) : Decidable (InOrder s l) := by
  cases l <;> unfold InOrder <;> infer_instance

def Leads : Option NetRequest → SnfNetState → Prop
  | some .staConnect, net => net = .connecting ∨ net = .waitIp ∨ net = .ready ∨ net = .reconnectWait
  | some .apStart, net => net = .apStarting ∨ net = .apReady
  | _, net => net = .idle

def Reported (event : SnfWifiExternalEventId) : Prop :=
  event = .staConnecting ∨ event = .staConnected ∨ event = .staDisconnected ∨ event = .apStarted ∨
    event = .scanDone

def NetManager.Holds (s : NetManager) (item : WifiItem) :
    Prop := item ∈ s.queue ∨ s.wifi = .process item

structure InStep (s : NetManager) : Prop where
  number : ∀ i r n, s.callers i = .update r n → n ≤ s.accepted
  updated : s.updated ≤ s.accepted
  pending : s.settled = true ∨ ∃ i r, s.callers i = .update r s.accepted
  request : ∀ i r, s.callers i = .update r s.accepted → s.last = some r
  item : ∀ item n, s.Holds item → item.request = some n →
    n ≤ s.accepted ∧ (n = s.accepted → ∃ r, s.last = some r ∧ item.event = r.event)
  reported : ∀ event, s.wifi = .callback event ∨ s.wifi = .notify event → Reported event
  mode : s.wifi = .callback .apStarted → s.mode = .ap
  lost : s.ip = .lostIp → s.address = false
  leads : s.settled = true → Leads s.last s.net
  ap : s.settled = true → s.last = some .apStart → s.reached = true → s.net = .apReady
  sta : s.settled = true → s.last = some .staConnect → s.reached = true → s.net = .ready ∨
    ∃ ip, s.ip = .gotIp ip

variable {s t : NetManager}

theorem reached_cases : s.reached = true ↔
    (s.last = some .apStart ∧ s.served = true ∧ s.wifi ≠ .callback .apStarted ∧
      s.wifi ≠ .notify .apStarted) ∨
      s.last = some .staConnect ∧ s.served = true ∧ s.address = true := by
  unfold NetManager.reached
  cases s.last with
  | none => simp
  | some r => cases r <;> simp

/-- A step that leaves the requests and the state alone, and reaches nothing new. -/
structure Quiet (s t : NetManager) : Prop where
  accepted : t.accepted = s.accepted
  updated : t.updated = s.updated
  last : t.last = s.last
  callers : t.callers = s.callers
  net : t.net = s.net
  ip : ∀ ip, s.ip = .gotIp ip → t.ip = .gotIp ip
  reached : t.reached = true → s.reached = true
  item : ∀ item n, t.Holds item → item.request = some n → s.Holds item
  reported : ∀ event, t.wifi = .callback event ∨ t.wifi = .notify event →
    (s.wifi = .callback event ∨ s.wifi = .notify event) ∨ Reported event
  mode : t.wifi = .callback .apStarted → t.mode = .ap
  lost : t.ip = .lostIp → t.address = false

theorem Quiet.inStep (hq : Quiet s t) (h : InStep s) : InStep t where
  number i r n hi := by
    rw [hq.callers] at hi
    rw [hq.accepted]
    exact h.number i r n hi
  updated := by
    rw [hq.updated, hq.accepted]
    exact h.updated
  pending := by
    unfold NetManager.settled
    rw [hq.updated, hq.accepted, hq.callers]
    exact h.pending
  request i r hi := by
    rw [hq.callers, hq.accepted] at hi
    rw [hq.last]
    exact h.request i r hi
  item item n hitem hn := by
    rw [hq.accepted, hq.last]
    exact h.item item n (hq.item item n hitem hn) hn
  reported event hevent := (hq.reported event hevent).elim (h.reported event) id
  mode := hq.mode
  lost := hq.lost
  leads hs := by
    rw [hq.last, hq.net]
    refine h.leads ?_
    unfold NetManager.settled at hs ⊢
    rwa [hq.updated, hq.accepted] at hs
  ap hs hl hr := by
    rw [hq.net]
    refine h.ap ?_ (hq.last ▸ hl) (hq.reached hr)
    unfold NetManager.settled at hs ⊢
    rwa [hq.updated, hq.accepted] at hs
  sta hs hl hr := by
    rw [hq.net]
    refine (h.sta ?_ (hq.last ▸ hl) (hq.reached hr)).imp_right fun ⟨ip,hip⟩ => ⟨ip, hq.ip ip hip⟩
    unfold NetManager.settled at hs ⊢
    rwa [hq.updated, hq.accepted] at hs

theorem not_settled_of_lt (h : s.updated < s.accepted) :
    s.settled = false := decide_eq_false (Nat.ne_of_lt h)

theorem inStep_init : InStep netInit where
  number := nofun
  updated := Nat.le_refl _
  pending := Or.inl rfl
  request := nofun
  item item n h := by
    rcases h with h | h
    · cases h
    · cases h
  reported event h := by rcases h with h | h <;> cases h
  mode := nofun
  lost := nofun
  leads _ := rfl
  ap := nofun
  sta := nofun

theorem InStep.request_step (h : InStep s) (i : ℕ) (r : NetRequest) : InStep (s.request i r) := by
  unfold NetManager.request NetManager.send
  by_cases hroom : s.queue.length < snfWifiEventQueueSize
  · rw [if_pos hroom]
    have hunsettled : (s.updated = s.accepted + 1) = False := eq_false (by have := h.updated; omega)
    have hold : ∀ j r' n, Function.update s.callers i (.update r (s.accepted + 1)) j =
      .update r' n → j ≠ i → n ≤ s.accepted := by
      intro j r' n hj hne
      rw [Function.update_of_ne hne] at hj
      exact h.number j r' n hj
    constructor
    case number =>
      intro j r' n hj
      by_cases hji : j = i
      · subst hji
        simp only [Function.update_self, CallerPc.update.injEq] at hj
        exact Nat.le_of_eq hj.2.symm
      · exact Nat.le_succ_of_le (hold j r' n hj hji)
    case updated => exact Nat.le_succ_of_le h.updated
    case pending => exact Or.inr ⟨i, r, Function.update_self _ _ _⟩
    case request =>
      intro j r' hj
      by_cases hji : j = i
      · subst hji
        simp only [Function.update_self, CallerPc.update.injEq] at hj
        exact congrArg some hj.1
      · exact absurd (hold j r' _ hj hji) (Nat.not_succ_le_self _)
    case item =>
      intro item n hitem hn
      have hcases : s.Holds item ∨ item = ⟨r.event, some (s.accepted + 1)⟩ := by
        rcases hitem with hq | hw
        · exact (List.mem_append.mp hq).imp Or.inl List.mem_singleton.mp
        · exact Or.inl (Or.inr hw)
      rcases hcases with hs | rfl
      · have hle := (h.item item n hs hn).1
        exact ⟨Nat.le_succ_of_le hle, fun he =>
          absurd hle (by rw [he]; exact Nat.not_succ_le_self _)⟩
      · obtain rfl := Option.some.inj hn
        exact ⟨Nat.le_refl _, fun _ => ⟨r, rfl, rfl⟩⟩
    case reported => exact h.reported
    case mode => exact h.mode
    case lost => exact h.lost
    all_goals
      intro hs
      simp only [NetManager.settled, hunsettled, decide_false, Bool.false_eq_true] at hs
  · rw [if_neg hroom]
    exact h

theorem InStep.update_step (h : InStep s) {i : ℕ} {r : NetRequest} {n : ℕ}
    (hi : s.callers i = .update r n)
    (hlt : s.updated < n) (hreached : n = s.accepted → s.reached = false) :
    InStep (s.update i r n) := by
  have hother : ∀ j r' m, Function.update s.callers i .returned j = .update r' m → j ≠ i ∧
      s.callers j = .update r' m := by
    intro j r' m hj
    by_cases hji : j = i
    · subst hji
      simp only [Function.update_self, reduceCtorEq] at hj
    · rw [Function.update_of_ne hji] at hj
      exact ⟨hji, hj⟩
  constructor
  case number => exact fun j r' m hj => h.number j r' m (hother j r' m hj).2
  case updated => exact h.number i r n hi
  case pending =>
    by_cases hn : n = s.accepted
    · exact Or.inl (decide_eq_true hn)
    · have hle := h.number i r n hi
      rcases h.pending with hs | ⟨j,r',hj⟩
      · rw [not_settled_of_lt (by omega)] at hs
        cases hs
      · refine Or.inr ⟨j, r', ?_⟩
        have hji : j ≠ i := by
          rintro rfl
          rw [hi] at hj
          simp only [CallerPc.update.injEq] at hj
          exact hn hj.2
        exact (Function.update_of_ne hji _ _).trans hj
  case request => exact fun j r' hj => h.request j r' (hother j r' _ hj).2
  case item => exact h.item
  case reported => exact h.reported
  case mode => exact h.mode
  case lost => exact h.lost
  case leads =>
    intro hs
    have hn : n = s.accepted := of_decide_eq_true hs
    have hlast : s.last = some r := h.request i r (hn ▸ hi)
    show Leads s.last r.state
    rw [hlast]
    cases r
    · exact Or.inl rfl
    · rfl
    · exact Or.inl rfl
    · rfl
  case ap =>
    intro hs _ hr
    exact absurd hr (by rw [show (s.update i r n).reached = s.reached from rfl,
      hreached (of_decide_eq_true hs)]; decide)
  case sta =>
    intro hs _ hr
    exact absurd hr (by rw [show (s.update i r n).reached = s.reached from rfl,
      hreached (of_decide_eq_true hs)]; decide)

/-- What stands in the queue besides the requests. -/
theorem InStep.sdkSend (h : InStep s) (event : SnfWifiInternalEventId) :
    InStep (s.sdkSend event) := by
  unfold NetManager.sdkSend NetManager.send
  split
  · refine Quiet.inStep ?_ h
    constructor
    case item =>
      rintro item n (hq | hw) hn
      · rcases List.mem_append.mp hq with hq | hq
        · exact Or.inl hq
        · rw [List.mem_singleton.mp hq] at hn
          cases hn
      · exact Or.inr hw
    case reported => exact fun _ hevent => Or.inl hevent
    case mode => exact h.mode
    case lost => exact h.lost
    case ip => exact fun _ hip => hip
    case reached => exact id
    all_goals rfl
  · exact h

/-- Losing the address reaches nothing. -/
theorem InStep.address (h : InStep s) : InStep { s with address := false } := by
  refine Quiet.inStep ?_ h
  constructor
  case reached =>
    intro hr
    rcases reached_cases.mp hr with hr | ⟨-,-,ha⟩
    · exact reached_cases.mpr (Or.inl hr)
    · cases ha
  case item => exact fun _ _ hitem _ => hitem
  case reported => exact fun _ hevent => Or.inl hevent
  case mode => exact h.mode
  case lost => exact fun _ => rfl
  case ip => exact fun _ hip => hip
  all_goals rfl

theorem InStep.receive (h : InStep s) {item : WifiItem} {queue : List WifiItem}
    (hw : s.wifi = .receive) (hq : s.queue = item :: queue) :
    InStep { s with wifi := .process item, queue := queue } := by
  refine Quiet.inStep ?_ h
  constructor
  case reached =>
    intro hr
    rcases reached_cases.mp hr with ⟨hl,hs,-⟩ | hr
    · exact reached_cases.mpr (Or.inl ⟨hl, hs, by rw [hw]; nofun, by rw [hw]; nofun⟩)
    · exact reached_cases.mpr (Or.inr hr)
  case item =>
    rintro other n (hin | hin) _
    · exact Or.inl (hq ▸ List.mem_cons_of_mem _ hin)
    · cases hin
      exact Or.inl (hq ▸ List.mem_cons_self)
  case reported => exact fun event hevent => by rcases hevent with he | he <;> cases he
  case mode => exact nofun
  case lost => exact h.lost
  case ip => exact fun _ hip => hip
  all_goals rfl

/-- Behind the processing of an event the requests, the state and the queue are as before. -/
theorem InStep.processed (h : InStep s) {item : WifiItem} (hw : s.wifi = .process item)
    (hkept : t.accepted = s.accepted ∧ t.updated = s.updated ∧ t.last = s.last ∧
      t.callers = s.callers ∧ t.net = s.net ∧ t.ip = s.ip ∧ t.queue = s.queue)
    (hwifi : t.wifi = .receive ∨ ∃ event, t.wifi = .callback event ∧ Reported event)
    (hmode : t.wifi = .callback .apStarted → t.mode = .ap)
    (haddress : t.address = true → s.address = true)
    (hap : t.last = some .apStart → t.wifi ≠ .callback .apStarted → t.served = true →
      s.served = true)
    (hsta : t.last = some .staConnect → t.served = true → t.address = true → s.served = true) :
    InStep t := by
  obtain ⟨haccepted,hupdated,hlast,hcallers,hnet,hip,hqueue⟩ := hkept
  refine Quiet.inStep ⟨haccepted, hupdated, hlast, hcallers, hnet, fun _ h => hip ▸ h, ?_, ?_, ?_,
    hmode, ?_⟩ h
  · intro hr
    rcases reached_cases.mp hr with ⟨hl,hs,hcallback,hnotify⟩ | ⟨hl,hs,ha⟩
    · exact reached_cases.mpr
        (Or.inl ⟨hlast ▸ hl, hap hl hcallback hs, by rw [hw]; nofun, by rw [hw]; nofun⟩)
    · exact reached_cases.mpr (Or.inr ⟨hlast ▸ hl, hsta hl hs ha, haddress ha⟩)
  · rintro other n (hin | hin) _
    · exact Or.inl (hqueue ▸ hin)
    · rcases hwifi with hx | ⟨event,hx,-⟩ <;> rw [hx] at hin <;> cases hin
  · intro event hevent
    rcases hwifi with hx | ⟨event',hx,hreported⟩
    · rcases hevent with he | he <;> rw [hx] at he <;> cases he
    · rcases hevent with he | he <;> rw [hx] at he <;> cases he
      exact Or.inr hreported
  · intro hl
    cases ha : t.address with
    | false => rfl
    | true => exact (h.lost (hip ▸ hl)).symm.trans (haddress ha) |> fun he => absurd he (by decide)

/-- A mode is set for a request, and counts for the last one if that is what it asked for. -/
theorem InStep.served (h : InStep s) {item : WifiItem} (hw : s.wifi = .process item)
    {r : NetRequest} (hevent : item.event ≠ r.event) (hl : s.last = some r)
    (hs : (s.served || item.request == some s.accepted) = true) : s.served = true := by
  rcases Bool.or_eq_true_iff.mp hs with hs | hs
  · exact hs
  · obtain ⟨r',hr',he⟩ := (h.item item _ (Or.inr hw) (eq_of_beq hs)).2 rfl
    obtain rfl := Option.some.inj (hl.symm.trans hr')
    exact absurd he hevent

theorem InStep.process_step (h : InStep s) {item : WifiItem} (hw : s.wifi = .process item)
    (adapterOk connectOk : Bool) : InStep (s.process item adapterOk connectOk) := by
  have hkeep : ∀ {t : NetManager}, t = { s with wifi := .receive } → InStep t := by
    rintro t rfl
    exact h.processed hw ⟨rfl, rfl, rfl, rfl, rfl, rfl, rfl⟩ (Or.inl rfl) nofun id (fun _ _ hs =>
      hs) fun _ hs _ => hs
  unfold NetManager.process
  split
  · split
    · exact h.processed hw ⟨rfl, rfl, rfl, rfl, rfl, rfl, rfl⟩ (Or.inr ⟨_, rfl, by simp [Reported]⟩)
        (fun _ => rfl) nofun (fun _ hne _ => absurd rfl hne) nofun
    · exact hkeep rfl
  case h_2 hevent =>
    split
    · exact h.processed hw ⟨rfl, rfl, rfl, rfl, rfl, rfl, rfl⟩ (Or.inr ⟨_, rfl, by simp [Reported]⟩)
        nofun nofun (fun hl _ hs => h.served hw (r := .apStart) (by rw [hevent]; decide) hl hs)
        nofun
    · exact hkeep rfl
  case h_3 hevent =>
    split
    · exact h.processed hw ⟨rfl, rfl, rfl, rfl, rfl, rfl, rfl⟩ (Or.inl rfl) nofun nofun
        (fun hl _ hs => h.served hw (r := .apStart) (by rw [hevent]; decide) hl hs) nofun
    · exact hkeep rfl
  · split
    · exact h.processed hw ⟨rfl, rfl, rfl, rfl, rfl, rfl, rfl⟩ (Or.inl rfl) nofun id (fun _ _ hs =>
        hs) fun _ hs _ => hs
    · exact hkeep rfl
  · exact h.processed hw ⟨rfl, rfl, rfl, rfl, rfl, rfl, rfl⟩ (Or.inl rfl) nofun id (fun _ _ hs =>
      hs) fun _ hs _ => hs
  · exact h.processed hw ⟨rfl, rfl, rfl, rfl, rfl, rfl, rfl⟩ (Or.inr ⟨_, rfl, by simp [Reported]⟩)
      nofun id (fun _ _ hs => hs) fun _ hs _ => hs
  · exact h.processed hw ⟨rfl, rfl, rfl, rfl, rfl, rfl, rfl⟩ (Or.inr ⟨_, rfl, by simp [Reported]⟩)
      nofun id (fun _ _ hs => hs) fun _ hs _ => hs
  · exact h.processed hw ⟨rfl, rfl, rfl, rfl, rfl, rfl, rfl⟩ (Or.inr ⟨_, rfl, by simp [Reported]⟩)
      nofun id (fun _ _ hs => hs) fun _ hs _ => hs

theorem InStep.callback (h : InStep s) {event : SnfWifiExternalEventId}
    (hw : s.wifi = .callback event) :
    InStep { s with wifi := if wifiEventApplies event s.net s.mode then .notify event
      else .receive } := by
  have hap : event = .apStarted → wifiEventApplies event s.net s.mode = true := by
    rintro rfl
    exact decide_eq_true (h.mode hw)
  refine Quiet.inStep (s := s) ⟨rfl, rfl, rfl, rfl, rfl, fun _ h => h, ?_, ?_, ?_, ?_, h.lost⟩ h
  · intro hr
    rcases reached_cases.mp hr with ⟨hl,hs,-,hnotify⟩ | hr
    · refine reached_cases.mpr (Or.inl ⟨hl, hs, ?_, by rw [hw]; nofun⟩)
      intro he
      obtain rfl : event = .apStarted := by simpa [hw] using he
      exact hnotify (by simp only [hap rfl, if_true])
    · exact reached_cases.mpr (Or.inr hr)
  · rintro item n (hin | hin) _
    · exact Or.inl hin
    · dsimp only at hin
      split at hin <;> cases hin
  · intro other hother
    dsimp only at hother
    split at hother
    · rcases hother with he | he <;> cases he
      exact Or.inl (Or.inl hw)
    · rcases hother with he | he <;> cases he
  · intro hm
    dsimp only at hm
    split at hm <;> cases hm

/-- Where a station event applies the last request is a station's. -/
theorem Leads.staConnect {last : Option NetRequest} {net : SnfNetState} (h : Leads last net)
    (hidle : net ≠ .idle) (hstarting : net ≠ .apStarting) (hready : net ≠ .apReady) :
    last = some .staConnect := by
  match last, h with
  | some .staConnect, _ => rfl
  | some .apStart, h => exact absurd h (by rintro (rfl | rfl) <;> contradiction)
  | some .staDisconnect, h => exact absurd h hidle
  | some .apStop, h => exact absurd h hidle
  | none, h => exact absurd h hidle

/-- A write of the state by another than a caller. -/
theorem InStep.write (h : InStep s)
    (hkept : t.accepted = s.accepted ∧ t.updated = s.updated ∧ t.last = s.last ∧
      t.callers = s.callers ∧ t.queue = s.queue)
    (hwifi : t.wifi = s.wifi ∨ t.wifi = .receive) (hmode : t.mode = s.mode)
    (hlost : t.ip = .lostIp → t.address = false) (hleads : s.settled = true → Leads s.last t.net)
    (hap : s.settled = true → s.last = some .apStart → t.reached = true → t.net = .apReady)
    (hsta : s.settled = true → s.last = some .staConnect → t.reached = true → t.net = .ready ∨
      ∃ ip, t.ip = .gotIp ip) :
    InStep t := by
  obtain ⟨haccepted,hupdated,hlast,hcallers,hqueue⟩ := hkept
  have hsettled : t.settled = s.settled := by
    unfold NetManager.settled
    rw [haccepted, hupdated]
  have hholds : ∀ item, t.Holds item → s.Holds item := by
    rintro item (hin | hin)
    · exact Or.inl (hqueue ▸ hin)
    · rcases hwifi with hx | hx <;> rw [hx] at hin
      · exact Or.inr hin
      · cases hin
  constructor
  case number => rw [haccepted, hcallers]; exact h.number
  case updated => rw [haccepted, hupdated]; exact h.updated
  case pending => rw [hsettled, hcallers, haccepted]; exact h.pending
  case request => rw [hcallers, haccepted, hlast]; exact h.request
  case item => rw [haccepted, hlast]; exact fun item n hitem => h.item item n (hholds item hitem)
  case reported =>
    intro event hevent
    rcases hwifi with hx | hx <;> rw [hx] at hevent
    · exact h.reported event hevent
    · rcases hevent with he | he <;> cases he
  case mode =>
    intro hm
    rcases hwifi with hx | hx <;> rw [hx] at hm
    · exact hmode ▸ h.mode hm
    · cases hm
  case lost => exact hlost
  case leads => rw [hsettled, hlast]; exact hleads
  case ap => rw [hsettled, hlast]; exact hap
  case sta => rw [hsettled, hlast]; exact hsta

theorem InStep.notify_step (h : InStep s) {event : SnfWifiExternalEventId}
    (hw : s.wifi = .notify event) (horder : ReportInOrder s (.notify event)) :
    InStep (s.notify event) := by
  have hreached : (s.notify event).reached = true → s.last = some .staConnect →
      s.reached = true := by
    intro hr hl
    rcases reached_cases.mp hr with ⟨hl',-⟩ | hr
    · exact absurd (hl.symm.trans hl') (by decide)
    · exact reached_cases.mpr (Or.inr hr)
  refine h.write ⟨rfl, rfl, rfl, rfl, rfl⟩ (Or.inr rfl) rfl h.lost ?_ ?_ ?_
  all_goals
    intro hs
    obtain ⟨happlies,hap,hsta⟩ := horder hs
    have hleads := h.leads hs
  · rcases h.reported event (Or.inr hw) with rfl | rfl | rfl | rfl | rfl
    · simp only [wifiEventApplies, Bool.and_eq_true, decide_eq_true_eq] at happlies
      rw [hleads.staConnect happlies.1.1 happlies.1.2 happlies.2]
      exact Or.inl rfl
    · simp only [wifiEventApplies, Bool.and_eq_true, decide_eq_true_eq] at happlies
      rw [hleads.staConnect happlies.1.1.1 happlies.1.1.2 happlies.1.2]
      exact Or.inr (Or.inl rfl)
    · simp only [wifiEventApplies, Bool.not_eq_true', Bool.or_eq_false_iff,
        decide_eq_false_iff_not] at happlies
      rw [hleads.staConnect happlies.1.1 happlies.1.2 happlies.2]
      exact Or.inr (Or.inr (Or.inr rfl))
    · rw [hap rfl]
      exact Or.inr rfl
    · cases happlies
  · intro hl _
    have hnet : s.net = .apStarting ∨ s.net = .apReady := by
      rw [hl] at hleads
      exact hleads
    rcases h.reported event (Or.inr hw) with rfl | rfl | rfl | rfl | rfl
    · rcases hnet with hn | hn <;> rw [hn] at happlies <;> cases happlies
    · rcases hnet with hn | hn <;> rw [hn] at happlies <;> cases happlies
    · rcases hnet with hn | hn <;> rw [hn] at happlies <;> cases happlies
    · rfl
    · cases happlies
  · intro hl hr
    have hbefore : s.reached = true := hreached hr hl
    rcases h.reported event (Or.inr hw) with rfl | rfl | rfl | rfl | rfl
    · exact absurd (hbefore.symm.trans (hsta (Or.inl rfl))) (by decide)
    · refine Or.inr ((h.sta hs hl hbefore).resolve_left ?_)
      simp only [wifiEventApplies, Bool.and_eq_true, decide_eq_true_eq] at happlies
      exact happlies.2
    · exact absurd (hbefore.symm.trans (hsta (Or.inr rfl))) (by decide)
    · exact absurd (hl.symm.trans (hap rfl)) (by decide)
    · cases happlies

/-- What an address brings about is a station's end. -/
theorem reached_of_apStart (hl : s.last = some .apStart) (hr : t.reached = true)
    (hkept : t.last = s.last ∧ t.served = s.served ∧ t.wifi = s.wifi) : s.reached = true := by
  obtain ⟨hlast,hserved,hwifi⟩ := hkept
  rcases reached_cases.mp hr with ⟨-,hs,hcallback,hnotify⟩ | ⟨hsta,-,-⟩
  · exact reached_cases.mpr (Or.inl ⟨hl, hserved ▸ hs, hwifi ▸ hcallback, hwifi ▸ hnotify⟩)
  · exact absurd ((hlast ▸ hsta).symm.trans hl) (by decide)

theorem InStep.gotIp_step (h : InStep s) (ip : UInt32) (horder : InOrder s (.gotIp ip)) :
    InStep { s with address := true, ip := if gotIpApplies s.net then .gotIp ip
      else .returned } := by
  refine h.write ⟨rfl, rfl, rfl, rfl, rfl⟩ (Or.inl rfl) rfl ?_ h.leads ?_ ?_
  · intro hl
    dsimp only at hl
    split at hl <;> cases hl
  · exact fun hs hl hr => h.ap hs hl (reached_of_apStart hl hr ⟨rfl, rfl, rfl⟩)
  · intro hs hl hr
    refine Or.inr ⟨ip, if_pos ?_⟩
    have hserved : s.served = true := by
      rcases reached_cases.mp hr with ⟨hap,-⟩ | ⟨-,hserved,-⟩
      · exact absurd (hl.symm.trans hap) (by decide)
      · exact hserved
    have hne := horder hs hl hserved
    have hleads := h.leads hs
    rw [hl] at hleads
    rcases hleads with hn | hn | hn | hn
    · rw [hn]; rfl
    · rw [hn]; rfl
    · rw [hn]; rfl
    · exact absurd hn hne

theorem InStep.lostIp_step (h : InStep s) :
    InStep { s with address := false, ip := if lostIpApplies s.net then .lostIp
      else .returned } := by
  refine h.write ⟨rfl, rfl, rfl, rfl, rfl⟩ (Or.inl rfl) rfl (fun _ => rfl) h.leads ?_ ?_
  · exact fun hs hl hr => h.ap hs hl (reached_of_apStart hl hr ⟨rfl, rfl, rfl⟩)
  · intro _ hl hr
    rcases reached_cases.mp hr with ⟨hap,-⟩ | ⟨-,-,ha⟩
    · exact absurd (hl.symm.trans hap) (by decide)
    · cases ha

theorem InStep.ipNotify_step (h : InStep s) (horder : AddressInOrder s s.ip) :
    InStep s.ipNotify := by
  unfold NetManager.ipNotify
  split
  case h_1 ip hip =>
    have hsta : s.settled = true → s.last = some .staConnect := by
      intro hs
      have happlies : gotIpApplies s.net = true := by
        rw [hip] at horder
        exact horder hs
      simp only [gotIpApplies, Bool.not_eq_true', Bool.or_eq_false_iff,
        decide_eq_false_iff_not] at happlies
      exact (h.leads hs).staConnect happlies.1.1.1 happlies.1.2 happlies.2
    refine h.write ⟨rfl, rfl, rfl, rfl, rfl⟩ (Or.inl rfl) rfl nofun ?_ ?_ ?_
    · intro hs
      rw [hsta hs]
      exact Or.inr (Or.inr (Or.inl rfl))
    · exact fun hs hl _ => absurd (hl.symm.trans (hsta hs)) (by decide)
    · exact fun _ _ _ => Or.inl rfl
  case h_2 hip =>
    have hsta : s.settled = true → s.last = some .staConnect := by
      intro hs
      have happlies : lostIpApplies s.net = true := by
        rw [hip] at horder
        exact horder hs
      simp only [lostIpApplies, Bool.or_eq_true, decide_eq_true_eq] at happlies
      refine (h.leads hs).staConnect ?_ ?_ ?_ <;> rcases happlies with hn | hn <;> rw [hn] <;>
        decide
    refine h.write ⟨rfl, rfl, rfl, rfl, rfl⟩ (Or.inl rfl) rfl nofun ?_ ?_ ?_
    · intro hs
      rw [hsta hs]
      exact Or.inr (Or.inr (Or.inr rfl))
    · exact fun hs hl _ => absurd (hl.symm.trans (hsta hs)) (by decide)
    · intro _ hl hr
      rcases reached_cases.mp hr with ⟨hap,-⟩ | ⟨-,-,ha⟩
      · exact absurd (hl.symm.trans hap) (by decide)
      · exact absurd (ha.symm.trans (h.lost hip)) (by decide)
  · exact h

theorem inStep_step {l : NetLabel} (h : InStep s) (horder : InOrder s l)
    (hstep : netStep s l = some t) : InStep t := by
  cases l with
  | request i r =>
    simp only [netStep] at hstep
    split at hstep
    · cases hstep
      exact h.request_step i r
    · cases hstep
  | update i =>
    simp only [netStep] at hstep
    split at hstep
    case h_1 r number hi =>
      cases hstep
      have hupdate : UpdateInOrder s (.update r number) := hi ▸ horder
      exact h.update_step hi hupdate.1 hupdate.2
    · cases hstep
  | receive =>
    simp only [netStep] at hstep
    split at hstep
    case h_1 hw hq =>
      cases hstep
      exact h.receive hw hq
    · cases hstep
  | process adapterOk connectOk =>
    simp only [netStep] at hstep
    split at hstep
    case h_1 item hw =>
      cases hstep
      exact h.process_step hw adapterOk connectOk
    · cases hstep
  | callback =>
    simp only [netStep] at hstep
    split at hstep
    case h_1 event hw =>
      cases hstep
      exact h.callback hw
    · cases hstep
  | notify =>
    simp only [netStep] at hstep
    split at hstep
    case h_1 event hw =>
      cases hstep
      exact h.notify_step hw (hw ▸ horder)
    · cases hstep
  | scan =>
    cases hstep
    exact h.sdkSend .scan
  | sdkConnected =>
    cases hstep
    exact h.sdkSend .cbConnected
  | sdkDisconnected =>
    cases hstep
    exact h.address.sdkSend .cbDisconnected
  | sdkScanDone =>
    cases hstep
    exact h.sdkSend .cbScanDone
  | gotIp ip =>
    simp only [netStep] at hstep
    split at hstep
    · cases hstep
      exact h.gotIp_step ip horder
    · cases hstep
  | lostIp =>
    simp only [netStep] at hstep
    split at hstep
    · cases hstep
      exact h.lostIp_step
    · cases hstep
  | ipNotify =>
    simp only [netStep] at hstep
    split at hstep
    · cases hstep
    · cases hstep
      exact h.ipNotify_step horder

theorem inStep_run (h : Reach netStep InOrder netInit s) : InStep s :=
  h.invariant inStep_init fun _ _ _ hin horder hstep => inStep_step hin horder hstep

theorem final_state_of_inOrder (h : Reach netStep InOrder netInit s) (hd : s.Delivered) :
    s.Agrees := by
  have hin := inStep_run h
  have hs : s.settled = true := by
    rcases hin.pending with hs | ⟨i,r,hi⟩
    · exact hs
    · rw [hd.callers i] at hi
      cases hi
  have hleads := hin.leads hs
  unfold NetManager.Agrees
  split
  case h_1 hl =>
    rw [hl] at hleads
    exact hleads
  case h_2 hl =>
    intro hserved
    exact hin.ap hs hl
      (reached_cases.mpr (Or.inl ⟨hl, hserved, by rw [hd.wifi]; nofun, by rw [hd.wifi]; nofun⟩))
  case h_3 hl =>
    intro hserved haddress
    refine (hin.sta hs hl (reached_cases.mpr (Or.inr ⟨hl, hserved, haddress⟩))).resolve_right ?_
    rintro ⟨ip,hip⟩
    rw [hd.ip] at hip
    cases hip
  case h_4 hl | h_5 hl =>
    rw [hl] at hleads
    exact hleads

theorem apStart_returned (i : ℕ) :
    Function.update (Function.update netInit.callers 0 (.update .apStart 1)) 0 .returned i =
      .returned := by
  rw [Function.update_idem, Function.update_apply]
  exact ite_self _

/-- A caller that is not preempted, and the access point it asks for. -/
def apStartInOrder :
    List NetLabel := [.request 0 .apStart, .update 0, .receive, .process true true, .callback,
    .notify]

theorem final_state_of_inOrder_apStart :
    ∃ s, execWithin netStep InOrder netInit apStartInOrder = some s ∧ s.last = some .apStart ∧
      s.served = true ∧ s.Agrees :=
  ⟨_, rfl, rfl, rfl,
    @final_state_of_inOrder _ (@Reach.execWithin _ _ _ _ _ _ _ _ .init apStartInOrder rfl)
    ⟨apStart_returned, rfl, rfl⟩⟩

/-- A station that loses its access point and finds it again. -/
example : (execWithin netStep InOrder netInit
    [.request 0 .staConnect, .update 0, .receive, .process true true, .callback, .notify,
     .sdkConnected, .receive, .process true true, .callback, .notify, .gotIp 1, .ipNotify,
     .sdkDisconnected, .receive, .process true true, .callback, .notify,
     .sdkConnected, .receive, .process true true, .callback, .notify, .gotIp 2, .ipNotify]).map
       (fun s => (s.net, s.ipv4))
    = some (.ready, 2) := rfl

def apStartPreempted :
    List NetLabel := [.request 0 .apStart, .receive, .process true true, .callback, .notify,
    .update 0]

/-- No step follows that would make up for it: the Wi-Fi task has nothing more to do. -/
theorem final_state_overwritten :
    ∃ s, exec netStep netInit apStartPreempted = some s ∧ s.Delivered ∧ s.last = some .apStart ∧
      s.served = true ∧ s.queue = [] ∧ s.mode = .ap ∧ s.net = .apStarting ∧ ¬s.Agrees :=
  ⟨_, rfl, ⟨apStart_returned, rfl, rfl⟩, rfl, rfl, rfl, rfl, rfl, fun h =>
    absurd (h rfl) (by decide)⟩

end Sonoff.Net
