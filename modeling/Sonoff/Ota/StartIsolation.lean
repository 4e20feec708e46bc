import Sonoff.Ota.SystemSession
import Sonoff.Utils.SoftSdk

/-! # A start touches no other session

A start that finds a session leaves it alone, one that fails leaves nothing
behind, and a session begins with nothing of an earlier one. The first mutex is
created before any lock is held: two first starts can each create one, and then
both pass the check for a running task.
-/
namespace Sonoff.Ota
open Bytes AesGcm NorFlash OtaParse Threads Machine

variable {G : Type}

def OtaPc.inStart : OtaPc → Bool
  | .params (.start _) => true
  | .createMutex _ => true
  | .lock request => request.isStart
  | .take _ request => request.isStart
  | .check request => request.isStart
  | .unlock request _ => request.isStart
  | pc => pc.starting

/-- A configuration that a start accepts when nothing it asks for fails. -/
structure Startable (G : Type) (config : SnfOtaConfig) (flashSize : ℕ) : Prop where
  inRange : (OtaCall.start (some config)).inRange = true
  params : otaParams (.start (some config)) = .ok (.start config)
  raw : config.format = .raw → config.imageInfo.size ≤ flashSize
  package : config.format = .package →
    (@snfOtaParseInit G config.imageInfo.size (some config.fileName) flashSize).2 = .none

def startCall (config : SnfOtaConfig) (n : ℕ) : List OtaLabel :=
  .invoke (.start (some config)) :: List.replicate n (.proceed true)

def CanStart (sdk : Sdk G) (s : OtaState G) (i : ThreadId) (config : SnfOtaConfig) : Prop :=
  ∃ n t, exec (otaStep sdk) s ((startCall config n).map (Prod.mk i)) = some t
    ∧ t.pcs i = .idle (some .ok) ∧ t.shared.taskHandle ≠ none ∧ Fresh config t.shared

structure StartIsolated (sdk : Sdk G) (s : OtaState G) : Prop where
  refused : ∀ i label t, (s.pcs i).inStart = true →
    (s.pcs i).starting = false ∨ s.shared.taskHandle ≠ none →
    otaStep sdk s (i, label) = some t → SameSession s.shared t.shared
  failed : ∀ i config ret, s.pcs i = .unlock (.start config) ret → ret ≠ .ok → ret ≠ .errBusy →
    AtRest s.shared ∧ (∀ t, ¬TaskAlive s t) ∧ ∃ t, otaStep sdk s (i, .proceed true) = some t
      ∧ ∀ config, Startable G config s.shared.core.flash.length → CanStart sdk t i config
  ended : s.shared.taskHandle = none → (∀ i, (s.pcs i).starting = false) →
    AtRest s.shared ∧ ∀ t, ¬TaskAlive s t
  later : AtRest s.shared → (∀ i, (s.pcs i).critical = false) →
    ∀ i ret config, s.pcs i = .idle ret →
    Startable G config s.shared.core.flash.length → CanStart sdk s i config
  fresh : ∀ i config, s.pcs i = .startTask config → Fresh config s.shared ∧ ∀ t, ¬TaskAlive s t

variable {sdk : Sdk G} {s : OtaState G} {i : ThreadId} {p q : OtaPc} {x y : OtaSystem G}

/-- The start's steps outside its own control points change no session data. -/
theorem OtaMove.outside_start (h : OtaMove sdk i p x q y) (hin : p.inStart = true)
    (hst : p.starting = false) :
    SameSession x y := by
  cases h with
  | pc _ => exact .refl _
  | mutex _ _ => exact ⟨rfl,rfl,rfl,rfl,rfl,rfl⟩
  | mutexFailed _ _ => exact ⟨rfl,rfl,rfl,rfl,rfl,rfl⟩
  | taken _ _ _ => exact ⟨rfl,rfl,rfl,rfl,rfl,rfl⟩
  | given _ _ hu => exact otaUnlock_sameSession hu
  | prepare | queue | init | task | taskFailed => cases hst
  | _ => cases hin

theorem Asserted.starting_none (h : Asserted i p x) (hp : p.starting = true) :
    x.taskHandle = none := by
  cases p with
  | startPrepare _ => exact AtRest.taskHandle h
  | startQueue _ => exact Preparing.taskHandle h
  | startInit _ => exact Preparing.taskHandle h
  | startTask _ => exact h.1
  | _ => cases hp

theorem snfOtaStartPrepare_ok {config : SnfOtaConfig}
    (hc : Startable G config x.core.flash.length) :
    (snfOtaStartPrepare x config true).1 = .ok := by
  unfold snfOtaStartPrepare
  rw [if_neg (by simp), if_neg]
  · split
    case isTrue hp =>
      exact if_neg (not_not.mpr (hc.package hp))
    case isFalse => rfl
  · rintro ⟨hraw,hsize⟩
    exact Nat.not_lt.mpr (hc.raw hraw) hsize

/-- The part of a start that begins at the lock. -/
theorem runThread_start {config : SnfOtaConfig} (hrest : AtRest x)
    (hc : Startable G config x.core.flash.length)
    {m : ℕ} (hm : x.mutex = some m) (hfree : x.holder m = none) :
    ∃ y, runThread (otaNext sdk) i (.lock (.start config), x) (List.replicate 8 (.proceed true)) =
        some (.idle (some .ok), y) ∧ y.taskHandle ≠ none ∧ Fresh config y := by
  have hrest' : AtRest (x.setHolder m (some i)) :=
    ⟨hrest.taskHandle, hrest.eventQueue, hrest.configured, hrest.info, hrest.parser⟩
  have hok : (snfOtaStartPrepare (x.setHolder m (some i)) config true).1 = .ok :=
    snfOtaStartPrepare_ok hc
  have hprep := (snfOtaStartPrepare_result _ config true hrest').resolve_right (fun h => h.1 hok)
  obtain ⟨hmutex,hholder⟩ := snfOtaStartPrepare_mutex (x.setHolder m (some i)) config true
  generalize hy : (snfOtaStartPrepare (x.setHolder m (some i)) config true).2 = z at *
  refine ⟨(snfOtaStartTask i (snfOtaStartInit (z.setQueue (some [])) config) config).setHolder m
    none, ?_, nofun,
    rfl, rfl, rfl, rfl, hprep.2.parser.unfed, hprep.2.parser.package⟩
  have hunlock : otaUnlock i
    (snfOtaStartTask i (snfOtaStartInit (z.setQueue (some [])) config) config) =
      some ((snfOtaStartTask i (snfOtaStartInit (z.setQueue (some [])) config) config).setHolder m
        none) := by
    refine otaUnlock_owned (hmutex.trans hm) ?_
    show z.holder m = some i
    rw [hholder]
    exact if_pos rfl
  have hcheck : otaCheck i (x.setHolder m (some i)) (.start config) = .startPrepare config :=
    if_neg (not_not.mpr hrest.taskHandle)
  have hqueue := hprep.2.eventQueue
  simp only [List.replicate, runThread, otaNext, hm, hfree, if_true, Option.bind_some, hcheck, hok,
    hy, hqueue, ne_eq, not_true_eq_false, if_false, hunlock, Option.map_some]

/-- From rest, with the mutex free, every valid start succeeds. -/
theorem canStart_of_rest (howned : (otaMutex G).Owned s) (hrest : AtRest s.shared)
    (hfree : ∀ i, (s.pcs i).critical = false) {ret : Option SnfOtaRet} (hi : s.pcs i = .idle ret)
    {config : SnfOtaConfig} (hc : Startable G config s.shared.core.flash.length) :
    CanStart sdk s i config := by
  have hfinish : ∀ (x : OtaSystem G) (first : List OtaLabel) (n : ℕ), AtRest x →
    Startable G config x.core.flash.length →
      (∃ m, x.mutex = some m ∧ x.holder m = none) →
      startCall config n = first ++ List.replicate 8 (.proceed true) →
      runThread (otaNext sdk) i (s.pcs i, s.shared) first = some (.lock (.start config), x) →
        CanStart sdk s i config := by
    rintro x first n hx hcx ⟨m,hm,hhold⟩ hn hfirst
    obtain ⟨y,hy,hh,hf⟩ := @runThread_start _ sdk i x config hx hcx m hm hhold
    have hrun : runThread (otaNext sdk) i (s.pcs i, s.shared) (startCall config n) =
        some (.idle (some .ok), y) := by
      rw [hn, runThread_append, hfirst]
      exact hy
    obtain ⟨t,ht,hpc,hsh⟩ := exec_runThread hrun
    exact ⟨n, t, ht, hpc, by rw [hsh]; exact hh, by rw [hsh]; exact hf⟩
  have hr := hc.inRange
  have hp := hc.params
  cases hm : s.shared.mutex with
  | none =>
    refine hfinish (s.shared.createMutex true) [.invoke (.start (some config)), .proceed true,
      .proceed true] 10 ⟨hrest.taskHandle, hrest.eventQueue, hrest.configured, hrest.info,
      hrest.parser⟩ hc ⟨s.shared.mutexCount, rfl, if_pos rfl⟩ rfl ?_
    simp only [hi, runThread, otaNext, hr, if_true, Option.bind_some, hp, hm]
  | some m =>
    refine hfinish s.shared [.invoke (.start (some config)), .proceed true] 9 hrest hc
      ⟨m, hm, howned.free hm (fun j => by simp [otaMutex, hfree j])⟩ rfl ?_
    simp only [hi, runThread, otaNext, hr, if_true, Option.bind_some, hp, hm, reduceCtorEq,
      if_false]

/-- After a failed start has returned, a valid one succeeds. -/
theorem canStart_after_failure (howned : (otaMutex G).Owned s) {config config' : SnfOtaConfig}
    {ret : SnfOtaRet} (hi : s.pcs i = .unlock (.start config) ret) (hrest : AtRest s.shared) :
    ∃ t, otaStep sdk s (i, .proceed true) = some t ∧
      (Startable G config' s.shared.core.flash.length → CanStart sdk t i config') := by
  have hcrit : (s.pcs i).critical = true := by rw [hi]; rfl
  obtain ⟨m,hm,hh⟩ := (howned.critical i).mp hcrit
  have hnext : otaNext sdk i (s.pcs i) s.shared (.proceed true) =
      some (.idle (some ret), s.shared.setHolder m none) := by
    rw [hi]
    simp only [otaNext, otaUnlock_owned hm hh, Option.map_some]
  have hmove := otaNext_move hnext
  have howned' : (otaMutex G).Owned (s.move i (.idle (some ret), s.shared.setHolder m none)) :=
    howned.move (hmove.disciplined howned (by rw [hi]; exact nofun))
  refine ⟨s.move i (.idle (some ret), s.shared.setHolder m none), ?_, fun hc => ?_⟩
  · simp only [otaStep, step, hnext, Option.map_some]
  · refine canStart_of_rest howned' ?_ ?_ (Config.move_self _ _ _) hc
    · exact ⟨hrest.taskHandle, hrest.eventQueue, hrest.configured, hrest.info, hrest.parser⟩
    · refine Config.move_forall (fun _ (p : OtaPc) => p.critical = false) rfl (fun j hj => ?_)
      by_contra hcj
      exact hj (howned.exclusive (eq_true_of_ne_false hcj) hcrit)

/-- In every run in which no start stores a mutex over a stored one, every
reachable state is start-isolated: a start changes nothing of a session that
exists, a failed one leaves no session, queue or task and lets a later one
succeed, and a session begins with nothing of an earlier one. -/
theorem start_isolated {flash : Flash} (h : Reach (otaStep sdk) keepsMutex (otaBoot G flash) s) :
    StartIsolated sdk s := by
  have howned := reach_owned h
  obtain ⟨hw,ha⟩ := reach_asserted h
  have halive : s.shared.taskHandle = none → ∀ t, ¬TaskAlive s t := by
    intro hno t ht
    have := ht.handle ha (reach_ofTask h)
    rw [hno] at this
    cases this
  refine ⟨?_, ?_, ?_, ?_, ?_⟩
  · intro i label t hin hcase hstep
    obtain ⟨r,hr,rfl⟩ := step_some hstep
    have hst : (s.pcs i).starting = false := by
      by_contra hst
      exact hcase.elim hst (fun hne => hne ((ha i).starting_none (by simpa using hst)))
    exact (otaNext_move hr).outside_start hin hst
  · intro i config ret hi hne hne'
    have hrest : AtRest s.shared := by
      have := ha i
      rw [hi] at this
      exact this rfl hne hne'
    refine ⟨hrest, halive hrest.taskHandle, ?_⟩
    obtain ⟨t,ht,_⟩ := @canStart_after_failure _ sdk s i howned config config ret hi hrest
    refine ⟨t, ht, fun config' => ?_⟩
    obtain ⟨t',ht',hcan⟩ := @canStart_after_failure _ sdk s i howned config config' ret hi hrest
    rw [ht] at ht'
    cases ht'
    exact hcan
  · intro hno hst
    refine ⟨(hw.rest hno).resolve_right ?_, halive hno⟩
    rintro ⟨j,hj⟩
    rw [hst j] at hj
    cases hj
  · intro hrest hfree i ret config hi hc
    exact canStart_of_rest howned hrest hfree hi hc
  · intro i config hi
    have := ha i
    rw [hi] at this
    exact ⟨this.2, halive this.1⟩

def rawByte : SnfOtaConfig :=
  { SnfOtaConfig.zero with imageInfo := ⟨1, snfOtaCheckNone, snfOtaCipherNone⟩ }

def proceeds (i : ThreadId) (n : ℕ) :
    List (ThreadId × OtaLabel) := List.replicate n (i, .proceed true)

theorem start_isolated_first_start :
    ∃ s, execWithin (otaStep softSdk) keepsMutex (otaBoot Unit blankFlash)
        ((startCall rawByte 9).map (Prod.mk (.client 0))) = some s
      ∧ s.pcs (.client 0) = .unlock (.start rawByte) .ok ∧ StartIsolated softSdk s :=
  ⟨_, rfl, rfl, @start_isolated _ _ _ blankFlash (@Reach.execWithin _ _ _ _ _ _ _ _ .init
    ((startCall rawByte 9).map (Prod.mk (.client 0))) rfl)⟩

/-- The first starts of two clients: both find no mutex, each creates one and
takes it, both find no running task, and both are about to create theirs. -/
def twoFirstStarts : List (ThreadId × OtaLabel) :=
  (.client 0, .invoke (.start (some rawByte))) :: proceeds (.client 0) 1
    ++ (.client 1, .invoke (.start (some rawByte))) :: proceeds (.client 1) 1
    ++ proceeds (.client 0) 4 ++ proceeds (.client 1) 4 ++ proceeds (.client 0) 3 ++
      proceeds (.client 1) 3

/-- The second of two first starts fails to create its task: it deletes the queue
and the session of the first one, whose task is left behind. -/
theorem start_not_isolated :
    ∃ s, exec (otaStep softSdk) (otaBoot Unit blankFlash)
        (twoFirstStarts ++ proceeds (.client 0) 1 ++ [(.client 1, .proceed false)]) = some s
      ∧ ¬StartIsolated softSdk s := by
  refine ⟨_, rfl, fun h => ?_⟩
  exact (h.failed (.client 1) rawByte .errNoMemory rfl nofun nofun).2.1 0 ⟨Nat.zero_lt_one, nofun,
    nofun⟩

end Sonoff.Ota
