import Sonoff.Ota.SystemSession

/-! # Every session is started once

The history records one start for each session. What a step can do to that record
is said once: it keeps the session, it works without one, or it starts the next.
-/
namespace Sonoff.Ota
open Bytes AesGcm NorFlash OtaParse Threads Machine

variable {G : Type}

def SameStarts (a b : List Observation) : Prop := ∀ i k config, .started i k config ∈ b ↔
    .started i k config ∈ a

theorem SameStarts.refl (a : List Observation) : SameStarts a a := fun _ _ _ => Iff.rfl

theorem SameStarts.observe {a b : List Observation} (h : SameStarts a b) {o : Observation}
    (ho : ∀ i k config, o ≠ .started i k config) : SameStarts a (o :: b) := by
  intro i k config
  rw [List.mem_cons, ← h i k config]
  exact or_iff_right (fun he => ho i k config he.symm)

theorem SameStarts.notify {a : List Observation} {z : OtaSystem G} (h : SameStarts a z.history)
    {state : SnfOtaState} {errorCode : SnfOtaErrorCode} :
    SameStarts a (otaNotify z state errorCode).history := h.observe nofun

inductive RecordMove (i : ThreadId) (p : OtaPc) (x : OtaSystem G) (q : OtaPc) (y : OtaSystem G) :
    Prop
  | keep : y.taskHandle = x.taskHandle → y.session = x.session → y.core.config = x.core.config →
      SameStarts x.history y.history → (∀ config, q ≠ .startTask config) → RecordMove i p x q y
  | idle : p.critical = true → y.taskHandle = none → y.history = x.history → x.session ≤ y.session →
      (∀ config, q = .startTask config → x.session < y.session) → RecordMove i p x q y
  | spawn (config : SnfOtaConfig) : p = .startTask config → q = .unlock (.start config) .ok →
      y = snfOtaStartTask i x config → RecordMove i p x q y

variable {sdk : Sdk G} {s : OtaState G} {i : ThreadId} {p q : OtaPc} {x y : OtaSystem G}

theorem SameSession.keep (h : SameSession x y) (hq : ∀ config, q ≠ .startTask config) :
    RecordMove i p x q y :=
  .keep h.taskHandle h.session (by rw [h.core]) (h.history ▸ .refl _) hq

theorem PcMove.not_startTask (h : PcMove i x p q) (config : SnfOtaConfig) :
    q ≠ .startTask config := by
  cases h with
  | check request =>
    unfold otaCheck
    cases request <;> dsimp only <;> repeat (split; exact nofun)
    all_goals exact nofun
  | «return» next => cases next <;> exact nofun
  | _ => exact nofun

theorem snfOtaStartPrepare_record (x : OtaSystem G) (config : SnfOtaConfig) (sizeKnown : Bool) :
    (snfOtaStartPrepare x config sizeKnown).2.session = x.session
      ∧ (snfOtaStartPrepare x config sizeKnown).2.history = x.history := by
  unfold snfOtaStartPrepare
  split
  · exact ⟨rfl, rfl⟩
  · split
    · exact ⟨rfl, rfl⟩
    · split <;> exact ⟨rfl, rfl⟩

theorem otaHandleDataEvent_record {event : SnfOtaEvent} {bytes : List UInt8}
    {results : List OpResult} (h : otaHandleDataEvent sdk x event bytes results = some (q, y)) :
    RecordMove i p x q y := by
  obtain ⟨core,out,hres,rfl,rfl⟩ := otaHandleDataEvent_result h
  have hconf : core.config = x.core.config := by
    cases hres with
    | refused _ hconf _ _ _ => exact hconf
    | failed _ _ _ hconf _ => exact hconf
    | accepted _ _ hconf _ _ => exact hconf
  have hsame : SameStarts x.history (.consumed x.session event bytes :: x.history) :=
    (SameStarts.refl _).observe nofun
  exact .keep rfl rfl hconf hsame.notify (fun _ h => nomatch h)

/-- The inversion of a step for the record. -/
theorem OtaMove.record (h : OtaMove sdk i p x q y) (ha : Asserted i p x) :
    RecordMove i p x q y := by
  have hkeep : SameStarts x.history x.history := .refl _
  cases h with
  | pc hpc => exact (SameSession.refl x).keep hpc.not_startTask
  | mutex x config => exact .keep rfl rfl rfl hkeep (fun _ h => nomatch h)
  | mutexFailed x config => exact .keep rfl rfl rfl hkeep (fun _ h => nomatch h)
  | taken m request _ => exact .keep rfl rfl rfl hkeep (fun _ h => nomatch h)
  | exitTaken m _ => exact .keep rfl rfl rfl hkeep (fun _ h => nomatch h)
  | given request ret hu => exact (otaUnlock_sameSession hu).keep (fun _ h => nomatch h)
  | exitGiven hu => exact (otaUnlock_sameSession hu).keep (fun _ h => nomatch h)
  | prepare x config sizeKnown =>
    have hrecord := snfOtaStartPrepare_record x config sizeKnown
    refine .idle rfl ((snfOtaStartPrepare_frame x config sizeKnown).1.trans ha.taskHandle) hrecord.2
      (Nat.le_of_eq hrecord.1.symm) (fun _ h => ?_)
    split at h <;> cases h
  | queue config _ => exact .idle rfl ha.taskHandle rfl (Nat.le_refl _) (fun _ h => nomatch h)
  | init x config =>
    exact .idle rfl ha.taskHandle rfl (Nat.le_succ _) (fun _ _ => Nat.lt_succ_self _)
  | task x config => exact .spawn config rfl rfl rfl
  | taskFailed x config => exact .idle rfl rfl rfl (Nat.le_refl _) (fun _ h => nomatch h)
  | teardown x => exact .idle rfl rfl rfl (Nat.le_refl _) (fun _ h => nomatch h)
  | sent request event _ =>
    refine .keep rfl rfl rfl hkeep ?_
    unfold afterSend
    split <;> exact fun _ h => nomatch h
  | count x request len => exact .keep rfl rfl rfl hkeep (fun _ h => nomatch h)
  | receive _ => exact .keep rfl rfl rfl hkeep (fun _ h => nomatch h)
  | waited _ => exact .keep rfl rfl rfl hkeep (fun _ h => nomatch h)
  | timedOut _ => exact .keep rfl rfl rfl hkeep.notify (fun _ h => nomatch h)
  | data event bytes results _ _ hd => exact otaHandleDataEvent_record hd
  | apply x event _ => exact .keep rfl rfl rfl hkeep.notify (fun _ h => nomatch h)
  | abort x event _ =>
    have hsame : SameStarts x.history (.aborted x.session event :: x.history) := hkeep.observe nofun
    exact .keep rfl rfl rfl hsame.notify (fun _ h => nomatch h)
  | committed x event =>
    have hsame : SameStarts x.history (.committed x.session event true :: x.history) :=
      hkeep.observe nofun
    exact .keep rfl rfl rfl hsame.notify (fun _ h => nomatch h)
  | commitFailed x event =>
    have hsame : SameStarts x.history (.committed x.session event false :: x.history) :=
      hkeep.observe nofun
    exact .keep rfl rfl rfl hsame.notify (fun _ h => nomatch h)

/-- A session is started by one thread with one configuration, and the running
one has been started with the configuration that is stored. -/
structure SessionRecord (s : OtaState G) : Prop where
  bounded : ∀ i k config, .started i k config ∈ s.shared.history → k ≤ s.shared.session
  unique : ∀ i j k config config', .started i k config ∈ s.shared.history →
    .started j k config' ∈ s.shared.history → i = j ∧ config = config'
  running : s.shared.taskHandle ≠ none → ∃ i, .started i s.shared.session s.shared.core.config ∈
    s.shared.history
  starting : ∀ i config, s.pcs i = .startTask config →
    ∀ j config', .started j s.shared.session config' ∉ s.shared.history

theorem SessionRecord.only (h : SessionRecord s) (hh : s.shared.taskHandle ≠ none)
    {config : SnfOtaConfig} (hs : .started i s.shared.session config ∈ s.shared.history) :
    config = s.shared.core.config := by
  obtain ⟨j,hj⟩ := h.running hh
  exact (h.unique i j _ config _ hs hj).2

/-- The step lemma of the record. -/
theorem RecordMove.sessionRecord (h : RecordMove i (s.pcs i) s.shared q y)
    (howned : (otaMutex G).Owned s)
    (ha : Asserted i (s.pcs i) s.shared) (hrec : SessionRecord s) :
    SessionRecord (s.move i (q, y)) := by
  have hothers : (s.pcs i).critical = true → ∀ j config, j ≠ i → s.pcs j ≠ .startTask config := by
    intro hi j config hji hj
    exact hji (howned.exclusive (show (s.pcs j).critical = true by rw [hj]; rfl) hi)
  cases h with
  | keep hh hsession hconf hsame hq =>
    refine ⟨?_, ?_, ?_, ?_⟩
    · intro j k config hj
      rw [Config.move_shared, hsession]
      exact hrec.bounded j k config ((hsame j k config).mp hj)
    · intro j j' k config config' hj hj'
      exact hrec.unique j j' k config config' ((hsame j k config).mp hj)
        ((hsame j' k config').mp hj')
    · intro hne
      rw [Config.move_shared, hh] at hne
      obtain ⟨j,hj⟩ := hrec.running hne
      refine ⟨j, (hsame j _ _).mpr ?_⟩
      rwa [Config.move_shared, hsession, hconf]
    · intro j config hj k config' hk
      rw [Config.move_shared, hsession] at hk
      by_cases hji : j = i
      · subst hji
        rw [Config.move_self] at hj
        exact hq config hj
      · rw [Config.move_other s hji] at hj
        exact hrec.starting j config hj k config' ((hsame k _ config').mp hk)
  | idle hcrit hh hhist hle hlt =>
    refine ⟨?_, ?_, ?_, ?_⟩
    · intro j k config hj
      rw [Config.move_shared, hhist] at hj
      exact Nat.le_trans (hrec.bounded j k config hj) hle
    · rw [Config.move_shared, hhist]
      exact hrec.unique
    · intro hne
      exact absurd hh hne
    · intro j config hj k config' hk
      rw [Config.move_shared, hhist] at hk
      by_cases hji : j = i
      · subst hji
        rw [Config.move_self] at hj
        exact absurd (hrec.bounded k _ config' hk) (Nat.not_le_of_lt (hlt config hj))
      · rw [Config.move_other s hji] at hj
        exact hothers hcrit j config hji hj
  | spawn config hp hq hy =>
    rw [hp] at ha
    subst hy
    have hnone := hrec.starting i config hp
    have hmem : ∀ {j k config'}, .started j k config' ∈
      (snfOtaStartTask i s.shared config).history →
        (j = i ∧ k = s.shared.session ∧ config' = config) ∨
          .started j k config' ∈ s.shared.history := by
      intro j k config' hj
      rcases List.mem_cons.mp hj with hj | hj
      · cases hj
        exact Or.inl ⟨rfl,rfl,rfl⟩
      · exact Or.inr hj
    refine ⟨?_, ?_, ?_, ?_⟩
    · intro j k config' hj
      rcases hmem hj with ⟨_,rfl,_⟩ | hj
      · exact Nat.le_refl _
      · exact hrec.bounded j k config' hj
    · intro j j' k c c' hj hj'
      rcases hmem hj with ⟨rfl,rfl,rfl⟩ | hold <;> rcases hmem hj' with ⟨rfl,hk,rfl⟩ | hold'
      · exact ⟨rfl, rfl⟩
      · exact absurd hold' (hnone j' c')
      · subst hk
        exact absurd hold (hnone j c)
      · exact hrec.unique j j' k c c' hold hold'
    · intro _
      refine ⟨i, List.mem_cons.mpr (Or.inl ?_)⟩
      rw [show (s.move i (q, snfOtaStartTask i s.shared config)).shared.core.config =
        config from ha.2.configured]
      rfl
    · intro j config' hj
      by_cases hji : j = i
      · subst hji
        rw [Config.move_self] at hj
        rw [hq] at hj
        cases hj
      · rw [Config.move_other s hji] at hj
        exact absurd hj (hothers (by rw [hp]; rfl) j config' hji)

theorem otaBoot_sessionRecord (flash : Flash) : SessionRecord (otaBoot G flash) := by
  refine ⟨nofun, nofun, fun h => absurd rfl h, fun i config h => ?_⟩
  cases i <;> cases h

theorem reach_sessionRecord {flash : Flash}
    (h : Reach (otaStep sdk) keepsMutex (otaBoot G flash) s) :
    SessionRecord s := by
  refine @Reach.invariant_of _ _ _ _ _ SessionRecord
    (fun s => (otaMutex G).Owned s ∧ ∀ i, Asserted i (s.pcs i) s.shared)
    (fun s hs => ⟨reach_owned hs, (reach_asserted hs).2⟩) (otaBoot_sessionRecord flash) ?_ s h
  rintro s ⟨i,label⟩ t ⟨howned,ha⟩ hrec _ hstep
  obtain ⟨r,hr,rfl⟩ := step_some hstep
  exact ((otaNext_move hr).record (ha i)).sessionRecord howned (ha i) hrec

end Sonoff.Ota
