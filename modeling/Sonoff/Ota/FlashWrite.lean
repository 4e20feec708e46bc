import Sonoff.Ota.Handlers

/-! # What the lazy erase and the writes do to the partition

One spec for each of the adapter call, the erase loop and `otaEraseAndWrite`:
what they leave alone, which operations they issue, and that a partition filled
from its start stays so when the next piece is written behind the data.
-/
namespace Sonoff.Ota
open Bytes AesGcm NorFlash OtaParse

variable {G : Type}

structure FlashOnly (core core' : OtaCore G) : Prop where
  config : core'.config = core.config
  parser : core'.parser = core.parser
  info : core'.info = { core.info with nextEraseOffset := core'.info.nextEraseOffset }
  length : core'.flash.length = core.flash.length

theorem FlashOnly.refl (core : OtaCore G) : FlashOnly core core := ⟨rfl,rfl,rfl,rfl⟩

theorem FlashOnly.trans {c₁ c₂ c₃ : OtaCore G} (h : FlashOnly c₁ c₂) (h' : FlashOnly c₂ c₃) :
    FlashOnly c₁ c₃ where
  config := h'.config.trans h.config
  parser := h'.parser.trans h.parser
  info := by rw [h'.info, h.info]
  length := h'.length.trans h.length

theorem FlashOnly.setFlash (core : OtaCore G) {flash : Flash}
    (h : flash.length = core.flash.length) : FlashOnly core (core.setFlash flash) := ⟨rfl,rfl,rfl,h⟩

theorem FlashOnly.setNextErase (core : OtaCore G) (offset : ℕ) :
    FlashOnly core (core.setNextErase offset) :=
  ⟨rfl,rfl,rfl,rfl⟩

/-- The partition holds `data` from its start, the watermark is the end of the
erased sectors and no operation failed. -/
structure Filled (core : OtaCore G) (data : List UInt8) : Prop where
  programmed : ∃ k, core.info.nextEraseOffset = 4096 * k
    ∧ Programmed 4096 core.flash.content core.flash.ops data k
  succeeded : core.flash.Succeeded

theorem Filled.once {core : OtaCore G} {data : List UInt8} (h : Filled core data) :
    ErasedOnce 4096 core.flash.ops := by
  obtain ⟨k,_,hp⟩ := h.programmed
  exact hp.once

theorem written_record_erase (flash : Flash) (s offset size : ℕ) (result : OpResult) :
    (flash.record s (.erase offset size) result).written = flash.written := by
  simp [Flash.record, Flash.written]

theorem written_record_write (flash : Flash) (s offset : ℕ) (data : List UInt8)
    (result : OpResult) : (flash.record s (.write offset data) result).written =
      flash.written ++ if result = .ok then data.zipIdx offset else [] := by
  cases result <;> simp [Flash.record, Flash.written]

theorem snfOtaAdapterIssue_length (flash : Flash) (op : FlashOp) :
    (snfOtaAdapterIssue flash op).2.length = flash.length := rfl

theorem snfOtaAdapterIssue_inside {flash : Flash} (h : flash.Inside) (op : FlashOp) :
    (snfOtaAdapterIssue flash op).2.Inside := by
  intro e he hr
  rcases List.mem_cons.mp he with rfl | he
  · dsimp only at hr
    split at hr
    case isTrue => exact absurd rfl hr
    case isFalse hrange =>
      show op.offset + op.size ≤ flash.length
      simp only [otaAdapterCheckRange, not_or, Bool.not_eq_false, Bool.and_eq_true,
        decide_eq_true_eq] at hrange
      omega
  · exact h e he hr

theorem snfOtaAdapterIssue_ok {flash : Flash} {op : FlashOp}
    (h : (snfOtaAdapterIssue flash op).1 = true) :
    (snfOtaAdapterIssue flash op).2 = { flash with results := flash.results.tail }.record 4096 op
    .ok := by
  have hr := eq_of_beq h
  show Flash.record _ _ op _ = _
  rw [hr]
  rfl

theorem snfOtaAdapterIssue_succeeded {flash : Flash} {op : FlashOp} (h : flash.Succeeded)
    (hok : (snfOtaAdapterIssue flash op).1 = true) : (snfOtaAdapterIssue flash op).2.Succeeded := by
  rw [snfOtaAdapterIssue_ok hok]
  intro e he
  rcases List.mem_cons.mp he with rfl | he
  · rfl
  · exact h e he

/-- A failed adapter call stays in the log. -/
theorem snfOtaAdapterIssue_failed {flash : Flash} {op : FlashOp}
    (h : (snfOtaAdapterIssue flash op).1 = false) :
    ¬(snfOtaAdapterIssue flash op).2.Succeeded := by
  intro hall
  have hok := hall _ List.mem_cons_self
  exact beq_eq_false_iff_ne.mp h hok

theorem snfOtaAdapterErase_written (flash : Flash) (offset size : ℕ) :
    (snfOtaAdapterErase flash offset size).2.written = flash.written := by
  show (Flash.record _ _ (.erase offset size) _).written = _
  rw [written_record_erase]
  rfl

/-- From here on `otaEraseBeforeWrite` refuses a sector without an operation. -/
def otaEraseLimit : ℕ := uint32Max + 1 - snfOtaEraseSectorSize

structure EraseSpec (core : OtaCore G) (writeEnd : ℕ) (r : SnfOtaErrorCode × OtaCore G) : Prop where
  frame : FlashOnly core r.2
  inside : core.flash.Inside → r.2.flash.Inside
  written : r.2.flash.written = core.flash.written
  code : r.1 = .none ∨ r.1 = .eraseFailed
  reached : r.1 = .none → writeEnd ≤ r.2.info.nextEraseOffset
  issued : r.1 ≠ .none → writeEnd ≤ otaEraseLimit → ¬r.2.flash.Succeeded
  succeeded : r.1 = .none → core.flash.Succeeded → r.2.flash.Succeeded
  filled : r.1 = .none → ∀ data, Filled core data → Filled r.2 data
  once : ∀ data, Filled core data → ErasedOnce 4096 r.2.flash.ops

theorem EraseSpec.stop {core : OtaCore G} {writeEnd : ℕ}
    (h : writeEnd ≤ core.info.nextEraseOffset) : EraseSpec core writeEnd (.none, core) :=
  ⟨.refl core, id, rfl, Or.inl rfl, fun _ => h, fun hne => absurd rfl hne, fun _ h => h,
    fun _ _ h => h, fun _ h => h.once⟩

theorem EraseSpec.fail {core core' : OtaCore G} {writeEnd : ℕ} (hframe : FlashOnly core core')
    (hin : core.flash.Inside → core'.flash.Inside) (hw : core'.flash.written = core.flash.written)
    (hissued : writeEnd ≤ otaEraseLimit → ¬core'.flash.Succeeded)
    (honce : ∀ data, Filled core data → ErasedOnce 4096 core'.flash.ops) :
    EraseSpec core writeEnd (.eraseFailed, core') :=
  ⟨hframe, hin, hw, Or.inr rfl, nofun, fun _ => hissued, nofun, nofun, honce⟩

/-- The next sector's erase, whether it succeeded or not, is the first operation on it. -/
theorem once_erase {core : OtaCore G} {data : List UInt8} (h : Filled core data) :
    ErasedOnce 4096 (snfOtaAdapterErase core.flash core.info.nextEraseOffset 4096).2.ops := by
  obtain ⟨k,hk,hp⟩ := h.programmed
  rw [hk]
  exact (hp.erase (by decide)).once

/-- One successful sector erase. -/
theorem filled_erase {core : OtaCore G} {data : List UInt8} (h : Filled core data)
    (hok : (snfOtaAdapterErase core.flash core.info.nextEraseOffset 4096).1 = true) :
    Filled ((core.setFlash
      (snfOtaAdapterErase core.flash core.info.nextEraseOffset 4096).2).setNextErase
      (core.info.nextEraseOffset + 4096)) data := by
  obtain ⟨k,hk,hp⟩ := h.programmed
  have hflash := snfOtaAdapterIssue_ok hok
  rw [hk] at hflash hok ⊢
  have hnext := hp.erase (by decide)
  refine ⟨⟨k + 1, by simp only [OtaCore.setNextErase]; omega, ?_⟩,
    snfOtaAdapterIssue_succeeded h.succeeded hok⟩
  simp only [OtaCore.setNextErase, OtaCore.setFlash, snfOtaAdapterErase, hflash]
  exact hnext

theorem otaEraseLoop_spec (writeEnd : ℕ) {fuel : ℕ} {core : OtaCore G}
    (hf : writeEnd - core.info.nextEraseOffset ≤ fuel) :
    EraseSpec core writeEnd (otaEraseLoop writeEnd fuel core) := by
  induction fuel generalizing core with
  | zero => exact .stop (by omega)
  | succ fuel ih =>
    unfold otaEraseLoop
    split
    case isTrue hopen =>
      dsimp only
      rw [show snfOtaEraseSectorSize = 4096 from rfl]
      split
      case isTrue hguard =>
        refine .fail (.refl core) id rfl ?_ (fun _ h => h.once)
        intro hlimit
        simp only [otaEraseLimit, uint32Max, snfOtaEraseSectorSize] at hlimit hguard
        omega
      case isFalse =>
        have hin : core.flash.Inside →
            (snfOtaAdapterErase core.flash core.info.nextEraseOffset 4096).2.Inside :=
          fun h => snfOtaAdapterIssue_inside h _
        have hw := snfOtaAdapterErase_written core.flash core.info.nextEraseOffset 4096
        split
        case isTrue hfail =>
          exact .fail ⟨rfl,rfl,rfl,rfl⟩ hin hw (fun _ =>
            snfOtaAdapterIssue_failed (Bool.not_eq_true' _ ▸ hfail))
            (fun _ h => once_erase h)
        case isFalse hok =>
          have hok' : (snfOtaAdapterErase core.flash core.info.nextEraseOffset 4096).1 = true := by
            simpa using hok
          have hrest := @ih ((core.setFlash
            (snfOtaAdapterErase core.flash core.info.nextEraseOffset 4096).2).setNextErase
              (core.info.nextEraseOffset + 4096)) (by simp only [OtaCore.setNextErase]; omega)
          have hlen := snfOtaAdapterIssue_length core.flash (.erase core.info.nextEraseOffset 4096)
          have hframe := ((FlashOnly.setFlash core hlen).trans (.setNextErase _ _)).trans
            hrest.frame
          exact ⟨hframe, fun h => hrest.inside (hin h), hrest.written.trans hw, hrest.code,
            hrest.reached, hrest.issued, fun hn h =>
            hrest.succeeded hn (snfOtaAdapterIssue_succeeded h hok'),
            fun hn data h => hrest.filled hn data (filled_erase h hok'),
            fun data h => hrest.once data (filled_erase h hok')⟩
    case isFalse => exact .stop (by omega)

structure WriteSpec (core : OtaCore G) (offset : ℕ) (piece : List UInt8)
    (r : SnfOtaErrorCode × OtaCore G) : Prop where
  frame : FlashOnly core r.2
  inside : core.flash.Inside → r.2.flash.Inside
  code : offset + piece.length < 4294967296 → r.1 = .none ∨ r.1 = .eraseFailed ∨ r.1 = .writeFailed
  issued : r.1 ≠ .none → offset + piece.length ≤ otaEraseLimit → ¬r.2.flash.Succeeded
  written : r.1 = .none → r.2.flash.written = core.flash.written ++ piece.zipIdx offset
  succeeded : r.1 = .none → core.flash.Succeeded → r.2.flash.Succeeded
  filled : r.1 = .none → piece ≠ [] → ∀ data : List UInt8, offset = data.length → Filled core data →
    Filled r.2 (data ++ piece)
  once : piece ≠ [] → ∀ data : List UInt8, offset = data.length → Filled core data →
    ErasedOnce 4096 r.2.flash.ops

theorem snfOtaAdapterWrite_written {flash : Flash} {offset : ℕ} {data : List UInt8}
    (h : (snfOtaAdapterWrite flash offset data).1 = true) :
    (snfOtaAdapterWrite flash offset data).2.written = flash.written ++ data.zipIdx offset := by
  have hf := snfOtaAdapterIssue_ok h
  unfold snfOtaAdapterWrite
  rw [hf, written_record_write]
  rfl

/-- One successful write behind the data, inside the erased sectors. -/
theorem filled_write {core : OtaCore G} {data piece : List UInt8} (h : Filled core data)
    (hne : piece ≠ []) (hfit : data.length + piece.length ≤ core.info.nextEraseOffset)
    (hok : (snfOtaAdapterWrite core.flash data.length piece).1 = true) :
    Filled (core.setFlash (snfOtaAdapterWrite core.flash data.length piece).2) (data ++ piece) := by
  obtain ⟨k,hk,hp⟩ := h.programmed
  have hflash := snfOtaAdapterIssue_ok hok
  have hnext := hp.write (by decide) hne (by omega)
  refine ⟨⟨k, hk, ?_⟩, snfOtaAdapterIssue_succeeded h.succeeded hok⟩
  simp only [OtaCore.setFlash, snfOtaAdapterWrite, hflash]
  exact hnext

/-- A write behind the data, whether it succeeded or not, only touches erased sectors. -/
theorem once_write {core : OtaCore G} {data piece : List UInt8} (h : Filled core data)
    (hne : piece ≠ []) (hfit : data.length + piece.length ≤ core.info.nextEraseOffset) :
    ErasedOnce 4096 (snfOtaAdapterWrite core.flash data.length piece).2.ops := by
  obtain ⟨k,hk,hp⟩ := h.programmed
  exact (hp.write (by decide) hne (by omega)).once

theorem otaEraseAndWrite_spec (core : OtaCore G) (offset : ℕ) (piece : List UInt8) :
    WriteSpec core offset piece (otaEraseAndWrite core offset piece) := by
  unfold otaEraseAndWrite otaEraseBeforeWrite
  rw [show uint32Max = 4294967295 from rfl]
  by_cases hsize : piece.length > 4294967295 - offset
  · simp only [hsize, if_true, ne_eq, reduceCtorEq, not_false_eq_true]
    refine ⟨.refl core, id, fun h => by omega, ?_, nofun, nofun, nofun, fun _ _ _ h => h.once⟩
    intro _ hlimit
    simp only [otaEraseLimit, uint32Max, snfOtaEraseSectorSize] at hlimit
    omega
  · simp only [if_neg hsize]
    have he := otaEraseLoop_spec (offset + piece.length)
      (Nat.le_refl (offset + piece.length - core.info.nextEraseOffset))
    generalize otaEraseLoop _ _ core = r at he ⊢
    split
    case isTrue hne =>
      exact ⟨he.frame, he.inside, fun _ => he.code.imp_right Or.inl, fun _ => he.issued hne,
        fun h => absurd h hne, fun h => absurd h hne, fun h => absurd h hne, fun _ data _ h =>
        he.once data h⟩
    case isFalse hok =>
      have hok := not_not.mp hok
      have hreach := he.reached hok
      have hin : core.flash.Inside → _ := fun h =>
        snfOtaAdapterIssue_inside (he.inside h) (.write offset piece)
      have hframe := he.frame.trans
        (.setFlash _ (snfOtaAdapterIssue_length _ (.write offset piece)))
      have honce : piece ≠ [] → ∀ data : List UInt8, offset = data.length → Filled core data →
          ErasedOnce 4096 (snfOtaAdapterWrite r.2.flash offset piece).2.ops := by
        intro hne data hoff hfill
        subst hoff
        exact once_write (he.filled hok data hfill) hne hreach
      split
      case isTrue hfail =>
        refine ⟨hframe, hin, fun _ => Or.inr (Or.inr rfl), fun _ _ => ?_, nofun, nofun, nofun,
          honce⟩
        exact snfOtaAdapterIssue_failed (Bool.not_eq_true' _ ▸ hfail)
      case isFalse hw =>
        have hwok := by simpa using hw
        refine ⟨hframe, hin, fun _ => Or.inl rfl, fun hne => absurd rfl hne, fun _ => ?_,
          fun _ h => snfOtaAdapterIssue_succeeded (he.succeeded hok h) hwok, ?_, honce⟩
        · exact (snfOtaAdapterWrite_written hwok).trans (by rw [he.written])
        · intro _ hne data hoff hfill
          subst hoff
          exact filled_write (he.filled hok data hfill) hne hreach hwok

end Sonoff.Ota
