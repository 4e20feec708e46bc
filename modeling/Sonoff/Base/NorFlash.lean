import Mathlib.Data.List.Basic
import Mathlib.Tactic.Common

/-! # NOR flash

Erasing sets whole sectors to `0xFF`, writing only clears bits. `Programmed` is
the state of a region that is filled from its start: a prefix holds the data,
the rest of the erased sectors is blank, and the operations that led there
erased every sector once, before the first write into it.
-/
namespace Sonoff.NorFlash

inductive FlashOp
  | erase (offset size : ℕ)
  | write (offset : ℕ) (data : List UInt8)
  deriving DecidableEq, Repr

namespace FlashOp

def offset : FlashOp → ℕ
  | erase offset _ => offset
  | write offset _ => offset

def size : FlashOp → ℕ
  | erase _ size => size
  | write _ data => data.length

def touches (sectorSize : ℕ) (op : FlashOp) (sector : ℕ) : Prop :=
  op.offset / sectorSize ≤ sector ∧ sector ≤ (op.offset + op.size - 1) / sectorSize

def inside (length : ℕ) (op : FlashOp) : Prop := op.offset + op.size ≤ length

def effect (sectorSize : ℕ) (content : ℕ → UInt8) : FlashOp → ℕ → UInt8
  | erase offset size, i =>
    if offset / sectorSize ≤ i / sectorSize ∧ i / sectorSize ≤ (offset + size - 1) / sectorSize then
      0xFF
    else content i
  | write offset data, i =>
    if offset ≤ i ∧ i < offset + data.length then content i &&& data.getD (i - offset) 0
      else content i

end FlashOp

/-- Outcome of an operation: done, failed in the driver, or refused before it was issued. -/
inductive OpResult
  | ok
  | failed
  | refused
  deriving DecidableEq, Repr

/-- A partition: the outcomes the environment has in store (`ok` when they run
out) and the log of the operations, newest first. -/
structure Flash where
  length : ℕ
  content : ℕ → UInt8
  results : List OpResult
  log : List (FlashOp × OpResult)

namespace Flash

/-- An operation with its outcome; only a successful one has an effect. -/
def record (flash : Flash) (sectorSize : ℕ) (op : FlashOp) (result : OpResult) : Flash :=
  { flash with
    content := if result = .ok then op.effect sectorSize flash.content else flash.content
    log := (op, result) :: flash.log }

def Succeeded (flash : Flash) : Prop := ∀ e ∈ flash.log, e.2 = .ok

instance (flash : Flash) :
    Decidable flash.Succeeded := inferInstanceAs (Decidable (∀ e ∈ flash.log, e.2 = .ok))

def Inside (flash : Flash) : Prop := ∀ e ∈ flash.log, e.2 ≠ .refused → e.1.inside flash.length

def ops (flash : Flash) : List FlashOp := flash.log.map Prod.fst

/-- The bytes of the successful writes with their offsets, in the order they were written. -/
def written (flash : Flash) : List (UInt8 × ℕ) :=
  flash.log.reverse.flatMap fun e =>
    match e with
    | (.write offset data, .ok) => data.zipIdx offset
    | _ => []

end Flash

/-- Every sector touched was erased exactly once, before the first write into it;
the operations are listed newest first. -/
def ErasedOnce (sectorSize : ℕ) : List FlashOp → Prop
  | [] => True
  | .erase offset size :: older =>
    (∀ op ∈ older, ∀ s, op.touches sectorSize s → ¬(FlashOp.erase offset size).touches sectorSize s)
      ∧ ErasedOnce sectorSize older
  | .write offset data :: older =>
    (∀ s, (FlashOp.write offset data).touches sectorSize s →
      ∃ o n, FlashOp.erase o n ∈ older ∧ (FlashOp.erase o n).touches sectorSize s)
      ∧ ErasedOnce sectorSize older

variable {sectorSize : ℕ}

/-- A region filled from its start with `data`, `sectors` sectors of it erased so far. -/
structure Programmed (sectorSize : ℕ) (content : ℕ → UInt8) (ops : List FlashOp) (data : List UInt8)
    (sectors : ℕ) : Prop where
  covered : data.length ≤ sectorSize * sectors
  holds : ∀ i, i < data.length → content i = data.getD i 0
  blank : ∀ i, data.length ≤ i → i < sectorSize * sectors → content i = 0xFF
  erased : ∀ s < sectors, FlashOp.erase (sectorSize * s) sectorSize ∈ ops
  touched : ∀ op ∈ ops, ∀ s, op.touches sectorSize s → s < sectors
  once : ErasedOnce sectorSize ops

theorem Programmed.start (content : ℕ → UInt8) : Programmed sectorSize content [] [] 0 where
  covered := Nat.zero_le _
  holds := fun i h => absurd h (Nat.not_lt_zero i)
  blank := fun i _ h => absurd h (by simp)
  erased := fun s h => absurd h (Nat.not_lt_zero s)
  touched := fun op h => absurd h List.not_mem_nil
  once := trivial

theorem touches_erase (hs : 0 < sectorSize) (k s : ℕ) :
    (FlashOp.erase (sectorSize * k) sectorSize).touches sectorSize s ↔ s = k := by
  have h₁ : sectorSize * k / sectorSize = k := Nat.mul_div_cancel_left k hs
  have h₂ : (sectorSize * k + sectorSize - 1) / sectorSize = k := by
    rw [Nat.add_sub_assoc hs, Nat.mul_add_div hs, Nat.div_eq_of_lt (by omega), Nat.add_zero]
  simp only [FlashOp.touches, FlashOp.offset, FlashOp.size, h₁, h₂]
  omega

/-- Erasing the next sector keeps the data. -/
theorem Programmed.erase (hs : 0 < sectorSize) {content : ℕ → UInt8} {ops : List FlashOp}
    {data : List UInt8} {k : ℕ} (h : Programmed sectorSize content ops data k) :
    Programmed sectorSize ((FlashOp.erase (sectorSize * k) sectorSize).effect sectorSize content)
      (.erase (sectorSize * k) sectorSize :: ops) data (k + 1) := by
  have hcov := h.covered
  have hnext : sectorSize * (k + 1) = sectorSize * k + sectorSize := Nat.mul_succ _ _
  have heff : ∀ i, (FlashOp.erase (sectorSize * k) sectorSize).effect sectorSize content i =
      if i / sectorSize = k then 0xFF else content i := by
    intro i
    have ht := touches_erase hs k (i / sectorSize)
    simp only [FlashOp.touches, FlashOp.offset, FlashOp.size] at ht
    simp only [FlashOp.effect, ht]
  have hlow : ∀ i, i < sectorSize * k → i / sectorSize ≠ k := by
    intro i hi he
    have := (Nat.div_lt_iff_lt_mul hs).mpr (show i < k * sectorSize by rw [Nat.mul_comm]; exact hi)
    omega
  refine ⟨by omega, ?_, ?_, ?_, ?_, ?_, h.once⟩
  · intro i hi
    rw [heff, if_neg (hlow i (by omega))]
    exact h.holds i hi
  · intro i hi hik
    rw [heff]
    split
    case isTrue => rfl
    case isFalse hne =>
      refine h.blank i hi ?_
      have hlt : i / sectorSize < k + 1 :=
        (Nat.div_lt_iff_lt_mul hs).mpr (by rw [Nat.mul_comm]; exact hik)
      have := (Nat.div_lt_iff_lt_mul hs).mp (show i / sectorSize < k by omega)
      rwa [Nat.mul_comm] at this
  · intro s hsk
    rcases Nat.lt_succ_iff_lt_or_eq.mp hsk with hlt | rfl
    · exact List.mem_cons_of_mem _ (h.erased s hlt)
    · exact List.mem_cons_self
  · intro op hop s ht
    rcases List.mem_cons.mp hop with rfl | hop
    · rw [touches_erase hs] at ht
      omega
    · exact Nat.lt_succ_of_lt (h.touched op hop s ht)
  · intro op hop s ht hk
    rw [touches_erase hs] at hk
    exact absurd (h.touched op hop s ht) (by omega)

/-- Writing behind the data, inside the erased sectors, appends to it. -/
theorem Programmed.write (hs : 0 < sectorSize) {content : ℕ → UInt8} {ops : List FlashOp}
    {data : List UInt8} {k : ℕ} (h : Programmed sectorSize content ops data k) {piece : List UInt8}
    (hne : piece ≠ []) (hfit : data.length + piece.length ≤ sectorSize * k) :
    Programmed sectorSize ((FlashOp.write data.length piece).effect sectorSize content)
      (.write data.length piece :: ops) (data ++ piece) k := by
  have hpos := List.length_pos_iff.mpr hne
  have hsec : ∀ s, (FlashOp.write data.length piece).touches sectorSize s → s < k := by
    intro s ht
    simp only [FlashOp.touches, FlashOp.offset, FlashOp.size] at ht
    have hlt : (data.length + piece.length - 1) / sectorSize < k :=
      (Nat.div_lt_iff_lt_mul hs).mpr (by rw [Nat.mul_comm]; omega)
    omega
  refine ⟨by simpa using hfit, ?_, ?_, ?_, ?_, ?_, h.once⟩
  · intro i hi
    rw [List.length_append] at hi
    simp only [FlashOp.effect, List.getD_eq_getElem?_getD]
    split
    case isTrue hin =>
      rw [h.blank i hin.1 (by omega), List.getElem?_append_right hin.1]
      exact UInt8.neg_one_and
    case isFalse hout =>
      rw [List.getElem?_append_left (by omega), h.holds i (by omega), List.getD_eq_getElem?_getD]
  · intro i hi hik
    rw [List.length_append] at hi
    simp only [FlashOp.effect]
    rw [if_neg (by omega)]
    exact h.blank i (by omega) hik
  · intro s hsk
    exact List.mem_cons_of_mem _ (h.erased s hsk)
  · intro op hop s ht
    rcases List.mem_cons.mp hop with rfl | hop
    · exact hsec s ht
    · exact h.touched op hop s ht
  · intro s ht
    have hlt := hsec s ht
    exact ⟨_, _, h.erased s hlt, (touches_erase hs s s).mpr rfl⟩

end Sonoff.NorFlash
