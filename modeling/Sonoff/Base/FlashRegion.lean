import Mathlib.Data.List.GetD
import Sonoff.Base.Bytes
import Sonoff.Base.NorFlash

/-! # Regions of a flash

What a read returns after a write or an erase, for regions that the operation
reaches and for those it does not; a region that is filled from its start; and
tables of fixed-size records behind a flag word, where a blank slot is one that
has not been written since the last erase.
-/
namespace Sonoff.NorFlash
open Bytes

def readBytes (content : ℕ → UInt8) (addr n : ℕ) : List UInt8 := (List.range n).map fun i =>
    content (addr + i)

variable {content content' : ℕ → UInt8} {addr n m sectorSize : ℕ}

@[simp] theorem readBytes_length (content : ℕ → UInt8) (addr n : ℕ) :
    (readBytes content addr n).length = n := by
  simp [readBytes]

theorem readBytes_getElem? {i : ℕ} (h : i < n) :
    (readBytes content addr n)[i]? = some (content (addr + i)) := by
  simp [readBytes, h]

theorem readBytes_add (content : ℕ → UInt8) (addr n m : ℕ) :
    readBytes content addr (n + m) = readBytes content addr n ++ readBytes content (addr + n)
      m := by
  simp only [readBytes, List.range_add, List.map_append, List.map_map]
  congr 1
  apply List.map_congr_left
  intro i _
  simp [Nat.add_assoc]

theorem readBytes_congr (h : ∀ i < n, content (addr + i) = content' (addr + i)) :
    readBytes content addr n = readBytes content' addr n := by
  apply List.map_congr_left
  intro i hi
  exact h i (List.mem_range.mp hi)

theorem slice_readBytes {start size : ℕ} (h : start + size ≤ n) :
    slice (readBytes content addr n) start size = readBytes content (addr + start) size := by
  obtain ⟨rest, rfl⟩ := Nat.exists_eq_add_of_le h
  rw [Nat.add_assoc, readBytes_add, readBytes_add]
  simp [slice]

section Operations

variable {piece : List UInt8}

theorem effect_write_apart {i : ℕ} (h : i < addr ∨ addr + piece.length ≤ i) :
    (FlashOp.write addr piece).effect sectorSize content i = content i := by
  simp only [FlashOp.effect]
  rw [if_neg (by omega)]

theorem effect_write_inside {i : ℕ} (h : i < piece.length) :
    (FlashOp.write addr piece).effect sectorSize content (addr + i) = content (addr + i) &&&
    piece.getD i 0 := by
  simp only [FlashOp.effect]
  rw [if_pos (by omega), Nat.add_sub_cancel_left]

theorem readBytes_write_apart {a : ℕ} (h : a + n ≤ addr ∨ addr + piece.length ≤ a) :
    readBytes ((FlashOp.write addr piece).effect sectorSize content) a n =
      readBytes content a n := by
  apply readBytes_congr
  intro i hi
  exact effect_write_apart (by omega)

/-- A write leaves what was there and what is written, bit by bit. -/
theorem readBytes_write (content : ℕ → UInt8) (addr : ℕ) (piece : List UInt8) :
    readBytes ((FlashOp.write addr piece).effect sectorSize content) addr piece.length =
      List.zipWith (· &&& ·) (readBytes content addr piece.length) piece := by
  apply List.ext_getElem?
  intro i
  by_cases hi : i < piece.length
  · rw [readBytes_getElem? hi, effect_write_inside hi, List.getElem?_zipWith, readBytes_getElem? hi]
    simp [List.getD_eq_getElem?_getD, hi]
  · rw [List.getElem?_eq_none (by simpa using hi), List.getElem?_eq_none (by simpa using hi)]

theorem effect_erase (hs : 0 < sectorSize) (content : ℕ → UInt8) (k i : ℕ) :
    (FlashOp.erase (sectorSize * k) sectorSize).effect sectorSize content i =
      if i / sectorSize = k then 0xFF else content i := by
  have ht := touches_erase hs k (i / sectorSize)
  simp only [FlashOp.touches, FlashOp.offset, FlashOp.size] at ht
  simp only [FlashOp.effect, ht]

theorem effect_erase_apart {k i : ℕ} (hs : 0 < sectorSize)
    (h : i < sectorSize * k ∨ sectorSize * k + sectorSize ≤ i) :
    (FlashOp.erase (sectorSize * k) sectorSize).effect sectorSize content i = content i := by
  rw [effect_erase hs, if_neg]
  intro he
  rcases h with h | h
  · have := (Nat.div_lt_iff_lt_mul hs).mpr (show i < k * sectorSize by rwa [Nat.mul_comm])
    omega
  · have := (Nat.le_div_iff_mul_le hs).mpr
      (show (k + 1) * sectorSize ≤ i by rw [Nat.mul_comm, Nat.mul_succ]; exact h)
    omega

theorem readBytes_erase_apart {k a : ℕ} (hs : 0 < sectorSize)
    (h : a + n ≤ sectorSize * k ∨ sectorSize * k + sectorSize ≤ a) :
    readBytes ((FlashOp.erase (sectorSize * k) sectorSize).effect sectorSize content) a n =
      readBytes content a n := by
  apply readBytes_congr
  intro i hi
  exact effect_erase_apart hs (by omega)

/-- An erased sector is blank. -/
theorem readBytes_erase (sectorSize : ℕ) (content : ℕ → UInt8) (k : ℕ) :
    readBytes ((FlashOp.erase (sectorSize * k) sectorSize).effect sectorSize content)
      (sectorSize * k) sectorSize =
      List.replicate sectorSize 0xFF := by
  apply List.eq_replicate_iff.mpr
  constructor
  · simp
  · intro b hb
    obtain ⟨i, hi, rfl⟩ := List.mem_map.mp hb
    have hin := List.mem_range.mp hi
    have hs : 0 < sectorSize := by omega
    rw [effect_erase hs, if_pos]
    rw [Nat.mul_add_div hs, Nat.div_eq_of_lt hin, Nat.add_zero]

end Operations

theorem sector_le (sectorSize : ℕ) {k k' : ℕ} (h : k < k') :
    sectorSize * k + sectorSize ≤ sectorSize * k' := by
  rw [← Nat.mul_succ]
  exact Nat.mul_le_mul_left _ h

theorem sectors_apart (sectorSize : ℕ) {k k' : ℕ} (h : k ≠ k') :
    sectorSize * k + sectorSize ≤ sectorSize * k' ∨
      sectorSize * k' + sectorSize ≤ sectorSize * k := by
  rcases Nat.lt_or_gt_of_ne h with hlt | hlt
  · exact Or.inl (sector_le _ hlt)
  · exact Or.inr (sector_le _ hlt)

def FlashOp.InSector (sectorSize k : ℕ) : FlashOp → Prop
  | .erase offset size => offset = sectorSize * k ∧ size = sectorSize
  | .write offset data =>
    sectorSize * k ≤ offset ∧ offset + data.length ≤ sectorSize * k + sectorSize

/-- The bytes that an operation writes are there afterwards: no bit of them needed an erase. -/
def FlashOp.ReadsBack (sectorSize : ℕ) (content : ℕ → UInt8) : FlashOp → Prop
  | .erase _ _ => True
  | .write offset data =>
    readBytes ((FlashOp.write offset data).effect sectorSize content) offset data.length = data

def Programs (sectorSize : ℕ) : (ℕ → UInt8) → List FlashOp → Prop
  | _, [] => True
  | content, op :: ops =>
    op.ReadsBack sectorSize content ∧ Programs sectorSize (op.effect sectorSize content) ops

def effects (sectorSize : ℕ) (content : ℕ → UInt8) (ops : List FlashOp) : ℕ → UInt8 :=
  ops.foldl (fun content op => op.effect sectorSize content) content

theorem Programs.append {ops ops' : List FlashOp} (h : Programs sectorSize content ops)
    (h' : Programs sectorSize (effects sectorSize content ops) ops') :
    Programs sectorSize content (ops ++ ops') := by
  induction ops generalizing content with
  | nil => exact h'
  | cons op ops ih => exact ⟨h.1, ih h.2 h'⟩

/-- Another sector reads as before. -/
theorem readBytes_inSector {op : FlashOp} {k k' : ℕ} (hs : 0 < sectorSize)
    (hop : op.InSector sectorSize k') (hne : k ≠ k') :
    readBytes (op.effect sectorSize content) (sectorSize * k) sectorSize =
      readBytes content (sectorSize * k) sectorSize := by
  have hapart := sectors_apart sectorSize hne
  cases op with
  | erase offset size =>
    obtain ⟨rfl, rfl⟩ := hop
    exact readBytes_erase_apart hs hapart
  | write offset data =>
    have hlo : sectorSize * k' ≤ offset := hop.1
    have hhi : offset + data.length ≤ sectorSize * k' + sectorSize := hop.2
    exact readBytes_write_apart (by omega)

/-- Operations inside some sectors leave the others. -/
theorem readBytes_effects {ops : List FlashOp} {P : ℕ → Prop} {k : ℕ} (hs : 0 < sectorSize)
    (hk : ¬P k) (hops : ∀ op ∈ ops, ∃ k', P k' ∧ op.InSector sectorSize k') :
    readBytes (effects sectorSize content ops) (sectorSize * k) sectorSize = readBytes content
      (sectorSize * k) sectorSize := by
  induction ops generalizing content with
  | nil => rfl
  | cons op ops ih =>
    obtain ⟨k', hk', hop⟩ := hops op List.mem_cons_self
    have hne : k ≠ k' := fun h => hk (h ▸ hk')
    exact (ih fun x hx => hops x (List.mem_cons_of_mem _ hx)).trans (readBytes_inSector hs hop hne)

theorem zipWith_and_blank (piece : List UInt8) :
    List.zipWith (· &&& ·) (List.replicate piece.length (0xFF : UInt8)) piece = piece := by
  induction piece with
  | nil => rfl
  | cons b bs ih =>
    simp only [List.length_cons, List.replicate_succ, List.zipWith_cons_cons, ih]
    congr 1
    exact UInt8.neg_one_and

theorem zipWith_and_self (piece : List UInt8) : List.zipWith (· &&& ·) piece piece = piece := by
  induction piece with
  | nil => rfl
  | cons b bs ih => simp

/-- The region starts with `data`; the rest of it is blank. -/
def Filled (content : ℕ → UInt8) (addr size : ℕ) (data : List UInt8) : Prop :=
  ∃ blank, data.length + blank = size ∧
    readBytes content addr size = data ++ List.replicate blank 0xFF

variable {size : ℕ} {data piece : List UInt8}

theorem Filled.blank (h : readBytes content addr size = List.replicate size 0xFF) :
    Filled content addr size [] :=
  ⟨size, Nat.zero_add size, h⟩

theorem Filled.congr (h : Filled content addr size data)
    (heq : readBytes content' addr size = readBytes content addr size) :
    Filled content' addr size data := by
  obtain ⟨blank, hlen, hread⟩ := h
  exact ⟨blank, hlen, heq.trans hread⟩

/-- The three parts of a region around a piece behind the data. -/
theorem readBytes_split (content : ℕ → UInt8) (addr a b c : ℕ) :
    readBytes content addr (a + b + c) =
      readBytes content addr a ++ readBytes content (addr + a) b ++ readBytes content (addr + a + b)
        c := by
  rw [readBytes_add, readBytes_add, Nat.add_assoc]

/-- Writing behind the data appends to it. -/
theorem Filled.write (h : Filled content addr size data)
    (hfit : data.length + piece.length ≤ size) :
    Filled ((FlashOp.write (addr + data.length) piece).effect sectorSize content) addr size
      (data ++ piece) := by
  obtain ⟨blank, hlen, hread⟩ := h
  obtain ⟨rest, rfl⟩ : ∃ rest, blank = piece.length + rest := ⟨blank - piece.length, by omega⟩
  refine ⟨rest, by simpa [Nat.add_assoc] using hlen, ?_⟩
  rw [← hlen, ← Nat.add_assoc, readBytes_split] at hread ⊢
  rw [List.replicate_add, ← List.append_assoc] at hread
  obtain ⟨hab, hc⟩ := List.append_inj hread (by simp)
  obtain ⟨ha, hb⟩ := List.append_inj hab (by simp)
  rw [readBytes_write_apart (by omega), readBytes_write, readBytes_write_apart (by omega), ha, hb,
    hc, zipWith_and_blank]

theorem Filled.slice (h : Filled content addr size data) {start len : ℕ}
    (hin : start + len ≤ data.length) :
    readBytes content (addr + start) len = Bytes.slice data start len := by
  obtain ⟨blank, hlen, hread⟩ := h
  rw [← slice_readBytes (show start + len ≤ size by omega), hread, slice_append_left hin]

end Sonoff.NorFlash
