import Sonoff.Base.FlashRegion

/-! # Tables of records on a flash

A record is a flag word with a body behind it. A slot of a table is blank or
holds one record; a blank slot can be written once, and the flag of a record can
be overwritten by any word it has all the bits of.
-/
namespace Sonoff.NorFlash
open Bytes

/-- An element of a list with one element replaced. -/
theorem getElem?_set_cases {α : Type*} {xs : List α} {i j : ℕ} {a x : α}
    (h : (xs.set i a)[j]? = some x) : (j = i ∧ x = a) ∨ (j ≠ i ∧ xs[j]? = some x) := by
  by_cases hij : i = j
  · subst hij
    left
    rw [List.getElem?_set_self'] at h
    cases hx : xs[i]? with
    | none => simp [hx] at h
    | some y => exact ⟨rfl, by simpa [hx] using h.symm⟩
  · right
    rw [List.getElem?_set_ne hij] at h
    exact ⟨Ne.symm hij, h⟩

theorem set_getElem?_eq {α : Type*} {xs : List α} {i : ℕ} {a : α} (h : xs[i]? = some a) :
    xs.set i a = xs := by
  obtain ⟨hi, rfl⟩ := List.getElem?_eq_some_iff.mp h
  exact List.set_getElem_self hi

structure Record (α : Type*) where
  flag : ℕ
  value : α
  deriving DecidableEq, Repr

/-- How the body of a record is laid out behind its flag. -/
structure RecordFormat (α : Type*) where
  size : ℕ
  Fits : α → Prop
  body : α → List UInt8
  unbody : List UInt8 → α
  flag_le : 4 ≤ size
  body_length : ∀ a, Fits a → 4 + (body a).length = size
  unbody_body : ∀ a, Fits a → unbody (body a) = a

namespace RecordFormat

variable {α : Type*} (F : RecordFormat α)

def Valid (r : Record α) : Prop := r.flag < 4294967296 ∧ F.Fits r.value

def encode (r : Record α) : List UInt8 := packLe32 r.flag ++ F.body r.value

def decode (bytes : List UInt8) : Record α := ⟨le32 bytes 0, F.unbody (bytes.drop 4)⟩

def records (bytes : List UInt8) (count : ℕ) : List (Record α) :=
  (List.range count).map fun i => F.decode (slice bytes (i * F.size) F.size)

variable {F} {r : Record α}

theorem encode_length (h : F.Valid r) : (F.encode r).length = F.size := by
  have hbody := F.body_length r.value h.2
  simpa [encode] using hbody

theorem decode_encode (h : F.Valid r) : F.decode (F.encode r) = r := by
  have hflag : le32 (F.encode r) 0 = r.flag := by
    simpa [encode] using le32_mid h.1 [] (F.body r.value)
  have hbody : (F.encode r).drop 4 = F.body r.value := by simp [encode, packLe32]
  rw [decode, hflag, hbody, F.unbody_body r.value h.2]

variable (F)

def slotRecord : Option (Record α) → Record α
  | some r => r
  | none => F.decode (List.replicate F.size 0xFF)

theorem slotRecord_none_flag : (F.slotRecord none).flag = 4294967295 := by
  obtain ⟨rest, hrest⟩ := Nat.exists_eq_add_of_le F.flag_le
  have hblank : List.replicate F.size (0xFF : UInt8) = [] ++ packLe32 4294967295 ++
      List.replicate rest 0xFF := by
    rw [hrest, List.replicate_add]
    rfl
  simpa [slotRecord, decode, hblank] using le32_mid (n := 4294967295) (by omega) []
    (List.replicate rest 0xFF)

def slotBytes : Option (Record α) → List UInt8
  | some r => F.encode r
  | none => List.replicate F.size 0xFF

/-- The flash has the slots of the table at `addr`, one behind the other. -/
structure Table (content : ℕ → UInt8) (addr : ℕ) (slots : List (Option (Record α))) : Prop where
  valid : ∀ (i : ℕ) (r : Record α), slots[i]? = some (some r) → F.Valid r
  bytes : ∀ (i : ℕ) (slot : Option (Record α)), slots[i]? = some slot →
    readBytes content (addr + i * F.size) F.size = F.slotBytes slot

namespace Table

variable {F} {content content' : ℕ → UInt8} {addr sectorSize : ℕ} {slots : List (Option (Record α))}

theorem slot_le {i : ℕ} {n : ℕ} (h : i < n) : i * F.size + F.size ≤ n * F.size := by
  rw [← Nat.succ_mul]
  exact Nat.mul_le_mul_right F.size h

theorem congr (h : F.Table content addr slots)
    (heq : readBytes content' addr (slots.length * F.size) =
      readBytes content addr (slots.length * F.size)) :
    F.Table content' addr slots := by
  constructor
  · exact h.valid
  · intro i slot hi
    have hlt := (List.getElem?_eq_some_iff.mp hi).1
    rw [← h.bytes i slot hi, ← slice_readBytes (slot_le hlt), heq, slice_readBytes (slot_le hlt)]

theorem records (h : F.Table content addr slots) {n : ℕ} (hfit : slots.length * F.size ≤ n) :
    F.records (readBytes content addr n) slots.length = slots.map F.slotRecord := by
  apply List.ext_getElem?
  intro i
  rw [List.getElem?_map, RecordFormat.records, List.getElem?_map]
  rcases Nat.lt_or_ge i slots.length with hi | hi
  · rw [List.getElem?_range hi, List.getElem?_eq_getElem hi]
    have hread : slice (readBytes content addr n) (i * F.size) F.size = F.slotBytes slots[i] := by
      rw [slice_readBytes (Nat.le_trans (slot_le hi) hfit)]
      exact h.bytes i _ (List.getElem?_eq_getElem hi)
    simp only [Option.map_some, hread, Option.some.injEq]
    cases hs : slots[i] with
    | none => rfl
    | some r => exact decode_encode (h.valid i r (by rw [List.getElem?_eq_getElem hi, hs]))
  · rw [List.getElem?_eq_none hi, List.getElem?_eq_none (by simpa using hi)]
    rfl

/-- One record read on its own. -/
theorem record (h : F.Table content addr slots) {i : ℕ} {r : Record α}
    (hi : slots[i]? = some (some r)) :
    F.decode (readBytes content (addr + i * F.size) F.size) = r := by
  rw [h.bytes i _ hi]
  exact decode_encode (h.valid i r hi)

/-- A write into one slot leaves the others. -/
theorem set {i : ℕ} {r : Record α} {a : ℕ} {piece : List UInt8} (h : F.Table content addr slots)
    (hr : F.Valid r) (hin : addr + i * F.size ≤ a)
    (hend : a + piece.length ≤ addr + i * F.size + F.size)
    (hread : readBytes ((FlashOp.write a piece).effect sectorSize content) (addr + i * F.size)
      F.size = F.encode r) :
    F.Table ((FlashOp.write a piece).effect sectorSize content) addr (slots.set i (some r)) := by
  constructor
  · intro j s hj
    rcases getElem?_set_cases hj with ⟨-, hs⟩ | ⟨-, hj⟩
    · cases hs
      exact hr
    · exact h.valid j s hj
  · intro j s hj
    rcases getElem?_set_cases hj with ⟨rfl, rfl⟩ | ⟨hij, hj⟩
    · exact hread
    · rw [← h.bytes j s hj]
      apply readBytes_write_apart
      rcases Nat.lt_or_gt_of_ne hij with hlt' | hlt'
      · have := slot_le (F := F) hlt'
        omega
      · have := slot_le (F := F) hlt'
        omega

/-- A record over a slot whose bits it keeps. -/
theorem write {i : ℕ} {slot : Option (Record α)} {r : Record α} (h : F.Table content addr slots)
    (hi : slots[i]? = some slot) (hr : F.Valid r)
    (hbits : List.zipWith (· &&& ·) (F.slotBytes slot) (F.encode r) = F.encode r) :
    F.Table ((FlashOp.write (addr + i * F.size) (F.encode r)).effect sectorSize content) addr
      (slots.set i (some r)) := by
  have hlen := encode_length hr
  apply h.set hr
  · exact Nat.le_refl _
  · exact Nat.le_of_eq (by rw [hlen])
  · have hread := @readBytes_write sectorSize content (addr + i * F.size) (F.encode r)
    rw [hlen, h.bytes i slot hi, hbits] at hread
    exact hread

theorem write_blank {i : ℕ} {r : Record α} (h : F.Table content addr slots)
    (hi : slots[i]? = some none) (hr : F.Valid r) :
    F.Table ((FlashOp.write (addr + i * F.size) (F.encode r)).effect sectorSize content) addr
      (slots.set i (some r)) := by
  apply h.write hi hr
  rw [slotBytes, ← encode_length hr]
  exact zipWith_and_blank _

/-- The same body under another flag. -/
theorem write_flagged {i f g : ℕ} {v : α} (h : F.Table content addr slots)
    (hi : slots[i]? = some (some ⟨f, v⟩))
    (hg : g < 4294967296) (hbits : List.zipWith (· &&& ·) (packLe32 f) (packLe32 g) = packLe32 g) :
    F.Table ((FlashOp.write (addr + i * F.size) (F.encode ⟨g, v⟩)).effect sectorSize content) addr
      (slots.set i (some ⟨g, v⟩)) := by
  have hvalid : F.Valid ⟨g, v⟩ := ⟨hg, (h.valid i _ hi).2⟩
  apply h.write hi hvalid
  simp only [slotBytes, encode]
  rw [List.zipWith_append (by simp), hbits, zipWith_and_self]

/-- The flag word alone. -/
theorem write_flag {i f g : ℕ} {v : α} (h : F.Table content addr slots)
    (hi : slots[i]? = some (some ⟨f, v⟩))
    (hg : g < 4294967296) (hbits : List.zipWith (· &&& ·) (packLe32 f) (packLe32 g) = packLe32 g) :
    F.Table ((FlashOp.write (addr + i * F.size) (packLe32 g)).effect sectorSize content) addr
      (slots.set i (some ⟨g, v⟩)) := by
  have hvalid : F.Valid ⟨g, v⟩ := ⟨hg, (h.valid i _ hi).2⟩
  have hsize : F.size = 4 + (F.body v).length := (F.body_length v hvalid.2).symm
  have hbytes := h.bytes i _ hi
  simp only [slotBytes, encode] at hbytes
  rw [hsize, readBytes_add] at hbytes
  obtain ⟨hf, hb⟩ := List.append_inj hbytes (by simp)
  have hword := @readBytes_write sectorSize content (addr + i * F.size) (packLe32 g)
  rw [packLe32_length] at hword
  rw [← hsize] at hf hb
  apply h.set hvalid
  · exact Nat.le_refl _
  · simp only [packLe32_length]
    omega
  · simp only [encode]
    rw [hsize, readBytes_add, ← hsize, hword, hf, hbits]
    congr 1
    rw [readBytes_write_apart (by simp), hb]

/-- A blank region is a table of blank slots. -/
theorem blank {n count : ℕ} (h : readBytes content addr n = List.replicate n 0xFF)
    (hfit : count * F.size ≤ n) : F.Table content addr (List.replicate count none) := by
  constructor
  · intro i r hi
    simp [List.getElem?_replicate] at hi
  · intro i slot hi
    rw [List.getElem?_replicate] at hi
    split at hi
    case isTrue hlt =>
      cases hi
      have hin : i * F.size + F.size ≤ n := Nat.le_trans (slot_le hlt) hfit
      rw [← slice_readBytes hin, h]
      simp only [slice, List.drop_replicate, List.take_replicate, slotBytes]
      congr 1
      omega
    case isFalse => cases hi

end Table
end RecordFormat
end Sonoff.NorFlash
