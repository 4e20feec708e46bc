import Mathlib.Algebra.Ring.Nat
import Mathlib.Data.List.Basic
import Mathlib.Tactic.Common

/-! # Byte strings and 32-bit arithmetic

`uint32_t` values are naturals below `2^32`; the two operations that may
leave that range wrap explicitly, so that a theorem about them has to show that
no wrap happens.
-/
namespace Sonoff.Bytes

def u32Add (a b : ℕ) : ℕ := (a + b) % 4294967296
def u32Sub (a b : ℕ) : ℕ := (4294967296 + a - b) % 4294967296

theorem u32Add_eq {a b : ℕ} (h : a + b < 4294967296) : u32Add a b = a + b := Nat.mod_eq_of_lt h

theorem u32Sub_eq {a b : ℕ} (h : b ≤ a) (ha : a < 4294967296) : u32Sub a b = a - b := by
  unfold u32Sub
  omega

/-- The byte at an index, zero past the end. -/
def byteAt (data : List UInt8) (i : ℕ) : UInt8 := data.getD i 0

def slice (data : List UInt8) (start size : ℕ) : List UInt8 := (data.drop start).take size

theorem slice_length {data : List UInt8} {start size : ℕ} (h : start + size ≤ data.length) :
    (slice data start size).length = size := by
  simp only [slice, List.length_take, List.length_drop]
  omega

theorem byteAt_slice {data : List UInt8} {start size i : ℕ} (h : i < size) :
    byteAt (slice data start size) i = byteAt data (start + i) := by
  simp only [byteAt, slice, List.getD_eq_getElem?_getD, List.getElem?_take, h, if_true,
    List.getElem?_drop]

theorem slice_slice {data : List UInt8} {start size i n : ℕ} (h : i + n ≤ size) :
    slice (slice data start size) i n = slice data (start + i) n := by
  simp only [slice, List.drop_take, List.take_take, List.drop_drop]
  rw [Nat.min_eq_left (by omega)]

theorem slice_add (data : List UInt8) (start n m : ℕ) :
    slice data start (n + m) = slice data start n ++ slice data (start + n) m := by
  simp only [slice, List.take_add, List.drop_drop]

theorem byteAt_append_left {xs ys : List UInt8} {i : ℕ} (h : i < xs.length) :
    byteAt (xs ++ ys) i = byteAt xs i := by
  simp [byteAt, List.getD_eq_getElem?_getD, List.getElem?_append_left h]

theorem byteAt_append_right {xs ys : List UInt8} {i : ℕ} (h : xs.length ≤ i) :
    byteAt (xs ++ ys) i = byteAt ys (i - xs.length) := by
  simp [byteAt, List.getD_eq_getElem?_getD, List.getElem?_append_right h]

def be32 (data : List UInt8) (i : ℕ) : ℕ :=
  (byteAt data i).toNat * 16777216 + (byteAt data (i + 1)).toNat * 65536
    + (byteAt data (i + 2)).toNat * 256 + (byteAt data (i + 3)).toNat

theorem be32_lt (data : List UInt8) (i : ℕ) : be32 data i < 4294967296 := by
  have h0 := (byteAt data i).toNat_lt
  have h1 := (byteAt data (i + 1)).toNat_lt
  have h2 := (byteAt data (i + 2)).toNat_lt
  have h3 := (byteAt data (i + 3)).toNat_lt
  unfold be32
  omega

theorem be32_slice {data : List UInt8} {start size i : ℕ} (h : i + 4 ≤ size) :
    be32 (slice data start size) i = be32 data (start + i) := by
  simp only [be32]
  rw [byteAt_slice (by omega), byteAt_slice (by omega), byteAt_slice (by omega),
    byteAt_slice (by omega)]
  simp only [Nat.add_assoc]

/-- Four bytes, most significant first. -/
def packBe32 (n : ℕ) : List UInt8 :=
  [UInt8.ofNat (n / 16777216), UInt8.ofNat (n / 65536), UInt8.ofNat (n / 256), UInt8.ofNat n]

@[simp] theorem packBe32_length (n : ℕ) : (packBe32 n).length = 4 := rfl

theorem be32_packBe32 {n : ℕ} (h : n < 4294967296) : be32 (packBe32 n) 0 = n := by
  simp only [be32, packBe32, byteAt, List.getD_eq_getElem?_getD, List.getElem?_cons_zero,
    List.getElem?_cons_succ, Option.getD_some, UInt8.toNat_ofNat']
  omega


theorem slice_append_left {xs ys : List UInt8} {start size : ℕ} (h : start + size ≤ xs.length) :
    slice (xs ++ ys) start size = slice xs start size := by
  simp only [slice]
  rw [List.drop_append_of_le_length (by omega),
    List.take_append_of_le_length (by rw [List.length_drop]; omega)]

theorem slice_append_right {xs ys : List UInt8} {start size : ℕ} (h : xs.length ≤ start) :
    slice (xs ++ ys) start size = slice ys (start - xs.length) size := by
  simp only [slice, List.drop_append, List.drop_eq_nil_of_le h, List.nil_append]

theorem slice_all (xs : List UInt8) : slice xs 0 xs.length = xs := by simp [slice]

/-- A piece between two others. -/
theorem slice_mid (xs ys zs : List UInt8) : slice (xs ++ ys ++ zs) xs.length ys.length = ys := by
  rw [List.append_assoc, slice_append_right (Nat.le_refl _), Nat.sub_self,
    slice_append_left (by omega), slice_all]

/-- A block of a concatenation stands behind the blocks before it. -/
theorem slice_flatten {blocks : List (List UInt8)} {k : ℕ} (hk : k < blocks.length) :
    slice blocks.flatten ((blocks.take k).map List.length).sum blocks[k].length = blocks[k] := by
  have hsplit : blocks.flatten = (blocks.take k).flatten ++ blocks[k] ++
      (blocks.drop (k + 1)).flatten := by
    rw [List.append_assoc, ← List.flatten_cons, ← List.drop_eq_getElem_cons hk,
      ← List.flatten_append, List.take_append_drop]
  rw [hsplit, ← List.length_flatten]
  exact slice_mid _ _ _

/-- Four big-endian bytes between two other pieces. -/
theorem be32_mid {n : ℕ} (hn : n < 4294967296) (xs ys : List UInt8) :
    be32 (xs ++ packBe32 n ++ ys) xs.length = n := by
  have h := @be32_slice (xs ++ packBe32 n ++ ys) xs.length 4 0 (by omega)
  have hmid : slice (xs ++ packBe32 n ++ ys) xs.length 4 = packBe32 n :=
    slice_mid xs (packBe32 n) ys
  rw [hmid, be32_packBe32 hn] at h
  exact h.symm

attribute [irreducible] be32

def le32 (data : List UInt8) (i : ℕ) : ℕ :=
  (byteAt data i).toNat + (byteAt data (i + 1)).toNat * 256 + (byteAt data (i + 2)).toNat * 65536
    + (byteAt data (i + 3)).toNat * 16777216

def packLe32 (n : ℕ) : List UInt8 :=
  [UInt8.ofNat n, UInt8.ofNat (n / 256), UInt8.ofNat (n / 65536), UInt8.ofNat (n / 16777216)]

@[simp] theorem packLe32_length (n : ℕ) : (packLe32 n).length = 4 := rfl

/-- Four little-endian bytes between two other pieces. -/
theorem le32_mid {n : ℕ} (hn : n < 4294967296) (xs ys : List UInt8) :
    le32 (xs ++ packLe32 n ++ ys) xs.length = n := by
  have hbyte : ∀ k, byteAt (xs ++ packLe32 n ++ ys) (xs.length + k) =
      byteAt (packLe32 n ++ ys) k := by
    intro k
    rw [List.append_assoc, byteAt_append_right (Nat.le_add_right _ _), Nat.add_sub_cancel_left]
  rw [le32, show byteAt (xs ++ packLe32 n ++ ys) xs.length = _ from hbyte 0, hbyte 1, hbyte 2,
    hbyte 3]
  simp only [packLe32, byteAt, List.getD_eq_getElem?_getD, List.cons_append,
    List.getElem?_cons_zero, List.getElem?_cons_succ, Option.getD_some, UInt8.toNat_ofNat']
  omega

/-- The C string a fixed-width field holds: its bytes before the first NUL. -/
def cString (field : List UInt8) : List UInt8 := field.takeWhile (· != 0)

/-- `strcmp(left, right) == 0` on two fields. -/
def strcmpEq (left right : List UInt8) : Bool := cString left == cString right

theorem cString_append_zeros {name : List UInt8} (h : ∀ b ∈ name, b ≠ 0) (n : ℕ) :
    cString (name ++ List.replicate n 0) = name := by
  unfold cString
  rw [List.takeWhile_append_of_pos (by simpa using h)]
  cases n <;> simp [List.replicate_succ]

/-- A terminator behind the field does not change the string it holds. -/
theorem cString_append_zero (field : List UInt8) : cString (field ++ [0]) = cString field := by
  unfold cString
  induction field with
  | nil => rfl
  | cons b bs ih =>
    simp only [List.cons_append, List.takeWhile_cons, ih]

end Sonoff.Bytes
