import Sonoff.Ota.Parse

/-! # The OTA package format

What a well-formed package with a given target is, stated on the whole byte
string: a head of 24 bytes, a table of 76-byte entries in the order of their
contents, and one entry of the target's name. Offsets are those of the wire
format, integers are big-endian.
-/
namespace Sonoff.PackageFormat
open Bytes AesGcm OtaParse

variable {G : Type} (sdk : Sdk G) (p : List UInt8)

def fileCount : ℕ := (byteAt p 1).toNat
def tableEnd : ℕ := 24 + 76 * fileCount p
def encrypted : Bool := byteAt p 10 == 1
def overhead : ℕ := if encrypted p then 28 else 0

def head : List UInt8 := slice p 0 24
def entryStart (k : ℕ) : ℕ := 24 + 76 * k
def entry (k : ℕ) : List UInt8 := slice p (entryStart k) 76

def entryName (k : ℕ) : List UInt8 := slice p (entryStart k) 32
def entryOffset (k : ℕ) : ℕ := be32 p (entryStart k + 48)
def entrySize (k : ℕ) : ℕ := be32 p (entryStart k + 52)
def entryCrc (k : ℕ) : ℕ := be32 p (entryStart k + 56)
def entryAttributesCrc (k : ℕ) : ℕ := be32 p (entryStart k + 60)

def previousEnd : ℕ → ℕ
  | 0 => tableEnd p
  | k + 1 => entryOffset p k + entrySize p k

def Named (target : List UInt8) (k : ℕ) : Prop := cString (entryName p k) = target

instance (target : List UInt8) (k : ℕ) :
    Decidable (Named p target k) := by unfold Named; infer_instance

structure HeadValid : Prop where
  version : byteAt p 0 = 1
  crc : crc32Of sdk (slice p 0 20) = be32 p 20
  count : byteAt p 1 ≠ 0
  modelVersion : byteAt p 2 ≠ 0
  cipher : byteAt p 10 = 0 ∨ byteAt p 10 = 1

structure EntryValid (k : ℕ) : Prop where
  crc : crc32Of sdk (slice p (entryStart k) 60) = entryAttributesCrc p k
  name : byteAt p (entryStart k) ≠ 0
  version : byteAt p (entryStart k + 32) ≠ 0
  content : overhead p < entrySize p k
  behind : previousEnd p k ≤ entryOffset p k
  inside : entryOffset p k + entrySize p k ≤ p.length

/-- The plaintext of a file. An encrypted content is IV, ciphertext and tag; the
head and the file's own entry are authenticated with it. -/
def Plaintext (k : ℕ) (plain : List UInt8) : Prop :=
  if encrypted p then
    sdk.Opens sdk.otaAesKey (slice p (entryOffset p k) 12) (head p ++ entry p k)
      (slice p (entryOffset p k + 12) (entrySize p k - 28))
      (slice p (entryOffset p k + entrySize p k - 16) 16) plain
  else plain = slice p (entryOffset p k) (entrySize p k)

/-- The package is well formed and its only file of the target's name is the
`k`-th, with this plaintext. -/
structure Selects (target : List UInt8) (flashSize k : ℕ) (plain : List UInt8) : Prop where
  head : HeadValid sdk p
  table : tableEnd p ≤ p.length
  entries : ∀ j < fileCount p, EntryValid sdk p j
  index : k < fileCount p
  unique : ∀ j < fileCount p, Named p target j ↔ j = k
  fits : entrySize p k - overhead p ≤ flashSize
  plaintext : Plaintext sdk p k plain
  crc : crc32Of sdk plain = entryCrc p k

/-- The package is accepted for the target. -/
def Accepts (target : List UInt8) (flashSize : ℕ) :
    Prop := ∃ k plain, Selects sdk p target flashSize k plain

variable {sdk p}

theorem Plaintext.unique {k : ℕ} {plain plain' : List UInt8} (h : Plaintext sdk p k plain)
    (h' : Plaintext sdk p k plain') : plain = plain' := by
  unfold Plaintext at h h'
  split at h
  case isTrue hp =>
    rw [if_pos hp] at h'
    exact h.unique h'
  case isFalse hp =>
    rw [if_neg hp] at h'
    exact h.trans h'.symm

end Sonoff.PackageFormat
