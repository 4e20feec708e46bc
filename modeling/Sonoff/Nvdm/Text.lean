import Mathlib.Data.List.TakeWhile
import Sonoff.Base.Bytes

/-! # Texts of the configuration items

C strings, and the conversions and checks of `sonoff_nvdm_config.c`.
-/
namespace Sonoff.Nvdm
open Bytes

structure CString where
  chars : List UInt8
  noNul : ∀ c ∈ chars, c ≠ 0
  deriving DecidableEq, Repr

namespace CString

def empty : CString := ⟨[], nofun⟩

def length (str : CString) : ℕ := str.chars.length

def ofBuffer (buffer : List UInt8) : CString :=
  ⟨cString buffer, fun _ hc => by simpa using List.mem_takeWhile_imp hc⟩

/-- A string literal of the source. -/
def ascii (text : String) : CString := ofBuffer (text.toList.map fun c => UInt8.ofNat c.toNat)

def bytes (str : CString) : List UInt8 := str.chars ++ [0]

theorem eq_of_chars {a b : CString} (h : a.chars = b.chars) : a = b := by
  obtain ⟨chars,noNul⟩ := a
  obtain ⟨chars',noNul'⟩ := b
  obtain rfl : chars = chars' := h
  rfl

theorem ofBuffer_bytes (str : CString) : ofBuffer str.bytes = str := by
  unfold ofBuffer bytes
  congr 1
  exact cString_append_zeros str.noNul 1

theorem ofBuffer_chars (str : CString) : ofBuffer str.chars = str := by
  obtain ⟨chars,noNul⟩ := str
  have hall := cString_append_zeros noNul 0
  simpa [CString.ofBuffer] using hall

def take (str : CString) (n : ℕ) :
    CString := ⟨str.chars.take n, fun _ hc => str.noNul _ (List.mem_of_mem_take hc)⟩

theorem take_of_length_le {str : CString} {n : ℕ} (h : str.length ≤ n) : str.take n = str :=
  eq_of_chars (List.take_of_length_le h)

/-- A buffer that holds the front of a string, the terminator included or cut off. -/
theorem ofBuffer_take_bytes (str : CString) (n : ℕ) : ofBuffer (str.bytes.take n) = str.take n := by
  by_cases h : n ≤ str.chars.length
  · rw [bytes, List.take_append_of_le_length h]
    exact ofBuffer_chars (str.take n)
  · have hlen : str.bytes.length ≤ n := by
      rw [bytes, List.length_append, List.length_singleton]
      omega
    rw [List.take_of_length_le hlen, ofBuffer_bytes, take_of_length_le (Nat.le_of_not_le h)]

end CString

def hexNibble (ch : UInt8) : Option UInt8 :=
  if 48 ≤ ch ∧ ch ≤ 57 then some (ch - 48)
  else if 65 ≤ ch ∧ ch ≤ 70 then some (ch - 65 + 10)
  else if 97 ≤ ch ∧ ch ≤ 102 then some (ch - 97 + 10)
  else none

def parseDecLoop : List UInt8 → ℕ → Option ℕ
  | [], result => some result
  | ch :: rest, result =>
    if ch < 48 ∨ ch > 57 then none
    else
      let digit := (ch - 48).toNat
      if result > (4294967295 - digit) / 10 then none else parseDecLoop rest (result * 10 + digit)

def parseDecU32 (str : CString) : Option ℕ := if str.chars = [] then none
    else parseDecLoop str.chars 0

def hexStringIsValid (str : CString) (minLen maxLen : ℕ) : Bool :=
  str.chars ≠ [] && minLen ≠ 0 && minLen ≤ maxLen && str.length ≤ maxLen
    && str.chars.all (fun ch => (hexNibble ch).isSome) && minLen ≤ str.length

def hexPairs : List UInt8 → Option (List UInt8)
  | high :: low :: rest => do
    let high ← hexNibble high
    let low ← hexNibble low
    let rest ← hexPairs rest
    return ((high <<< 4) + low) :: rest
  | _ => some []

def hexBytesDecode (hex : CString) (outLen : ℕ) : Option (List UInt8) :=
  if outLen = 0 ∨ hexStringIsValid hex (outLen * 2) (outLen * 2) = false then none
    else hexPairs hex.chars

def hexDigit (n : ℕ) : UInt8 := if n < 10 then UInt8.ofNat (48 + n) else UInt8.ofNat (87 + n)

/-- `%02x` of every byte. -/
def hexChars : List UInt8 → List UInt8
  | [] => []
  | byte :: rest => hexDigit (byte.toNat / 16) :: hexDigit (byte.toNat % 16) :: hexChars rest

theorem hexDigit_ne_zero {n : ℕ} (h : n < 16) : hexDigit n ≠ 0 := by
  intro he
  have htoNat := congrArg UInt8.toNat he
  unfold hexDigit at htoNat
  split at htoNat <;> simp only [UInt8.toNat_ofNat', UInt8.toNat_zero] at htoNat <;> omega

theorem hexChars_ne_zero (data : List UInt8) : ∀ c ∈ hexChars data, c ≠ 0 := by
  induction data with
  | nil => exact nofun
  | cons byte rest ih =>
    have hbyte := byte.toNat_lt
    intro c hc
    rcases List.mem_cons.mp hc with rfl | hc
    · exact hexDigit_ne_zero (by omega)
    · rcases List.mem_cons.mp hc with rfl | hc
      · exact hexDigit_ne_zero (by omega)
      · exact ih c hc

theorem hexChars_length (data : List UInt8) : (hexChars data).length = data.length * 2 := by
  induction data with
  | nil => rfl
  | cons byte rest ih =>
    rw [hexChars, List.length_cons, List.length_cons, ih, List.length_cons]
    omega

/-- What was printed in digits is decoded. -/
theorem hexPairs_hexChars (data : List UInt8) : hexPairs (hexChars data) = some data := by
  have hall : ∀ i : Fin 256, (do
      let high ← hexNibble (hexDigit (i.val / 16))
      let low ← hexNibble (hexDigit (i.val % 16))
      return (high <<< 4) + low) = some (UInt8.ofNat i.val) := by decide +kernel
  induction data with
  | nil => rfl
  | cons byte rest ih =>
    have hbyte := hall ⟨byte.toNat, byte.toNat_lt⟩
    simp only [UInt8.ofNat_toNat] at hbyte
    obtain ⟨high,hhigh,hbyte⟩ := Option.bind_eq_some_iff.mp hbyte
    obtain ⟨low,hlow,hbyte⟩ := Option.bind_eq_some_iff.mp hbyte
    rw [hexChars, hexPairs, hhigh, hlow, ih, ← Option.some.inj hbyte]
    rfl

/-- `hexSize` is the size of the buffer, terminator included. -/
def bytesToHex (data : List UInt8) (hexSize : ℕ) : Option CString :=
  if data.length = 0 ∨ hexSize ≤ data.length * 2 then none
    else some ⟨hexChars data, hexChars_ne_zero data⟩

theorem bytesToHex_chars {data : List UInt8} {hexSize : ℕ} {hex : CString}
    (h : bytesToHex data hexSize = some hex) : hex = ⟨hexChars data, hexChars_ne_zero data⟩ := by
  unfold bytesToHex at h
  split at h
  · cases h
  · exact (Option.some.inj h).symm

theorem digit_ne_zero {c : Char} (h : c.isDigit = true) : UInt8.ofNat c.toNat ≠ 0 := by
  intro he
  have htoNat := congrArg UInt8.toNat he
  simp only [Char.isDigit, Bool.and_eq_true, decide_eq_true_eq] at h
  have hlow : 48 ≤ c.toNat := UInt32.le_iff_toNat_le.mp h.1
  have hhigh : c.toNat ≤ 57 := UInt32.le_iff_toNat_le.mp h.2
  simp only [UInt8.toNat_ofNat', UInt8.toNat_zero] at htoNat
  omega

/-- `%d` of a number that is not negative. -/
def decimal (n : ℕ) : CString where
  chars := (Nat.toDigits 10 n).map fun c => UInt8.ofNat c.toNat
  noNul := by
    intro c hc
    obtain ⟨digit,hdigit,rfl⟩ := List.mem_map.mp hc
    exact digit_ne_zero (Nat.isDigit_of_mem_toDigits (by decide) (by decide) hdigit)

theorem decimal_ne_nil (n : ℕ) : (decimal n).chars ≠ [] := by
  intro h
  exact Nat.toDigits_ne_nil (List.map_eq_nil_iff.mp h)

def isSpace (ch : UInt8) : Bool := ch == 32 || (9 ≤ ch && ch ≤ 13)

def isDigit (ch : UInt8) : Bool := 48 ≤ ch && ch ≤ 57

/-- `strtoul` to the base ten: the value and what is left of the text, all of it where
there is no number. -/
def strtoul (text : List UInt8) : ℕ × List UInt8 :=
  let body := text.dropWhile isSpace
  let negative := body.head? = some 45
  let body := if negative ∨ body.head? = some 43 then body.tail else body
  let digits := body.takeWhile isDigit
  if digits = [] then (0, text)
  else
    let value := digits.foldl (fun n ch => n * 10 + (ch - 48).toNat) 0
    (if value > 4294967295 then 4294967295 else if negative then (4294967296 - value) % 4294967296
      else value, body.drop digits.length)

def snfSha256DigestSize : ℕ := 32
def nvdmFactorySerialNumberLen : ℕ := 14
def nvdmFactoryBaseMacLen : ℕ := 6
def nvdmFactoryBaseMacStrLen : ℕ := 17
def nvdmFactoryApikeyLen : ℕ := 36

def serialNumberIsValid (serialNumber : CString) : Bool :=
  serialNumber.length = nvdmFactorySerialNumberLen &&
    serialNumber.chars.all (fun ch => 48 ≤ ch && ch ≤ 57)

def baseMacByte (str : CString) (i : ℕ) : Option UInt8 := do
  let high ← hexNibble (byteAt str.chars (i * 3))
  let low ← hexNibble (byteAt str.chars (i * 3 + 1))
  if i < nvdmFactoryBaseMacLen - 1 ∧ byteAt str.chars (i * 3 + 2) ≠ 58 then none
    else some ((high <<< 4) + low)

/-- The address, unless it is zero or a group address. -/
def baseMacParse (str : CString) : Option (List UInt8) :=
  if str.length ≠ nvdmFactoryBaseMacStrLen then none
  else do
    let mac ← (List.range nvdmFactoryBaseMacLen).mapM (baseMacByte str)
    if mac.all (· == 0) || byteAt mac 0 &&& 1 ≠ 0 then none else some mac

def factoryApikeyIsValid (apikey : CString) : Bool :=
  apikey.length = nvdmFactoryApikeyLen && (List.range nvdmFactoryApikeyLen).all fun i =>
    if i = 8 ∨ i = 13 ∨ i = 18 ∨ i = 23 then byteAt apikey.chars i = 45
      else (hexNibble (byteAt apikey.chars i)).isSome

theorem baseMacParse_length {str : CString} {mac : List UInt8} (h : baseMacParse str = some mac) :
    str.length = nvdmFactoryBaseMacStrLen := by
  unfold baseMacParse at h
  split at h
  · cases h
  · exact not_not.mp ‹_›

theorem factoryApikeyIsValid_length {apikey : CString} (h : factoryApikeyIsValid apikey = true) :
    apikey.length = nvdmFactoryApikeyLen := by
  unfold factoryApikeyIsValid at h
  simp only [Bool.and_eq_true, decide_eq_true_eq] at h
  exact h.1

end Sonoff.Nvdm
