import Sonoff.Nvdm.Numerals
import Sonoff.Nvdm.License

/-! # The Matter items

Ten texts with a check each. A text is stored as it was given and checked again
when it is read; four of them are read as numbers.
-/
namespace Sonoff.Nvdm
open Fallible

def nvdmMatterDiscriminatorMax : ℕ := 4095
def nvdmMatterDiscriminatorStrMaxLen : ℕ := 4
def nvdmMatterDecU32StrMaxLen : ℕ := 10
def nvdmMatterRdIdUidHexLen : ℕ := 32
def nvdmMatterSaltStrMaxLen : ℕ := 44
def nvdmMatterVerifierStrMaxLen : ℕ := 132

def nameIsValid (name : CString) : Bool :=
  name.chars ≠ [] && name.length ≤ nvdmMatterNameMaxLen
    && name.chars.all fun ch => 32 ≤ ch && ch ≤ 126 && ch ≠ 44

/-- `base64Len` is what `snfBase64Decode` makes of a text when it has no buffer: the length
of the data, or nothing for a text it refuses. -/
def base64IsValid (base64Len : List UInt8 → Option ℕ) (str : CString) (maxLen : ℕ) : Bool :=
  str.chars ≠ [] && str.length ≤ maxLen && (base64Len str.chars).any (· ≠ 0)

def discriminatorIsValid (value : CString) :
    Bool := (parseDecU32 value).any (· ≤ nvdmMatterDiscriminatorMax)

def matterTextSet (item : NvdmItem) (isValid : CString → Bool) (value : CString) : NvdmM Unit := do
  require (isValid value) ()
  matterItemSet item value

def matterTextGet (item : NvdmItem) (maxLen : ℕ) (isValid : CString → Bool) (buffSize : ℕ) :
    NvdmM CString := do
  let value ← matterItemGet item buffSize maxLen
  require (isValid value) ()
  return value

def matterItemGetDec (item : NvdmItem) (maxLen : ℕ) : NvdmM ℕ := do
  let buff ← matterItemGet item (nvdmMatterDecU32StrMaxLen + 1) maxLen
  ofOption (parseDecU32 buff) ()

def matterItemGetHexU16 (item : NvdmItem) : NvdmM ℕ := do
  let buff ← matterItemGet item (nvdmMatterHexIdMaxLen + 1) nvdmMatterHexIdMaxLen
  ofOption (parseHexU16 buff) ()

def snfMatterDiscriminatorGet : NvdmM ℕ := do
  let value ← matterItemGetDec .discriminator nvdmMatterDiscriminatorStrMaxLen
  require (value ≤ nvdmMatterDiscriminatorMax) ()
  return value

def snfMatterDiscriminatorSet :
    CString → NvdmM Unit := matterTextSet .discriminator discriminatorIsValid

def snfMatterIterationCountGet :
    NvdmM ℕ := matterItemGetDec .iterationCount nvdmMatterDecU32StrMaxLen

def snfMatterIterationCountSet : CString → NvdmM Unit :=
  matterTextSet .iterationCount fun value => (parseDecU32 value).isSome

def snfMatterPasscodeGet : NvdmM ℕ := matterItemGetDec .passcode nvdmMatterDecU32StrMaxLen

def snfMatterPasscodeSet : CString → NvdmM Unit := matterTextSet .passcode fun value =>
    (parseDecU32 value).isSome

def snfMatterVendorIdGet : NvdmM ℕ := matterItemGetHexU16 .vendorId

def snfMatterVendorIdSet : CString → NvdmM Unit :=
  matterTextSet .vendorId fun value => hexStringIsValid value 1 nvdmMatterHexIdMaxLen

def snfMatterProductIdGet : NvdmM ℕ := matterItemGetHexU16 .productId

def snfMatterProductIdSet : CString → NvdmM Unit :=
  matterTextSet .productId fun value => hexStringIsValid value 1 nvdmMatterHexIdMaxLen

def snfMatterVendorNameGet :
    ℕ → NvdmM CString := matterTextGet .vendorName nvdmMatterNameMaxLen nameIsValid

def snfMatterVendorNameSet : CString → NvdmM Unit := matterTextSet .vendorName nameIsValid

def snfMatterProductNameGet :
    ℕ → NvdmM CString := matterTextGet .productName nvdmMatterNameMaxLen nameIsValid

def snfMatterProductNameSet : CString → NvdmM Unit := matterTextSet .productName nameIsValid

def snfMatterRdIdUidGet :
    ℕ → NvdmM CString := matterTextGet .rdIdUid nvdmMatterRdIdUidHexLen fun value =>
  hexStringIsValid value nvdmMatterRdIdUidHexLen nvdmMatterRdIdUidHexLen

def snfMatterRdIdUidSet : CString → NvdmM Unit := matterTextSet .rdIdUid fun value =>
  hexStringIsValid value nvdmMatterRdIdUidHexLen nvdmMatterRdIdUidHexLen

section Base64
variable (base64Len : List UInt8 → Option ℕ)

def snfMatterSaltGet : ℕ → NvdmM CString := matterTextGet .salt nvdmMatterSaltStrMaxLen fun value =>
  base64IsValid base64Len value nvdmMatterSaltStrMaxLen

def snfMatterSaltSet : CString → NvdmM Unit := matterTextSet .salt fun value =>
  base64IsValid base64Len value nvdmMatterSaltStrMaxLen

def snfMatterVerifierGet :
    ℕ → NvdmM CString := matterTextGet .verifier nvdmMatterVerifierStrMaxLen fun value =>
  base64IsValid base64Len value nvdmMatterVerifierStrMaxLen

def snfMatterVerifierSet : CString → NvdmM Unit := matterTextSet .verifier fun value =>
  base64IsValid base64Len value nvdmMatterVerifierStrMaxLen

end Base64

variable {items : NvdmItem → Option (List UInt8)} {item : NvdmItem} {value : CString}
  {isValid : CString → Bool} {maxLen buffSize : ℕ} {s t : NvdmState} {u : Unit}

/-- Over a reliable NVDM a setter does nothing but store a text that passes its check. -/
theorem matterTextSet_reliable : matterTextSet item isValid value ⟨items, .reliable⟩ = .ok u t ↔
    isValid value = true ∧ t = ⟨Function.update items item (some value.bytes), .reliable⟩ := by
  unfold matterTextSet
  simp only [bind_eq_ok, require_eq_ok]
  constructor
  · rintro ⟨_,_,⟨hvalid,rfl⟩,h⟩
    rw [matterItemSet_reliable] at h
    cases h
    exact ⟨hvalid, rfl⟩
  · rintro ⟨hvalid,rfl⟩
    exact ⟨(), _, ⟨hvalid, rfl⟩, matterItemSet_reliable items item value⟩

theorem matterTextGet_reliable (h : items item = some value.bytes) (hvalid : isValid value = true)
    (hlen : value.length ≤ maxLen) (hsize : maxLen < buffSize) :
    matterTextGet item maxLen isValid buffSize ⟨items, .reliable⟩ =
      .ok value ⟨items, .reliable⟩ := by
  have hget := matterItemGet_reliable h hsize
  rw [CString.take_of_length_le (hlen.trans (Nat.le_sub_one_of_lt hsize))] at hget
  exact bind_eq_ok.mpr ⟨value, _, hget,
    bind_eq_ok.mpr ⟨(), _, require_eq_ok.mpr ⟨hvalid, rfl⟩, rfl⟩⟩

/-- A number is read from the first ten characters. -/
theorem matterItemGetDec_reliable (h : items item = some value.bytes)
    (hmax : maxLen ≤ nvdmMatterDecU32StrMaxLen)
    {n : ℕ} (hparse : parseDecU32 (value.take nvdmMatterDecU32StrMaxLen) = some n) :
    matterItemGetDec item maxLen ⟨items, .reliable⟩ = .ok n ⟨items, .reliable⟩ :=
  bind_eq_ok.mpr ⟨_, _, matterItemGet_reliable h (Nat.lt_succ_of_le hmax),
    ofOption_eq_ok.mpr ⟨hparse, rfl⟩⟩

theorem matterItemGetHexU16_reliable (h : items item = some value.bytes)
    (hvalid : hexStringIsValid value 1 nvdmMatterHexIdMaxLen = true) :
    matterItemGetHexU16 item ⟨items, .reliable⟩ =
      .ok (hexValue value.chars) ⟨items, .reliable⟩ := by
  have hlen : value.length ≤ nvdmMatterHexIdMaxLen := by
    simp only [hexStringIsValid, Bool.and_eq_true, decide_eq_true_eq] at hvalid
    exact hvalid.1.1.2
  have hget := matterItemGet_reliable h (Nat.lt_succ_self nvdmMatterHexIdMaxLen)
  rw [CString.take_of_length_le (by simpa using hlen)] at hget
  exact bind_eq_ok.mpr ⟨value, _, hget, ofOption_eq_ok.mpr ⟨(parseHexU16_valid hvalid).1, rfl⟩⟩

/-- The front of a decimal text that is accepted. -/
theorem parseDecU32_take {n : ℕ} (h : parseDecU32 value = some n) :
    parseDecU32 (value.take nvdmMatterDecU32StrMaxLen) =
      some (decimalValue (value.take nvdmMatterDecU32StrMaxLen).chars) := by
  obtain ⟨hne,hdigits,rfl,hmax⟩ := parseDecU32_eq_some.mp h
  have hfront := numeralValue_front_le (by decide : 0 < 10) (fun ch => (ch - 48).toNat)
    (value.chars.take nvdmMatterDecU32StrMaxLen) (value.chars.drop nvdmMatterDecU32StrMaxLen)
  rw [List.take_append_drop] at hfront
  refine parseDecU32_eq_some.mpr ⟨?_, fun ch hch => hdigits ch (List.mem_of_mem_take hch), rfl,
    hfront.trans hmax⟩
  rw [CString.take, ne_eq, List.take_eq_nil_iff]
  exact fun h => h.elim (by decide) hne

/-- The front denotes what the whole does where nothing is cut off, or the whole is zero. -/
theorem decimalValue_take_iff :
    decimalValue (value.take nvdmMatterDecU32StrMaxLen).chars = decimalValue value.chars ↔
    value.length ≤ nvdmMatterDecU32StrMaxLen ∨ decimalValue value.chars = 0 := by
  by_cases hlen : value.length ≤ nvdmMatterDecU32StrMaxLen
  · rw [CString.take_of_length_le hlen]
    exact iff_of_true rfl (Or.inl hlen)
  · have hrest : value.chars.drop nvdmMatterDecU32StrMaxLen ≠ [] := fun h =>
      hlen (List.drop_eq_nil_iff.mp h)
    have hfront := numeralValue_front_iff (by decide : 1 < 10) (fun ch => (ch - 48).toNat)
      (value.chars.take nvdmMatterDecU32StrMaxLen) hrest
    rw [List.take_append_drop] at hfront
    rw [or_iff_right hlen]
    exact hfront

end Sonoff.Nvdm
