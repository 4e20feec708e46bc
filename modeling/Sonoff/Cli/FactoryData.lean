import Sonoff.Nvdm.MatterItems
import Sonoff.Nvdm.SecureCert

/-! # Matter factory data over the AT commands

`AT+MT_FACTORY_DATA_WRITE` takes ten fields and their check value,
`AT+MT_FACTORY_DATA_READ` prints nine of them, each with a comma behind it.
-/
namespace Sonoff.Cli
open Bytes Fallible Nvdm

def atMtFactoryDataFieldNum : ℕ := 10
def atMtFactoryDataWriteArgc : ℕ := 12
def atMtFactoryDataSha256HexLen : ℕ := 64
def buffSize512 : ℕ := 512

def comma : UInt8 := 44

structure MatterFactoryData where
  discriminator : CString
  iterationCount : CString
  salt : CString
  verifier : CString
  vendorId : CString
  vendorName : CString
  productId : CString
  productName : CString
  rdIdUid : CString
  passcode : CString
  deriving DecidableEq

def MatterFactoryData.fields (data : MatterFactoryData) : List CString :=
  [data.discriminator, data.iterationCount, data.salt, data.verifier, data.vendorId,
    data.vendorName, data.productId, data.productName, data.rdIdUid, data.passcode]

def atSha256HexDecode (hex : CString) : Option (List UInt8) :=
  if hex.length ≠ atMtFactoryDataSha256HexLen then none else hexPairs hex.chars

variable (sha256 : List UInt8 → List UInt8) (base64Len : List UInt8 → Option ℕ)

/-- The check value is of the fields with a comma behind each. -/
def atFactoryDataSha256Verify (fields : List CString) (sha256Hex : CString) : NvdmM Unit := do
  let expected ← ofOption (atSha256HexDecode sha256Hex) ()
  sdkCall
  require (sha256 (fields.flatMap fun field => field.chars ++ [comma]) = expected) ()

def itemSet : List (CString → NvdmM Unit) :=
  [snfMatterDiscriminatorSet, snfMatterIterationCountSet, snfMatterSaltSet base64Len,
    snfMatterVerifierSet base64Len,
    snfMatterVendorIdSet, snfMatterVendorNameSet, snfMatterProductIdSet, snfMatterProductNameSet,
      snfMatterRdIdUidSet,
    snfMatterPasscodeSet]

/-- A field after the other; the first that fails ends the command. -/
def setFields : List (CString → NvdmM Unit) → List CString → NvdmM Unit
  | set :: sets, field :: fields => do
    set field
    setFields sets fields
  | _, _ => return

/-- Success prints `OK`, failure `ERROR`. -/
def atMtFactoryDataWriteCommand (argv : List CString) : NvdmM Unit := do
  require (argv.length = atMtFactoryDataWriteArgc) ()
  let fields := (argv.drop 1).take atMtFactoryDataFieldNum
  atFactoryDataSha256Verify sha256 fields (argv.getD 11 .empty)
  setFields (itemSet base64Len) fields

def atFactoryDataReadBuild (factoryDataSize : ℕ) : NvdmM (List UInt8) := do
  require (factoryDataSize ≠ 0) ()
  let discriminator ← snfMatterDiscriminatorGet
  let iterationCount ← snfMatterIterationCountGet
  let salt ← snfMatterSaltGet base64Len (nvdmMatterSaltStrMaxLen + 1)
  let verifier ← snfMatterVerifierGet base64Len (nvdmMatterVerifierStrMaxLen + 1)
  let vendorId ← snfMatterVendorIdGet
  let vendorName ← snfMatterVendorNameGet (nvdmMatterNameMaxLen + 1)
  let productId ← snfMatterProductIdGet
  let productName ← snfMatterProductNameGet (nvdmMatterNameMaxLen + 1)
  let rdIdUid ← snfMatterRdIdUidGet (nvdmMatterRdIdUidHexLen + 1)
  let factoryData :=
    [(decimal discriminator).chars, (decimal iterationCount).chars, salt.chars, verifier.chars,
    hexUpper4 vendorId, vendorName.chars, hexUpper4 productId, productName.chars,
      rdIdUid.chars].flatMap (· ++ [comma])
  require (factoryData.length < factoryDataSize) ()
  return factoryData

variable {sha256 : List UInt8 → List UInt8} {base64Len : List UInt8 → Option ℕ}
  {data : MatterFactoryData} {items : NvdmItem → Option (List UInt8)} {s t : NvdmState} {u : Unit}

structure MatterFactoryData.Accepted (base64Len : List UInt8 → Option ℕ)
    (data : MatterFactoryData) : Prop where
  discriminator : discriminatorIsValid data.discriminator = true
  iterationCount : (parseDecU32 data.iterationCount).isSome = true
  salt : base64IsValid base64Len data.salt nvdmMatterSaltStrMaxLen = true
  verifier : base64IsValid base64Len data.verifier nvdmMatterVerifierStrMaxLen = true
  vendorId : hexStringIsValid data.vendorId 1 nvdmMatterHexIdMaxLen = true
  vendorName : nameIsValid data.vendorName = true
  productId : hexStringIsValid data.productId 1 nvdmMatterHexIdMaxLen = true
  productName : nameIsValid data.productName = true
  rdIdUid : hexStringIsValid data.rdIdUid nvdmMatterRdIdUidHexLen nvdmMatterRdIdUidHexLen = true
  passcode : (parseDecU32 data.passcode).isSome = true

structure MatterFactoryData.StoredIn (data : MatterFactoryData)
    (items : NvdmItem → Option (List UInt8)) : Prop where
  discriminator : items .discriminator = some data.discriminator.bytes
  iterationCount : items .iterationCount = some data.iterationCount.bytes
  salt : items .salt = some data.salt.bytes
  verifier : items .verifier = some data.verifier.bytes
  vendorId : items .vendorId = some data.vendorId.bytes
  vendorName : items .vendorName = some data.vendorName.bytes
  productId : items .productId = some data.productId.bytes
  productName : items .productName = some data.productName.bytes
  rdIdUid : items .rdIdUid = some data.rdIdUid.bytes
  passcode : items .passcode = some data.passcode.bytes

def factoryDataItems : List NvdmItem :=
  [.discriminator, .iterationCount, .salt, .verifier, .vendorId, .vendorName, .productId,
    .productName, .rdIdUid, .passcode]

/-- The decimal fields have their documented lengths. -/
structure MatterFactoryData.Bounded (data : MatterFactoryData) : Prop where
  discriminator : data.discriminator.length ≤ nvdmMatterDiscriminatorStrMaxLen
  iterationCount : data.iterationCount.length ≤ nvdmMatterDecU32StrMaxLen
  passcode : data.passcode.length ≤ nvdmMatterDecU32StrMaxLen

theorem setFields_cons {set : CString → NvdmM Unit} {sets : List (CString → NvdmM Unit)}
    {field : CString} {fields : List CString} :
    setFields (set :: sets) (field :: fields) s = .ok u t ↔
      ∃ v, set field s = .ok () v ∧ setFields sets fields v = .ok u t := by
  rw [setFields, bind_eq_ok]
  exact ⟨fun ⟨_,v,h⟩ => ⟨v, h⟩, fun ⟨v,h⟩ => ⟨(), v, h⟩⟩

/-- A command that succeeds has stored accepted fields in their items and touched no other item. -/
theorem atMtFactoryDataWriteCommand_stored {name sha256Hex : CString}
    (h : atMtFactoryDataWriteCommand sha256 base64Len (name :: data.fields ++ [sha256Hex])
      ⟨items, .reliable⟩ = .ok u t) :
    data.Accepted base64Len ∧ data.StoredIn t.items ∧ t.outcomes = .reliable ∧
      ∀ item ∉ factoryDataItems, t.items item = items item := by
  have hfields : ((name :: data.fields ++ [sha256Hex]).drop 1).take atMtFactoryDataFieldNum =
    data.fields := rfl
  unfold atMtFactoryDataWriteCommand at h
  simp only [bind_eq_ok, require_eq_ok] at h
  obtain ⟨_,_,⟨-,rfl⟩,_,v,hverify,hset⟩ := h
  have hv : v = ⟨items, .reliable⟩ := by
    unfold atFactoryDataSha256Verify at hverify
    simp only [bind_eq_ok, ofOption_eq_ok, require_eq_ok] at hverify
    obtain ⟨_,_,⟨-,rfl⟩,_,_,hsdk,-,rfl⟩ := hverify
    cases hsdk
    rfl
  rw [hfields, hv] at hset
  simp only [itemSet, MatterFactoryData.fields, setFields_cons, snfMatterDiscriminatorSet,
    snfMatterIterationCountSet, snfMatterSaltSet, snfMatterVerifierSet, snfMatterVendorIdSet,
    snfMatterVendorNameSet, snfMatterProductIdSet,
    snfMatterProductNameSet, snfMatterRdIdUidSet, snfMatterPasscodeSet] at hset
  obtain ⟨_,h₁,_,h₂,_,h₃,_,h₄,_,h₅,_,h₆,_,h₇,_,h₈,_,h₉,_,h₁₀,hend⟩ := hset
  obtain ⟨c₁,rfl⟩ := matterTextSet_reliable.mp h₁
  obtain ⟨c₂,rfl⟩ := matterTextSet_reliable.mp h₂
  obtain ⟨c₃,rfl⟩ := matterTextSet_reliable.mp h₃
  obtain ⟨c₄,rfl⟩ := matterTextSet_reliable.mp h₄
  obtain ⟨c₅,rfl⟩ := matterTextSet_reliable.mp h₅
  obtain ⟨c₆,rfl⟩ := matterTextSet_reliable.mp h₆
  obtain ⟨c₇,rfl⟩ := matterTextSet_reliable.mp h₇
  obtain ⟨c₈,rfl⟩ := matterTextSet_reliable.mp h₈
  obtain ⟨c₉,rfl⟩ := matterTextSet_reliable.mp h₉
  obtain ⟨c₁₀,rfl⟩ := matterTextSet_reliable.mp h₁₀
  obtain ⟨-,rfl⟩ := pure_eq_ok.mp hend
  refine ⟨⟨c₁, c₂, c₃, c₄, c₅, c₆, c₇, c₈, c₉, c₁₀⟩, ?_, rfl, ?_⟩
  · constructor <;> simp
  · intro item hitem
    simp only [factoryDataItems, List.mem_cons, List.not_mem_nil, or_false, not_or] at hitem
    obtain ⟨h₁,h₂,h₃,h₄,h₅,h₆,h₇,h₈,h₉,h₁₀⟩ := hitem
    simp only [Function.update_of_ne h₁, Function.update_of_ne h₂, Function.update_of_ne h₃,
      Function.update_of_ne h₄, Function.update_of_ne h₅, Function.update_of_ne h₆,
      Function.update_of_ne h₇, Function.update_of_ne h₈,
      Function.update_of_ne h₉, Function.update_of_ne h₁₀]

/-- Fields that pass their checks are accepted under their own check value. -/
theorem MatterFactoryData.Accepted.write (h : data.Accepted base64Len) {name sha256Hex : CString}
    (hsha : atSha256HexDecode sha256Hex =
      some (sha256 (data.fields.flatMap fun field => field.chars ++ [comma]))) :
    ∃ t, atMtFactoryDataWriteCommand sha256 base64Len (name :: data.fields ++ [sha256Hex])
      ⟨items, .reliable⟩ = .ok () t := by
  have hverify : atFactoryDataSha256Verify sha256 data.fields sha256Hex ⟨items, .reliable⟩ =
      .ok () ⟨items, .reliable⟩ :=
    bind_eq_ok.mpr ⟨_, _, ofOption_eq_ok.mpr ⟨hsha, rfl⟩, bind_eq_ok.mpr ⟨(), _, rfl,
      require_eq_ok.mpr ⟨decide_eq_true rfl, rfl⟩⟩⟩
  have hset : ∃ t, setFields (itemSet base64Len) data.fields ⟨items, .reliable⟩ = .ok () t := by
    simp only [itemSet, MatterFactoryData.fields, setFields_cons, snfMatterDiscriminatorSet,
      snfMatterIterationCountSet, snfMatterSaltSet, snfMatterVerifierSet, snfMatterVendorIdSet,
        snfMatterVendorNameSet,
      snfMatterProductIdSet, snfMatterProductNameSet, snfMatterRdIdUidSet, snfMatterPasscodeSet]
    exact ⟨_, _, matterTextSet_reliable.mpr ⟨h.discriminator, rfl⟩, _,
      matterTextSet_reliable.mpr ⟨h.iterationCount, rfl⟩,
      _, matterTextSet_reliable.mpr ⟨h.salt, rfl⟩, _, matterTextSet_reliable.mpr ⟨h.verifier, rfl⟩,
        _,
      matterTextSet_reliable.mpr ⟨h.vendorId, rfl⟩, _,
        matterTextSet_reliable.mpr ⟨h.vendorName, rfl⟩, _,
      matterTextSet_reliable.mpr ⟨h.productId, rfl⟩, _,
        matterTextSet_reliable.mpr ⟨h.productName, rfl⟩, _,
      matterTextSet_reliable.mpr ⟨h.rdIdUid, rfl⟩, _, matterTextSet_reliable.mpr ⟨h.passcode, rfl⟩,
        rfl⟩
  obtain ⟨t,ht⟩ := hset
  exact ⟨t, bind_eq_ok.mpr ⟨(), _, require_eq_ok.mpr ⟨decide_eq_true rfl, rfl⟩,
    bind_eq_ok.mpr ⟨(), _, hverify, ht⟩⟩⟩

end Sonoff.Cli
