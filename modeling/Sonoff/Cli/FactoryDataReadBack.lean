import Sonoff.Cli.FactoryData
import Sonoff.Nvdm.DecimalItems
import Sonoff.Utils.Base64
import Sonoff.Utils.Sha256

/-! # Factory data read back as they were written

No field holds the separator, every stored text fits the buffer of its getter, and the
whole fits the reply.
-/
namespace Sonoff.Cli
open Bytes Fallible Nvdm

variable {base64Len : List UInt8 → Option ℕ} {data : MatterFactoryData}
  {items : NvdmItem → Option (List UInt8)} {str : CString} {n : ℕ}

/-- Fields with a separator behind each split into the fields and an empty rest. -/
theorem splitOn_flatMap {parts : List (List UInt8)} (h : ∀ part ∈ parts, comma ∉ part) :
    (parts.flatMap (· ++ [comma])).splitOn comma = parts ++ [[]] := by
  induction parts with
  | nil => rfl
  | cons part parts ih =>
    rw [List.flatMap_cons, List.append_assoc, List.singleton_append,
      List.splitOn_append_cons_self_of_not_mem (h part List.mem_cons_self),
      ih fun p hp => h p (List.mem_cons_of_mem _ hp), List.cons_append]

theorem flatMap_length (parts : List (List UInt8)) :
    (parts.flatMap (· ++ [comma])).length = (parts.map List.length).sum + parts.length := by
  induction parts with
  | nil => rfl
  | cons part parts ih =>
    simp only [List.flatMap_cons, List.length_append, ih, List.map_cons, List.sum_cons,
      List.length_cons, List.length_nil]
    omega

theorem comma_not_mem_decimal (n : ℕ) : comma ∉ (decimal n).chars := by
  intro h
  obtain ⟨c,hc,he⟩ := List.mem_map.mp h
  have hdigit := Nat.isDigit_of_mem_toDigits (by decide) (by decide) hc
  simp only [Char.isDigit, Bool.and_eq_true, decide_eq_true_eq] at hdigit
  have hlow : 48 ≤ c.toNat := UInt32.le_iff_toNat_le.mp hdigit.1
  have hhigh : c.toNat ≤ 57 := UInt32.le_iff_toNat_le.mp hdigit.2
  have htoNat := congrArg UInt8.toNat he
  rw [UInt8.toNat_ofNat'] at htoNat
  have : comma.toNat = 44 := rfl
  omega

theorem comma_not_mem_hexUpper4 (n : ℕ) : comma ∉ hexUpper4 n := by
  have hall : ∀ i : Fin 16, hexUpperDigit i ≠ comma := by decide
  have hdigit : ∀ m, comma ≠ hexUpperDigit (m % 16) := fun m h =>
    hall ⟨m % 16, Nat.mod_lt _ (by decide)⟩ h.symm
  simp [hexUpper4, hdigit]

theorem comma_not_mem_hex {minLen maxLen : ℕ} (h : hexStringIsValid str minLen maxLen = true) :
    comma ∉ str.chars := by
  simp only [hexStringIsValid, Bool.and_eq_true, decide_eq_true_eq, List.all_eq_true] at h
  exact fun hmem => absurd (h.1.2 _ hmem) (by decide)

theorem comma_not_mem_name (h : nameIsValid str = true) : comma ∉ str.chars := by
  simp only [nameIsValid, Bool.and_eq_true, List.all_eq_true] at h
  exact fun hmem => absurd (h.2 _ hmem) (by decide)

theorem comma_not_mem_base64 (hcomma : ∀ text, comma ∈ text → base64Len text = none) {maxLen : ℕ}
    (h : base64IsValid base64Len str maxLen = true) : comma ∉ str.chars := by
  intro hmem
  simp only [base64IsValid, Bool.and_eq_true, hcomma _ hmem] at h
  exact absurd h.2 (by decide)

theorem name_length (h : nameIsValid str = true) : str.length ≤ nvdmMatterNameMaxLen := by
  simp only [nameIsValid, Bool.and_eq_true, decide_eq_true_eq] at h
  exact h.1.2

theorem base64_length {maxLen : ℕ} (h : base64IsValid base64Len str maxLen = true) :
    str.length ≤ maxLen := by
  simp only [base64IsValid, Bool.and_eq_true, decide_eq_true_eq] at h
  exact h.1.2

theorem hex_length {minLen maxLen : ℕ} (h : hexStringIsValid str minLen maxLen = true) :
    str.length ≤ maxLen := by
  simp only [hexStringIsValid, Bool.and_eq_true, decide_eq_true_eq] at h
  exact h.1.1.2

theorem decimal_length {k : ℕ} (hk : 0 < k) (h : n < 10 ^ k) : (decimal n).chars.length ≤ k := by
  rw [decimal, List.length_map]
  exact (Nat.length_toDigits_le_iff (by decide) hk).mpr h

def MatterFactoryData.printed (data : MatterFactoryData) : List (List UInt8) :=
  [(decimal (decimalValue data.discriminator.chars)).chars,
    (decimal (decimalValue data.iterationCount.chars)).chars,
    data.salt.chars, data.verifier.chars, hexUpper4 (hexValue data.vendorId.chars),
      data.vendorName.chars,
    hexUpper4 (hexValue data.productId.chars), data.productName.chars, data.rdIdUid.chars]

theorem MatterFactoryData.Accepted.comma_not_mem (h : data.Accepted base64Len)
    (hcomma : ∀ text, comma ∈ text → base64Len text = none) :
    ∀ part ∈ data.printed, comma ∉ part := by
  intro part hpart
  simp only [MatterFactoryData.printed, List.mem_cons, List.not_mem_nil, or_false] at hpart
  rcases hpart with rfl | rfl | rfl | rfl | rfl | rfl | rfl | rfl | rfl
  · exact comma_not_mem_decimal _
  · exact comma_not_mem_decimal _
  · exact comma_not_mem_base64 hcomma h.salt
  · exact comma_not_mem_base64 hcomma h.verifier
  · exact comma_not_mem_hexUpper4 _
  · exact comma_not_mem_name h.vendorName
  · exact comma_not_mem_hexUpper4 _
  · exact comma_not_mem_name h.productName
  · exact comma_not_mem_hex h.rdIdUid

theorem MatterFactoryData.Accepted.values (h : data.Accepted base64Len) :
    (∃ n, parseDecU32 data.discriminator = some n ∧ n ≤ nvdmMatterDiscriminatorMax) ∧
      (∃ n, parseDecU32 data.iterationCount = some n ∧ n ≤ 4294967295) ∧
      ∃ n, parseDecU32 data.passcode = some n ∧ n ≤ 4294967295 := by
  have hbound : ∀ {value : CString}, (parseDecU32 value).isSome = true →
      ∃ n, parseDecU32 value = some n ∧ n ≤ 4294967295 := by
    intro value hvalue
    obtain ⟨n,hn⟩ := Option.isSome_iff_exists.mp hvalue
    exact ⟨n, hn, (parseDecU32_eq_some.mp hn).2.2.2⟩
  refine ⟨?_, hbound h.iterationCount, hbound h.passcode⟩
  obtain ⟨n,hn,hmax⟩ := (Option.any_eq_true _ _).mp h.discriminator
  exact ⟨n, hn, of_decide_eq_true hmax⟩

/-- The reply fits its buffer with room to spare. -/
theorem MatterFactoryData.Accepted.printed_length (h : data.Accepted base64Len) :
    (data.printed.flatMap (· ++ [comma])).length < buffSize512 := by
  obtain ⟨⟨d,hd,hdmax⟩,⟨c,hc,hcmax⟩,-⟩ := h.values
  obtain ⟨-,-,rfl,-⟩ := parseDecU32_eq_some.mp hd
  obtain ⟨-,-,rfl,-⟩ := parseDecU32_eq_some.mp hc
  have h₁ := decimal_length (k := 4) (by decide) (Nat.lt_of_le_of_lt hdmax (by decide))
  have h₂ := decimal_length (k := 10) (by decide) (Nat.lt_of_le_of_lt hcmax (by decide))
  have h₃ : data.salt.chars.length ≤ 44 := base64_length h.salt
  have h₄ : data.verifier.chars.length ≤ 132 := base64_length h.verifier
  have h₅ : data.vendorName.chars.length ≤ 32 := name_length h.vendorName
  have h₆ : data.productName.chars.length ≤ 32 := name_length h.productName
  have h₇ : data.rdIdUid.chars.length ≤ 32 := hex_length h.rdIdUid
  have h₈ : ∀ m, (hexUpper4 m).length = 4 := fun _ => rfl
  rw [flatMap_length]
  simp only [MatterFactoryData.printed, List.map_cons, List.map_nil, List.sum_cons, List.sum_nil,
    List.length_cons, List.length_nil, buffSize512, h₈]
  omega

/-- What is read where the accepted fields are stored. -/
theorem MatterFactoryData.Accepted.read (h : data.Accepted base64Len) (hbound : data.Bounded)
    (hstored : data.StoredIn items) :
    atFactoryDataReadBuild base64Len buffSize512 ⟨items, .reliable⟩ =
        .ok (data.printed.flatMap (· ++ [comma])) ⟨items, .reliable⟩ ∧
      snfMatterPasscodeGet ⟨items, .reliable⟩ = .ok (decimalValue data.passcode.chars)
        ⟨items, .reliable⟩ := by
  obtain ⟨⟨d,hd,hdmax⟩,⟨c,hc,hcmax⟩,⟨p,hp,hpmax⟩⟩ := h.values
  have hdec : DecimalItem.discriminator.get ⟨items, .reliable⟩ = _ :=
    DecimalItem.get_reliable hstored.discriminator hd hdmax
  have hcount : DecimalItem.iterationCount.get ⟨items, .reliable⟩ = _ :=
    DecimalItem.get_reliable hstored.iterationCount hc hcmax
  have hpass : DecimalItem.passcode.get ⟨items, .reliable⟩ = _ :=
    DecimalItem.get_reliable hstored.passcode hp hpmax
  rw [CString.take_of_length_le (hbound.discriminator.trans (by decide))] at hdec
  rw [CString.take_of_length_le hbound.iterationCount] at hcount
  rw [CString.take_of_length_le hbound.passcode] at hpass
  refine ⟨?_, hpass⟩
  unfold atFactoryDataReadBuild
  simp only [bind_eq_ok, require_eq_ok, pure_eq_ok]
  exact ⟨(), _, ⟨by decide, rfl⟩, _, _, hdec, _, _, hcount, _, _,
    matterTextGet_reliable hstored.salt h.salt (base64_length h.salt) (Nat.lt_succ_self _), _, _,
    matterTextGet_reliable hstored.verifier h.verifier (base64_length h.verifier)
      (Nat.lt_succ_self _), _, _,
    matterItemGetHexU16_reliable hstored.vendorId h.vendorId, _, _,
    matterTextGet_reliable hstored.vendorName h.vendorName (name_length h.vendorName)
      (Nat.lt_succ_self _), _, _,
    matterItemGetHexU16_reliable hstored.productId h.productId, _, _,
    matterTextGet_reliable hstored.productName h.productName (name_length h.productName)
      (Nat.lt_succ_self _), _, _,
    matterTextGet_reliable hstored.rdIdUid h.rdIdUid (hex_length h.rdIdUid) (Nat.lt_succ_self _),
      (), _,
    ⟨decide_eq_true h.printed_length, rfl⟩, rfl, rfl⟩

/-- What the two commands and the passcode's getter say of the fields, and what is left alone. -/
structure FactoryDataReadsBack (base64Len : List UInt8 → Option ℕ) (data : MatterFactoryData)
    (before : NvdmItem → Option (List UInt8)) (t : NvdmState) : Prop where
  reply : ∃ text discriminator iterationCount vendorId productId,
    atFactoryDataReadBuild base64Len buffSize512 t = .ok text t ∧
    text.splitOn comma = [discriminator, iterationCount, data.salt.chars, data.verifier.chars,
      vendorId, data.vendorName.chars, productId, data.productName.chars, data.rdIdUid.chars, []] ∧
    decimalValue discriminator = decimalValue data.discriminator.chars ∧
    decimalValue iterationCount = decimalValue data.iterationCount.chars ∧
    hexValue vendorId = hexValue data.vendorId.chars ∧
      hexValue productId = hexValue data.productId.chars
  passcode : snfMatterPasscodeGet t = .ok (decimalValue data.passcode.chars) t
  frame : ∀ item ∉ factoryDataItems, t.items item = before item

/-- Whatever was stored before, ten fields that the write command accepts are read back. The base64
decoder refuses the separator. -/
theorem factory_data_reads_back (sha256 : List UInt8 → List UInt8)
    (base64Len : List UInt8 → Option ℕ)
    (hcomma : ∀ text, comma ∈ text → base64Len text = none) (items : NvdmItem → Option (List UInt8))
    (data : MatterFactoryData) (name sha256Hex : CString) (t : NvdmState) (hbound : data.Bounded)
    (h : atMtFactoryDataWriteCommand sha256 base64Len (name :: data.fields ++ [sha256Hex])
      ⟨items, .reliable⟩ = .ok () t) : FactoryDataReadsBack base64Len data items t := by
  obtain ⟨haccepted,hstored,hreliable,hframe⟩ := atMtFactoryDataWriteCommand_stored h
  obtain ⟨stored,outcomes⟩ := t
  obtain rfl : outcomes = .reliable := hreliable
  obtain ⟨hread,hpass⟩ := haccepted.read hbound hstored
  refine ⟨⟨_, _, _, _, _, hread, splitOn_flatMap (haccepted.comma_not_mem hcomma),
    decimalValue_decimal _, decimalValue_decimal _, ?_, ?_⟩, hpass, hframe⟩
  · exact hexValue_hexUpper4 (parseHexU16_valid haccepted.vendorId).2
  · exact hexValue_hexUpper4 (parseHexU16_valid haccepted.productId).2

def softBase64Len (text : List UInt8) : Option ℕ := (Utils.Base64.decode text).map List.length

theorem softBase64Len_comma (text : List UInt8) (h : comma ∈ text) : softBase64Len text = none := by
  unfold softBase64Len
  cases hd : Utils.Base64.decode text with
  | none => rfl
  | some out => exact absurd (Utils.Base64.decode_chars hd comma h) (by decide)

def plugData : MatterFactoryData where
  discriminator := decimal 3840
  iterationCount := decimal 1000
  salt := ⟨Utils.Base64.encode [1, 2, 3], Utils.Base64.encode_ne_zero _⟩
  verifier := ⟨Utils.Base64.encode [4, 5, 6, 7], Utils.Base64.encode_ne_zero _⟩
  vendorId := ⟨[52, 55, 52, 50], by decide +kernel⟩
  vendorName := ⟨[83, 111, 110, 111, 102, 102], by decide +kernel⟩
  productId := ⟨[49], by decide +kernel⟩
  productName := ⟨[80, 108, 117, 103], by decide +kernel⟩
  rdIdUid := ⟨hexChars (List.replicate 16 171), hexChars_ne_zero _⟩
  passcode := decimal 20202021

def plugSha256 : CString :=
  ⟨hexChars (Utils.Sha256.sha256 (plugData.fields.flatMap fun field => field.chars ++ [comma])),
    hexChars_ne_zero _⟩

theorem plugData_accepted : plugData.Accepted softBase64Len := by constructor <;> decide +kernel

theorem factory_data_reads_back_plug : ∃ t,
    atMtFactoryDataWriteCommand Utils.Sha256.sha256 softBase64Len
      (.empty :: plugData.fields ++ [plugSha256])
      ⟨fun _ => none, .reliable⟩ = .ok () t ∧
        FactoryDataReadsBack softBase64Len plugData (fun _ => none) t := by
  have hlen : plugSha256.length = atMtFactoryDataSha256HexLen := by
    rw [CString.length, plugSha256, hexChars_length, Utils.Sha256.sha256_length]
    rfl
  have hdecode : atSha256HexDecode plugSha256 =
      some (Utils.Sha256.sha256 (plugData.fields.flatMap fun field => field.chars ++ [comma])) := by
    rw [atSha256HexDecode, if_neg (not_not.mpr hlen)]
    exact hexPairs_hexChars _
  obtain ⟨t,ht⟩ := plugData_accepted.write hdecode
  exact ⟨t, ht, factory_data_reads_back Utils.Sha256.sha256 softBase64Len softBase64Len_comma _
    plugData .empty plugSha256 t ⟨by decide +kernel, by decide +kernel, by decide +kernel⟩ ht⟩

end Sonoff.Cli
