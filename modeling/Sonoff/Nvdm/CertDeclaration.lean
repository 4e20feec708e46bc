import Sonoff.Nvdm.License
import Sonoff.Nvdm.SoftMbedtls

/-! # The certification declaration

It is stored as the base64 text it came in; its length counts characters, its check value
the decoded bytes.
-/
namespace Sonoff.Nvdm
open Fallible

def nvdmMatterCdBinMaxLen : ℕ := 512
def nvdmMatterCdB64MaxLen : ℕ := 512

section Model
variable {K : Type} (mbedtls : Mbedtls K)

def snfMatterCdWrite (dataLen base64 sha256Hex : CString) : NvdmM Unit := do
  let expectLen ← ofOption (parseDecU32 dataLen) ()
  require (expectLen ≠ 0 && base64.length = expectLen && base64.length ≤ nvdmMatterCdB64MaxLen) ()
  let expected ← ofOption (hexBytesDecode sha256Hex snfSha256DigestSize) ()
  let cd ← matterBase64Decode mbedtls base64 nvdmMatterCdBinMaxLen
  let digest ← sha256Bytes mbedtls cd
  require (digest = expected) ()
  matterItemSet .cd base64

def snfMatterCdRead (base64Size sha256Size : ℕ) : NvdmM (ℕ × CString × CString) := do
  let base64 ← matterItemGet .cd base64Size nvdmMatterCdB64MaxLen
  let cd ← matterBase64Decode mbedtls base64 nvdmMatterCdBinMaxLen
  let digest ← sha256Bytes mbedtls cd
  let sha256Hex ← sha256DigestToHex digest sha256Size
  return (base64.length % 65536, base64, sha256Hex)

def snfMatterCDGet (cdSize : ℕ) : NvdmM (List UInt8 × ℕ) := do
  let base64 ← matterItemGet .cd (nvdmMatterCdB64MaxLen + 1) nvdmMatterCdB64MaxLen
  let cd ← matterBase64Decode mbedtls base64 cdSize
  return (cd, cd.length % 65536)

end Model

/-- The decoder is a function of the text that succeeds wherever its output fits, which is never
longer than the text. -/
structure Mbedtls.DecodesAs {K : Type} (mbedtls : Mbedtls K)
    (decode : List UInt8 → Option (List UInt8)) : Prop where
  fits : ∀ room text, mbedtls.base64Decode room text = (decode text).filter fun out =>
    out.length ≤ room
  shorter : ∀ text out, decode text = some out → out.length ≤ text.length

variable {K : Type} {mbedtls : Mbedtls K} {decode : List UInt8 → Option (List UInt8)}
  {items : NvdmItem → Option (List UInt8)} {dataLen base64 sha256Hex : CString} {cd : List UInt8}
  {s t : NvdmState} {size : ℕ}

theorem matterBase64Decode_eq_ok (hd : mbedtls.DecodesAs decode) :
    matterBase64Decode mbedtls base64 size s = .ok cd t ↔
      base64.chars ≠ [] ∧ decode base64.chars = some cd ∧ cd ≠ [] ∧ cd.length ≤ size ∧ s = t := by
  unfold matterBase64Decode
  simp only [bind_eq_ok, ofOption_eq_ok, require_eq_ok, pure_eq_ok, hd.fits, Bool.and_eq_true,
    decide_eq_true_eq, Option.filter_eq_some_iff]
  constructor
  · rintro ⟨_,_,⟨⟨hne,-⟩,rfl⟩,_,_,⟨⟨hdec,hlen⟩,rfl⟩,_,_,⟨⟨hout,-⟩,rfl⟩,rfl,rfl⟩
    exact ⟨hne, hdec, hout, hlen, rfl⟩
  · rintro ⟨hne,hdec,hout,hlen,rfl⟩
    have hsize : size ≠ 0 := fun h => hout (List.length_eq_zero_iff.mp (by omega))
    exact ⟨(), s, ⟨⟨hne, hsize⟩, rfl⟩, cd, s, ⟨⟨hdec, hlen⟩, rfl⟩, (), s, ⟨⟨hout, hlen⟩, rfl⟩, rfl,
      rfl⟩

structure CdAccepted (mbedtls : Mbedtls K) (decode : List UInt8 → Option (List UInt8))
    (dataLen base64 sha256Hex : CString) (cd : List UInt8) : Prop where
  length : parseDecU32 dataLen = some base64.length
  nonempty : base64.chars ≠ []
  fits : base64.length ≤ nvdmMatterCdB64MaxLen
  decodes : decode base64.chars = some cd
  bytes : cd ≠ []
  digest : hexBytesDecode sha256Hex snfSha256DigestSize = some (mbedtls.sha256 cd)

theorem CdAccepted.cd_length (hd : mbedtls.DecodesAs decode)
    (h : CdAccepted mbedtls decode dataLen base64 sha256Hex cd) :
    cd.length ≤ nvdmMatterCdBinMaxLen := (hd.shorter _ _ h.decodes).trans h.fits

/-- Over a reliable NVDM these conditions are all a write asks for, and the text all it stores. -/
theorem snfMatterCdWrite_reliable (hd : mbedtls.DecodesAs decode) :
    snfMatterCdWrite mbedtls dataLen base64 sha256Hex ⟨items, .reliable⟩ = .ok () t ↔
      (∃ cd, CdAccepted mbedtls decode dataLen base64 sha256Hex cd) ∧
        t = ⟨Function.update items .cd (some base64.bytes), .reliable⟩ := by
  unfold snfMatterCdWrite
  simp only [bind_eq_ok, ofOption_eq_ok, require_eq_ok, matterBase64Decode_eq_ok hd,
    Bool.and_eq_true, decide_eq_true_eq]
  constructor
  · rintro ⟨_,_,⟨hlen,rfl⟩,_,_,⟨⟨⟨-,rfl⟩,hfits⟩,rfl⟩,_,_,⟨hsha,rfl⟩,cd,_,⟨hne,hdec,hcd,-,rfl⟩,_,_,
      hdigest,_,_,⟨rfl,rfl⟩,h⟩
    cases hdigest
    have hset := matterItemSet_reliable items .cd base64
    exact ⟨⟨cd, hlen, hne, hfits, hdec, hcd, hsha⟩, (EStateM.Result.ok.inj (h.symm.trans hset)).2⟩
  · rintro ⟨⟨cd,h⟩,rfl⟩
    have hpos : base64.length ≠ 0 := fun h0 => h.nonempty (List.length_eq_zero_iff.mp h0)
    exact ⟨_, _, ⟨h.length, rfl⟩, (), _, ⟨⟨⟨hpos, rfl⟩, h.fits⟩, rfl⟩, _, _, ⟨h.digest, rfl⟩, cd, _,
      ⟨h.nonempty, h.decodes, h.bytes, h.cd_length hd, rfl⟩, _, _, rfl, (), _, ⟨rfl, rfl⟩,
      matterItemSet_reliable items .cd base64⟩

/-- A write that fails, whatever fails, leaves every item as it was. -/
theorem snfMatterCdWrite_rejected
    (h : snfMatterCdWrite mbedtls dataLen base64 sha256Hex s = .error () t) :
    t.items = s.items := by
  have hkeep : ∀ items, items = s.items → items = s.items := fun _ h => h
  have htriple : Triple (fun t => t.items = s.items)
    (snfMatterCdWrite mbedtls dataLen base64 sha256Hex)
      (fun _ _ => True) (fun _ t => t.items = s.items) := by
    unfold snfMatterCdWrite
    refine ((ReadOnly.ofOption _ _).keepsItems hkeep).bind fun _ => ?_
    refine ((ReadOnly.require _ _).keepsItems hkeep).bind fun _ => ?_
    refine ((ReadOnly.ofOption _ _).keepsItems hkeep).bind fun _ => ?_
    refine ((readOnly_matterBase64Decode _ _).keepsItems hkeep).bind fun _ => ?_
    refine ((readOnly_sha256Bytes _).keepsItems hkeep).bind fun _ => ?_
    refine ((ReadOnly.require _ _).keepsItems hkeep).bind fun _ => ?_
    exact snfNvdmWriteStr_triple (fun _ _ _ => trivial) fun _ h _ => h
  exact htriple.error rfl h

structure CdReadsBack (mbedtls : Mbedtls K) (base64 sha256Hex : CString) (cd : List UInt8)
    (t : NvdmState) : Prop where
  digest : hexBytesDecode sha256Hex snfSha256DigestSize = some (mbedtls.sha256 cd)
  read : ∀ base64Size sha256Size, nvdmMatterCdB64MaxLen < base64Size →
    nvdmFactorySha256HexLen < sha256Size → snfMatterCdRead mbedtls base64Size sha256Size t =
      .ok (base64.length, base64, ⟨hexChars (mbedtls.sha256 cd), hexChars_ne_zero _⟩) t
  get : ∀ cdSize, cd.length ≤ cdSize → snfMatterCDGet mbedtls cdSize t = .ok (cd, cd.length) t

theorem CdAccepted.readsBack (hd : mbedtls.DecodesAs decode)
    (hsha : ∀ data, (mbedtls.sha256 data).length = snfSha256DigestSize)
    (h : CdAccepted mbedtls decode dataLen base64 sha256Hex cd)
    (hitem : items .cd = some base64.bytes) :
    CdReadsBack mbedtls base64 sha256Hex cd ⟨items, .reliable⟩ := by
  have hget : ∀ base64Size, nvdmMatterCdB64MaxLen < base64Size →
      matterItemGet .cd base64Size nvdmMatterCdB64MaxLen ⟨items, .reliable⟩ =
        .ok base64 ⟨items, .reliable⟩ := by
    intro base64Size hsize
    rw [matterItemGet_reliable hitem hsize,
      CString.take_of_length_le (h.fits.trans (Nat.le_sub_one_of_lt hsize))]
  have hmax := h.fits
  have hcd := h.cd_length hd
  unfold nvdmMatterCdB64MaxLen at hmax
  unfold nvdmMatterCdBinMaxLen at hcd
  refine ⟨h.digest, fun base64Size sha256Size hsize hshaSize => ?_, fun cdSize hsize => ?_⟩
  · have hhex : bytesToHex (mbedtls.sha256 cd) sha256Size =
        some ⟨hexChars (mbedtls.sha256 cd), hexChars_ne_zero _⟩ := by
      unfold bytesToHex
      rw [hsha]
      exact if_neg (by unfold nvdmFactorySha256HexLen at hshaSize; unfold snfSha256DigestSize; omega)
    unfold snfMatterCdRead
    simp only [bind_eq_ok, pure_eq_ok, matterBase64Decode_eq_ok hd]
    exact ⟨_, _, hget _ hsize, cd, _, ⟨h.nonempty, h.decodes, h.bytes, h.cd_length hd, rfl⟩, _, _,
      rfl, _, _, ofOption_eq_ok.mpr ⟨hhex, rfl⟩, by rw [Nat.mod_eq_of_lt (by omega)], rfl⟩
  · unfold snfMatterCDGet
    simp only [bind_eq_ok, pure_eq_ok, matterBase64Decode_eq_ok hd]
    exact ⟨_, _, hget _ (Nat.lt_succ_self _), cd, _, ⟨h.nonempty, h.decodes, h.bytes, hsize, rfl⟩,
      by rw [Nat.mod_eq_of_lt (by omega)], rfl⟩

/-- An accepted declaration reads back; every text of 1 to 512 characters that decodes to
something is accepted under its length and check value; a refused one leaves no trace. -/
theorem cd_round_trip (mbedtls : Mbedtls K) (decode : List UInt8 → Option (List UInt8))
    (hd : mbedtls.DecodesAs decode)
    (hsha : ∀ data, (mbedtls.sha256 data).length = snfSha256DigestSize) :
    (∀ (items : NvdmItem → Option (List UInt8)) (dataLen base64 sha256Hex : CString)
      (t : NvdmState), snfMatterCdWrite mbedtls dataLen base64 sha256Hex ⟨items, .reliable⟩ =
      .ok () t → ∃ cd, decode base64.chars = some cd ∧ CdReadsBack mbedtls base64 sha256Hex cd t) ∧
    (∀ (items : NvdmItem → Option (List UInt8)) (dataLen base64 sha256Hex : CString)
      (cd : List UInt8), 1 ≤ base64.length → base64.length ≤ nvdmMatterCdB64MaxLen →
      decode base64.chars = some cd → 1 ≤ cd.length →
      parseDecU32 dataLen = some base64.length →
      hexBytesDecode sha256Hex snfSha256DigestSize = some (mbedtls.sha256 cd) →
      ∃ t, snfMatterCdWrite mbedtls dataLen base64 sha256Hex ⟨items, .reliable⟩ = .ok () t) ∧
    ∀ (s t : NvdmState) (dataLen base64 sha256Hex : CString),
      snfMatterCdWrite mbedtls dataLen base64 sha256Hex s = .error () t → t.items = s.items := by
  refine ⟨?_, ?_, fun s t dataLen base64 sha256Hex h => snfMatterCdWrite_rejected h⟩
  · intro items dataLen base64 sha256Hex t h
    obtain ⟨⟨cd,hcd⟩,rfl⟩ := (snfMatterCdWrite_reliable hd).mp h
    exact ⟨cd, hcd.decodes, hcd.readsBack hd hsha (Function.update_self _ _ _)⟩
  · intro items dataLen base64 sha256Hex cd hpos hfits hdecodes hcd hlen hdigest
    have haccepted : CdAccepted mbedtls decode dataLen base64 sha256Hex cd :=
      ⟨hlen, List.ne_nil_of_length_pos hpos, hfits, hdecodes, List.ne_nil_of_length_pos hcd,
        hdigest⟩
    exact ⟨_, (snfMatterCdWrite_reliable hd).mpr ⟨⟨cd, haccepted⟩, rfl⟩⟩

theorem SoftMbedtls.decodesAs : SoftMbedtls.mbedtls.DecodesAs Utils.Base64.decode where
  fits _ _ := rfl
  shorter text out h := by
    have := Utils.Base64.decode_length h
    omega

/-- Three bytes, four characters. -/
theorem cd_round_trip_three : ∃ cd t,
    snfMatterCdWrite SoftMbedtls.mbedtls (decimal 4) ⟨Utils.Base64.encode [1, 2, 3],
      Utils.Base64.encode_ne_zero _⟩
      (SoftMbedtls.digits (Utils.Sha256.sha256 [1, 2, 3])) ⟨fun _ => none, .reliable⟩ = .ok () t ∧
    CdReadsBack SoftMbedtls.mbedtls ⟨Utils.Base64.encode [1, 2, 3], Utils.Base64.encode_ne_zero _⟩
      (SoftMbedtls.digits (Utils.Sha256.sha256 [1, 2, 3])) cd t := by
  obtain ⟨hreads,haccepts,-⟩ :=
    cd_round_trip SoftMbedtls.mbedtls Utils.Base64.decode SoftMbedtls.decodesAs
    Utils.Sha256.sha256_length
  obtain ⟨t,ht⟩ := haccepts (fun _ => none) (decimal 4) ⟨Utils.Base64.encode [1, 2, 3],
    Utils.Base64.encode_ne_zero _⟩
    (SoftMbedtls.digits (Utils.Sha256.sha256 [1, 2, 3])) [1, 2, 3] (by decide) (by decide)
    (Utils.Base64.decode_encode _) (by decide) (by decide +kernel) (by decide +kernel)
  obtain ⟨cd,-,hcd⟩ := hreads _ _ _ _ t ht
  exact ⟨cd, t, ht, hcd⟩

end Sonoff.Nvdm
