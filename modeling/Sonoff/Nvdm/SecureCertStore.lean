import Sonoff.Nvdm.SecureCert

/-! # The stored components

What one component becomes in its item, and what the three items hold after a write,
an erasure or a failure on the way.
-/
namespace Sonoff.Nvdm
open Bytes Fallible

variable {K : Type} {mbedtls : Mbedtls K} {items : NvdmItem → Option (List UInt8)} {item : NvdmItem}
  {data : List UInt8} {text : CString} {cert : SecureCert} {s : NvdmState} {n k : ℕ}

/-- The base64 codec: four characters for three bytes, none of them zero, where they and a
terminator fit, and decoding undoes it where the bytes fit. -/
def Mbedtls.Base64Correct (mbedtls : Mbedtls K) : Prop :=
  ∀ (size : ℕ) (data : List UInt8), data.length ≤ nvdmMatterSecureCertBinMaxLen →
    4 * ((data.length + 2) / 3) < size →
    ∃ text, mbedtls.base64Encode size data = some text ∧ text.length = 4 * ((data.length + 2) / 3) ∧
      (∀ c ∈ text, c ≠ 0) ∧ ∀ room, data.length ≤ room → mbedtls.base64Decode room text = some data

/-- AES-GCM under a key of the right length decrypts what was encrypted, and keeps the length. -/
def GcmCorrect (mbedtls : Mbedtls K)
    (gcmEncrypt : List UInt8 → List UInt8 → List UInt8 → List UInt8 × List UInt8) : Prop :=
  ∀ key iv plain, key.length = snfAesGcmKeySize →
    (gcmEncrypt key iv plain).1.length = plain.length ∧
      mbedtls.gcmAuthDecrypt key iv (gcmEncrypt key iv plain).2 (gcmEncrypt key iv plain).1 =
        some plain

def EncryptedFor (mbedtls : Mbedtls K)
    (gcmEncrypt : List UInt8 → List UInt8 → List UInt8 → List UInt8 × List UInt8)
    (session : MatterSecureSession K) (plain : List UInt8) (base64 : CString) : Prop :=
  ∃ key, session.secret mbedtls = some key ∧ session.tag = (gcmEncrypt key session.iv plain).2 ∧
    mbedtls.base64Encode (nvdmMatterSecureCertB64MaxLen + 1) (gcmEncrypt key session.iv plain).1 =
      some base64.chars

structure SecureCert.Legal (cert : SecureCert) : Prop where
  dacCert : 0 < cert.dacCert.length ∧ cert.dacCert.length ≤ nvdmMatterDacCertBinMaxLen
  dacKey : cert.dacKey.length = nvdmMatterDacKeyBinLen
  paiCert : 0 < cert.paiCert.length ∧ cert.paiCert.length ≤ nvdmMatterPaiCertBinMaxLen

structure ComponentText (mbedtls : Mbedtls K) (data : List UInt8) (text : CString) : Prop where
  encode : mbedtls.base64Encode (nvdmMatterCertB64MaxLen + 1) data = some text.chars
  nonempty : text.chars ≠ []
  fits : text.length ≤ nvdmMatterCertB64MaxLen
  decode : ∀ room, data.length ≤ room → mbedtls.base64Decode room text.chars = some data

structure SecureCert.StoredIn (mbedtls : Mbedtls K) (cert : SecureCert)
    (items : NvdmItem → Option (List UInt8)) : Prop where
  dacCert : ∃ text, ComponentText mbedtls cert.dacCert text ∧ items .dacCert = some text.bytes
  dacKey : ∃ text, ComponentText mbedtls cert.dacKey text ∧ items .dacKey = some text.bytes
  paiCert : ∃ text, ComponentText mbedtls cert.paiCert text ∧ items .paiCert = some text.bytes

theorem readOnly_sha256Bytes (data : List UInt8) : ReadOnly (sha256Bytes mbedtls data) :=
  ReadOnly.sdk.bind fun _ => .pure _

theorem readOnly_matterBase64Decode (base64 : CString) (outSize : ℕ) :
    ReadOnly (matterBase64Decode mbedtls base64 outSize) :=
  (ReadOnly.require _ _).bind fun _ => (ReadOnly.ofOption _ _).bind fun _ =>
  (ReadOnly.require _ _).bind fun _ =>
    .pure _

theorem readOnly_matterBinGet (item : NvdmItem) (size : ℕ) :
    ReadOnly (matterBinGet mbedtls item size) :=
  ReadOnly.malloc.bind fun _ => (ReadOnly.matterGet _ _ _).bind fun _ =>
    readOnly_matterBase64Decode _ _

theorem componentText_of_correct (hb : mbedtls.Base64Correct) (hpos : 0 < data.length)
    (hlen : data.length ≤ 600) : ∃ text, ComponentText mbedtls data text := by
  obtain ⟨chars,hencode,hchars,hnul,hdecode⟩ := hb (nvdmMatterCertB64MaxLen + 1) data
    (hlen.trans (by decide)) (by unfold nvdmMatterCertB64MaxLen; omega)
  refine ⟨⟨chars, hnul⟩, hencode, ?_, ?_, hdecode⟩
  · intro h
    rw [show chars = [] from h] at hchars
    simp only [List.length_nil] at hchars
    omega
  · show chars.length ≤ 800
    omega

theorem SecureCert.Legal.texts (hb : mbedtls.Base64Correct) (h : cert.Legal) :
    (∃ text, ComponentText mbedtls cert.dacCert text) ∧
      (∃ text, ComponentText mbedtls cert.dacKey text) ∧
      ∃ text, ComponentText mbedtls cert.paiCert text := by
  have hkey : cert.dacKey.length = 32 := h.dacKey
  exact ⟨componentText_of_correct hb h.dacCert.1 h.dacCert.2,
    componentText_of_correct hb (by omega) (by omega),
    componentText_of_correct hb h.paiCert.1 h.paiCert.2⟩

/-- With its text at hand writing a component is an allocation and a write. -/
theorem matterBinSet_eq (hpos : data ≠ []) (htext : ComponentText mbedtls data text) :
    matterBinSet mbedtls item data = pvPortMalloc >>= fun _ => matterItemSet item text := by
  have hfits : text.chars.length ≤ nvdmMatterCertB64MaxLen := htext.fits
  unfold matterBinSet
  simp only [htext.encode, ofOption, require, hpos, htext.nonempty, hfits, ne_eq, not_false_eq_true,
    decide_true, Bool.and_self, if_true, pure_bind, CString.ofBuffer_chars]

/-- Writing a component fails only where the allocation or the write does. -/
theorem matterBinSet_triple (hpos : data ≠ []) (htext : ComponentText mbedtls data text) :
    Triple (fun s => s.items = items ∧ s.faults ≤ n) (matterBinSet mbedtls item data)
      (fun _ s => s.items = Function.update items item (some text.bytes) ∧ s.faults ≤ n)
      (fun _ s => s.items = items ∧ s.faults + 1 ≤ n) := by
  rw [matterBinSet_eq hpos htext]
  refine (pvPortMalloc_triple (Q := fun _ s => s.items = items ∧ s.faults ≤ n)
    (fun s h => ⟨h.1, (NvdmState.faults_popAlloc s).trans h.2⟩)
    fun s h hf => ⟨h.1, (NvdmState.faults_popAlloc_of_failed hf).trans_le h.2⟩).bind fun _ => ?_
  refine snfNvdmWriteStr_triple (fun s h _ => ⟨?_, (NvdmState.faults_popWrite s).trans h.2⟩)
    fun s h hf => ⟨h.1, (NvdmState.faults_popWrite_of_failed hf).trans_le h.2⟩
  show Function.update s.items item (some text.bytes) = _
  rw [h.1]

theorem matterBinGet_reliable (hpos : data ≠ []) (htext : ComponentText mbedtls data text)
    (h : items item = some text.bytes) {size : ℕ} (hsize : data.length ≤ size) :
    matterBinGet mbedtls item size ⟨items, .reliable⟩ = .ok data ⟨items, .reliable⟩ := by
  have hread : readValue items item (nvdmMatterCertB64MaxLen + 1) = some text :=
    readValue_written h (Nat.lt_succ_of_le htext.fits)
  have hsize0 : size ≠ 0 := fun h0 => hpos (List.length_eq_zero_iff.mp (by omega))
  have hget : matterItemGet item (nvdmMatterCertB64MaxLen + 1) nvdmMatterCertB64MaxLen
    ⟨items, .reliable⟩ = .ok text ⟨items, .reliable⟩ := by
    refine bind_eq_ok.mpr ⟨(), _, rfl, ?_⟩
    unfold snfNvdmReadStr
    rw [if_neg (by decide), hread]
    rfl
  have hdecode : matterBase64Decode mbedtls text size ⟨items, .reliable⟩ =
      .ok data ⟨items, .reliable⟩ := by
    unfold matterBase64Decode
    simp only [htext.nonempty, hsize0, htext.decode size hsize, hpos, hsize, ofOption, require,
      ne_eq, not_false_eq_true, decide_true, Bool.and_self, if_true, pure_bind]
    rfl
  exact bind_eq_ok.mpr ⟨(), _, rfl, bind_eq_ok.mpr ⟨text, _, hget, hdecode⟩⟩

/-- What an erased item holds decodes to nothing. -/
theorem matterBinGet_erased (h : s.items item = some CString.empty.bytes) (size : ℕ) {t : NvdmState}
    {a : List UInt8} : matterBinGet mbedtls item size s ≠ .ok a t := by
  intro hget
  unfold matterBinGet at hget
  obtain ⟨_,u,hmalloc,hget⟩ := bind_eq_ok.mp hget
  obtain ⟨b64,v,hitem,hdecode⟩ := bind_eq_ok.mp hget
  have hu : u.items = s.items := ReadOnly.malloc.items_eq.ok rfl hmalloc
  obtain ⟨_,_,hr,hitem⟩ := bind_eq_ok.mp hitem
  obtain ⟨-,rfl⟩ := require_eq_ok.mp hr
  have hb64 : b64 = .empty := by
    unfold snfNvdmReadStr at hitem
    rw [hu, readValue_empty h (by decide)] at hitem
    split at hitem
    · cases hitem
    · split at hitem <;> cases hitem
      rfl
  rw [hb64] at hdecode
  obtain ⟨_,_,hr,-⟩ := bind_eq_ok.mp hdecode
  exact absurd (require_eq_ok.mp hr).1 (by simp [CString.empty])

theorem SecureCert.Legal.ne_nil (h : cert.Legal) : cert.dacCert ≠ [] ∧ cert.dacKey ≠ [] ∧
    cert.paiCert ≠ [] := by
  refine ⟨List.ne_nil_of_length_pos h.dacCert.1, List.ne_nil_of_length_pos ?_,
    List.ne_nil_of_length_pos h.paiCert.1⟩
  rw [h.dacKey]
  decide

theorem matterSecureCertParse_legal {plain : List UInt8}
    (h : matterSecureCertParse plain = some cert) : cert.Legal := by
  unfold matterSecureCertParse at h
  split at h
  · cases h
  · dsimp only at h
    split at h
    · cases h
    · split at h
      case isTrue => cases h
      case isFalse hlens htotal =>
        obtain rfl := Option.some.inj h
        push Not at hlens htotal
        obtain ⟨hdac,hdacMax,hkey,hpai,hpaiMax⟩ := hlens
        constructor
        · dsimp only
          rw [slice_length (by omega)]
          omega
        · dsimp only
          rw [slice_length (by omega)]
          exact hkey
        · dsimp only
          rw [slice_length (by omega)]
          omega

/-- Without the first component no check value can be computed. -/
theorem matterSecureCertStoredHash_erased (h : s.items .dacCert = some CString.empty.bytes)
    {t : NvdmState} {digest : List UInt8} :
    matterSecureCertStoredHash mbedtls s ≠ .ok digest t := by
  intro hhash
  obtain ⟨_,u,hmalloc,hhash⟩ := bind_eq_ok.mp hhash
  obtain ⟨dacCert,v,hget,-⟩ := bind_eq_ok.mp hhash
  have hu : u.items = s.items := ReadOnly.malloc.items_eq.ok rfl hmalloc
  exact matterBinGet_erased (hu ▸ h) _ hget

theorem SecureCert.StoredIn.hash (h : cert.StoredIn mbedtls items) (hlegal : cert.Legal) :
    matterSecureCertStoredHash mbedtls ⟨items, .reliable⟩ =
      .ok (mbedtls.sha256 cert.plain) ⟨items, .reliable⟩ := by
  obtain ⟨hdac,hkey,hpai⟩ := hlegal.ne_nil
  obtain ⟨_,hdacText,hdacItem⟩ := h.dacCert
  obtain ⟨_,hkeyText,hkeyItem⟩ := h.dacKey
  obtain ⟨_,hpaiText,hpaiItem⟩ := h.paiCert
  unfold matterSecureCertStoredHash
  simp only [bind_eq_ok, require_eq_ok, decide_eq_true_eq]
  exact ⟨(), _, rfl, _, _, matterBinGet_reliable hdac hdacText hdacItem hlegal.dacCert.2,
    _, _, matterBinGet_reliable hkey hkeyText hkeyItem hlegal.dacKey.le, (), _,
      ⟨hlegal.dacKey, rfl⟩,
    _, _, matterBinGet_reliable hpai hpaiText hpaiItem hlegal.paiCert.2, rfl⟩

end Sonoff.Nvdm
