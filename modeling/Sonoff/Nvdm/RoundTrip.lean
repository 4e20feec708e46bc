import Sonoff.Nvdm.SingleFault

/-! # A certificate reads back as it was encrypted

The plain text is parsed, stored text by text, read back and put together again; the
two ends meet in the check value.
-/
namespace Sonoff.Nvdm
open Bytes Fallible

variable {K : Type} {mbedtls : Mbedtls K} {items : NvdmItem → Option (List UInt8)}
  {cert : SecureCert} {gcmEncrypt : List UInt8 → List UInt8 → List UInt8 → List UInt8 × List UInt8}

theorem matterSecureCertParse_plain (h : cert.Legal) :
    matterSecureCertParse cert.plain = some cert := by
  obtain ⟨dac,key,pai⟩ := cert
  have hdac : 0 < dac.length ∧ dac.length ≤ 600 := h.dacCert
  have hkey : key.length = 32 := h.dacKey
  have hpai : 0 < pai.length ∧ pai.length ≤ 600 := h.paiCert
  let plain := SecureCert.plain ⟨dac, key, pai⟩
  have hlen : plain.length = 12 + dac.length + key.length + pai.length := by
    simp only [plain, SecureCert.plain, List.length_append, packLe32_length]
  have h0 : le32 plain 0 = dac.length := by
    have hmid := le32_mid (n := dac.length) (by omega) []
      (packLe32 key.length ++ packLe32 pai.length ++ dac ++ key ++ pai)
    simpa only [plain, SecureCert.plain, List.nil_append, List.append_assoc,
      List.length_nil] using hmid
  have h4 : le32 plain 4 = key.length := by
    have hmid := le32_mid (n := key.length) (by omega) (packLe32 dac.length)
      (packLe32 pai.length ++ dac ++ key ++ pai)
    simpa only [plain, SecureCert.plain, List.append_assoc, packLe32_length] using hmid
  have h8 : le32 plain 8 = pai.length := by
    have hmid := le32_mid (n := pai.length) (by omega) (packLe32 dac.length ++ packLe32 key.length)
      (dac ++ key ++ pai)
    simpa only [plain, SecureCert.plain, List.append_assoc, List.length_append,
      packLe32_length] using hmid
  have hsDac : slice plain 12 dac.length = dac := by
    have hmid := slice_mid (packLe32 dac.length ++ packLe32 key.length ++ packLe32 pai.length) dac
      (key ++ pai)
    simpa only [plain, SecureCert.plain, List.append_assoc, List.length_append,
      packLe32_length] using hmid
  have hsKey : slice plain (12 + dac.length) key.length = key := by
    have hmid := slice_mid (packLe32 dac.length ++ packLe32 key.length ++ packLe32 pai.length ++
      dac) key pai
    simpa only [plain, SecureCert.plain, List.append_assoc, List.length_append, packLe32_length,
      ← Nat.add_assoc] using hmid
  have hsPai : slice plain (12 + dac.length + key.length) pai.length = pai := by
    have hmid := slice_mid (packLe32 dac.length ++ packLe32 key.length ++ packLe32 pai.length ++
      dac ++ key) pai []
    simpa only [plain, SecureCert.plain, List.append_assoc, List.length_append, packLe32_length,
      ← Nat.add_assoc, List.append_nil] using hmid
  show matterSecureCertParse plain = some ⟨dac, key, pai⟩
  unfold matterSecureCertParse
  rw [if_neg (by rw [hlen]; unfold nvdmMatterSecureCertHeaderLen; omega)]
  simp only [h0, h4, h8, nvdmMatterSecureCertHeaderLen, nvdmMatterDacCertBinMaxLen,
    nvdmMatterDacKeyBinLen, nvdmMatterPaiCertBinMaxLen, hsDac, hsKey, hsPai]
  rw [if_neg (by omega), if_neg (by omega)]

theorem SecureCert.Legal.plain_length (h : cert.Legal) :
    0 < cert.plain.length ∧ cert.plain.length ≤ nvdmMatterSecureCertBinMaxLen := by
  have hdac := h.dacCert.2
  have hkey := h.dacKey
  have hpai := h.paiCert.2
  simp only [SecureCert.plain, List.length_append, packLe32_length, nvdmMatterSecureCertBinMaxLen,
    nvdmMatterSecureCertHeaderLen] at *
  omega

/-- The cipher text fits its buffer and comes out of its text. -/
theorem cipherText (hb : mbedtls.Base64Correct) (hg : GcmCorrect mbedtls gcmEncrypt)
    (hlegal : cert.Legal) {key iv : List UInt8} {base64 : CString}
    (hkey : key.length = snfAesGcmKeySize)
    (htext : mbedtls.base64Encode (nvdmMatterSecureCertB64MaxLen + 1)
      (gcmEncrypt key iv cert.plain).1 = some base64.chars) :
    (gcmEncrypt key iv cert.plain).1.length ≤ nvdmMatterSecureCertBinMaxLen ∧
      (gcmEncrypt key iv cert.plain).1 ≠ [] ∧ base64.chars ≠ [] ∧
        base64.length ≤ nvdmMatterSecureCertB64MaxLen ∧
      mbedtls.base64Decode nvdmMatterSecureCertBinMaxLen base64.chars =
        some (gcmEncrypt key iv cert.plain).1 := by
  obtain ⟨hlen,-⟩ := hg key iv cert.plain hkey
  obtain ⟨hpos,hmax⟩ := hlegal.plain_length
  rw [← hlen] at hpos hmax
  have hroom : 4 * (((gcmEncrypt key iv cert.plain).1.length + 2) / 3) ≤
      nvdmMatterSecureCertB64MaxLen :=
    Nat.mul_le_mul_left 4 (Nat.div_le_div_right (Nat.add_le_add_right hmax 2))
  obtain ⟨text,hencode,htextLen,-,hdecode⟩ :=
    hb (nvdmMatterSecureCertB64MaxLen + 1) _ hmax (Nat.lt_succ_of_le hroom)
  obtain rfl := Option.some.inj (hencode.symm.trans htext)
  refine ⟨hmax, List.ne_nil_of_length_pos hpos, List.ne_nil_of_length_pos (by omega), ?_,
    hdecode _ hmax⟩
  exact htextLen.le.trans hroom

/-- What a write accepts is what was encrypted. -/
theorem secureCertDecrypt_encrypted (hb : mbedtls.Base64Correct)
    (hg : GcmCorrect mbedtls gcmEncrypt)
    (hlegal : cert.Legal) {session : MatterSecureSession K} {dataLen base64 sha256Hex : CString}
    (henc : EncryptedFor mbedtls gcmEncrypt session cert.plain base64) {cert' : SecureCert}
    {digest : List UInt8} {s t : NvdmState}
    (h : secureCertDecrypt mbedtls session dataLen base64 sha256Hex s = .ok (cert', digest) t) :
    cert' = cert ∧ digest = mbedtls.sha256 cert.plain := by
  obtain ⟨key,hsecret,htag,htext⟩ := henc
  unfold secureCertDecrypt at h
  simp only [bind_eq_ok, ofOption_eq_ok, require_eq_ok, pure_eq_ok, decide_eq_true_eq] at h
  obtain ⟨_,_,-,_,_,-,_,_,-,_,_,-,_,_,-,_,_,-,_,_,-,_,_,-,cipher,_,hcipher,_,_,-,secret,_,⟨hsecret',
    -⟩,_,_,⟨hkey,-⟩,
    _,_,-,_,_,-,plain,_,⟨hplain,-⟩,parsed,_,⟨hparse,-⟩,hash,_,hhash,hresult,-⟩ := h
  obtain rfl := Option.some.inj (hsecret.symm.trans hsecret')
  obtain ⟨-,-,-,-,hdecode⟩ := cipherText hb hg hlegal hkey htext
  unfold matterBase64Decode at hcipher
  simp only [bind_eq_ok, ofOption_eq_ok, require_eq_ok, pure_eq_ok] at hcipher
  obtain ⟨_,_,-,_,_,⟨hcipher,-⟩,_,_,-,rfl,-⟩ := hcipher
  obtain rfl := Option.some.inj (hdecode.symm.trans hcipher)
  rw [htag, (hg key session.iv cert.plain hkey).2] at hplain
  obtain rfl := Option.some.inj hplain
  rw [matterSecureCertParse_plain hlegal] at hparse
  obtain ⟨_,_,-,hpure⟩ := bind_eq_ok.mp hhash
  obtain ⟨hcert,hdigest⟩ := Prod.mk.inj hresult
  exact ⟨hcert.symm.trans (Option.some.inj hparse).symm,
    hdigest.symm.trans (pure_eq_ok.mp hpure).1.symm⟩

structure ReadsBack (mbedtls : Mbedtls K) (cert : SecureCert) (hex : CString)
    (items : NvdmItem → Option (List UInt8)) : Prop where
  reply : hex.chars = hexChars (mbedtls.sha256 cert.plain)
  read : ∀ (serialNumber : CString) (serialSize sha256Size : ℕ), items .serialNumber =
    some serialNumber.bytes → serialNumberIsValid serialNumber = true →
    nvdmFactorySerialNumberLen < serialSize → 64 < sha256Size →
    snfMatterSecureCertRead mbedtls serialSize sha256Size ⟨items, .reliable⟩ =
      .ok (serialNumber, hex) ⟨items, .reliable⟩
  dacCert : ∀ size, cert.dacCert.length ≤ size →
    snfMatterDacCertGet mbedtls size ⟨items, .reliable⟩ = .ok cert.dacCert ⟨items, .reliable⟩
  dacKey : ∀ size, cert.dacKey.length ≤ size →
    snfMatterDacKeyGet mbedtls size ⟨items, .reliable⟩ = .ok cert.dacKey ⟨items, .reliable⟩
  paiCert : ∀ size, cert.paiCert.length ≤ size →
    snfMatterPaiCertGet mbedtls size ⟨items, .reliable⟩ = .ok cert.paiCert ⟨items, .reliable⟩

theorem snfSerialNumberGet_reliable {serialNumber : CString} {size : ℕ}
    (h : items .serialNumber = some serialNumber.bytes)
    (hvalid : serialNumberIsValid serialNumber = true)
    (hsize : nvdmFactorySerialNumberLen < size) :
    snfSerialNumberGet size ⟨items, .reliable⟩ = .ok serialNumber ⟨items, .reliable⟩ := by
  have hlen : serialNumber.length = nvdmFactorySerialNumberLen := by
    simp only [serialNumberIsValid, Bool.and_eq_true, decide_eq_true_eq] at hvalid
    exact hvalid.1
  unfold snfSerialNumberGet
  simp only [bind_eq_ok, require_eq_ok, pure_eq_ok, decide_eq_true_eq]
  refine ⟨(), _, ⟨hsize, rfl⟩, serialNumber, _, ?_, (), _, ⟨hvalid, rfl⟩, rfl, rfl⟩
  unfold snfNvdmReadStr
  rw [if_neg (by omega), readValue_written h (by omega)]
  rfl

theorem SecureCert.StoredIn.readsBack (h : cert.StoredIn mbedtls items) (hlegal : cert.Legal)
    (hdigest : ∀ data, (mbedtls.sha256 data).length = snfSha256DigestSize) {hex : CString}
    {size : ℕ} (hhex : bytesToHex (mbedtls.sha256 cert.plain) size = some hex) :
    ReadsBack mbedtls cert hex items := by
  obtain ⟨hdac,hkey,hpai⟩ := hlegal.ne_nil
  obtain ⟨_,hdacText,hdacItem⟩ := h.dacCert
  obtain ⟨_,hkeyText,hkeyItem⟩ := h.dacKey
  obtain ⟨_,hpaiText,hpaiItem⟩ := h.paiCert
  have hreply : hex = ⟨hexChars (mbedtls.sha256 cert.plain), hexChars_ne_zero _⟩ :=
    bytesToHex_chars hhex
  refine ⟨congrArg CString.chars hreply, ?_, fun _ hsize =>
    matterBinGet_reliable hdac hdacText hdacItem hsize,
    fun _ hsize => matterBinGet_reliable hkey hkeyText hkeyItem hsize,
    fun _ hsize => matterBinGet_reliable hpai hpaiText hpaiItem hsize⟩
  intro serialNumber serialSize sha256Size hserial hvalid hserialSize hsize
  have htoHex : bytesToHex (mbedtls.sha256 cert.plain) sha256Size = some hex := by
    have hlen := hdigest cert.plain
    unfold snfSha256DigestSize at hlen
    unfold bytesToHex
    rw [if_neg (by omega), hreply]
  unfold snfMatterSecureCertRead
  simp only [bind_eq_ok, pure_eq_ok]
  exact ⟨_, _, snfSerialNumberGet_reliable hserial hvalid hserialSize, _, _, h.hash hlegal, _, _,
    ofOption_eq_ok.mpr ⟨htoHex, rfl⟩, rfl, rfl⟩

/-- A write that stores and replies has stored the components and replies their check value. -/
theorem secureCertStore_ok (hb : mbedtls.Base64Correct) (hlegal : cert.Legal) {digest : List UInt8}
    {replySize : ℕ} {hex : CString} {s t : NvdmState}
    (h : secureCertStore mbedtls cert digest replySize s = .ok hex t) :
    cert.StoredIn mbedtls t.items ∧ bytesToHex digest replySize = some hex := by
  refine ⟨(secureCertStore_triple hb hlegal digest replySize s.items s.faults).ok ⟨rfl, le_rfl⟩ h,
    ?_⟩
  unfold secureCertStore at h
  obtain ⟨_,_,-,h⟩ := bind_eq_ok.mp h
  unfold orElseRun at h
  split at h
  case h_1 hrun =>
    obtain ⟨rfl,rfl⟩ := EStateM.Result.ok.inj h
    simp only [bind_eq_ok] at hrun
    obtain ⟨_,_,-,_,_,-,_,_,-,_,_,-,hhex⟩ := hrun
    exact (ofOption_eq_ok.mp hhex).1
  · split at h <;> cases h

theorem matterBinSet_reliable {data : List UInt8} {text : CString} (hpos : data ≠ [])
    (htext : ComponentText mbedtls data text) (item : NvdmItem) :
    matterBinSet mbedtls item data ⟨items, .reliable⟩ =
      .ok () ⟨Function.update items item (some text.bytes), .reliable⟩ := by
  rw [matterBinSet_eq hpos htext]
  refine bind_eq_ok.mpr ⟨(), _, rfl, ?_⟩
  rw [matterItemSet, snfNvdmWriteStr, if_neg text.bytes_ne_nil]
  rfl

theorem secureCertStore_reliable (items : NvdmItem → Option (List UInt8))
    (hb : mbedtls.Base64Correct) (hlegal : cert.Legal)
    (hdigest : (mbedtls.sha256 cert.plain).length = snfSha256DigestSize) {replySize : ℕ}
    (hreply : 64 < replySize) :
    ∃ hex t, secureCertStore mbedtls cert (mbedtls.sha256 cert.plain) replySize ⟨items, .reliable⟩ =
    .ok hex t := by
  obtain ⟨hdac,hkey,hpai⟩ := hlegal.ne_nil
  obtain ⟨⟨dacText,hdacText⟩,⟨keyText,hkeyText⟩,⟨paiText,hpaiText⟩⟩ := hlegal.texts hb
  let stored := Function.update
    (Function.update (Function.update items .dacCert (some dacText.bytes)) .dacKey
    (some keyText.bytes)) .paiCert (some paiText.bytes)
  have hstored : cert.StoredIn mbedtls stored :=
    ⟨⟨dacText, hdacText, by simp [stored]⟩, ⟨keyText, hkeyText, by simp [stored]⟩,
      ⟨paiText, hpaiText, by simp [stored]⟩⟩
  have hhex : bytesToHex (mbedtls.sha256 cert.plain) replySize =
      some ⟨hexChars (mbedtls.sha256 cert.plain), hexChars_ne_zero _⟩ := by
    unfold snfSha256DigestSize at hdigest
    exact if_neg (by omega)
  refine ⟨⟨hexChars (mbedtls.sha256 cert.plain), hexChars_ne_zero _⟩, ⟨stored, .reliable⟩, ?_⟩
  refine bind_eq_ok.mpr ⟨(), _, matterBinSet_reliable hdac hdacText _, ?_⟩
  unfold orElseRun
  rw [bind_ok (matterBinSet_reliable hkey hkeyText _),
    bind_ok (matterBinSet_reliable hpai hpaiText _),
    bind_ok (hstored.hash hlegal), bind_ok (require_eq_ok (u := ()).mpr ⟨decide_eq_true rfl, rfl⟩),
      sha256DigestToHex, hhex]
  rfl

/-- Every buffer on the way has room for a legal plain text. -/
theorem secureCertDecrypt_reliable (hb : mbedtls.Base64Correct) (hg : GcmCorrect mbedtls gcmEncrypt)
    (hlegal : cert.Legal) {session : MatterSecureSession K} {dataLen base64 sha256Hex : CString}
    (hkey : ∀ key, session.secret mbedtls = some key → key.length = snfAesGcmKeySize)
    (henc : EncryptedFor mbedtls gcmEncrypt session cert.plain base64)
    (hlen : parseDecU32 dataLen = some base64.length)
    (hsha : hexBytesDecode sha256Hex snfSha256DigestSize = some (mbedtls.sha256 base64.chars)) :
    secureCertDecrypt mbedtls session dataLen base64 sha256Hex ⟨items, .reliable⟩ =
      .ok (cert, mbedtls.sha256 cert.plain) ⟨items, .reliable⟩ := by
  obtain ⟨key,hsecret,htag,htext⟩ := henc
  obtain ⟨hmax,hne,hbase,hroom,hdecode⟩ := cipherText hb hg hlegal (hkey key hsecret) htext
  have hbaseLen : base64.length ≠ 0 := fun h => hbase (List.length_eq_zero_iff.mp h)
  have hcipher : matterBase64Decode mbedtls base64 nvdmMatterSecureCertBinMaxLen
    ⟨items, .reliable⟩ = .ok (gcmEncrypt key session.iv cert.plain).1 ⟨items, .reliable⟩ := by
    unfold matterBase64Decode
    simp only [bind_eq_ok, ofOption_eq_ok, require_eq_ok, pure_eq_ok]
    exact ⟨(), _, ⟨by simp [hbase]; decide, rfl⟩, _, _, ⟨hdecode, rfl⟩, (), _,
      ⟨by simp [hne, hmax], rfl⟩, rfl, rfl⟩
  have hplain : mbedtls.gcmAuthDecrypt key session.iv session.tag
    (gcmEncrypt key session.iv cert.plain).1 =
      some cert.plain := htag ▸ (hg key session.iv cert.plain (hkey key hsecret)).2
  unfold secureCertDecrypt
  simp only [bind_eq_ok, ofOption_eq_ok, require_eq_ok, pure_eq_ok]
  exact ⟨_, _, ⟨hlen, rfl⟩, (), _, ⟨by simp [hbaseLen, hroom], rfl⟩, _, _, ⟨hsha, rfl⟩, _, _, rfl,
    (), _, ⟨decide_eq_true rfl, rfl⟩, true, _, rfl, true, _, rfl, (), _, ⟨rfl, rfl⟩, _, _, hcipher,
    (), _, rfl, _, _, ⟨hsecret, rfl⟩, (), _, ⟨decide_eq_true (hkey key hsecret), rfl⟩, (), _,
    ⟨decide_eq_true hmax, rfl⟩, (), _, rfl, _, _,
    ⟨hplain, rfl⟩, _, _, ⟨matterSecureCertParse_plain hlegal, rfl⟩, _, _, rfl, rfl, rfl⟩

/-- A certificate encrypted for the session: a write that succeeds replies its check value, under
which it is read back later, component by component; and over a reliable NVDM a request that
is well formed and finds the session ready succeeds. -/
theorem secure_cert_round_trip (mbedtls : Mbedtls K)
    (gcmEncrypt : List UInt8 → List UInt8 → List UInt8 → List UInt8 × List UInt8)
    (hb : mbedtls.Base64Correct) (hg : GcmCorrect mbedtls gcmEncrypt)
    (hdigest : ∀ data, (mbedtls.sha256 data).length = snfSha256DigestSize)
    (hsecret : ∀ key peerPub secret, mbedtls.ecdhShared key peerPub = some secret →
      secret.length = snfAesGcmKeySize)
    (cert : SecureCert) (hlegal : cert.Legal) (st : SecureState K)
    (dataLen base64 sha256Hex : CString) (replySize : ℕ)
    (henc : EncryptedFor mbedtls gcmEncrypt st.session cert.plain base64) :
    (∀ hex t, snfMatterSecureCertWrite mbedtls dataLen base64 sha256Hex replySize st = .ok hex t →
      ReadsBack mbedtls cert hex t.nvdm.items) ∧
    (st.session.localReady = true → st.session.peerReady = true → st.nvdm.outcomes = .reliable →
      parseDecU32 dataLen = some base64.length →
      hexBytesDecode sha256Hex snfSha256DigestSize = some (mbedtls.sha256 base64.chars) →
        64 < replySize →
      ∃ hex t, snfMatterSecureCertWrite mbedtls dataLen base64 sha256Hex replySize st =
        .ok hex t) := by
  constructor
  · intro hex t h
    cases hready : st.session.localReady && st.session.peerReady with
    | false =>
      rw [snfMatterSecureCertWrite_refused st hready] at h
      cases h
    | true =>
      rw [snfMatterSecureCertWrite_eq st hready] at h
      unfold thenAlways onNvdm at h
      cases hu : secureCertUpdate mbedtls st.session dataLen base64 sha256Hex replySize st.nvdm with
      | error e nvdm =>
        rw [hu] at h
        cases h
      | ok hex' nvdm =>
        rw [hu] at h
        obtain ⟨rfl,rfl⟩ := EStateM.Result.ok.inj h
        unfold secureCertUpdate at hu
        obtain ⟨⟨cert',digest⟩,u,hd,hs⟩ := bind_eq_ok.mp hu
        obtain ⟨rfl,rfl⟩ := secureCertDecrypt_encrypted hb hg hlegal henc hd
        obtain ⟨hstored,hhex⟩ := secureCertStore_ok hb hlegal hs
        exact hstored.readsBack hlegal hdigest hhex
  · intro hlocal hpeer hreliable hlen hsha hreply
    have hkey : ∀ key, st.session.secret mbedtls = some key → key.length = snfAesGcmKeySize := by
      intro key hk
      obtain ⟨d,-,hk⟩ := Option.bind_eq_some_iff.mp hk
      exact hsecret d _ key hk
    have hnvdm : st.nvdm = ⟨st.nvdm.items, .reliable⟩ := by rw [← hreliable]
    obtain ⟨hex,t,hstore⟩ := secureCertStore_reliable st.nvdm.items hb hlegal (hdigest _) hreply
    have hupdate : secureCertUpdate mbedtls st.session dataLen base64 sha256Hex replySize st.nvdm =
        .ok hex t := by
      rw [hnvdm]
      exact bind_eq_ok.mpr ⟨_, _, secureCertDecrypt_reliable hb hg hlegal hkey henc hlen hsha,
        hstore⟩
    refine ⟨hex, matterSecureSessionClear { st with nvdm := t }, ?_⟩
    rw [snfMatterSecureCertWrite_eq st (by rw [hlocal, hpeer]; rfl)]
    unfold thenAlways onNvdm
    rw [hupdate]

/-- Two certificates of one byte each, over an empty NVDM. -/
theorem secure_cert_round_trip_small : ∃ hex t,
    snfMatterSecureCertWrite SoftMbedtls.mbedtls (decimal 64) SoftMbedtls.base64
      SoftMbedtls.sha256Hex 65 (SoftMbedtls.state .reliable) = .ok hex t ∧
      ReadsBack SoftMbedtls.mbedtls SoftMbedtls.cert hex t.nvdm.items := by
  have henc : EncryptedFor SoftMbedtls.mbedtls SoftMbedtls.gcmEncrypt SoftMbedtls.session
    SoftMbedtls.cert.plain
      SoftMbedtls.base64 := ⟨SoftMbedtls.secret, by decide +kernel⟩
  obtain ⟨hreads,hsucceeds⟩ := secure_cert_round_trip SoftMbedtls.mbedtls SoftMbedtls.gcmEncrypt
    SoftMbedtls.base64Correct SoftMbedtls.gcmCorrect Utils.Sha256.sha256_length
      SoftMbedtls.secret_length SoftMbedtls.cert
    SoftMbedtls.cert_legal (SoftMbedtls.state .reliable) (decimal 64) SoftMbedtls.base64
      SoftMbedtls.sha256Hex 65 henc
  obtain ⟨hex,t,h⟩ := hsucceeds rfl rfl rfl (by decide +kernel) (by decide +kernel) (by decide)
  exact ⟨hex, t, h, hreads hex t h⟩

end Sonoff.Nvdm
