import Sonoff.Nvdm.SoftMbedtls

/-! # No mixed certificate after one failure

A failure behind the first component makes the write erase all three, the first of them
first. Only a second failure could keep a mixture from becoming unreadable.
-/
namespace Sonoff.Nvdm
open Fallible

variable {K : Type} {mbedtls : Mbedtls K} {items : NvdmItem → Option (List UInt8)}
  {cert : SecureCert} {n : ℕ}

/-- Two failures, or the new components, or no readable ones. -/
def Settled (mbedtls : Mbedtls K) (cert : SecureCert) (n : ℕ) (s : NvdmState) : Prop :=
  s.faults + 2 ≤ n ∨ cert.StoredIn mbedtls s.items ∨ s.items .dacCert = some CString.empty.bytes

/-- The erasure starts with the first component, so that its own failure is the second one or
leaves nothing readable. -/
theorem snfMatterSecureCertClear_triple :
    Triple (fun s => s.faults + 1 ≤ n ∨ cert.StoredIn mbedtls s.items) snfMatterSecureCertClear
      (fun _ => Settled mbedtls cert n) (fun _ => Settled mbedtls cert n) := by
  have hnext : ∀ {item : NvdmItem}, item ≠ .dacCert →
      Triple (fun s => s.items .dacCert = some CString.empty.bytes) (matterItemSet item .empty)
        (fun _ s => s.items .dacCert = some CString.empty.bytes) (fun _ =>
          Settled mbedtls cert n) :=
    fun hne => snfNvdmWriteStr_triple (fun s hs _ =>
      (Function.update_of_ne (Ne.symm hne) _ _).trans hs)
      fun s hs _ => Or.inr (Or.inr hs)
  unfold snfMatterSecureCertClear
  refine (snfNvdmWriteStr_triple (Q := fun _ s => s.items .dacCert = some CString.empty.bytes)
    (fun s _ _ => Function.update_self _ _ _) fun s hs hf => ?_).bind fun _ =>
      (hnext (by decide)).bind fun _ => ?_
  · rcases hs with hs | hs
    · have := NvdmState.faults_popWrite_of_failed hf
      exact Or.inl (by omega)
    · exact Or.inr (Or.inl hs)
  · exact (hnext (by decide)).consequence (fun _ h => h) (fun _ _ h => Or.inr (Or.inr h))
      fun _ _ h => h

theorem readOnly_matterSecureCertStoredHash : ReadOnly (matterSecureCertStoredHash mbedtls) :=
  ReadOnly.malloc.bind fun _ => (readOnly_matterBinGet _ _).bind fun _ =>
    (readOnly_matterBinGet _ _).bind fun _ =>
    (ReadOnly.require _ _).bind fun _ => (readOnly_matterBinGet _ _).bind fun _ =>
    readOnly_sha256Bytes _

theorem readOnly_secureCertDecrypt (mbedtls : Mbedtls K) (session : MatterSecureSession K)
    (dataLen base64 sha256Hex : CString) :
    ReadOnly (secureCertDecrypt mbedtls session dataLen base64 sha256Hex) :=
  (ReadOnly.ofOption _ _).bind fun _ => (ReadOnly.require _ _).bind fun _ =>
  (ReadOnly.ofOption _ _).bind fun _ =>
    (readOnly_sha256Bytes _).bind fun _ => (ReadOnly.require _ _).bind fun _ =>
    ReadOnly.tryMalloc.bind fun _ =>
    ReadOnly.tryMalloc.bind fun _ => (ReadOnly.require _ _).bind fun _ =>
    (readOnly_matterBase64Decode _ _).bind fun _ => ReadOnly.sdk.bind fun _ =>
    (ReadOnly.ofOption _ _).bind fun _ =>
    (ReadOnly.require _ _).bind fun _ => (ReadOnly.require _ _).bind fun _ =>
    ReadOnly.sdk.bind fun _ =>
    (ReadOnly.ofOption _ _).bind fun _ => (ReadOnly.ofOption _ _).bind fun _ =>
    (readOnly_sha256Bytes _).bind fun _ =>
    .pure _

/-- With the first component written a failure on the way to the second and the third is the
first one, and one behind them finds all three written. -/
theorem secureCertStore_triple (hb : mbedtls.Base64Correct) (hlegal : cert.Legal)
    (digest : List UInt8) (replySize : ℕ) (items : NvdmItem → Option (List UInt8)) (n : ℕ) :
    Triple (fun s => s.items = items ∧ s.faults ≤ n) (secureCertStore mbedtls cert digest replySize)
      (fun _ s => cert.StoredIn mbedtls s.items) (fun _ s => s.items = items ∨
        Settled mbedtls cert n s) := by
  obtain ⟨hdac,hkey,hpai⟩ := hlegal.ne_nil
  obtain ⟨⟨dacText,hdacText⟩,⟨keyText,hkeyText⟩,⟨paiText,hpaiText⟩⟩ := hlegal.texts hb
  have hstored : ∀ items : NvdmItem → Option (List UInt8), cert.StoredIn mbedtls (Function.update
      (Function.update (Function.update items .dacCert (some dacText.bytes)) .dacKey
        (some keyText.bytes)) .paiCert
      (some paiText.bytes)) := by
    intro items
    exact ⟨⟨dacText, hdacText, by simp⟩, ⟨keyText, hkeyText, by simp⟩, ⟨paiText, hpaiText, by simp⟩⟩
  unfold secureCertStore
  refine ((matterBinSet_triple hdac hdacText).consequence (fun _ h => h) (fun _ _ h => h)
    fun _ _ h => Or.inl h.1).bind fun _ => ?_
  have hrun : Triple (fun s => s.items = Function.update items .dacCert (some dacText.bytes) ∧
    s.faults ≤ n) (do
        matterBinSet mbedtls .dacKey cert.dacKey
        matterBinSet mbedtls .paiCert cert.paiCert
        let stored ← matterSecureCertStoredHash mbedtls
        require (digest = stored) ()
        sha256DigestToHex digest replySize)
      (fun _ s => cert.StoredIn mbedtls s.items) (fun _ s => s.faults + 1 ≤ n ∨
        cert.StoredIn mbedtls s.items) := by
    refine ((matterBinSet_triple hkey hkeyText).consequence (fun _ h => h) (fun _ _ h => h)
      fun _ _ h => Or.inl h.2).bind fun _ => ?_
    refine Triple.bind (Q := fun _ s => cert.StoredIn mbedtls s.items)
      ((matterBinSet_triple hpai hpaiText).consequence
      (fun _ h => h) (fun _ _ h => h.1 ▸ hstored items) fun _ _ h => Or.inl h.2) fun _ => ?_
    refine (readOnly_matterSecureCertStoredHash.keepsItems (R := cert.StoredIn mbedtls)
      (E := cert.StoredIn mbedtls) fun _ h => h).consequence (fun _ h => h) (fun _ _ h => h)
        (fun _ _ h => Or.inr h)
      |>.bind fun _ => ?_
    exact ((Keeps.require _ _).triple fun _ _ h => Or.inr h).bind fun _ =>
      (Keeps.ofOption _ _).triple fun _ _ h => Or.inr h
  exact (Triple.orElseRun hrun fun _ => snfMatterSecureCertClear_triple).consequence (fun _ h => h)
    (fun _ _ h => h) fun _ _ h => Or.inr h

/-- The components a write has accepted. -/
theorem secureCertDecrypt_legal {session : MatterSecureSession K}
    {dataLen base64 sha256Hex : CString} {digest : List UInt8} {s t : NvdmState}
    (h : secureCertDecrypt mbedtls session dataLen base64 sha256Hex s = .ok (cert, digest) t) :
    cert.Legal := by
  unfold secureCertDecrypt at h
  simp only [bind_eq_ok, ofOption_eq_ok, pure_eq_ok] at h
  obtain ⟨_,_,-,_,_,-,_,_,-,_,_,-,_,_,-,_,_,-,_,_,-,_,_,-,_,_,-,_,_,-,_,_,-,_,_,-,_,_,-,_,_,-,_,_,-,
    cert',_,⟨hparse,-⟩,_,_,-,hcert,-⟩ := h
  rw [← (Prod.mk.inj hcert).1]
  exact matterSecureCertParse_legal hparse

/-- What the write leaves in the NVDM: the old items, two failures behind it, the components
it has accepted, or none that can be read. -/
theorem secureCertUpdate_settled (hb : mbedtls.Base64Correct) (session : MatterSecureSession K)
    (dataLen base64 sha256Hex : CString) (replySize : ℕ) (s : NvdmState) :
    let Left : NvdmState → Prop := fun t => t.items = s.items ∨ ∃ cert digest u,
      secureCertDecrypt mbedtls session dataLen base64 sha256Hex s = .ok (cert, digest) u ∧
        Settled mbedtls cert s.faults t
    Triple (fun u => u = s) (secureCertUpdate mbedtls session dataLen base64 sha256Hex replySize)
      (fun _ => Left) (fun _ => Left) := by
  intro Left
  rintro s rfl
  have hread := readOnly_secureCertDecrypt mbedtls session dataLen base64 sha256Hex s s
    ⟨rfl, le_rfl⟩
  unfold secureCertUpdate
  cases hd : secureCertDecrypt mbedtls session dataLen base64 sha256Hex s with
  | error e u =>
    rw [hd] at hread
    rw [bind_error hd]
    exact Or.inl hread.1
  | ok r u =>
    obtain ⟨cert,digest⟩ := r
    rw [hd] at hread
    rw [bind_ok hd]
    dsimp only
    have hstore := secureCertStore_triple hb (secureCertDecrypt_legal hd) digest replySize s.items
      s.faults u hread
    cases hs : secureCertStore mbedtls cert digest replySize u with
    | ok hex v =>
      rw [hs] at hstore
      exact Or.inr ⟨cert, digest, u, hd, Or.inr (Or.inl hstore)⟩
    | error e v =>
      rw [hs] at hstore
      exact hstore.imp_right fun h => ⟨cert, digest, u, hd, h⟩

theorem snfMatterSecureCertWrite_nvdm (hb : mbedtls.Base64Correct) {st t : SecureState K}
    {dataLen base64 sha256Hex : CString} {replySize : ℕ}
    (ht : stateAfter (snfMatterSecureCertWrite mbedtls dataLen base64 sha256Hex replySize st) = t) :
    t.nvdm.items = st.nvdm.items ∨ ∃ cert digest u,
      secureCertDecrypt mbedtls st.session dataLen base64 sha256Hex st.nvdm = .ok (cert, digest) u ∧
        Settled mbedtls cert st.nvdm.faults t.nvdm := by
  cases hready : st.session.localReady && st.session.peerReady with
  | false =>
    rw [snfMatterSecureCertWrite_refused st hready] at ht
    exact Or.inl (congrArg (·.nvdm.items) ht.symm)
  | true =>
    have hupdate := secureCertUpdate_settled hb st.session dataLen base64 sha256Hex replySize
      st.nvdm st.nvdm rfl
    rw [snfMatterSecureCertWrite_eq st hready] at ht
    unfold thenAlways onNvdm at ht
    cases hu : secureCertUpdate mbedtls st.session dataLen base64 sha256Hex replySize st.nvdm with
    | ok hex nvdm =>
      rw [hu] at hupdate ht
      subst ht
      exact hupdate
    | error e nvdm =>
      rw [hu] at hupdate ht
      subst ht
      exact hupdate

/-- A write in which one write, read or allocation fails at most leaves the old items, the
components it has accepted, or nothing a check value can be computed of. -/
theorem secure_cert_single_fault (mbedtls : Mbedtls K) (hb : mbedtls.Base64Correct)
    (st : SecureState K) (dataLen base64 sha256Hex : CString) (replySize : ℕ) (t : SecureState K)
    (ht : stateAfter (snfMatterSecureCertWrite mbedtls dataLen base64 sha256Hex replySize st) = t)
    (hfault : st.nvdm.faults ≤ t.nvdm.faults + 1) :
    t.nvdm.items = st.nvdm.items ∨
      (∃ cert digest u, secureCertDecrypt mbedtls st.session dataLen base64 sha256Hex st.nvdm =
        .ok (cert, digest) u ∧ cert.StoredIn mbedtls t.nvdm.items) ∨
      ∀ outcomes digest u, matterSecureCertStoredHash mbedtls ⟨t.nvdm.items, outcomes⟩ ≠
        .ok digest u := by
  have hleft := snfMatterSecureCertWrite_nvdm hb ht
  rcases hleft with hold | ⟨cert,digest,u,hd,hfaults | hstored | herased⟩
  · exact Or.inl hold
  · omega
  · exact Or.inr (Or.inl ⟨cert, digest, u, hd, hstored⟩)
  · exact Or.inr (Or.inr fun outcomes _ _ =>
      matterSecureCertStoredHash_erased (s := ⟨t.nvdm.items, outcomes⟩) herased)

/-- The second write fails, behind one that has stored the new certificate. -/
theorem secure_cert_second_write_fails :
    let t := stateAfter
      (snfMatterSecureCertWrite SoftMbedtls.mbedtls (decimal 64) SoftMbedtls.base64
      SoftMbedtls.sha256Hex 65 (SoftMbedtls.state ⟨[true, false], [], [], []⟩))
    (SoftMbedtls.state ⟨[true, false], [], [], []⟩).nvdm.faults = t.nvdm.faults + 1 ∧
    t.nvdm.items .dacCert = some CString.empty.bytes ∧
    (t.nvdm.items = (SoftMbedtls.state ⟨[true, false], [], [], []⟩).nvdm.items ∨
      (∃ cert digest u, secureCertDecrypt SoftMbedtls.mbedtls SoftMbedtls.session (decimal 64)
        SoftMbedtls.base64 SoftMbedtls.sha256Hex
        (SoftMbedtls.state ⟨[true, false], [], [], []⟩).nvdm = .ok (cert, digest) u ∧
        cert.StoredIn SoftMbedtls.mbedtls t.nvdm.items) ∨
      ∀ outcomes digest u, matterSecureCertStoredHash SoftMbedtls.mbedtls ⟨t.nvdm.items, outcomes⟩ ≠
        .ok digest u) := by
  have hfaults : (SoftMbedtls.state ⟨[true, false], [], [], []⟩).nvdm.faults =
      (stateAfter (snfMatterSecureCertWrite SoftMbedtls.mbedtls (decimal 64) SoftMbedtls.base64
        SoftMbedtls.sha256Hex 65 (SoftMbedtls.state ⟨[true, false], [], [], []⟩))).nvdm.faults +
          1 := by
    decide +kernel
  exact ⟨hfaults, by decide +kernel, secure_cert_single_fault SoftMbedtls.mbedtls SoftMbedtls.base64Correct
    (SoftMbedtls.state ⟨[true, false], [], [], []⟩) (decimal 64) SoftMbedtls.base64
    SoftMbedtls.sha256Hex 65 _ rfl hfaults.le⟩

end Sonoff.Nvdm
