import Sonoff.Nvdm.SingleUse

/-! # The peer's key, its IV and its tag

`snfMatterPubKeySet` decodes the three fields of a frame into the session one after the other,
and returns at the first it cannot decode. Unless that happens behind a field which was another
before, a certificate is decrypted with what one frame has supplied.
-/
namespace Sonoff.Nvdm
open Bytes Fallible

variable {K : Type} {mbedtls : Mbedtls K} {st : SecureState K}

/-- What the peer sends for one certificate. -/
structure PeerPart where
  peerPub : List UInt8
  iv : List UInt8
  tag : List UInt8
  deriving DecidableEq, Repr

def MatterSecureSession.peerPart (session : MatterSecureSession K) :
    PeerPart := ⟨session.peerPub, session.iv, session.tag⟩

def framePart (pubHex ivHex tagHex : CString) : Option PeerPart := do
  let peerPub ← hexBytesDecode pubHex snfEcdhPublicSize
  let iv ← hexBytesDecode ivHex snfAesGcmIvSize
  let tag ← hexBytesDecode tagHex snfAesGcmTagSize
  return ⟨peerPub, iv, tag⟩

def frameMatches (mbedtls : Mbedtls K) (nvdm : NvdmState)
    (pubHex ivHex tagHex sha256Hex : CString) : Bool :=
  let concat := pubHex.chars ++ [44] ++ ivHex.chars ++ [44] ++ tagHex.chars
  concat.length < nvdmMatterEcdhPubHexLen + 1 + nvdmMatterAesGcmIvHexLen + 1 +
    nvdmMatterAesGcmTagHexLen + 1 &&
    nvdm.nextSdk && hexBytesDecode sha256Hex snfSha256DigestSize = some (mbedtls.sha256 concat)

/-- The IV of a frame whose key is an uncompressed point. -/
def ivBehind (peerPub : List UInt8) (ivHex : CString) : Option (List UInt8) :=
  if byteAt peerPub 0 = matterEcdhUncompressedPrefix then hexBytesDecode ivHex snfAesGcmIvSize
    else none

/-- The fields in front of the first that does not decode are not all those of the session. -/
def replacesFields (session : MatterSecureSession K) (pubHex ivHex tagHex : CString) : Bool :=
  match hexBytesDecode pubHex snfEcdhPublicSize with
  | none => false
  | some peerPub =>
    match ivBehind peerPub ivHex with
    | none => peerPub ≠ session.peerPub
    | some iv =>
      hexBytesDecode tagHex snfAesGcmTagSize = none &&
        (peerPub ≠ session.peerPub || iv ≠ session.iv)

/-- The call gives a frame up halfway, over the fields of another. -/
def breaksOff (mbedtls : Mbedtls K) (st : SecureState K) : SecureCall K → Bool
  | .pubKeySet pubHex ivHex tagHex sha256Hex =>
    frameMatches mbedtls st.nvdm pubHex ivHex tagHex sha256Hex &&
      replacesFields st.session pubHex ivHex tagHex
  | _ => false

/-- What a failing call must not change. -/
structure SamePeer (s t : MatterSecureSession K) : Prop where
  peerPub : t.peerPub = s.peerPub
  iv : t.iv = s.iv
  tag : t.tag = s.tag
  localReady : t.localReady = s.localReady
  peerReady : t.peerReady = s.peerReady

theorem SamePeer.refl (s : MatterSecureSession K) : SamePeer s s := ⟨rfl, rfl, rfl, rfl, rfl⟩

theorem onNvdm_eq_ok {α : Type} {m : NvdmM α} {t : SecureState K} {a : α} :
    onNvdm m st = .ok a t ↔ ∃ nvdm, m st.nvdm = .ok a nvdm ∧ { st with nvdm := nvdm } = t := by
  unfold onNvdm
  cases m st.nvdm <;> simp

theorem sha256Bytes_eq_ok {data digest : List UInt8} {s t : NvdmState} :
    sha256Bytes mbedtls data s = .ok digest t ↔ s.nextSdk = true ∧ mbedtls.sha256 data = digest ∧
      s.popSdk = t := by
  unfold sha256Bytes
  rw [bind_eq_ok]
  unfold sdkCall
  cases s.nextSdk <;> simp [pure_eq_ok]

theorem pubKeyChecked_eq_ok {pubHex ivHex tagHex sha256Hex : CString} {peerPub : List UInt8} :
    (∃ t, pubKeyChecked mbedtls pubHex ivHex tagHex sha256Hex st = .ok peerPub t) ↔
      frameMatches mbedtls st.nvdm pubHex ivHex tagHex sha256Hex = true ∧
        hexBytesDecode pubHex snfEcdhPublicSize = some peerPub := by
  unfold pubKeyChecked frameMatches
  simp only [bind_eq_ok, ofOption_eq_ok, require_eq_ok, onNvdm_eq_ok, sha256Bytes_eq_ok,
    Bool.and_eq_true, decide_eq_true_eq]
  constructor
  · rintro ⟨t,expected,u,⟨hexpected,rfl⟩,-,v,⟨hlen,rfl⟩,digest,w,⟨nvdm,⟨hsdk,hdigest,-⟩,rfl⟩,-,x,
      ⟨heq,rfl⟩,hpub,rfl⟩
    subst hdigest
    exact ⟨⟨⟨hlen, hsdk⟩, heq ▸ hexpected⟩, hpub⟩
  · rintro ⟨⟨⟨hlen,hsdk⟩,hexpected⟩,hpub⟩
    exact ⟨_, _, _, ⟨hexpected, rfl⟩, (), _, ⟨hlen, rfl⟩, _, _, ⟨_, ⟨hsdk, rfl, rfl⟩, rfl⟩, (), _,
      ⟨rfl, rfl⟩, hpub, rfl⟩

/-- The three ways through the rest of the call. -/
theorem pubKeyStore_cases (peerPub : List UInt8) (ivHex tagHex : CString) (st : SecureState K) :
    (ivBehind peerPub ivHex = none ∧
      pubKeyStore peerPub ivHex tagHex st =
        .error () (st.updateSession ({ · with peerPub := peerPub }))) ∨
    ∃ iv, ivBehind peerPub ivHex = some iv ∧
      ((hexBytesDecode tagHex snfAesGcmTagSize = none ∧ pubKeyStore peerPub ivHex tagHex st =
        .error () (st.updateSession ({ · with peerPub := peerPub, iv := iv }))) ∨
      ∃ tag, hexBytesDecode tagHex snfAesGcmTagSize = some tag ∧
        pubKeyStore peerPub ivHex tagHex st =
        .ok () (st.updateSession
          ({ · with peerPub := peerPub, iv := iv, tag := tag, peerReady := true }))) := by
  unfold ivBehind
  by_cases hprefix : byteAt peerPub 0 = matterEcdhUncompressedPrefix
  · rw [if_pos hprefix]
    have hrequire : require (decide (byteAt peerPub 0 = matterEcdhUncompressedPrefix)) () =
        (pure () : SecureM K Unit) := by rw [decide_eq_true hprefix]; rfl
    unfold pubKeyStore
    rw [hrequire]
    cases hiv : hexBytesDecode ivHex snfAesGcmIvSize with
    | none => exact Or.inl ⟨rfl, rfl⟩
    | some iv =>
      refine Or.inr ⟨iv, rfl, ?_⟩
      cases htag : hexBytesDecode tagHex snfAesGcmTagSize with
      | none => exact Or.inl ⟨rfl, rfl⟩
      | some tag => exact Or.inr ⟨tag, rfl, rfl⟩
  · rw [if_neg hprefix]
    refine Or.inl ⟨rfl, ?_⟩
    have hrequire : require (decide (byteAt peerPub 0 = matterEcdhUncompressedPrefix)) () =
        (throw () : SecureM K Unit) := by rw [decide_eq_false hprefix]; rfl
    unfold pubKeyStore
    rw [hrequire]
    rfl

/-- A frame that does not match leaves the session; so does one whose key does not decode. -/
theorem snfMatterPubKeySet_refused (pubHex ivHex tagHex sha256Hex : CString)
    (h : frameMatches mbedtls st.nvdm pubHex ivHex tagHex sha256Hex = false ∨
      hexBytesDecode pubHex snfEcdhPublicSize = none) :
    succeeds (snfMatterPubKeySet mbedtls pubHex ivHex tagHex sha256Hex st) = false ∧
      (stateAfter (snfMatterPubKeySet mbedtls pubHex ivHex tagHex sha256Hex st)).session =
        st.session := by
  have hkept := keepsSession_pubKeyChecked mbedtls pubHex ivHex tagHex sha256Hex
    (fun session => session = st.session) st rfl
  unfold snfMatterPubKeySet
  cases hc : pubKeyChecked mbedtls pubHex ivHex tagHex sha256Hex st with
  | ok peerPub t =>
    obtain ⟨hmatch,hpub⟩ := pubKeyChecked_eq_ok.mp ⟨t, hc⟩
    rcases h with h | h
    · exact absurd (hmatch.symm.trans h) (by decide)
    · exact absurd (hpub.symm.trans h) nofun
  | error e t =>
    rw [hc] at hkept
    rw [bind_error hc]
    exact ⟨rfl, hkept⟩

/-- Behind the digest the call stores what it can decode. -/
theorem snfMatterPubKeySet_stored {pubHex ivHex tagHex sha256Hex : CString} {peerPub : List UInt8}
    (hmatch : frameMatches mbedtls st.nvdm pubHex ivHex tagHex sha256Hex = true)
    (hpub : hexBytesDecode pubHex snfEcdhPublicSize = some peerPub) :
    ∃ t : SecureState K, t.session = st.session ∧
      snfMatterPubKeySet mbedtls pubHex ivHex tagHex sha256Hex st =
        pubKeyStore peerPub ivHex tagHex t := by
  obtain ⟨t,hc⟩ := pubKeyChecked_eq_ok.mpr ⟨hmatch, hpub⟩
  have hkept := keepsSession_pubKeyChecked mbedtls pubHex ivHex tagHex sha256Hex
    (fun session => session = st.session) st rfl
  rw [hc] at hkept
  exact ⟨t, hkept, bind_ok hc⟩

theorem hexBytesDecode_of_ivBehind {peerPub iv : List UInt8} {ivHex : CString}
    (h : ivBehind peerPub ivHex = some iv) : hexBytesDecode ivHex snfAesGcmIvSize = some iv := by
  unfold ivBehind at h
  split at h
  · exact h
  · cases h

/-- A call either succeeds with all three fields of its frame or fails; and a failing one keeps
the fields of the session where it does not break off over others, and only there. -/
theorem snfMatterPubKeySet_cases (mbedtls : Mbedtls K) (st : SecureState K)
    (pubHex ivHex tagHex sha256Hex : CString) : (∃ part, framePart pubHex ivHex tagHex = some part ∧
      succeeds (snfMatterPubKeySet mbedtls pubHex ivHex tagHex sha256Hex st) = true ∧
      breaksOff mbedtls st (.pubKeySet pubHex ivHex tagHex sha256Hex) = false ∧
      (stateAfter (snfMatterPubKeySet mbedtls pubHex ivHex tagHex sha256Hex st)).session =
        { st.session with
        peerPub := part.peerPub, iv := part.iv, tag := part.tag, peerReady := true }) ∨
    succeeds (snfMatterPubKeySet mbedtls pubHex ivHex tagHex sha256Hex st) = false ∧
      (SamePeer st.session
        (stateAfter (snfMatterPubKeySet mbedtls pubHex ivHex tagHex sha256Hex st)).session ↔
        breaksOff mbedtls st (.pubKeySet pubHex ivHex tagHex sha256Hex) = false) ∧
      (stateAfter (snfMatterPubKeySet mbedtls pubHex ivHex tagHex sha256Hex st)).session.ecdh =
        st.session.ecdh := by
  have hbreaks : breaksOff mbedtls st (.pubKeySet pubHex ivHex tagHex sha256Hex) =
      (frameMatches mbedtls st.nvdm pubHex ivHex tagHex sha256Hex &&
        replacesFields st.session pubHex ivHex tagHex) := rfl
  cases hmatch : frameMatches mbedtls st.nvdm pubHex ivHex tagHex sha256Hex with
  | false =>
    obtain ⟨hfail,hsame⟩ := snfMatterPubKeySet_refused pubHex ivHex tagHex sha256Hex (Or.inl hmatch)
    rw [hmatch, Bool.false_and] at hbreaks
    exact Or.inr ⟨hfail, ⟨fun _ => hbreaks, fun _ => hsame ▸ .refl _⟩, hsame ▸ rfl⟩
  | true =>
    rw [hmatch, Bool.true_and] at hbreaks
    cases hpub : hexBytesDecode pubHex snfEcdhPublicSize with
    | none =>
      obtain ⟨hfail,hsame⟩ := snfMatterPubKeySet_refused pubHex ivHex tagHex sha256Hex (Or.inr hpub)
      have hnone : breaksOff mbedtls st (.pubKeySet pubHex ivHex tagHex sha256Hex) = false := by
        rw [hbreaks, replacesFields, hpub]
      exact Or.inr ⟨hfail, ⟨fun _ => hnone, fun _ => hsame ▸ .refl _⟩, hsame ▸ rfl⟩
    | some peerPub =>
      obtain ⟨t,hsession,hset⟩ := snfMatterPubKeySet_stored hmatch hpub
      rw [hset, ← hsession]
      obtain ⟨hiv,hstore⟩ | ⟨iv,hiv,⟨htag,hstore⟩ | ⟨tag,htag,hstore⟩⟩ :=
        pubKeyStore_cases peerPub ivHex tagHex t
      · rw [hstore]
        simp only [replacesFields, hpub, hiv, ← hsession] at hbreaks
        refine Or.inr ⟨rfl, ?_, rfl⟩
        rw [hbreaks, decide_eq_false_iff_not, not_not]
        exact ⟨fun h => h.peerPub, fun h => ⟨h, rfl, rfl, rfl, rfl⟩⟩
      · rw [hstore]
        simp only [replacesFields, hpub, hiv, htag, decide_true, Bool.true_and,
          ← hsession] at hbreaks
        refine Or.inr ⟨rfl, ?_, rfl⟩
        rw [hbreaks, Bool.or_eq_false_iff, decide_eq_false_iff_not, decide_eq_false_iff_not,
          not_not, not_not]
        exact ⟨fun h => ⟨h.peerPub, h.iv⟩, fun h => ⟨h.1, h.2, rfl, rfl, rfl⟩⟩
      · rw [hstore]
        refine Or.inl ⟨⟨peerPub, iv, tag⟩, ?_, rfl, ?_, rfl⟩
        · rw [framePart, hpub, hexBytesDecode_of_ivBehind hiv, htag]
          rfl
        · rw [hbreaks, replacesFields, hpub]
          simp [hiv, htag]

inductive PeerEvent
  | fetched
  | supplied (part : PeerPart)
  | used (part : PeerPart)
  deriving DecidableEq, Repr

/-- A successful `snfMatterPubKeyGet`, the frame of a successful `snfMatterPubKeySet`, and the
fields a write goes past its check with. -/
def SecureCall.peerEvent (mbedtls : Mbedtls K) (st : SecureState K) : SecureCall K → List PeerEvent
  | .pubKeyGet generated pubHexSize sha256Size =>
    if succeeds (snfMatterPubKeyGet mbedtls generated pubHexSize sha256Size st) then [.fetched]
      else []
  | .pubKeySet pubHex ivHex tagHex sha256Hex =>
    if succeeds (snfMatterPubKeySet mbedtls pubHex ivHex tagHex sha256Hex st) then
      (framePart pubHex ivHex tagHex).toList.map .supplied
    else []
  | .secureCertWrite _ _ _ _ =>
    if st.session.localReady && st.session.peerReady then [.used st.session.peerPart] else []

/-- The session with the record of the calls so far, the newest in front. -/
structure PeerTrace (K : Type) where
  session : MatterSecureSession K
  history : List PeerEvent

def PeerTrace.step (mbedtls : Mbedtls K) (tr : PeerTrace K) (call : SecureCall K × NvdmState) :
    PeerTrace K where
  session := (call.1.run mbedtls ⟨tr.session, call.2⟩).session
  history := call.1.peerEvent mbedtls ⟨tr.session, call.2⟩ ++ tr.history

def PeerTrace.run (mbedtls : Mbedtls K) (calls : List (SecureCall K × NvdmState)) : PeerTrace K :=
  calls.foldl (PeerTrace.step mbedtls) ⟨.cleared K, []⟩

/-- The frame of the last successful `snfMatterPubKeySet`. -/
def lastSupplied : List PeerEvent → Option PeerPart
  | [] => none
  | .supplied part :: _ => some part
  | _ :: earlier => lastSupplied earlier

/-- One frame since the last successful `snfMatterPubKeyGet` has supplied all of it. -/
def SuppliedSince (part : PeerPart) (earlier : List PeerEvent) : Prop :=
  ∃ since before, earlier = since ++ .fetched :: before ∧ .fetched ∉ since ∧
    lastSupplied since = some part

structure PeerTrace.Ok (tr : PeerTrace K) : Prop where
  fetched : tr.session.localReady = true →
    ∃ since before, tr.history = since ++ .fetched :: before ∧
    .fetched ∉ since ∧ (tr.session.peerReady = true → lastSupplied since = some tr.session.peerPart)
  supplied : ∀ later part earlier, tr.history = later ++ .used part :: earlier →
    SuppliedSince part earlier

theorem PeerTrace.Ok.pubKeyGet {tr : PeerTrace K} (h : tr.Ok) (generated : Option (K × List UInt8))
    (pubHexSize sha256Size : ℕ) (nvdm : NvdmState) :
    (tr.step mbedtls (.pubKeyGet generated pubHexSize sha256Size, nvdm)).Ok := by
  have hget := snfMatterPubKeyGet_triple mbedtls generated pubHexSize sha256Size ⟨tr.session, nvdm⟩
    trivial
  unfold PeerTrace.step
  simp only [SecureCall.run, SecureCall.peerEvent]
  cases hrun : snfMatterPubKeyGet mbedtls generated pubHexSize sha256Size ⟨tr.session, nvdm⟩ with
  | ok reply t =>
    rw [hrun] at hget
    obtain ⟨-,-,-,-,hpeer⟩ := hget
    refine ⟨fun _ => ⟨[], tr.history, rfl, List.not_mem_nil, fun hp => ?_⟩,
      eachUse_cons h.supplied fun _ hu => ?_⟩
    · exact absurd (hpeer.symm.trans hp) (by decide)
    · cases hu
  | error e t =>
    rw [hrun] at hget
    exact ⟨fun hl => absurd (hget.symm.trans hl) (by decide), h.supplied⟩

theorem PeerTrace.Ok.pubKeySet {tr : PeerTrace K} (h : tr.Ok)
    (pubHex ivHex tagHex sha256Hex : CString)
    (nvdm : NvdmState)
    (hwhole : breaksOff mbedtls ⟨tr.session, nvdm⟩ (.pubKeySet pubHex ivHex tagHex sha256Hex) =
    false) : (tr.step mbedtls (.pubKeySet pubHex ivHex tagHex sha256Hex, nvdm)).Ok := by
  unfold PeerTrace.step
  simp only [SecureCall.run, SecureCall.peerEvent]
  obtain ⟨part,hpart,hok,-,hsession⟩ | ⟨hfail,hsame,-⟩ :=
    snfMatterPubKeySet_cases mbedtls ⟨tr.session, nvdm⟩ pubHex ivHex tagHex sha256Hex
  · rw [if_pos hok, hpart, hsession]
    refine ⟨fun hl => ?_, eachUse_cons h.supplied fun _ hu => ?_⟩
    · obtain ⟨since,before,hhist,hnone,-⟩ := h.fetched hl
      refine ⟨.supplied part :: since, before, ?_, ?_, fun _ => rfl⟩
      · rw [hhist]
        rfl
      · simpa using hnone
    · cases hu
  · -- A failing call has left the fields it could have mixed.
    have hsame := hsame.mpr hwhole
    rw [hfail, if_neg (by decide)]
    refine ⟨fun hl => ?_, h.supplied⟩
    obtain ⟨since,before,hhist,hnone,hlast⟩ := h.fetched (hsame.localReady.symm.trans hl)
    refine ⟨since, before, hhist, hnone, fun hp => ?_⟩
    rw [hlast (hsame.peerReady.symm.trans hp)]
    unfold MatterSecureSession.peerPart
    rw [hsame.peerPub, hsame.iv, hsame.tag]

theorem PeerTrace.Ok.secureCertWrite {tr : PeerTrace K} (h : tr.Ok)
    (dataLen base64 sha256Hex : CString) (replySize : ℕ) (nvdm : NvdmState) :
    (tr.step mbedtls (.secureCertWrite dataLen base64 sha256Hex replySize, nvdm)).Ok := by
  unfold PeerTrace.step
  simp only [SecureCall.run, SecureCall.peerEvent]
  by_cases hready : (tr.session.localReady && tr.session.peerReady) = true
  · rw [snfMatterSecureCertWrite_cleared ⟨tr.session, nvdm⟩ hready, if_pos hready]
    refine ⟨fun hl => ?_, eachUse_cons h.supplied fun part hpart => ?_⟩
    · cases hl
    cases hpart
    rw [Bool.and_eq_true] at hready
    obtain ⟨since,before,hhist,hnone,hlast⟩ := h.fetched hready.1
    exact ⟨since, before, hhist, hnone, hlast hready.2⟩
  · rw [snfMatterSecureCertWrite_refused ⟨tr.session, nvdm⟩ (by simpa using hready), if_neg hready]
    exact h

theorem PeerTrace.Ok.step {tr : PeerTrace K} (h : tr.Ok) (call : SecureCall K) (nvdm : NvdmState)
    (hwhole : breaksOff mbedtls ⟨tr.session, nvdm⟩ call = false) :
    (tr.step mbedtls (call, nvdm)).Ok := by
  cases call with
  | pubKeyGet generated pubHexSize sha256Size =>
    exact h.pubKeyGet generated pubHexSize sha256Size nvdm
  | pubKeySet pubHex ivHex tagHex sha256Hex =>
    exact h.pubKeySet pubHex ivHex tagHex sha256Hex nvdm hwhole
  | secureCertWrite dataLen base64 sha256Hex replySize =>
    exact h.secureCertWrite dataLen base64 sha256Hex replySize nvdm

namespace SoftMbedtls

def check (pubHex ivHex tagHex : CString) : CString :=
  digits (Utils.Sha256.sha256 (pubHex.chars ++ [44] ++ ivHex.chars ++ [44] ++ tagHex.chars))

end SoftMbedtls

end Sonoff.Nvdm
