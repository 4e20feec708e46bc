import Sonoff.Nvdm.SoftMbedtls

/-! # A private key serves one write

The record of the calls stands behind the session: while the local part is ready, the
newest generated key is the session's, and no write has used it yet.
-/
namespace Sonoff.Nvdm
open Fallible

variable {K α : Type} {mbedtls : Mbedtls K} {session : MatterSecureSession K} {st : SecureState K}

def KeepsSession (m : SecureM K α) : Prop := ∀ P :
    MatterSecureSession K → Prop, Keeps (fun st => P st.session) m

theorem keepsSession_onNvdm (m : NvdmM α) : KeepsSession (onNvdm m : SecureM K α) := by
  intro P st hst
  unfold onNvdm
  cases m st.nvdm <;> exact hst

theorem keepsSession_pubKeyReply (mbedtls : Mbedtls K) (pub : List UInt8)
    (pubHexSize sha256Size : ℕ) :
    KeepsSession (pubKeyReply mbedtls pub pubHexSize sha256Size : SecureM K (CString × CString)) :=
    fun P =>
  (Keeps.require _ _).bind fun _ => (Keeps.ofOption _ _).bind fun _ =>
  (keepsSession_onNvdm _ P).bind fun _ =>
    (keepsSession_onNvdm _ P).bind fun _ => .pure _

theorem keepsSession_pubKeyChecked (mbedtls : Mbedtls K) (pubHex ivHex tagHex sha256Hex : CString) :
    KeepsSession (pubKeyChecked mbedtls pubHex ivHex tagHex sha256Hex : SecureM K (List UInt8)) :=
      fun P =>
  (Keeps.ofOption _ _).bind fun _ => (Keeps.require _ _).bind fun _ =>
  (keepsSession_onNvdm _ P).bind fun _ =>
    (Keeps.require _ _).bind fun _ => .ofOption _ _

/-- A successful call has the new key and no answer to it yet; after any other none is ready. -/
theorem snfMatterPubKeyGet_triple (mbedtls : Mbedtls K) (generated : Option (K × List UInt8))
    (pubHexSize sha256Size : ℕ) :
    Triple (fun _ : SecureState K => True)
      (snfMatterPubKeyGet mbedtls generated pubHexSize sha256Size)
      (fun _ st => ∃ key pub, generated = some (key, pub) ∧ st.session.ecdh = some key ∧
        st.session.peerReady = false)
      (fun _ st => st.session.localReady = false) := by
  unfold snfMatterPubKeyGet
  refine (Triple.modify (R := fun _ (st : SecureState K) => st.session.peerReady = false) fun _ _ =>
    rfl).bind fun _ => ?_
  match generated with
  | none => exact (Triple.modify (R := fun _ (st : SecureState K) => st.session.localReady = false)
      fun _ _ => rfl).bind fun _ => .throw fun _ h => h
  | some (key, pub) =>
    refine Triple.bind (Q := fun _ st => st.session.ecdh = some key ∧ st.session.peerReady = false)
      (fun _ h => ⟨rfl, h⟩) fun _ => ?_
    have hreply := keepsSession_pubKeyReply mbedtls pub pubHexSize sha256Size
      fun session => session.ecdh = some key ∧ session.peerReady = false
    have hclear : ∀ _ :
      Unit, Triple (fun st => st.session.ecdh = some key ∧ st.session.peerReady = false)
        (modify matterSecureSessionClear : SecureM K PUnit) (fun _ st =>
          st.session.localReady = false)
        (fun _ st => st.session.localReady = false) := fun _ _ _ => rfl
    refine (Triple.orElseRun (F := fun _ st => st.session.localReady = false) hreply hclear).bind
      fun _ => ?_
    have hready : Triple (fun st => st.session.ecdh = some key ∧ st.session.peerReady = false)
        (setSession fun session => { session with localReady := true } : SecureM K Unit)
        (fun _ st => st.session.ecdh = some key ∧ st.session.peerReady = false)
        (fun _ st => st.session.localReady = false) := fun _ h => h
    exact hready.bind fun _ => .pure fun _ h => ⟨key, pub, rfl, h⟩

/-- The peer's key is the one to store; nothing else but the IV and the tag changes before the
session is ready. -/
theorem pubKeyStore_triple (peerPub : List UInt8) (ivHex tagHex : CString) :
    Triple (fun st : SecureState K => st.session = session) (pubKeyStore peerPub ivHex tagHex)
      (fun _ st => ∃ iv tag, st.session = { session with peerPub := peerPub, iv := iv, tag := tag, peerReady := true })
      (fun _ st => ∃ iv tag, st.session = { session with peerPub := peerPub, iv := iv, tag :=
        tag }) := by
  have hset : ∀ {u : MatterSecureSession K} {g : MatterSecureSession K → MatterSecureSession K},
    Triple (fun st : SecureState K => st.session = u) (setSession g) (fun _ st => st.session = g u)
      (fun _ st => ∃ iv tag, st.session = { session with peerPub := peerPub, iv := iv, tag :=
        tag }) :=
    fun {u g} => .modify fun _ h => congrArg g h
  have hfail : ∀ {iv tag : List UInt8} (e : Unit) (st : SecureState K),
      st.session = { session with peerPub := peerPub, iv := iv, tag := tag } →
      ∃ iv tag, st.session = { session with peerPub := peerPub, iv := iv, tag := tag } :=
    fun _ _ h => ⟨_, _, h⟩
  unfold pubKeyStore
  refine hset.bind fun _ => ((Keeps.require _ _).triple hfail).bind fun _ => ?_
  refine ((Keeps.ofOption _ _).triple hfail).bind fun iv => hset.bind fun _ => ?_
  refine ((Keeps.ofOption _ _).triple hfail).bind fun tag => hset.bind fun _ => ?_
  exact hset.consequence (fun _ h => h) (fun _ _ h => ⟨iv, tag, h⟩) fun _ _ h => h

theorem snfMatterSecureCertWrite_cleared (st : SecureState K) {dataLen base64 sha256Hex : CString}
    {replySize : ℕ} (h : (st.session.localReady && st.session.peerReady) = true) :
    (stateAfter (snfMatterSecureCertWrite mbedtls dataLen base64 sha256Hex replySize st)).session =
      .cleared K := by
  rw [snfMatterSecureCertWrite_eq st h]
  unfold thenAlways
  cases onNvdm (secureCertUpdate mbedtls st.session dataLen base64 sha256Hex replySize) st <;> rfl

def lastStored : List (KeyEvent K) → Option (List UInt8)
  | [] => none
  | .stored peerPub _ :: _ => some peerPub
  | _ :: earlier => lastStored earlier

/-- The session's private key is the one generated last, and unused. If the peer's part is
ready too, a call has succeeded with it since, and the peer's key is the one stored last. -/
structure FreshKey (session : MatterSecureSession K) (key : K) (since : List (KeyEvent K)) :
    Prop where
  ecdh : session.ecdh = some key
  noNewer : ∀ d, .generated d ∉ since
  unused : ∀ u, .used u ∉ since
  peer : session.peerReady = true → lastStored since = some session.peerPub ∧
    ∃ p, .stored p true ∈ since

/-- The write with this session uses the key generated last, which no write before has used,
and a peer's key stored since. -/
def DerivedFresh (mbedtls : Mbedtls K) (u : MatterSecureSession K) (earlier : List (KeyEvent K)) :
    Prop :=
  ∃ key peer since before, earlier = since ++ .generated key :: before ∧
    (∀ d, .generated d ∉ since) ∧ (∀ v, .used v ∉ since) ∧ lastStored since = some peer ∧
    (∃ p, .stored p true ∈ since) ∧ u.secret mbedtls = mbedtls.ecdhShared key peer

structure SessionTrace.Ok (mbedtls : Mbedtls K) (tr : SessionTrace K) : Prop where
  fresh : tr.session.localReady = true →
    ∃ key since before, tr.history = since ++ .generated key :: before ∧
      FreshKey tr.session key since
  derived : ∀ later u earlier, tr.history = later ++ .used u :: earlier →
    DerivedFresh mbedtls u earlier

theorem FreshKey.derivedFresh {key : K} {since before : List (KeyEvent K)}
    (h : FreshKey session key since)
    (hpeer : session.peerReady = true) :
    DerivedFresh mbedtls session (since ++ .generated key :: before) := by
  obtain ⟨hlast,hok⟩ := h.peer hpeer
  refine ⟨key, session.peerPub, since, before, rfl, h.noNewer, h.unused, hlast, hok, ?_⟩
  unfold MatterSecureSession.secret
  rw [h.ecdh]
  rfl

/-- What is known of every use on record is known of it behind one new event too. -/
theorem eachUse_cons {ε υ : Type} {used : υ → ε} {P : υ → List ε → Prop} {history : List ε} {e : ε}
    (h : ∀ later u earlier, history = later ++ used u :: earlier → P u earlier)
    (he : ∀ u, e = used u → P u history) :
    ∀ later u earlier, e :: history = later ++ used u :: earlier → P u earlier := by
  intro later u earlier heq
  cases later with
  | nil =>
    obtain ⟨hhead,rfl⟩ := List.cons.inj heq
    exact he u hhead
  | cons x later => exact h later u earlier (List.cons.inj heq).2

theorem SessionTrace.Ok.pubKeyGet {tr : SessionTrace K} (h : tr.Ok mbedtls)
    (generated : Option (K × List UInt8)) (pubHexSize sha256Size : ℕ) (nvdm : NvdmState) :
    (tr.step mbedtls (.pubKeyGet generated pubHexSize sha256Size, nvdm)).Ok mbedtls := by
  have hget := snfMatterPubKeyGet_triple mbedtls generated pubHexSize sha256Size ⟨tr.session, nvdm⟩
    trivial
  unfold SessionTrace.step
  simp only [SecureCall.run, SecureCall.event]
  cases hrun : snfMatterPubKeyGet mbedtls generated pubHexSize sha256Size ⟨tr.session, nvdm⟩ with
  | ok reply t =>
    rw [hrun] at hget
    obtain ⟨key,pub,rfl,hecdh,hpeer⟩ := hget
    refine ⟨fun _ => ⟨key, [], tr.history, rfl, hecdh, nofun, nofun, fun hp => ?_⟩,
      eachUse_cons h.derived nofun⟩
    exact absurd (hpeer.symm.trans hp) (by decide)
  | error e t =>
    rw [hrun] at hget
    refine ⟨fun hl => absurd (hget.symm.trans hl) (by decide), ?_⟩
    cases generated <;> exact h.derived

/-- A call that has stored a peer's key is on record behind the same private key. -/
theorem FreshKey.stored {key : K} {since : List (KeyEvent K)} (h : FreshKey session key since)
    (peerPub iv tag : List UInt8) (succeeded : Bool) :
    FreshKey { session with peerPub := peerPub, iv := iv, tag := tag, peerReady := succeeded ||
      session.peerReady } key (.stored peerPub succeeded :: since) where
  ecdh := h.ecdh
  noNewer d hd := h.noNewer d (by simpa using hd)
  unused u hu := h.unused u (by simpa using hu)
  peer hp := by
    refine ⟨rfl, ?_⟩
    cases succeeded with
    | true => exact ⟨peerPub, List.mem_cons_self⟩
    | false =>
      obtain ⟨-,p,hp⟩ := h.peer hp
      exact ⟨p, List.mem_cons_of_mem _ hp⟩

theorem SessionTrace.Ok.stored {tr : SessionTrace K} (h : tr.Ok mbedtls)
    {session : MatterSecureSession K}
    {peerPub iv tag : List UInt8} (succeeded : Bool) (hsession : session = { tr.session with
      peerPub := peerPub, iv := iv, tag := tag, peerReady := succeeded || tr.session.peerReady }) :
    SessionTrace.Ok mbedtls ⟨session, .stored peerPub succeeded :: tr.history⟩ where
  fresh hl := by
    subst hsession
    obtain ⟨key,since,before,hhist,hfresh⟩ := h.fresh hl
    exact ⟨key, .stored peerPub succeeded :: since, before, by rw [hhist, List.cons_append],
      hfresh.stored peerPub iv tag succeeded⟩
  derived := eachUse_cons h.derived nofun

theorem SessionTrace.Ok.pubKeySet {tr : SessionTrace K} (h : tr.Ok mbedtls)
    (pubHex ivHex tagHex sha256Hex : CString)
    (nvdm : NvdmState) : (tr.step mbedtls (.pubKeySet pubHex ivHex tagHex sha256Hex, nvdm)).Ok mbedtls := by
  have hchecked := keepsSession_pubKeyChecked mbedtls pubHex ivHex tagHex sha256Hex
    (fun session => session = tr.session) ⟨tr.session, nvdm⟩ rfl
  unfold SessionTrace.step
  simp only [SecureCall.run, SecureCall.event, snfMatterPubKeySet]
  cases hc : pubKeyChecked mbedtls pubHex ivHex tagHex sha256Hex ⟨tr.session, nvdm⟩ with
  | error e t =>
    rw [hc] at hchecked
    rw [bind_error hc]
    exact ⟨fun hl => hchecked ▸ h.fresh (hchecked ▸ hl), h.derived⟩
  | ok peerPub t =>
    rw [hc] at hchecked
    have hstore := pubKeyStore_triple peerPub ivHex tagHex t hchecked
    rw [bind_ok hc]
    cases hs : pubKeyStore peerPub ivHex tagHex t with
    | ok u v =>
      rw [hs] at hstore
      obtain ⟨iv,tag,hsession⟩ := hstore
      exact h.stored true hsession
    | error e v =>
      rw [hs] at hstore
      obtain ⟨iv,tag,hsession⟩ := hstore
      exact h.stored false hsession

theorem SessionTrace.Ok.secureCertWrite {tr : SessionTrace K} (h : tr.Ok mbedtls)
    (dataLen base64 sha256Hex : CString) (replySize : ℕ) (nvdm : NvdmState) :
    (tr.step mbedtls (.secureCertWrite dataLen base64 sha256Hex replySize, nvdm)).Ok mbedtls := by
  unfold SessionTrace.step
  simp only [SecureCall.run, SecureCall.event]
  by_cases hready : (tr.session.localReady && tr.session.peerReady) = true
  · rw [snfMatterSecureCertWrite_cleared ⟨tr.session, nvdm⟩ hready, if_pos hready]
    refine ⟨nofun, eachUse_cons h.derived fun u hu => ?_⟩
    cases hu
    rw [Bool.and_eq_true] at hready
    obtain ⟨key,since,before,hhist,hfresh⟩ := h.fresh hready.1
    rw [hhist]
    exact hfresh.derivedFresh hready.2
  · rw [snfMatterSecureCertWrite_refused ⟨tr.session, nvdm⟩ (by simpa using hready), if_neg hready]
    exact h

theorem SessionTrace.Ok.step {tr : SessionTrace K} (h : tr.Ok mbedtls)
    (call : SecureCall K × NvdmState) : (tr.step mbedtls call).Ok mbedtls := by
  obtain ⟨call,nvdm⟩ := call
  cases call with
  | pubKeyGet generated pubHexSize sha256Size =>
    exact h.pubKeyGet generated pubHexSize sha256Size nvdm
  | pubKeySet pubHex ivHex tagHex sha256Hex => exact h.pubKeySet pubHex ivHex tagHex sha256Hex nvdm
  | secureCertWrite dataLen base64 sha256Hex replySize =>
    exact h.secureCertWrite dataLen base64 sha256Hex replySize nvdm

/-- The second write of two leaves no record. -/
example : (SessionTrace.run SoftMbedtls.mbedtls SoftMbedtls.calls).history.length =
    3 := by decide +kernel

end Sonoff.Nvdm
