import Sonoff.Nvdm.SecureCert

/-! # The key exchange in front of a certificate

Three commands share one session: the device sends a fresh public key, the factory
answers with its own, and the certificate comes encrypted under what both derive.
-/
namespace Sonoff.Nvdm
open Bytes Fallible

structure SecureState (K : Type) where
  session : MatterSecureSession K
  nvdm : NvdmState

abbrev SecureM (K : Type) := EStateM Unit (SecureState K)

variable {K α : Type} (mbedtls : Mbedtls K)

def onNvdm (m : NvdmM α) : SecureM K α := fun st =>
  match m st.nvdm with
  | .ok a nvdm => .ok a { st with nvdm := nvdm }
  | .error e nvdm => .error e { st with nvdm := nvdm }

def SecureState.updateSession (f : MatterSecureSession K → MatterSecureSession K)
    (st : SecureState K) :
    SecureState K := { st with session := f st.session }

def setSession (f : MatterSecureSession K → MatterSecureSession K) :
    SecureM K Unit := modify (·.updateSession f)

def matterSecureSessionClear : SecureState K → SecureState K := SecureState.updateSession fun _ =>
    .cleared K

def nvdmMatterEcdhPubHexLen : ℕ := 130
def nvdmMatterAesGcmIvHexLen : ℕ := 24
def nvdmMatterAesGcmTagHexLen : ℕ := 32

/-- `snfMatterPubKeyGet` once `snfEcdhGenerate` has made a key pair. -/
def pubKeyReply (pub : List UInt8) (pubHexSize sha256Size : ℕ) : SecureM K (CString × CString) := do
  require (pub.length = snfEcdhPublicSize) ()
  let pubHex ← ofOption (bytesToHex pub pubHexSize) ()
  let digest ← onNvdm (sha256Bytes mbedtls pubHex.chars)
  let sha256Hex ← onNvdm (sha256DigestToHex digest sha256Size)
  return (pubHex, sha256Hex)

/-- `generated` is what the random numbers make of `snfEcdhGenerate`: a private and a public
key, or a failure, which leaves no key behind. -/
def snfMatterPubKeyGet (generated : Option (K × List UInt8)) (pubHexSize sha256Size : ℕ) :
    SecureM K (CString × CString) := do
  setSession fun session => { session with
    peerReady := false
    peerPub := List.replicate snfEcdhPublicSize 0
    iv := List.replicate snfAesGcmIvSize 0
    tag := List.replicate snfAesGcmTagSize 0 }
  match generated with
  | none => do
    setSession fun session => { session with ecdh := none, localReady := false }
    throw ()
  | some (key, pub) => do
    setSession fun session => { session with ecdh := some key }
    let reply ← orElseRun (pubKeyReply mbedtls pub pubHexSize sha256Size)
      (modify matterSecureSessionClear : SecureM K PUnit)
    setSession fun session => { session with localReady := true }
    return reply

/-- `snfMatterPubKeySet` up to its first change of the session: the peer's key. -/
def pubKeyChecked (pubHex ivHex tagHex sha256Hex : CString) : SecureM K (List UInt8) := do
  let expected ← ofOption (hexBytesDecode sha256Hex snfSha256DigestSize) ()
  let concat := pubHex.chars ++ [44] ++ ivHex.chars ++ [44] ++ tagHex.chars
  require (concat.length <
    nvdmMatterEcdhPubHexLen + 1 + nvdmMatterAesGcmIvHexLen + 1 + nvdmMatterAesGcmTagHexLen + 1) ()
  let digest ← onNvdm (sha256Bytes mbedtls concat)
  require (digest = expected) ()
  ofOption (hexBytesDecode pubHex snfEcdhPublicSize) ()

/-- The rest of `snfMatterPubKeySet`; a failure keeps what it has stored. -/
def pubKeyStore (peerPub : List UInt8) (ivHex tagHex : CString) : SecureM K Unit := do
  setSession fun session => { session with peerPub := peerPub }
  require (byteAt peerPub 0 = matterEcdhUncompressedPrefix) ()
  let iv ← ofOption (hexBytesDecode ivHex snfAesGcmIvSize) ()
  setSession fun session => { session with iv := iv }
  let tag ← ofOption (hexBytesDecode tagHex snfAesGcmTagSize) ()
  setSession fun session => { session with tag := tag }
  setSession fun session => { session with peerReady := true }

def snfMatterPubKeySet (pubHex ivHex tagHex sha256Hex : CString) : SecureM K Unit := do
  let peerPub ← pubKeyChecked mbedtls pubHex ivHex tagHex sha256Hex
  pubKeyStore peerPub ivHex tagHex

/-- `snfMatterSecureCertWrite` behind its session check. -/
def secureCertUpdate (session : MatterSecureSession K) (dataLen base64 sha256Hex : CString)
    (replySize : ℕ) :
    NvdmM CString := do
  let (cert, digest) ← secureCertDecrypt mbedtls session dataLen base64 sha256Hex
  secureCertStore mbedtls cert digest replySize

/-- Behind the check the session is cleared on every way out. -/
def snfMatterSecureCertWrite (dataLen base64 sha256Hex : CString) (replySize : ℕ) :
    SecureM K CString := do
  let session := (← get).session
  require (session.localReady && session.peerReady) ()
  thenAlways (onNvdm (secureCertUpdate mbedtls session dataLen base64 sha256Hex replySize))
    matterSecureSessionClear

theorem snfMatterSecureCertWrite_refused {mbedtls : Mbedtls K} (st : SecureState K)
    {dataLen base64 sha256Hex : CString}
    {replySize : ℕ} (h : (st.session.localReady && st.session.peerReady) = false) :
    snfMatterSecureCertWrite mbedtls dataLen base64 sha256Hex replySize st = .error () st := by
  show EStateM.bind (require (st.session.localReady && st.session.peerReady) ()) _ st = _
  rw [h]
  rfl

theorem snfMatterSecureCertWrite_eq {mbedtls : Mbedtls K} (st : SecureState K)
    {dataLen base64 sha256Hex : CString}
    {replySize : ℕ} (h : (st.session.localReady && st.session.peerReady) = true) :
    snfMatterSecureCertWrite mbedtls dataLen base64 sha256Hex replySize st =
      thenAlways (onNvdm (secureCertUpdate mbedtls st.session dataLen base64 sha256Hex replySize))
        matterSecureSessionClear st := by
  show EStateM.bind (require (st.session.localReady && st.session.peerReady) ()) _ st = _
  rw [h]
  rfl

inductive SecureCall (K : Type)
  | pubKeyGet (generated : Option (K × List UInt8)) (pubHexSize sha256Size : ℕ)
  | pubKeySet (pubHex ivHex tagHex sha256Hex : CString)
  | secureCertWrite (dataLen base64 sha256Hex : CString) (replySize : ℕ)

inductive KeyEvent (K : Type)
  | generated (key : K)
  | stored (peerPub : List UInt8) (succeeded : Bool)
  | used (session : MatterSecureSession K)

def succeeds : EStateM.Result Unit (SecureState K) α → Bool
  | .ok _ _ => true
  | .error _ _ => false

def stateAfter : EStateM.Result Unit (SecureState K) α → SecureState K
  | .ok _ st => st
  | .error _ st => st

def SecureCall.run (st : SecureState K) : SecureCall K → SecureState K
  | .pubKeyGet generated pubHexSize sha256Size =>
    stateAfter (snfMatterPubKeyGet mbedtls generated pubHexSize sha256Size st)
  | .pubKeySet pubHex ivHex tagHex sha256Hex =>
    stateAfter (snfMatterPubKeySet mbedtls pubHex ivHex tagHex sha256Hex st)
  | .secureCertWrite dataLen base64 sha256Hex replySize =>
    stateAfter (snfMatterSecureCertWrite mbedtls dataLen base64 sha256Hex replySize st)

/-- What it records: a key generated by a successful call, a peer key stored by a call
successful or not, and the session a write goes past its check with. -/
def SecureCall.event (st : SecureState K) : SecureCall K → List (KeyEvent K)
  | .pubKeyGet generated pubHexSize sha256Size =>
    match generated with
    | some (key, _) =>
      if succeeds (snfMatterPubKeyGet mbedtls generated pubHexSize sha256Size st) then
        [.generated key] else []
    | none => []
  | .pubKeySet pubHex ivHex tagHex sha256Hex =>
    match pubKeyChecked mbedtls pubHex ivHex tagHex sha256Hex st with
    | .ok peerPub _ =>
      [.stored peerPub (succeeds (snfMatterPubKeySet mbedtls pubHex ivHex tagHex sha256Hex st))]
    | .error _ _ => []
  | .secureCertWrite _ _ _ _ =>
    if st.session.localReady && st.session.peerReady then [.used st.session] else []

/-- The session with the record of the calls so far, the newest in front. -/
structure SessionTrace (K : Type) where
  session : MatterSecureSession K
  history : List (KeyEvent K)

def SessionTrace.step (tr : SessionTrace K) (call : SecureCall K × NvdmState) : SessionTrace K where
  session := (call.1.run mbedtls ⟨tr.session, call.2⟩).session
  history := call.1.event mbedtls ⟨tr.session, call.2⟩ ++ tr.history

def SessionTrace.run (calls : List (SecureCall K × NvdmState)) : SessionTrace K :=
  calls.foldl (SessionTrace.step mbedtls) ⟨.cleared K, []⟩

end Sonoff.Nvdm
