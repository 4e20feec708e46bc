import Sonoff.Nvdm.Store

/-! # The secure certificate of a device

The DAC certificate, its key and the PAI certificate arrive encrypted under a key
both sides derive, and are stored as base64. Mbed TLS is a parameter.
-/
namespace Sonoff.Nvdm
open Bytes Fallible

/-- What the code uses of Mbed TLS; `K` is the type of a private key. The codecs are
given the size of the output buffer, the decryption key, IV, tag and cipher text. -/
structure Mbedtls (K : Type) where
  sha256 : List UInt8 → List UInt8
  base64Encode : ℕ → List UInt8 → Option (List UInt8)
  base64Decode : ℕ → List UInt8 → Option (List UInt8)
  ecdhShared : K → List UInt8 → Option (List UInt8)
  gcmAuthDecrypt : List UInt8 → List UInt8 → List UInt8 → List UInt8 → Option (List UInt8)

def nvdmMatterCertB64MaxLen : ℕ := 800
def nvdmMatterSecureCertHeaderLen : ℕ := 12
def nvdmMatterDacCertBinMaxLen : ℕ := 600
def nvdmMatterDacKeyBinLen : ℕ := 32
def nvdmMatterPaiCertBinMaxLen : ℕ := 600
def nvdmMatterSecureCertBinMaxLen : ℕ :=
  nvdmMatterSecureCertHeaderLen + nvdmMatterDacCertBinMaxLen + nvdmMatterDacKeyBinLen +
    nvdmMatterPaiCertBinMaxLen
def nvdmMatterSecureCertB64MaxLen : ℕ := 4 * ((nvdmMatterSecureCertBinMaxLen + 2) / 3)
def snfEcdhPublicSize : ℕ := 65
def snfAesGcmKeySize : ℕ := 32
def snfAesGcmIvSize : ℕ := 12
def snfAesGcmTagSize : ℕ := 16
def matterEcdhUncompressedPrefix : UInt8 := 4

structure SecureCert where
  dacCert : List UInt8
  dacKey : List UInt8
  paiCert : List UInt8
  deriving DecidableEq, Repr

/-- The private key, if there is one, and what the peer has sent. -/
structure MatterSecureSession (K : Type) where
  ecdh : Option K
  peerPub : List UInt8
  iv : List UInt8
  tag : List UInt8
  localReady : Bool
  peerReady : Bool

def MatterSecureSession.cleared (K : Type) : MatterSecureSession K where
  ecdh := none
  peerPub := List.replicate snfEcdhPublicSize 0
  iv := List.replicate snfAesGcmIvSize 0
  tag := List.replicate snfAesGcmTagSize 0
  localReady := false
  peerReady := false

variable {K : Type} (mbedtls : Mbedtls K)

def sha256Bytes (data : List UInt8) : NvdmM (List UInt8) := do
  sdkCall
  return mbedtls.sha256 data

def sha256DigestToHex (digest : List UInt8) (hexSize : ℕ) :
    NvdmM CString := ofOption (bytesToHex digest hexSize) ()

def matterBase64Decode (base64 : CString) (outSize : ℕ) : NvdmM (List UInt8) := do
  require (base64.chars ≠ [] && outSize ≠ 0) ()
  let out ← ofOption (mbedtls.base64Decode outSize base64.chars) ()
  require (out ≠ [] && out.length ≤ outSize) ()
  return out

def matterBinSet (item : NvdmItem) (data : List UInt8) : NvdmM Unit := do
  require (data ≠ []) ()
  pvPortMalloc
  let b64 ← ofOption (mbedtls.base64Encode (nvdmMatterCertB64MaxLen + 1) data) ()
  require (b64 ≠ [] && b64.length ≤ nvdmMatterCertB64MaxLen) ()
  matterItemSet item (.ofBuffer b64)

def matterBinGet (item : NvdmItem) (dataSize : ℕ) : NvdmM (List UInt8) := do
  pvPortMalloc
  let b64 ← matterItemGet item (nvdmMatterCertB64MaxLen + 1) nvdmMatterCertB64MaxLen
  matterBase64Decode mbedtls b64 dataSize

def matterSecureCertParse (plain : List UInt8) : Option SecureCert :=
  if plain.length < nvdmMatterSecureCertHeaderLen then none
  else
    let dacLen := le32 plain 0
    let keyLen := le32 plain 4
    let paiLen := le32 plain 8
    if dacLen = 0 ∨ dacLen > nvdmMatterDacCertBinMaxLen ∨ keyLen ≠ nvdmMatterDacKeyBinLen ∨
      paiLen = 0 ∨ paiLen > nvdmMatterPaiCertBinMaxLen then none
    else if nvdmMatterSecureCertHeaderLen + dacLen + keyLen + paiLen ≠ plain.length then none
    else
      let dacCert := nvdmMatterSecureCertHeaderLen
      let dacKey := dacCert + dacLen
      let paiCert := dacKey + keyLen
      some ⟨slice plain dacCert dacLen, slice plain dacKey keyLen, slice plain paiCert paiLen⟩

def SecureCert.plain (cert : SecureCert) : List UInt8 :=
  packLe32 cert.dacCert.length ++ packLe32 cert.dacKey.length ++ packLe32 cert.paiCert.length
    ++ cert.dacCert ++ cert.dacKey ++ cert.paiCert

def matterSecureCertStoredHash : NvdmM (List UInt8) := do
  pvPortMalloc
  let dacCert ← matterBinGet mbedtls .dacCert nvdmMatterDacCertBinMaxLen
  let dacKey ← matterBinGet mbedtls .dacKey nvdmMatterDacKeyBinLen
  require (dacKey.length = nvdmMatterDacKeyBinLen) ()
  let paiCert ← matterBinGet mbedtls .paiCert nvdmMatterPaiCertBinMaxLen
  sha256Bytes mbedtls (SecureCert.plain ⟨dacCert, dacKey, paiCert⟩)

def snfMatterSecureCertClear : NvdmM Unit := do
  matterItemSet .dacCert .empty
  matterItemSet .dacKey .empty
  matterItemSet .paiCert .empty

def snfMatterSecureCertRead (serialSize sha256Size : ℕ) : NvdmM (CString × CString) := do
  let serialNumber ← snfSerialNumberGet serialSize
  let digest ← matterSecureCertStoredHash mbedtls
  let hex ← sha256DigestToHex digest sha256Size
  return (serialNumber, hex)

def snfMatterDacCertGet (size : ℕ) : NvdmM (List UInt8) := matterBinGet mbedtls .dacCert size
def snfMatterDacKeyGet (size : ℕ) : NvdmM (List UInt8) := matterBinGet mbedtls .dacKey size
def snfMatterPaiCertGet (size : ℕ) : NvdmM (List UInt8) := matterBinGet mbedtls .paiCert size

def MatterSecureSession.secret (session : MatterSecureSession K) : Option (List UInt8) := do
  mbedtls.ecdhShared (← session.ecdh) session.peerPub

/-- `snfMatterSecureCertWrite` up to the plain text: its components. -/
def secureCertDecrypt (session : MatterSecureSession K) (dataLen base64 sha256Hex : CString) :
    NvdmM (SecureCert × List UInt8) := do
  let expectLen ← ofOption (parseDecU32 dataLen) ()
  require (expectLen ≠ 0 && base64.length = expectLen &&
    base64.length ≤ nvdmMatterSecureCertB64MaxLen) ()
  let expected ← ofOption (hexBytesDecode sha256Hex snfSha256DigestSize) ()
  let digest ← sha256Bytes mbedtls base64.chars
  require (digest = expected) ()
  let cipherBuffer ← mallocSucceeds
  let plainBuffer ← mallocSucceeds
  require (cipherBuffer && plainBuffer) ()
  let cipher ← matterBase64Decode mbedtls base64 nvdmMatterSecureCertBinMaxLen
  sdkCall
  let secret ← ofOption (session.secret mbedtls) ()
  require (secret.length = snfAesGcmKeySize) ()
  require (cipher.length ≤ nvdmMatterSecureCertBinMaxLen) ()
  sdkCall
  let plain ← ofOption (mbedtls.gcmAuthDecrypt secret session.iv session.tag cipher) ()
  let cert ← ofOption (matterSecureCertParse plain) ()
  let digest ← sha256Bytes mbedtls plain
  return (cert, digest)

/-- The part behind the first component: a failure erases all three. -/
def secureCertStore (cert : SecureCert) (digest : List UInt8) (replySize : ℕ) : NvdmM CString := do
  matterBinSet mbedtls .dacCert cert.dacCert
  orElseRun (do
    matterBinSet mbedtls .dacKey cert.dacKey
    matterBinSet mbedtls .paiCert cert.paiCert
    let stored ← matterSecureCertStoredHash mbedtls
    require (digest = stored) ()
    sha256DigestToHex digest replySize) snfMatterSecureCertClear

end Sonoff.Nvdm
