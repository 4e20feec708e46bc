import Sonoff.Utils.Base64
import Sonoff.Utils.Sha256
import Sonoff.Nvdm.SecureSession
import Sonoff.Nvdm.SecureCertStore

/-! # A software Mbed TLS

SHA-256 and base64 in full. Of the curve P-256 it knows one key exchange, of AES-256-GCM
the encryption of one plain text under the key of that exchange; it leaves any other text
as it is, with a zero tag.
-/
namespace Sonoff.Nvdm
open Utils Fallible

namespace SoftMbedtls

def cert : SecureCert where
  dacCert := [1]
  dacKey := (List.range 32).map UInt8.ofNat
  paiCert := [2]

/-- The device's key pair for the private key 2. -/
def pub : List UInt8 :=
  [4, 124, 242, 123, 24, 141, 3, 79, 126, 138, 82, 56, 3, 4, 181, 26, 195, 192, 137, 105, 226, 119,
    242, 27, 53, 166, 11, 72, 252, 71, 102, 153, 120, 7, 119, 85, 16, 219, 142, 208, 64, 41, 61,
    154, 198, 159, 116, 48, 219, 186, 125,
    173, 230, 60, 233, 130, 41, 158, 4, 183, 157, 34, 120, 115, 209]

/-- The base point, the public key of the private key 1. -/
def peerPub : List UInt8 :=
  [4, 107, 23, 209, 242, 225, 44, 66, 71, 248, 188, 230, 229, 99, 164, 64, 242, 119, 3, 125, 129,
    45, 235, 51, 160, 244, 161, 57, 69, 216, 152, 194, 150, 79, 227, 66, 226, 254, 26, 127, 155,
    142, 231, 235, 74, 124, 15, 158, 22, 43, 206,
    51, 87, 107, 49, 94, 206, 203, 182, 64, 104, 55, 191, 81, 245]

def secret : List UInt8 :=
  [124, 242, 123, 24, 141, 3, 79, 126, 138, 82, 56, 3, 4, 181, 26, 195, 192, 137, 105, 226, 119,
    242, 27, 53, 166, 11, 72, 252, 71, 102, 153, 120]

def iv : List UInt8 := [1, 2, 3, 4, 5, 6, 7, 8, 9, 10, 11, 12]

def cipher : List UInt8 :=
  [57, 118, 236, 44, 100, 99, 73, 124, 176, 241, 176, 63, 12, 171, 81, 12, 84, 210, 20, 220, 53,
    126, 154, 83, 246, 106, 219, 45, 200, 6, 80, 21, 222, 249, 94, 78, 42, 51, 237, 211, 108, 151,
    72, 29, 191, 178]

def tag : List UInt8 := [244, 88, 98, 112, 196, 239, 248, 23, 234, 157, 248, 218, 99, 122, 143, 185]

def zeroTag : List UInt8 := List.replicate snfAesGcmTagSize 0

def gcmEncrypt (key nonce plain : List UInt8) : List UInt8 × List UInt8 :=
  if key = secret ∧ nonce = iv ∧ plain = cert.plain then (cipher, tag) else (plain, zeroTag)

def mbedtls : Mbedtls ℕ where
  sha256 := Sha256.sha256
  base64Encode := fun size data => if (Base64.encode data).length < size then
    some (Base64.encode data) else none
  base64Decode := fun size text => (Base64.decode text).filter (·.length ≤ size)
  ecdhShared := fun key pub => if key = 2 ∧ pub = peerPub then some secret else none
  gcmAuthDecrypt := fun key nonce authTag text =>
    if key = secret ∧ nonce = iv ∧ authTag = tag ∧ text = cipher then some cert.plain
    else if authTag = zeroTag then some text else none

theorem base64Correct : mbedtls.Base64Correct := by
  intro size data _ hsize
  refine ⟨Base64.encode data, ?_, Base64.encode_length data, Base64.encode_ne_zero data,
    fun room hroom => ?_⟩
  · exact if_pos (by rwa [Base64.encode_length])
  · show (Base64.decode (Base64.encode data)).filter _ = _
    rw [Base64.decode_encode]
    exact Option.filter_eq_some_iff.mpr ⟨rfl, by simpa using hroom⟩

theorem gcmCorrect : GcmCorrect mbedtls gcmEncrypt := by
  intro key nonce plain _
  have htag : zeroTag ≠ tag := by decide
  by_cases h : key = secret ∧ nonce = iv ∧ plain = cert.plain
  · rw [gcmEncrypt, if_pos h]
    obtain ⟨rfl,rfl,rfl⟩ := h
    refine ⟨by decide, ?_⟩
    show (if secret = secret ∧ iv = iv ∧ tag = tag ∧ cipher = cipher then some cert.plain
      else if tag = zeroTag then some cipher else none) = some cert.plain
    exact if_pos ⟨rfl, rfl, rfl, rfl⟩
  · rw [gcmEncrypt, if_neg h]
    exact ⟨rfl, (if_neg fun h => htag h.2.2.1).trans (if_pos rfl)⟩

theorem secret_length (key : ℕ) (pub shared : List UInt8)
    (h : mbedtls.ecdhShared key pub = some shared) :
    shared.length = snfAesGcmKeySize := by
  change (if key = 2 ∧ pub = peerPub then some secret else none) = some shared at h
  split at h
  · obtain rfl := Option.some.inj h
    decide
  · cases h

theorem cert_legal : cert.Legal := ⟨by decide, by decide, by decide⟩

def session : MatterSecureSession ℕ where
  ecdh := some 2
  peerPub := peerPub
  iv := iv
  tag := tag
  localReady := true
  peerReady := true

def base64 : CString := ⟨Base64.encode cipher, Base64.encode_ne_zero cipher⟩

def sha256Hex : CString :=
  ⟨hexChars [102, 121, 250, 200, 205, 25, 112, 225, 242, 244, 14, 194, 153, 73, 80, 33, 57, 5, 26,
    28, 57, 243, 75, 44, 108, 204, 52, 77, 207, 31, 183, 91], hexChars_ne_zero _⟩

def state (outcomes : Outcomes) : SecureState ℕ := ⟨session, fun _ => none, outcomes⟩

def digits (data : List UInt8) : CString := ⟨hexChars data, hexChars_ne_zero data⟩

def calls : List (SecureCall ℕ × NvdmState) :=
  let check := Sha256.sha256 (hexChars peerPub ++ [44] ++ hexChars iv ++ [44] ++ hexChars tag)
  [.pubKeyGet (some (2, pub)) 131 65,
    .pubKeySet (digits peerPub) (digits iv) (digits tag) (digits check),
    .secureCertWrite (decimal 64) base64 sha256Hex 65,
      .secureCertWrite (decimal 64) base64 sha256Hex 65].map
    fun call => (call, (state .reliable).nvdm)

end SoftMbedtls

end Sonoff.Nvdm
