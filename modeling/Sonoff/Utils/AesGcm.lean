import Mathlib.Data.List.Basic
import Mathlib.Tactic.Common

/-! # The SDK's CRC register and mbedtls GCM behind the utility layer

The SDK is not part of the repository, so it is a parameter: the CRC register
update, the mbedtls calls on a GCM context (`G` is the type of a context on which
`mbedtls_gcm_starts` succeeded) and the key array compiled into the firmware.
`Sdk.Incremental` is the documented streaming behaviour of the two updates.
-/
namespace Sonoff.AesGcm

inductive MbedtlsError
  | authFailed
  | bufferTooSmall
  | badInput
  | other
  deriving DecidableEq, Repr

structure Sdk (G : Type) where
  crc32Update : UInt32 → List UInt8 → UInt32
  gcmSetkey : List UInt8 → Option MbedtlsError
  gcmStarts : List UInt8 → List UInt8 → Except MbedtlsError G
  gcmUpdateAd : G → List UInt8 → Except MbedtlsError G
  gcmUpdate : G → List UInt8 → Except MbedtlsError (G × List UInt8)
  gcmFinish : G → Except MbedtlsError (List UInt8)
  otaAesKey : List UInt8

def snfAesGcmIvSize : ℕ := 12
def snfAesGcmTagSize : ℕ := 16

inductive SnfAesGcmRet
  | ok
  | invalidParam
  | bufferTooSmall
  | authFailed
  | internal
  deriving DecidableEq, Repr

def aesGcmMapError : MbedtlsError → SnfAesGcmRet
  | .authFailed => .authFailed
  | .bufferTooSmall => .bufferTooSmall
  | .badInput => .invalidParam
  | .other => .internal

variable {G : Type} (sdk : Sdk G)

def snfCrc32 (crc : UInt32) (data : List UInt8) : UInt32 := sdk.crc32Update crc data

def aesGcmPrepare (key : List UInt8) : SnfAesGcmRet :=
  match sdk.gcmSetkey key with
  | none => .ok
  | some _ => .internal

def snfAesGcmDecryptStart (key iv authData : List UInt8) : Except SnfAesGcmRet G :=
  match aesGcmPrepare sdk key with
  | .ok =>
    match sdk.gcmStarts key iv with
    | .error e => .error (aesGcmMapError e)
    | .ok gcm =>
      match sdk.gcmUpdateAd gcm authData with
      | .error e => .error (aesGcmMapError e)
      | .ok gcm => .ok gcm
  | ret => .error ret

/-- The new context and the plaintext; a result of another length than the input is refused. -/
def snfAesGcmDecryptUpdate (gcm : G) (cipher : List UInt8) : Except SnfAesGcmRet (G × List UInt8) :=
  if cipher.length = 0 then .error .invalidParam
  else
    match sdk.gcmUpdate gcm cipher with
    | .error e => .error (aesGcmMapError e)
    | .ok (gcm, plaintext) =>
      if plaintext.length ≠ cipher.length then .error .internal else .ok (gcm, plaintext)

def snfAesGcmDecryptFinish (gcm : G) (tag : List UInt8) : SnfAesGcmRet :=
  match sdk.gcmFinish gcm with
  | .error e => aesGcmMapError e
  | .ok actualTag => if actualTag = tag then .ok else .authFailed

/-- CRC and GCM updates are incremental, and an update of a started context with
data neither fails nor changes the length. -/
structure Sdk.Incremental : Prop where
  crc_append : ∀ crc xs ys, sdk.crc32Update crc (xs ++ ys) =
    sdk.crc32Update (sdk.crc32Update crc xs) ys
  update_total : ∀ gcm xs, xs ≠ [] →
    ∃ gcm' out, sdk.gcmUpdate gcm xs = .ok (gcm', out) ∧ out.length = xs.length
  update_append : ∀ gcm xs ys gcm₁ gcm₂ out₁ out₂, xs ≠ [] → ys ≠ [] →
    sdk.gcmUpdate gcm xs = .ok (gcm₁, out₁) → sdk.gcmUpdate gcm₁ ys = .ok (gcm₂, out₂) →
      sdk.gcmUpdate gcm (xs ++ ys) = .ok (gcm₂, out₁ ++ out₂)

/-- The whole message at once: under `key`, `iv` and `authData` the ciphertext
decrypts to `plain` and the tag verifies. -/
def Sdk.Opens (key iv authData cipher tag plain : List UInt8) : Prop :=
  sdk.gcmSetkey key = none ∧ ∃ g₀ g₁ g₂, sdk.gcmStarts key iv = .ok g₀ ∧
    sdk.gcmUpdateAd g₀ authData = .ok g₁
    ∧ sdk.gcmUpdate g₁ cipher = .ok (g₂, plain) ∧ sdk.gcmFinish g₂ = .ok tag

variable {sdk}

theorem Sdk.Opens.unique {key iv authData cipher tag tag' plain plain' : List UInt8}
    (h : sdk.Opens key iv authData cipher tag plain)
    (h' : sdk.Opens key iv authData cipher tag' plain') :
    plain = plain' := by
  obtain ⟨_,g₀,g₁,g₂,hs,ha,hu,_⟩ := h
  obtain ⟨_,k₀,k₁,k₂,hs',ha',hu',_⟩ := h'
  cases hs.symm.trans hs'
  cases ha.symm.trans ha'
  cases hu.symm.trans hu'
  rfl

theorem snfAesGcmDecryptStart_ok {key iv authData : List UInt8} {gcm : G} :
    snfAesGcmDecryptStart sdk key iv authData = .ok gcm ↔
      sdk.gcmSetkey key = none ∧ ∃ g₀, sdk.gcmStarts key iv = .ok g₀ ∧
        sdk.gcmUpdateAd g₀ authData = .ok gcm := by
  unfold snfAesGcmDecryptStart aesGcmPrepare
  cases hk : sdk.gcmSetkey key with
  | some e => simp
  | none =>
    cases hs : sdk.gcmStarts key iv with
    | error e => simp
    | ok g₀ =>
      cases ha : sdk.gcmUpdateAd g₀ authData <;> simp [ha]

theorem snfAesGcmDecryptFinish_ok {gcm : G} {tag : List UInt8} :
    snfAesGcmDecryptFinish sdk gcm tag = .ok ↔ sdk.gcmFinish gcm = .ok tag := by
  unfold snfAesGcmDecryptFinish
  cases hf : sdk.gcmFinish gcm with
  | error e => cases e <;> simp [aesGcmMapError]
  | ok actualTag => by_cases h : actualTag = tag <;> simp [h]

theorem Sdk.Incremental.snfCrc32_append (h : sdk.Incremental) (crc : UInt32) (xs ys : List UInt8) :
    snfCrc32 sdk crc (xs ++ ys) = snfCrc32 sdk (snfCrc32 sdk crc xs) ys := h.crc_append crc xs ys

theorem Sdk.Incremental.decryptUpdate_total (h : sdk.Incremental) (gcm : G) {xs : List UInt8}
    (hx : xs ≠ []) : ∃ gcm' out, snfAesGcmDecryptUpdate sdk gcm xs = .ok (gcm', out) ∧
    out.length = xs.length := by
  obtain ⟨gcm',out,he,hl⟩ := h.update_total gcm xs hx
  refine ⟨gcm',out,?_,hl⟩
  simp [snfAesGcmDecryptUpdate, he, hl, hx]

theorem decryptUpdate_ok {gcm gcm' : G} {xs out : List UInt8}
    (h : snfAesGcmDecryptUpdate sdk gcm xs = .ok (gcm', out)) :
    xs ≠ [] ∧ sdk.gcmUpdate gcm xs = .ok (gcm', out) ∧ out.length = xs.length := by
  unfold snfAesGcmDecryptUpdate at h
  split at h
  case isTrue => cases h
  case isFalse hx =>
    split at h
    · cases h
    case h_2 he =>
      split at h
      case isTrue => cases h
      case isFalse hl =>
        cases h
        exact ⟨by simpa using hx, he, by simpa using hl⟩

theorem Sdk.Incremental.decryptUpdate_append (h : sdk.Incremental) {gcm gcm₁ gcm₂ : G}
    {xs ys out₁ out₂ : List UInt8} (h₁ : snfAesGcmDecryptUpdate sdk gcm xs = .ok (gcm₁, out₁))
    (h₂ : snfAesGcmDecryptUpdate sdk gcm₁ ys = .ok (gcm₂, out₂)) :
    snfAesGcmDecryptUpdate sdk gcm (xs ++ ys) = .ok (gcm₂, out₁ ++ out₂) := by
  obtain ⟨hx,he₁,hl₁⟩ := decryptUpdate_ok h₁
  obtain ⟨hy,he₂,hl₂⟩ := decryptUpdate_ok h₂
  have he := h.update_append _ _ _ _ _ _ _ hx hy he₁ he₂
  simp [snfAesGcmDecryptUpdate, he, hl₁, hl₂, hx]

/-- The streaming calls open a message exactly when it opens at once. -/
theorem Sdk.Incremental.opens_iff (h : sdk.Incremental)
    {key iv authData cipher tag plain : List UInt8}
    (hc : cipher ≠ []) : sdk.Opens key iv authData cipher tag plain ↔
      ∃ g₁ g₂, snfAesGcmDecryptStart sdk key iv authData = .ok g₁
        ∧ snfAesGcmDecryptUpdate sdk g₁ cipher = .ok (g₂, plain) ∧
          snfAesGcmDecryptFinish sdk g₂ tag = .ok := by
  constructor
  · rintro ⟨hk,g₀,g₁,g₂,hs,ha,hu,hf⟩
    obtain ⟨g,out,hu',hl⟩ := h.update_total g₁ cipher hc
    have heq : (g₂, plain) = (g, out) := Except.ok.inj (hu.symm.trans hu')
    cases heq
    refine ⟨g₁, g₂, snfAesGcmDecryptStart_ok.mpr ⟨hk,g₀,hs,ha⟩, ?_,
      snfAesGcmDecryptFinish_ok.mpr hf⟩
    simp [snfAesGcmDecryptUpdate, hc, hu, hl]
  · rintro ⟨g₁,g₂,hs,hu,hf⟩
    obtain ⟨hk,g₀,hs,ha⟩ := snfAesGcmDecryptStart_ok.mp hs
    exact ⟨hk, g₀, g₁, g₂, hs, ha, (decryptUpdate_ok hu).2.1, snfAesGcmDecryptFinish_ok.mp hf⟩

end Sonoff.AesGcm
