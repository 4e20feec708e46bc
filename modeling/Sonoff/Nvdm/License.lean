import Sonoff.Nvdm.Store

/-! # The license of a device

cJSON and the SHA-256 of the SDK are parameters. The commands print their replies;
here they return them.
-/
namespace Sonoff.Nvdm
open Bytes Fallible

inductive CJsonType
  | object
  | number
  | string
  | other
  deriving DecidableEq, Repr

/-- What the code uses of cJSON; `J` is the type of a parsed item. -/
structure CJson (J : Type) where
  parse : CString → Option J
  getObjectItem : J → String → Option J
  printUnformatted : J → CString
  type : J → CJsonType
  valuestring : J → Option CString
  valueint : J → Int

inductive SnfLicenseRet
  | errFrameLen
  | errSha256
  | errRules
  | errModel
  | errStorage
  deriving DecidableEq, Repr

structure License where
  deviceId : CString
  apikey : CString
  baseMac : CString
  deviceModel : CString
  uiid : CString
  deriving DecidableEq

def nvdmFactoryDeviceIdLen : ℕ := 10
def nvdmFactoryUiidStrMaxLen : ℕ := 10
def nvdmMatterNameMaxLen : ℕ := 32
def nvdmFactorySha256HexLen : ℕ := 64

def sonoffDeviceModel : CString := ⟨[111, 110, 111, 102, 102, 95, 112, 108, 117, 103], by simp⟩

variable (sha256 : List UInt8 → List UInt8)

def licenseSha256Hex (parts : List CString) (hexSize : ℕ) : NvdmM CString := do
  sdkCall
  ofOption (bytesToHex (sha256 (parts.flatMap CString.chars)) hexSize) ()

/-- The order of the check in the frame. -/
def License.c1 (l : License) :
    List CString := [l.apikey, l.baseMac, l.deviceModel, l.uiid, l.deviceId]

def License.c5 (l : License) :
    List CString := [l.deviceId, l.apikey, l.baseMac, l.deviceModel, l.uiid]

/-- The five items as `snfLicenseRead` and the read-back find them. -/
def readLicense : NvdmM License := do
  let deviceId ← factoryStrRead .deviceId (nvdmFactoryDeviceIdLen + 1)
  let apikey ← factoryStrRead .factoryApikey (nvdmFactoryApikeyLen + 1)
  let baseMac ← factoryStrRead .baseMac (nvdmFactoryBaseMacStrLen + 1)
  let deviceModel ← factoryStrRead .deviceModel (nvdmMatterNameMaxLen + 1)
  let uiid ← factoryStrRead .deviceUiid (nvdmFactoryUiidStrMaxLen + 1)
  return ⟨deviceId, apikey, baseMac, deviceModel, uiid⟩

def License.isValid (l : License) : Bool :=
  l.deviceId.length = nvdmFactoryDeviceIdLen && factoryApikeyIsValid l.apikey &&
    (baseMacParse l.baseMac).isSome && l.deviceModel.chars ≠ [] && l.uiid.chars ≠ []

/-- The uiid, the model and the check value, where the caller's buffers are large enough. -/
def snfLicenseRead (uiidSize deviceModelSize sha256Size : ℕ) :
    NvdmM (CString × CString × CString) := do
  require (nvdmFactoryUiidStrMaxLen < uiidSize && nvdmMatterNameMaxLen < deviceModelSize
    && nvdmFactorySha256HexLen < sha256Size) ()
  let l ← readLicense
  require l.isValid ()
  let hex ← licenseSha256Hex sha256 l.c5 sha256Size
  return (l.uiid, l.deviceModel, hex)

def snfLicenseIsValid : NvdmM (CString × CString × CString) :=
  snfLicenseRead sha256 (nvdmFactoryUiidStrMaxLen + 1) (nvdmMatterNameMaxLen + 1)
    (nvdmFactorySha256HexLen + 1)

def snfLicenseClear : NvdmM Unit := do
  factoryStrWrite .deviceId .empty
  factoryStrWrite .factoryApikey .empty
  factoryStrWrite .baseMac .empty
  factoryStrWrite .deviceModel .empty
  factoryStrWrite .deviceUiid .empty

section Write
variable {J : Type} (json : CJson J)

def stringMember (object : J) (name : String) : Option CString := do
  let item ← json.getObjectItem object name
  if json.type item = .string then json.valuestring item else none

def numberMember (object : J) (name : String) : Option Int := do
  let item ← json.getObjectItem object name
  if json.type item = .number then some (json.valueint item) else none

def licenseFields (frame : J) : Option License := do
  let deviceId ← stringMember json frame "deviceid"
  let apikey ← stringMember json frame "factory_apikey"
  let baseMac ← stringMember json frame "base_mac"
  let deviceModel ← stringMember json frame "device_model"
  let value ← numberMember json frame "uiid"
  let uiid := decimal value.toNat
  if deviceId.length = nvdmFactoryDeviceIdLen ∧ factoryApikeyIsValid apikey ∧
    (baseMacParse baseMac).isSome ∧ deviceModel.chars ≠ [] ∧ 0 ≤ value ∧
    uiid.length < nvdmFactoryUiidStrMaxLen + 1 then
    some ⟨deviceId, apikey, baseMac, deviceModel, uiid⟩
  else none

/-- The part of `snfLicenseWrite` before its first write: the license and its check. -/
def licenseFrame (text : CString) : EStateM SnfLicenseRet NvdmState (License × CString) := do
  require (text.chars ≠ []) .errRules
  EStateM.adaptExcept (fun _ => .errRules) pvPortMalloc
  let root ← ofOption (json.parse text) .errRules
  let frame ← ofOption (json.getObjectItem root "license_frame") .errRules
  require (json.type frame = .object) .errRules
  let frameLen ← ofOption (numberMember json root "license_frame_len") .errRules
  EStateM.adaptExcept (fun _ => .errRules) pvPortMalloc
  require (frameLen = (json.printUnformatted frame).length) .errFrameLen
  let l ← ofOption (licenseFields json frame) .errRules
  let check ← ofOption (stringMember json root "sha256_check") .errRules
  let input ← ofOption (hexBytesDecode check snfSha256DigestSize) .errRules
  let c1 ← EStateM.adaptExcept (fun _ => .errStorage)
    (licenseSha256Hex sha256 l.c1 (nvdmFactorySha256HexLen + 1))
  let expect ← ofOption (hexBytesDecode c1 snfSha256DigestSize) .errStorage
  require (input = expect) .errSha256
  require (l.deviceModel = sonoffDeviceModel) .errModel
  return (l, c1)

def licenseStore (l : License) : NvdmM Unit := do
  factoryStrWrite .deviceId l.deviceId
  factoryStrWrite .factoryApikey l.apikey
  factoryStrWrite .baseMac l.baseMac
  factoryStrWrite .deviceModel l.deviceModel
  factoryStrWrite .deviceUiid l.uiid

def snfLicenseWrite (text : CString) (replySize : ℕ) : EStateM SnfLicenseRet NvdmState CString := do
  require (nvdmFactorySha256HexLen < replySize) .errRules
  let (l, c1) ← licenseFrame sha256 json text
  EStateM.adaptExcept (fun _ => .errStorage) (licenseStore l)
  let readBack ← EStateM.adaptExcept (fun _ => .errStorage) readLicense
  let readHex ← EStateM.adaptExcept (fun _ => .errStorage)
    (licenseSha256Hex sha256 readBack.c1 (nvdmFactorySha256HexLen + 1))
  require (c1 = readHex) .errSha256
  EStateM.adaptExcept (fun _ => .errStorage) (licenseSha256Hex sha256 l.c5 replySize)

/-- What the command prints: an error of two texts, or the check value. -/
inductive LicenseReply
  | error (kind reason : String)
  | ok (sha256 : CString)
  deriving DecidableEq

def licenseReply : SnfLicenseRet → LicenseReply
  | .errFrameLen => .error "FAILED PARAM" "FRAMER LEN MISMATCHING"
  | .errSha256 => .error "FAILED PARAM" "FRAMER SHA256 CHECK MISMATCHING"
  | .errRules => .error "FAILED PARAM" "NON COMPLIANCE WITH LICENSE RULES"
  | .errModel => .error "FAILED PARAM" "DEVICE MODEL MISMATCHING"
  | .errStorage => .error "HARDWARE FAILED" "STORAGE HARDWARE"

def atLicenseJsonMaxLen : ℕ := 512

/-- The command line is one buffer, `argv` the offsets of its words. The platform has cut
the JSON at its commas and quotes; each cut is undone by what stands before the next word. -/
def restoreSeparators (argv : List ℕ) (line : List UInt8) : List UInt8 :=
  (List.range (argv.length - 3)).foldl (fun line k =>
    let word := argv.getD (k + 2) 0
    let next := argv.getD (k + 3) 0
    line.set (word + (cString (line.drop word)).length) (if byteAt line (next - 1) = 34 then
      44 else 34)) line

def licenseUpdate (text : CString) (s : NvdmState) : LicenseReply × NvdmState :=
  match snfLicenseIsValid sha256 s with
  | .ok _ s => (.error "FAILED OPERATE" "LICENSE ALREADY", s)
  | .error _ s =>
    match snfLicenseClear s with
    | .error _ s => (.error "HARDWARE FAILED" "STORAGE HARDWARE", s)
    | .ok _ s =>
      match snfLicenseWrite sha256 json text (nvdmFactorySha256HexLen + 1) s with
      | .error ret s => (licenseReply ret, s)
      | .ok hex s => (.ok hex, s)

def atLicenseWriteCommand (line : List UInt8) (argv : List ℕ) (s : NvdmState) :
    LicenseReply × NvdmState :=
  if argv.length < 3 then (.error "FAILED OPERATE" "NON LICENSE FRAME", s)
  else
    let word := cString (line.drop (argv.getD 1 0))
    let (frameLen, rest) := strtoul word
    if rest = word ∨ rest ≠ [] ∨ frameLen = 0 ∨ frameLen > atLicenseJsonMaxLen then
      (.error "FAILED PARAM" "NON COMPLIANCE WITH LICENSE RULES", s)
    else
      let text := CString.ofBuffer ((restoreSeparators argv line).drop (argv.getD 2 0))
      if text.length ≠ frameLen then (.error "FAILED PARAM" "NON COMPLIANCE WITH LICENSE RULES", s)
      else licenseUpdate sha256 json text s

end Write

end Sonoff.Nvdm
