import Sonoff.Base.Bytes
import Sonoff.Utils.AesGcm
import Sonoff.Ota.Types

/-! # The streaming package parser

The context follows `SnfOtaParseContext`. The cross-chunk buffer is the list of
the bytes collected so far, so `buffered_size` is its length; the decryption
buffer is scratch space whose content is only ever read through the payload, so
the payload carries its bytes.
-/
namespace Sonoff.OtaParse
open Bytes AesGcm Ota

def snfOtaStructVersion : UInt8 := 1
def snfOtaMetaHeadSize : ℕ := 24
def snfOtaMetaFileSize : ℕ := 76
def snfOtaModelVersionSize : ℕ := 8
def snfOtaFileVersionSize : ℕ := 16
def snfOtaMetaReservedSize : ℕ := 9
def snfOtaFileReservedSize : ℕ := 12
def snfOtaDecryptBufferSize : ℕ := 512

def otaHeadStructVersionOffset : ℕ := 0
def otaHeadFileCountOffset : ℕ := 1
def otaHeadModelVersionOffset : ℕ := 2
def otaHeadCipherTypeOffset : ℕ := 10
def otaHeadReservedOffset : ℕ := 11
def otaHeadCrcOffset : ℕ := 20

def otaFileNameOffset : ℕ := 0
def otaFileVersionOffset : ℕ := 32
def otaFileDataOffset : ℕ := 48
def otaFileSizeOffset : ℕ := 52
def otaFileCrcOffset : ℕ := 56
def otaFileAttributesCrcOffset : ℕ := 60
def otaFileReservedOffset : ℕ := 64

inductive OtaParseStage
  | metadata
  | file
  | fileGap
  | gcmIv
  | image
  | gcmTag
  | tail
  deriving DecidableEq, Repr

/-- The checked head; the model version has its extra terminator. -/
structure SnfOtaMetadata where
  version : UInt8
  fileCount : UInt8
  modelVersion : List UInt8
  cipherType : UInt8
  reserved : List UInt8
  crc : ℕ
  deriving DecidableEq, Repr

/-- The checked file attributes; name and version have their extra terminator. -/
structure SnfOtaFileInfo where
  name : List UInt8
  version : List UInt8
  offset : ℕ
  size : ℕ
  crc : ℕ
  attributesCrc : ℕ
  reserved : List UInt8
  deriving DecidableEq, Repr

structure SnfOtaPayload where
  data : List UInt8
  offset : ℕ
  deriving DecidableEq, Repr

def SnfOtaPayload.size (payload : SnfOtaPayload) : ℕ := payload.data.length

structure SnfOtaParseContext (G : Type) where
  metadata : SnfOtaMetadata
  file : SnfOtaFileInfo
  gcm : Option G
  authHeaderData : List UInt8
  fileName : List UInt8
  buffer : List UInt8
  packageSize : ℕ
  offset : ℕ
  previousEnd : ℕ
  fileCrc : UInt32
  flashSize : ℕ
  fileIndex : ℕ
  stage : OtaParseStage
  error : SnfOtaErrorCode

def SnfOtaMetadata.zero : SnfOtaMetadata :=
  ⟨0, 0, List.replicate (snfOtaModelVersionSize + 1) 0, 0, List.replicate snfOtaMetaReservedSize 0,
    0⟩

def SnfOtaFileInfo.zero : SnfOtaFileInfo :=
  ⟨List.replicate (snfOtaFileNameSize + 1) 0, List.replicate (snfOtaFileVersionSize + 1) 0, 0, 0, 0,
    0, List.replicate snfOtaFileReservedSize 0⟩

variable {G : Type}

def SnfOtaParseContext.zero : SnfOtaParseContext G where
  metadata := .zero
  file := .zero
  gcm := Option.none
  authHeaderData := List.replicate (snfOtaMetaHeadSize + snfOtaMetaFileSize) 0
  fileName := List.replicate (snfOtaFileNameSize + 1) 0
  buffer := []
  packageSize := 0
  offset := 0
  previousEnd := 0
  fileCrc := 0
  flashSize := 0
  fileIndex := 0
  stage := .metadata
  error := .none

namespace SnfOtaParseContext

def bufferedSize (context : SnfOtaParseContext G) : ℕ := context.buffer.length

def fileCount (context : SnfOtaParseContext G) : ℕ := context.metadata.fileCount.toNat

def isGcm (context : SnfOtaParseContext G) :
    Bool := context.metadata.cipherType == snfOtaCipherAes256Gcm

/-- The bytes of a file that are not its content: IV and tag. -/
def overhead (context : SnfOtaParseContext G) : ℕ :=
  if context.isGcm then snfAesGcmIvSize + snfAesGcmTagSize else 0

end SnfOtaParseContext

variable (sdk : Sdk G)

/-- `snfCrc32(UINT32_MAX, data, size) ^ UINT32_MAX`, the standard CRC32 of a field. -/
def crc32Of (data : List UInt8) : ℕ := (snfCrc32 sdk 0xFFFFFFFF data ^^^ 0xFFFFFFFF).toNat

def otaParseMetadata (data : List UInt8) (size : ℕ) : Except SnfOtaErrorCode SnfOtaMetadata :=
  if size < snfOtaMetaHeadSize then .error .imageIncomplete
  else if byteAt data otaHeadStructVersionOffset ≠ snfOtaStructVersion then .error .unsupported
  else if crc32Of sdk (data.take otaHeadCrcOffset) ≠ be32 data otaHeadCrcOffset then
    .error .checkFailed
  else if byteAt data otaHeadFileCountOffset = 0 ∨ byteAt data otaHeadModelVersionOffset = 0 then
    .error .invalidParam
  else if byteAt data otaHeadCipherTypeOffset ≠ snfOtaCipherNone
      ∧ byteAt data otaHeadCipherTypeOffset ≠ snfOtaCipherAes256Gcm then .error .unsupported
  else .ok {
    version := byteAt data otaHeadStructVersionOffset
    fileCount := byteAt data otaHeadFileCountOffset
    modelVersion := slice data otaHeadModelVersionOffset snfOtaModelVersionSize ++ [0]
    cipherType := byteAt data otaHeadCipherTypeOffset
    reserved := slice data otaHeadReservedOffset snfOtaMetaReservedSize
    crc := be32 data otaHeadCrcOffset }

def otaParseFile (data : List UInt8) (size : ℕ) : Except SnfOtaErrorCode SnfOtaFileInfo :=
  if size < snfOtaMetaFileSize then .error .imageIncomplete
  else if crc32Of sdk (data.take otaFileAttributesCrcOffset) ≠
    be32 data otaFileAttributesCrcOffset then
    .error .checkFailed
  else if byteAt data otaFileNameOffset = 0 ∨ byteAt data otaFileVersionOffset = 0 then
    .error .invalidParam
  else .ok {
    name := slice data otaFileNameOffset snfOtaFileNameSize ++ [0]
    version := slice data otaFileVersionOffset snfOtaFileVersionSize ++ [0]
    offset := be32 data otaFileDataOffset
    size := be32 data otaFileSizeOffset
    crc := be32 data otaFileCrcOffset
    attributesCrc := be32 data otaFileAttributesCrcOffset
    reserved := slice data otaFileReservedOffset snfOtaFileReservedSize }

def fileRangeInvalid (context : SnfOtaParseContext G) (file : SnfOtaFileInfo) : Prop :=
  file.size ≤ context.overhead ∨ file.offset < context.previousEnd
    ∨ file.offset > context.packageSize ∨ file.size > context.packageSize - file.offset

instance (context : SnfOtaParseContext G) (file : SnfOtaFileInfo) :
    Decidable (fileRangeInvalid context file) := by unfold fileRangeInvalid; infer_instance

/-- The selected file with its raw attribute bytes, kept for the authentication. -/
def matchFile (context : SnfOtaParseContext G) (file : SnfOtaFileInfo) : SnfOtaParseContext G :=
  { context with
    file := file
    authHeaderData := context.authHeaderData.take snfOtaMetaHeadSize
      ++ context.buffer.take snfOtaMetaFileSize }

def finishFile (context : SnfOtaParseContext G) (file : SnfOtaFileInfo) :
    SnfOtaParseContext G × SnfOtaErrorCode :=
  let context := { context with
    previousEnd := u32Add file.offset file.size
    fileIndex := (context.fileIndex + 1) % 256
    buffer := [] }
  if context.fileIndex = context.fileCount then
    if context.file.size = 0 then (context, .fileNotFound)
    else if context.offset = context.file.offset then
      ({ context with stage := if context.overhead ≠ 0 then .gcmIv else .image }, .none)
    else ({ context with stage := .fileGap }, .none)
  else (context, .none)

def otaSelectFile (context : SnfOtaParseContext G) : SnfOtaParseContext G × SnfOtaErrorCode :=
  match otaParseFile sdk context.buffer context.bufferedSize with
  | .error error => (context, error)
  | .ok file =>
    if fileRangeInvalid context file then (context, .invalidParam)
    else if strcmpEq file.name context.fileName then
      -- A non-zero size says that a file of this name is already selected.
      if context.file.size ≠ 0 ∨ file.size - context.overhead > context.flashSize then
        (context, .invalidParam)
      else finishFile (matchFile context file) file
    else finishFile context file

/-- The context and the emitted piece of the selected file. -/
def otaParsePayload (context : SnfOtaParseContext G) (data : List UInt8) (size : ℕ) :
    Except SnfOtaErrorCode (SnfOtaParseContext G × SnfOtaPayload) :=
  let offset := u32Sub context.offset context.file.offset
  if context.isGcm then
    let size := min size snfOtaDecryptBufferSize
    match context.gcm with
    | Option.none => .error .decryptFailed
    | some gcm =>
      match snfAesGcmDecryptUpdate sdk gcm (data.take size) with
      | .error _ => .error .decryptFailed
      | .ok (gcm, imageData) =>
        .ok ({ context with gcm := some gcm, fileCrc := snfCrc32 sdk context.fileCrc imageData },
          ⟨imageData, u32Sub offset snfAesGcmIvSize⟩)
  else
    .ok ({ context with fileCrc := snfCrc32 sdk context.fileCrc (data.take size) },
      ⟨data.take size, offset⟩)

def otaAdvanceStage (context : SnfOtaParseContext G) (headerSize imageEnd : ℕ) :
    SnfOtaParseContext G :=
  if headerSize ≠ 0 ∧ context.bufferedSize ≠ headerSize then context
  else
    match context.stage with
    | .metadata =>
      match otaParseMetadata sdk context.buffer headerSize with
      | .error error => { context with error := error }
      | .ok metadata =>
        let context := { context with
          metadata := metadata
          authHeaderData := context.buffer.take snfOtaMetaHeadSize
            ++ context.authHeaderData.drop snfOtaMetaHeadSize
          previousEnd := snfOtaMetaHeadSize + snfOtaMetaFileSize * metadata.fileCount.toNat }
        if context.previousEnd > context.packageSize then { context with error := .imageIncomplete }
        else { context with buffer := [], stage := .file }
    | .file =>
      let (context, error) := otaSelectFile sdk context
      { context with error := error }
    | .fileGap =>
      if context.offset = context.file.offset then
        { context with stage := if context.isGcm then .gcmIv else .image }
      else context
    | .gcmIv =>
      match snfAesGcmDecryptStart sdk sdk.otaAesKey context.buffer context.authHeaderData with
      | .error _ => { context with error := .decryptFailed }
      | .ok gcm => { context with gcm := some gcm, buffer := [], stage := .image }
    | .image =>
      if context.offset = imageEnd then
        { context with stage := if context.isGcm then .gcmTag else .tail }
      else context
    | .gcmTag =>
      -- Finish releases the GCM context whatever it returns.
      match context.gcm.map (fun gcm => snfAesGcmDecryptFinish sdk gcm context.buffer) with
      | some .ok => { context with gcm := Option.none, buffer := [], stage := .tail }
      | _ => { context with gcm := Option.none, error := .decryptFailed }
    | .tail => context

def snfOtaParseInit (packageSize : ℕ) (fileName : Option (List UInt8)) (flashSize : ℕ) :
    SnfOtaParseContext G × SnfOtaErrorCode :=
  let context : SnfOtaParseContext G := { SnfOtaParseContext.zero with error := .invalidParam }
  if packageSize ≤ snfOtaMetaHeadSize + snfOtaMetaFileSize ∨ flashSize = 0 then
    (context, context.error)
  else
    match fileName with
    | Option.none => (context, context.error)
    | some fileName =>
      if byteAt fileName 0 = 0 then (context, context.error)
      else
        ({ context with
            fileName := fileName.take snfOtaFileNameSize ++ [0]
            packageSize := packageSize
            flashSize := flashSize
            fileCrc := 0xFFFFFFFF
            stage := .metadata
            error := .none }, .none)

structure ParseDataResult (G : Type) where
  context : SnfOtaParseContext G
  consumed : ℕ
  payload : SnfOtaPayload
  error : SnfOtaErrorCode

/-- The end of the selected file's content in the package. -/
def imageEndOf (context : SnfOtaParseContext G) : ℕ :=
  let imageEnd := u32Add context.file.offset context.file.size
  if context.isGcm then u32Sub imageEnd snfAesGcmTagSize else imageEnd

/-- The field length the stage collects, zero where it streams. -/
def headerSizeOf : OtaParseStage → ℕ
  | .metadata => snfOtaMetaHeadSize
  | .file => snfOtaMetaFileSize
  | .gcmIv => snfAesGcmIvSize
  | .gcmTag => snfAesGcmTagSize
  | _ => 0

/-- The bytes the stage still takes, before the input length limits them. -/
def takeOf (context : SnfOtaParseContext G) (size : ℕ) : ℕ :=
  match context.stage with
  | .fileGap => u32Sub context.file.offset context.offset
  | .image => u32Sub (imageEndOf context) context.offset
  | .tail => size
  | stage => u32Sub (headerSizeOf stage) context.bufferedSize

/-- Consume `take` bytes outside the content stage: collect them where the stage has a field. -/
def collect (context : SnfOtaParseContext G) (data : List UInt8) (take : ℕ) :
    SnfOtaParseContext G :=
  { context with
    buffer := if headerSizeOf context.stage ≠ 0 then context.buffer ++ data.take take
      else context.buffer
    offset := u32Add context.offset take }

def snfOtaParseData (context : SnfOtaParseContext G) (data : List UInt8) : ParseDataResult G :=
  let size := data.length
  let empty : SnfOtaPayload := ⟨[], 0⟩
  if context.error ≠ .none then ⟨context, 0, empty, context.error⟩
  else if size = 0 ∨ context.packageSize = 0 ∨ context.offset > context.packageSize
      ∨ size > context.packageSize - context.offset then
    ⟨{ context with error := .invalidParam }, 0, empty, .invalidParam⟩
  else
    let headerSize := headerSizeOf context.stage
    let imageEnd := if context.stage = .image then imageEndOf context else 0
    let take := min (takeOf context size) size
    if context.stage = .image then
      match otaParsePayload sdk context data take with
      | .error error => ⟨{ context with error := error }, 0, empty, error⟩
      | .ok (context, payload) =>
        -- The decryption buffer may have shortened the piece.
        let take := payload.size
        let context := otaAdvanceStage sdk { context with offset := u32Add context.offset take }
          headerSize imageEnd
        ⟨context, take, payload, context.error⟩
    else
      let context := otaAdvanceStage sdk (collect context data take) headerSize imageEnd
      ⟨context, take, empty, context.error⟩

def snfOtaParseFinish (context : SnfOtaParseContext G) : SnfOtaErrorCode :=
  if context.error ≠ .none then context.error
  else if context.offset ≠ context.packageSize ∨ context.stage ≠ .tail then .imageIncomplete
  else if (context.fileCrc ^^^ 0xFFFFFFFF).toNat ≠ context.file.crc then .checkFailed
  else .none

def snfOtaParseFree (_ : SnfOtaParseContext G) : SnfOtaParseContext G := .zero

end Sonoff.OtaParse
