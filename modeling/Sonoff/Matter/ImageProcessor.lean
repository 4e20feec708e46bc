import Mathlib.Algebra.Ring.Nat
import Mathlib.Data.List.Basic
import Mathlib.Tactic.Common

/-! # The Matter image processor

The downloader hands over an image block by block. The image is a header in the format of the
stack, which its own parser takes from the blocks, and behind it the payload, which goes to the
OTA adapter.
-/
namespace Sonoff.Matter

inductive ChipError
  | noError
  | bufferTooSmall
  | invalidArgument
  | incorrectState
  | writeFailed
  | noMemory
  | other (code : ℕ)
  deriving DecidableEq, Repr

structure OTAImageHeader where
  mSoftwareVersion : ℕ := 0
  mPayloadSize : ℕ := 0
  deriving DecidableEq, Repr

/-- The header parser of the stack. `accumulateAndDecode` returns what is left of the block and
the header behind it. -/
structure OTAImageHeaderParser (P : Type*) where
  init : P → P
  isInitialized : P → Bool
  clear : P → P
  accumulateAndDecode : P → List UInt8 → OTAImageHeader →
    ChipError × P × List UInt8 × OTAImageHeader

inductive MatterCall
  | start (imageSize version : ℕ)
  | write (offset : ℕ) (data : List UInt8)
  | abort
  deriving DecidableEq, Repr

/-- The processor with the file's header. `ended` is the error the download has ended with,
`requests` the sizes asked of `MemoryAlloc` so far, and `calls` the calls of the adapter. -/
structure OTAImageProcessor (P : Type*) where
  mHeaderParser : P
  header : OTAImageHeader
  mBlock : List UInt8
  readHeader : Bool
  flashDataOffset : ℕ
  downloadedBytes : ℕ
  totalFileBytes : ℕ
  ended : Option ChipError
  requests : List ℕ
  calls : List MatterCall

def uint32Max : ℕ := 2 ^ 32 - 1

variable {P : Type*} (parser : OTAImageHeaderParser P)

/-- What `MemoryAlloc` and the calls of the adapter return to the last request or call. -/
structure Environment where
  memoryAlloc : List ℕ → Bool
  answer : List MatterCall → Int

variable (env : Environment)

namespace OTAImageProcessor

def endDownload (s : OTAImageProcessor P) (error : ChipError) :
    OTAImageProcessor P := { s with ended := some error }

def call (s : OTAImageProcessor P) (c : MatterCall) :
    OTAImageProcessor P := { s with calls := s.calls ++ [c] }

def handlePrepareDownload (s : OTAImageProcessor P) : OTAImageProcessor P :=
  { s with
    readHeader := false
    flashDataOffset := 0
    downloadedBytes := 0
    totalFileBytes := 0
    mHeaderParser := parser.init s.mHeaderParser
    ended := none }

/-- A block is copied into the one before it where it fits, and shrinks it. -/
def setBlock (s : OTAImageProcessor P) (block : List UInt8) : ChipError × OTAImageProcessor P :=
  if block = [] then (.noError, { s with mBlock := [] })
  else if s.mBlock.length < block.length then
    let s := { s with mBlock := [], requests := s.requests ++ [block.length] }
    if !env.memoryAlloc s.requests then (.noMemory, s) else (.noError, { s with mBlock := block })
  else (.noError, { s with mBlock := block })

/-- The error, and what the header leaves of the block. -/
def processHeader (s : OTAImageProcessor P) (block : List UInt8) :
    ChipError × OTAImageProcessor P × List UInt8 :=
  if parser.isInitialized s.mHeaderParser then
    match parser.accumulateAndDecode s.mHeaderParser block {} with
    | (.bufferTooSmall, p, rest, header) =>
      (.noError, { s with mHeaderParser := p, header := header }, rest)
    | (.noError, p, rest, header) =>
      (.noError, { s with
        mHeaderParser := parser.clear p
        header := header
        totalFileBytes := header.mPayloadSize }, rest)
    | (error, p, rest, header) => (error, { s with mHeaderParser := p, header := header }, rest)
  else (.noError, s, block)

/-- The end of `HandleProcessBlock`. -/
def writeBlock (s : OTAImageProcessor P) (block : List UInt8) : OTAImageProcessor P :=
  if block.length > uint32Max then (s.call .abort).endDownload .writeFailed
  else
    let s := s.call (.write s.flashDataOffset block)
    if env.answer s.calls ≠ 0 then (s.call .abort).endDownload .writeFailed
    else { s with
      flashDataOffset := (s.flashDataOffset + block.length) % 2 ^ 32
      downloadedBytes := s.downloadedBytes + block.length }

/-- What `HandleProcessBlock` does with bytes behind the header. -/
def processPayload (s : OTAImageProcessor P) (block : List UInt8) : OTAImageProcessor P :=
  if s.readHeader then s.writeBlock env block
  else if s.header.mPayloadSize = 0 || s.header.mPayloadSize > uint32Max then
    s.endDownload .invalidArgument
  else
    let s := s.call (.start s.header.mPayloadSize s.header.mSoftwareVersion)
    if env.answer s.calls ≠ 0 then s.endDownload .incorrectState
    else { s with readHeader := true }.writeBlock env block

/-- The next block is fetched where the download has not ended. -/
def handleProcessBlock (s : OTAImageProcessor P) : OTAImageProcessor P :=
  let (error, s, block) := s.processHeader parser s.mBlock
  if error ≠ .noError then s.endDownload error
  else if parser.isInitialized s.mHeaderParser || block.isEmpty then s
  else s.processPayload env block

/-- `ProcessBlock` and the work it schedules; a refused block ends the download. -/
def processBlock (s : OTAImageProcessor P) (block : List UInt8) : OTAImageProcessor P :=
  if block = [] then s.endDownload .invalidArgument
  else
    let (error, s) := s.setBlock env block
    if error ≠ .noError then s.endDownload error else s.handleProcessBlock parser env

/-- Behind its end a download brings no more blocks. -/
def deliver : OTAImageProcessor P → List (List UInt8) → OTAImageProcessor P
  | s, [] => s
  | s, block :: blocks =>
    if s.ended = none then (s.processBlock parser env block).deliver blocks else s

end OTAImageProcessor

end Sonoff.Matter
