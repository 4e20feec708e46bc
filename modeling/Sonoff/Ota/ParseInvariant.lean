import Sonoff.Ota.Parse

/-! # The parser invariant

Stage, file index, offset and collected length stay in step, so that the
remaining length of a stage is computed without wrapping and every call makes
progress. `absorb` is one call without its length limits: it is additive in its
input, which is what makes the parser independent of the chunk boundaries.
-/
namespace Sonoff.OtaParse
open Bytes AesGcm Ota

variable {G : Type}

theorem headerSizeOf_eq (stage : OtaParseStage) : headerSizeOf stage =
    match stage with
    | .metadata => 24
    | .file => 76
    | .gcmIv => 12
    | .gcmTag => 16
    | _ => 0 := by
  cases stage <;> rfl

namespace SnfOtaParseContext

def tableEnd (c : SnfOtaParseContext G) : ℕ := 24 + 76 * c.fileCount
def ivSize (c : SnfOtaParseContext G) : ℕ := if c.isGcm then 12 else 0
def tagSize (c : SnfOtaParseContext G) : ℕ := if c.isGcm then 16 else 0

def contentStart (c : SnfOtaParseContext G) : ℕ := c.file.offset + c.ivSize
def contentEnd (c : SnfOtaParseContext G) : ℕ := c.file.offset + c.file.size - c.tagSize

theorem overhead_eq (c : SnfOtaParseContext G) : c.overhead = c.ivSize + c.tagSize := by
  unfold overhead ivSize tagSize
  split <;> rfl

theorem overhead_ne_zero (c : SnfOtaParseContext G) : c.overhead ≠ 0 ↔ c.isGcm = true := by
  cases h : c.isGcm <;> simp [overhead, h, snfAesGcmIvSize]

theorem ivSize_of_not_gcm {c : SnfOtaParseContext G} (h : c.isGcm = false) :
    c.ivSize = 0 := by simp [ivSize, h]
theorem tagSize_of_not_gcm {c : SnfOtaParseContext G} (h : c.isGcm = false) :
    c.tagSize = 0 := by simp [tagSize, h]
theorem ivSize_of_gcm {c : SnfOtaParseContext G} (h : c.isGcm = true) : c.ivSize = 12 := by
  simp [ivSize, h]
theorem tagSize_of_gcm {c : SnfOtaParseContext G} (h : c.isGcm = true) : c.tagSize = 16 := by
  simp [tagSize, h]

/-- The selected file has content, lies behind the table and inside the package, and fits the
partition. -/
structure FileSelected (c : SnfOtaParseContext G) : Prop where
  content : c.overhead < c.file.size
  behind : c.tableEnd ≤ c.file.offset
  inside : c.file.offset + c.file.size ≤ c.packageSize
  fits : c.file.size - c.overhead ≤ c.flashSize

theorem FileSelected.contentStart_lt {c : SnfOtaParseContext G} (h : c.FileSelected) :
    c.contentStart < c.contentEnd := by
  have hs := h.content
  have ho := c.overhead_eq
  unfold contentStart contentEnd
  omega

theorem FileSelected.contentEnd_le {c : SnfOtaParseContext G} (h : c.FileSelected) :
    c.contentEnd ≤ c.packageSize := Nat.le_trans (Nat.sub_le _ _) h.inside

theorem FileSelected.content_size {c : SnfOtaParseContext G} (h : c.FileSelected) :
    c.contentEnd - c.contentStart = c.file.size - c.overhead := by
  have ho := c.overhead_eq
  have hs := h.content
  unfold contentStart contentEnd
  omega

/-- What holds between the fields in each stage while no error is recorded. -/
def StageValid (c : SnfOtaParseContext G) : Prop :=
  match c.stage with
  | .metadata => c.bufferedSize ≤ 24 ∧ c.offset = c.bufferedSize ∧ c.file.size = 0
      ∧ 24 ≤ c.packageSize ∧ c.fileIndex = 0
  | .file => c.bufferedSize ≤ 76 ∧ c.fileIndex < c.fileCount
      ∧ c.offset = 24 + 76 * c.fileIndex + c.bufferedSize
      ∧ c.tableEnd ≤ c.previousEnd ∧ c.previousEnd ≤ c.packageSize ∧
        (c.file.size = 0 ∨ c.FileSelected)
  | .fileGap => c.FileSelected ∧ c.buffer = [] ∧ c.offset ≤ c.file.offset
  | .gcmIv => c.FileSelected ∧ c.isGcm = true ∧ c.bufferedSize ≤ 12
      ∧ c.offset = c.file.offset + c.bufferedSize
  | .image => c.FileSelected ∧ c.buffer = [] ∧ c.contentStart ≤ c.offset ∧ c.offset ≤ c.contentEnd
      ∧ (c.isGcm = true → c.gcm.isSome = true)
  | .gcmTag => c.FileSelected ∧ c.isGcm = true ∧ c.gcm.isSome = true ∧ c.bufferedSize ≤ 16
      ∧ c.offset = c.contentEnd + c.bufferedSize
  | .tail => c.FileSelected ∧ c.file.offset + c.file.size ≤ c.offset

def room (c : SnfOtaParseContext G) : ℕ :=
  match c.stage with
  | .fileGap => c.file.offset - c.offset
  | .image => c.contentEnd - c.offset
  | .tail => c.packageSize - c.offset
  | stage => headerSizeOf stage - c.bufferedSize

def emittedSize (c : SnfOtaParseContext G) : ℕ :=
  match c.stage with
  | .image => c.offset - c.contentStart
  | .gcmTag | .tail => c.contentEnd - c.contentStart
  | _ => 0

/-- Between two calls a stage before the tail is never complete. -/
structure Valid (c : SnfOtaParseContext G) : Prop where
  size_lt : c.packageSize < 4294967296
  offset_le : c.offset ≤ c.packageSize
  stage : c.error = .none → c.StageValid
  incomplete : c.error = .none → c.stage = .tail ∨ 0 < c.room

theorem Valid.room_le {c : SnfOtaParseContext G} (h : c.Valid) (he : c.error = .none) :
    c.offset + c.room ≤ c.packageSize := by
  have hs := h.stage he
  have ho := h.offset_le
  unfold StageValid at hs
  unfold room
  cases hc : c.stage <;> simp only [hc, headerSizeOf_eq] at hs ⊢
  case metadata => omega
  case file =>
    obtain ⟨_,hi,ho,ht,hp,_⟩ := hs
    unfold tableEnd at ht
    omega
  case fileGap =>
    have hi := hs.1.inside
    omega
  case gcmIv =>
    have hi := hs.1.inside
    have hk := hs.1.content
    have hov := c.overhead_eq
    rw [ivSize_of_gcm hs.2.1, tagSize_of_gcm hs.2.1] at hov
    omega
  case image =>
    have hi := hs.1.contentEnd_le
    omega
  case gcmTag =>
    have hi := hs.1.inside
    have hk := hs.1.content
    have hov := c.overhead_eq
    rw [ivSize_of_gcm hs.2.1, tagSize_of_gcm hs.2.1] at hov
    obtain ⟨_,hg,_,hb,ho⟩ := hs
    unfold contentEnd at ho
    rw [tagSize_of_gcm hg] at ho
    omega
  case tail => omega

theorem Valid.room_pos {c : SnfOtaParseContext G} (h : c.Valid) (he : c.error = .none)
    (hr : c.offset < c.packageSize) : 0 < c.room := by
  rcases h.incomplete he with ht | hpos
  · simp only [room, ht]
    omega
  · exact hpos

end SnfOtaParseContext

open SnfOtaParseContext

theorem imageEndOf_eq {c : SnfOtaParseContext G} (h : c.FileSelected)
    (hs : c.packageSize < 4294967296) : imageEndOf c = c.contentEnd := by
  have hi := h.inside
  have hk := h.content
  have ho := c.overhead_eq
  unfold imageEndOf contentEnd
  rw [u32Add_eq (by omega)]
  cases hg : c.isGcm with
  | false => simp [tagSize_of_not_gcm hg]
  | true =>
    have ht := tagSize_of_gcm hg
    rw [ht] at ho ⊢
    exact u32Sub_eq (by rw [show snfAesGcmTagSize = 16 from rfl]; omega) (by omega)

/-- The code's remaining length is the room of the stage: no subtraction wraps. -/
theorem takeOf_eq {c : SnfOtaParseContext G} (h : c.Valid) (he : c.error = .none) {size : ℕ}
    (hn : size ≤ c.packageSize - c.offset) : min (takeOf c size) size = min c.room size := by
  have hs := h.stage he
  have hl := h.size_lt
  have ho := h.offset_le
  unfold StageValid at hs
  unfold takeOf room
  cases hc : c.stage <;> simp only [hc, headerSizeOf_eq] at hs ⊢
  case tail => omega
  case fileGap =>
    have hi := hs.1.inside
    rw [u32Sub_eq (by omega) (by omega)]
  case image =>
    have hi := hs.1.contentEnd_le
    rw [imageEndOf_eq hs.1 hl, u32Sub_eq (by omega) (by omega)]
  all_goals rw [u32Sub_eq (by omega) (by omega)]

variable (sdk : Sdk G)

/-- Decrypt or pass through a piece of the selected file's content. -/
def absorbImage (c : SnfOtaParseContext G) (x : List UInt8) :
    Except SnfOtaErrorCode (SnfOtaParseContext G × SnfOtaPayload) :=
  if c.isGcm then
    match c.gcm with
    | Option.none => .error .decryptFailed
    | some gcm =>
      match snfAesGcmDecryptUpdate sdk gcm x with
      | .error _ => .error .decryptFailed
      | .ok (gcm, out) =>
        .ok ({ c with gcm := some gcm, fileCrc := snfCrc32 sdk c.fileCrc out, offset :=
          c.offset + x.length }, ⟨out, c.offset - c.contentStart⟩)
  else
    .ok ({ c with fileCrc := snfCrc32 sdk c.fileCrc x, offset := c.offset + x.length },
      ⟨x, c.offset - c.contentStart⟩)

def absorbField (c : SnfOtaParseContext G) (x : List UInt8) : SnfOtaParseContext G :=
  { c with
    buffer := if headerSizeOf c.stage ≠ 0 then c.buffer ++ x else c.buffer
    offset := c.offset + x.length }

def absorb (c : SnfOtaParseContext G) (x : List UInt8) :
    Except SnfOtaErrorCode (SnfOtaParseContext G × SnfOtaPayload) :=
  if c.stage = .image then absorbImage sdk c x else .ok (absorbField c x, ⟨[], 0⟩)

def advance (c : SnfOtaParseContext G) : SnfOtaParseContext G :=
  otaAdvanceStage sdk c (headerSizeOf c.stage) (if c.stage = .image then c.contentEnd else 0)

def afterAbsorb (c : SnfOtaParseContext G) (x : List UInt8) : ParseDataResult G :=
  match absorb sdk c x with
  | .error error => ⟨{ c with error := error }, 0, ⟨[], 0⟩, error⟩
  | .ok (c', payload) => ⟨advance sdk c', x.length, payload, (advance sdk c').error⟩

structure SameFile (c c' : SnfOtaParseContext G) : Prop where
  metadata : c'.metadata = c.metadata
  file : c'.file = c.file
  packageSize : c'.packageSize = c.packageSize
  flashSize : c'.flashSize = c.flashSize
  stage : c'.stage = c.stage
  error : c'.error = c.error
  fileIndex : c'.fileIndex = c.fileIndex
  previousEnd : c'.previousEnd = c.previousEnd
  fileName : c'.fileName = c.fileName
  authHeaderData : c'.authHeaderData = c.authHeaderData

variable {sdk}

theorem absorbImage_spec {c c' : SnfOtaParseContext G} {x : List UInt8} {payload : SnfOtaPayload}
    (h : absorbImage sdk c x = .ok (c', payload)) :
    SameFile c c' ∧ c'.buffer = c.buffer ∧ c'.offset = c.offset + x.length ∧
      payload.data.length = x.length
      ∧ payload.offset = c.offset - c.contentStart ∧
        c'.fileCrc = snfCrc32 sdk c.fileCrc payload.data
      ∧ (c.gcm.isSome = true → c'.gcm.isSome = true) := by
  unfold absorbImage at h
  split at h
  · split at h
    · cases h
    · split at h
      · cases h
      case h_2 he =>
        cases h
        exact ⟨⟨rfl,rfl,rfl,rfl,rfl,rfl,rfl,rfl,rfl,rfl⟩, rfl, rfl, (decryptUpdate_ok he).2.2, rfl,
          rfl, fun _ => rfl⟩
  · cases h
    exact ⟨⟨rfl,rfl,rfl,rfl,rfl,rfl,rfl,rfl,rfl,rfl⟩, rfl, rfl, rfl, rfl, rfl, id⟩

theorem absorb_spec {c c' : SnfOtaParseContext G} {x : List UInt8} {payload : SnfOtaPayload}
    (h : absorb sdk c x = .ok (c', payload)) : SameFile c c' ∧ c'.offset = c.offset + x.length
      ∧ (c.gcm.isSome = true → c'.gcm.isSome = true) := by
  unfold absorb at h
  split at h
  · obtain ⟨hs,_,ho,_,_,_,hg⟩ := absorbImage_spec h
    exact ⟨hs, ho, hg⟩
  · cases h
    exact ⟨⟨rfl,rfl,rfl,rfl,rfl,rfl,rfl,rfl,rfl,rfl⟩, rfl, id⟩

theorem absorb_buffer {c c' : SnfOtaParseContext G} {x : List UInt8} {payload : SnfOtaPayload}
    (h : absorb sdk c x = .ok (c', payload)) :
    c'.buffer = if headerSizeOf c.stage ≠ 0 then c.buffer ++ x else c.buffer := by
  unfold absorb at h
  split at h
  case isTrue hi =>
    simp [(absorbImage_spec h).2.1, hi, headerSizeOf]
  case isFalse =>
    cases h
    rfl

theorem absorb_bufferedSize {c c' : SnfOtaParseContext G} {x : List UInt8} {payload : SnfOtaPayload}
    (h : absorb sdk c x = .ok (c', payload)) (hf : headerSizeOf c.stage ≠ 0) :
    c'.bufferedSize = c.bufferedSize + x.length := by
  simp [bufferedSize, absorb_buffer h, hf]

theorem absorb_buffer_of_stream {c c' : SnfOtaParseContext G} {x : List UInt8}
    {payload : SnfOtaPayload} (h : absorb sdk c x = .ok (c', payload))
    (hf : headerSizeOf c.stage = 0) : c'.buffer = c.buffer := by
  simp [absorb_buffer h, hf]

variable (sdk) in
/-- Every call of the parser inside a valid context absorbs a positive piece of
the room of its stage, never past the end of the input or of the package. -/
theorem snfOtaParseData_eq {c : SnfOtaParseContext G} (h : c.Valid) (he : c.error = .none)
    {data : List UInt8} (hd : data ≠ []) (hn : data.length ≤ c.packageSize - c.offset) :
    ∃ t, 0 < t ∧ t ≤ data.length ∧ t ≤ c.room ∧
      snfOtaParseData sdk c data = afterAbsorb sdk c (data.take t) := by
  have hpos : 0 < data.length := List.length_pos_iff.mpr hd
  have hroom := h.room_pos he (by omega)
  have hle := h.room_le he
  have hlt := h.size_lt
  have hoff := h.offset_le
  have htake := takeOf_eq h he hn
  have hguard : ¬(data.length = 0 ∨ c.packageSize = 0 ∨ c.offset > c.packageSize
      ∨ data.length > c.packageSize - c.offset) := by omega
  unfold snfOtaParseData
  simp only [he, ne_eq, not_true_eq_false, if_false, if_neg hguard, htake]
  by_cases hi : c.stage = .image
  · have hsel : c.StageValid := h.stage he
    simp only [StageValid, hi] at hsel
    have hend := imageEndOf_eq hsel.1 hlt
    have hcs : c.file.offset ≤ c.contentStart := Nat.le_add_right _ _
    cases hg : c.isGcm with
    | false =>
      refine ⟨min c.room data.length, by omega, by omega, by omega, ?_⟩
      have hce : c.contentStart = c.file.offset := by simp [contentStart, ivSize_of_not_gcm hg]
      simp only [hi, if_true, otaParsePayload, hg, afterAbsorb, absorb, absorbImage, advance, hend,
        SnfOtaPayload.size, List.length_take, Bool.false_eq_true, if_false]
      rw [u32Add_eq (by omega), u32Sub_eq (by omega) (by omega), hce]
      simp [contentEnd, tagSize, isGcm]
    | true =>
      refine ⟨min (min c.room data.length) 512, by omega, by omega, by omega, ?_⟩
      have hcs' : c.contentStart = c.file.offset + 12 := by simp [contentStart, ivSize_of_gcm hg]
      have hlo := hsel.2.2.1
      simp only [hi, if_true, otaParsePayload, hg, afterAbsorb, absorb, absorbImage, advance, hend,
        show snfOtaDecryptBufferSize = 512 from rfl]
      cases hgcm : c.gcm with
      | none => rfl
      | some gcm =>
        dsimp only
        cases hu : snfAesGcmDecryptUpdate sdk gcm
            (data.take (min (min c.room data.length) 512)) with
        | error e => rfl
        | ok r =>
          obtain ⟨gcm',out⟩ := r
          have hl := (decryptUpdate_ok hu).2.2
          have htl : (data.take (min (min c.room data.length) 512)).length =
              min (min c.room data.length) 512 := by
            rw [List.length_take]
            omega
          have hwrap : u32Sub (u32Sub c.offset c.file.offset) snfAesGcmIvSize =
              c.offset - c.contentStart := by
            rw [@u32Sub_eq c.offset c.file.offset (by omega) (by omega),
              show snfAesGcmIvSize = 12 from rfl, u32Sub_eq (by omega) (by omega)]
            omega
          simp only [SnfOtaPayload.size, hl, htl, hwrap]
          rw [u32Add_eq (by omega)]
          simp [contentEnd, tagSize, isGcm]
  · refine ⟨min c.room data.length, by omega, by omega, by omega, ?_⟩
    simp only [hi, if_false, afterAbsorb, absorb, absorbField, advance, collect, List.length_take]
    rw [u32Add_eq (by omega)]
    simp

/-- A started image stage absorbs every piece. -/
theorem absorb_total (hinc : sdk.Incremental) {c : SnfOtaParseContext G} (h : c.Valid)
    (he : c.error = .none) {x : List UInt8} (hx : x ≠ []) :
    ∃ c' payload, absorb sdk c x = .ok (c', payload) := by
  unfold absorb
  split
  case isTrue hi =>
    have hs := h.stage he
    simp only [StageValid, hi] at hs
    unfold absorbImage
    split
    case isTrue hg =>
      obtain ⟨gcm,hgcm⟩ := Option.isSome_iff_exists.mp (hs.2.2.2.2 hg)
      obtain ⟨gcm',out,hu,_⟩ := hinc.decryptUpdate_total gcm hx
      simp only [hgcm, hu]
      exact ⟨_, _, rfl⟩
    case isFalse => exact ⟨_, _, rfl⟩
  case isFalse => exact ⟨_, _, rfl⟩

namespace SameFile
variable {c c' : SnfOtaParseContext G}

theorem isGcm (h : SameFile c c') :
    c'.isGcm = c.isGcm := by simp [SnfOtaParseContext.isGcm, h.metadata]
theorem fileCount (h : SameFile c c') : c'.fileCount = c.fileCount := by
  simp [SnfOtaParseContext.fileCount, h.metadata]
theorem tableEnd (h : SameFile c c') : c'.tableEnd = c.tableEnd := by
  simp [SnfOtaParseContext.tableEnd, h.fileCount]
theorem overhead (h : SameFile c c') : c'.overhead = c.overhead := by
  simp [SnfOtaParseContext.overhead, h.isGcm]
theorem contentStart (h : SameFile c c') : c'.contentStart = c.contentStart := by
  simp [SnfOtaParseContext.contentStart, SnfOtaParseContext.ivSize, h.isGcm, h.file]
theorem contentEnd (h : SameFile c c') : c'.contentEnd = c.contentEnd := by
  simp [SnfOtaParseContext.contentEnd, SnfOtaParseContext.tagSize, h.isGcm, h.file]

theorem fileSelected (h : SameFile c c') (hs : c.FileSelected) : c'.FileSelected where
  content := by simpa [h.overhead, h.file] using hs.content
  behind := by simpa [h.tableEnd, h.file] using hs.behind
  inside := by simpa [h.file, h.packageSize] using hs.inside
  fits := by simpa [h.overhead, h.file, h.flashSize] using hs.fits

end SameFile

end Sonoff.OtaParse
