import Sonoff.Ota.PackageReceive
import Sonoff.Utils.SoftSdk

/-! # Progress and arithmetic of the parser

From an initialisation on, whatever the calls bring, no length of the parser wraps and every
call that succeeds consumes a piece of its input. A call that fails leaves an error that all
later calls return. The loop over a chunk therefore ends.
-/
namespace Sonoff.OtaParse
open Bytes AesGcm Ota SnfOtaParseContext

variable {G : Type} {sdk : Sdk G} {c c' : SnfOtaParseContext G} {data : List UInt8}

/-- The calls of the parser after one another, each with some input. -/
inductive ParserCalls (sdk : Sdk G) : SnfOtaParseContext G → SnfOtaParseContext G → Prop
  | refl (c : SnfOtaParseContext G) : ParserCalls sdk c c
  | call {c c' : SnfOtaParseContext G} (hcalls : ParserCalls sdk c c') (data : List UInt8) :
      ParserCalls sdk c (snfOtaParseData sdk c' data).context

def ParserReachable (sdk : Sdk G) (c : SnfOtaParseContext G) : Prop :=
  ∃ packageSize fileName flashSize, packageSize < 4294967296 ∧ flashSize < 4294967296 ∧
    ParserCalls sdk (snfOtaParseInit packageSize fileName flashSize).1 c

def failedCall (c : SnfOtaParseContext G) (error : SnfOtaErrorCode) : ParseDataResult G :=
  ⟨{ c with error := error }, 0, ⟨[], 0⟩, error⟩

/-- The outcomes of a call: an earlier error, an input refused, a piece that does not decrypt,
or a piece absorbed. -/
inductive CallMove (sdk : Sdk G) (c : SnfOtaParseContext G) (data : List UInt8) :
    ParseDataResult G → Prop
  | stuck (he : c.error ≠ .none) : CallMove sdk c data (failedCall c c.error)
  | refused (he : c.error = .none) (hdata : data = [] ∨ c.packageSize - c.offset < data.length) :
      CallMove sdk c data (failedCall c .invalidParam)
  | undecrypted (he : c.error = .none) (error : SnfOtaErrorCode) (herror : error ≠ .none) :
      CallMove sdk c data (failedCall c error)
  | absorbed (he : c.error = .none) {t : ℕ} (hpos : 0 < t) (hle : t ≤ data.length)
      (hroom : t ≤ c.room) {c' : SnfOtaParseContext G} {payload : SnfOtaPayload}
      (habsorb : absorb sdk c (data.take t) = .ok (c', payload)) :
      CallMove sdk c data ⟨advance sdk c', t, payload, (advance sdk c').error⟩

theorem absorb_error {x : List UInt8} {error : SnfOtaErrorCode}
    (h : absorb sdk c x = .error error) : error ≠ .none := by
  unfold absorb absorbImage at h
  split at h
  · split at h
    · split at h
      · cases h
        decide
      · split at h
        · cases h
          decide
        · cases h
    · cases h
  · cases h

variable (sdk) in
theorem snfOtaParseData_stuck (he : c.error ≠ .none) (data : List UInt8) :
    snfOtaParseData sdk c data = failedCall c c.error := by
  unfold snfOtaParseData
  exact if_pos he

variable (sdk) in
/-- An input that is empty or longer than what is left of the package. -/
theorem snfOtaParseData_refused (he : c.error = .none)
    (hdata : data = [] ∨ c.packageSize - c.offset < data.length) :
    snfOtaParseData sdk c data = failedCall c .invalidParam := by
  have hguard : data.length = 0 ∨ c.packageSize = 0 ∨ c.offset > c.packageSize ∨
      data.length > c.packageSize - c.offset :=
    hdata.elim (fun h => Or.inl (List.length_eq_zero_iff.mpr h)) fun h => Or.inr (Or.inr (Or.inr h))
  unfold snfOtaParseData
  dsimp only
  rw [if_neg (not_not.mpr he), if_pos hguard]
  rfl

variable (sdk) in
theorem snfOtaParseData_move (h : c.Valid) (data : List UInt8) :
    CallMove sdk c data (snfOtaParseData sdk c data) := by
  by_cases he : c.error = .none
  · by_cases hdata : data = [] ∨ c.packageSize - c.offset < data.length
    · rw [snfOtaParseData_refused sdk he hdata]
      exact .refused he hdata
    · rw [not_or, not_lt] at hdata
      obtain ⟨t,hpos,hle,hroom,hcall⟩ := snfOtaParseData_eq sdk h he hdata.1 hdata.2
      have hlength : (data.take t).length = t := by
        rw [List.length_take]
        omega
      rw [hcall, afterAbsorb]
      cases habsorb : absorb sdk c (data.take t) with
      | error error => exact .undecrypted he error (absorb_error habsorb)
      | ok r =>
        simp only [hlength]
        exact .absorbed he hpos hle hroom habsorb
  · rw [snfOtaParseData_stuck sdk he]
    exact .stuck he

/-- The piece of a call is as long as it says. -/
theorem take_length_le {t : ℕ} {bound : ℕ} (h : t ≤ bound) (data : List UInt8) :
    (data.take t).length ≤ bound := by
  rw [List.length_take]
  omega

variable (sdk) in
/-- A call keeps the invariant of the parser. -/
theorem snfOtaParseData_valid (h : c.Valid) (data : List UInt8) :
    (snfOtaParseData sdk c data).context.Valid := by
  have hmove := snfOtaParseData_move sdk h data
  generalize snfOtaParseData sdk c data = r at hmove ⊢
  cases hmove with
  | stuck he => exact h
  | refused he hdata => exact valid_of_error h.size_lt h.offset_le (by simp [failedCall])
  | undecrypted he error herror => exact valid_of_error h.size_lt h.offset_le herror
  | absorbed he hpos hle hroom habsorb =>
    exact advance_absorb_valid h he habsorb (take_length_le hroom data)

/-- How a stage advance moves the end of the files seen so far, and the selected file. -/
inductive EndMove (sdk : Sdk G) (c c' : SnfOtaParseContext G) : Prop
  | same (hend : c'.previousEnd = c.previousEnd) (hfile : c'.file = c.file)
  | table (hend : c'.previousEnd = c'.tableEnd) (hinside : c'.tableEnd ≤ c.packageSize)
      (hfile : c'.file = c.file)
  | entry (file : SnfOtaFileInfo) (hstage : c.stage = .file)
      (hread : otaParseFile sdk c.buffer c.bufferedSize = .ok file)
      (hend : c'.previousEnd = file.offset + file.size)
      (hinside : file.offset + file.size ≤ c.packageSize)
      (hfile : c'.file = c.file ∨ c'.file = file)

/-- What the end of a table entry leaves of it. -/
theorem finishFile_end (c : SnfOtaParseContext G) (file : SnfOtaFileInfo) :
    (finishFile c file).1.previousEnd = u32Add file.offset file.size ∧
      (finishFile c file).1.file = c.file := by
  unfold finishFile
  dsimp only
  split
  · split
    · exact ⟨rfl, rfl⟩
    · split <;> exact ⟨rfl, rfl⟩
  · exact ⟨rfl, rfl⟩

/-- An entry that is not refused lies inside the package, and its end does not wrap. -/
theorem u32Add_of_range {file : SnfOtaFileInfo} (hsize : c.packageSize < 4294967296)
    (hrange : ¬fileRangeInvalid c file) :
    file.offset + file.size ≤ c.packageSize ∧
      u32Add file.offset file.size = file.offset + file.size := by
  obtain ⟨_,_,hinside⟩ := not_fileRangeInvalid hrange
  exact ⟨hinside, u32Add_eq (by omega)⟩

theorem otaSelectFile_endMove (hsize : c.packageSize < 4294967296) (hstage : c.stage = .file)
    (hok : (otaSelectFile sdk c).2 = .none) :
    EndMove sdk c (withError (otaSelectFile sdk c)) := by
  have hmove := otaSelectFile_move sdk c
  generalize otaSelectFile sdk c = r at hmove hok ⊢
  cases hmove with
  | refused error herror => exact absurd hok herror
  | @skipped file hread hrange =>
    obtain ⟨hend,hfile⟩ := finishFile_end c file
    obtain ⟨hinside,hsum⟩ := u32Add_of_range hsize hrange
    exact .entry file hstage hread (hend.trans hsum) hinside (Or.inl hfile)
  | @selected file hread hrange hfits =>
    obtain ⟨hend,hfile⟩ := finishFile_end (matchFile c file) file
    obtain ⟨hinside,hsum⟩ := u32Add_of_range hsize hrange
    exact .entry file hstage hread (hend.trans hsum) hinside (Or.inr hfile)

/-- A stage advance without an error moves the end of the files inside the package. -/
theorem advance_endMove (hsize : c.packageSize < 4294967296) (hstage : c.StageValid)
    (hok : (advance sdk c).error = .none) : EndMove sdk c (advance sdk c) := by
  by_cases hr : c.room = 0
  · cases hc : c.stage <;> simp only [StageValid, room, hc, headerSizeOf_eq] at hstage hr
    case metadata =>
      rw [advance_metadata hc (by omega)] at hok ⊢
      cases hm : otaParseMetadata sdk c.buffer 24 with
      | error error =>
        simp only [hm] at hok
        exact absurd hok (otaParseMetadata_error hm)
      | ok m =>
        simp only [hm] at hok ⊢
        split at hok
        case isTrue => cases hok
        case isFalse hle =>
          rw [if_neg hle]
          exact .table rfl (not_lt.mp hle) rfl
    case file =>
      rw [advance_file hc (by omega)] at hok ⊢
      exact otaSelectFile_endMove hsize hc hok
    case fileGap =>
      rw [advance_fileGap hc (by omega)]
      exact .same rfl rfl
    case gcmIv =>
      rw [advance_gcmIv hc (by omega)]
      cases snfAesGcmDecryptStart sdk sdk.otaAesKey c.buffer c.authHeaderData with
      | error error => exact .same rfl rfl
      | ok gcm => exact .same rfl rfl
    case image =>
      rw [advance_image hc (by omega)]
      exact .same rfl rfl
    case gcmTag =>
      rw [advance_gcmTag hc (by omega)]
      split <;> exact .same rfl rfl
    case tail =>
      rw [advance_tail hc]
      exact .same rfl rfl
  · rw [advance_of_room sdk (by omega)]
    exact .same rfl rfl

theorem StageValid.image (h : c.StageValid) (hc : c.stage = .image) :
    c.FileSelected ∧ c.contentStart ≤ c.offset ∧ c.offset ≤ c.contentEnd := by
  simp only [StageValid, hc] at h
  exact ⟨h.1, h.2.2.1, h.2.2.2.1⟩

theorem StageValid.bufferedSize_le (h : c.StageValid) (hc : headerSizeOf c.stage ≠ 0) :
    c.bufferedSize ≤ headerSizeOf c.stage := by
  cases hstage : c.stage <;> simp only [StageValid, hstage, headerSizeOf_eq] at h hc ⊢
  case metadata => exact h.1
  case file => exact h.1
  case gcmIv => exact h.2.2.1
  case gcmTag => exact h.2.2.2.1
  all_goals exact absurd rfl hc

theorem headerSizeOf_le (stage : OtaParseStage) : headerSizeOf stage ≤ 76 := by
  cases stage <;> decide

theorem room_of_field (hc : headerSizeOf c.stage ≠ 0) :
    c.room = headerSizeOf c.stage - c.bufferedSize := by
  unfold room
  cases hstage : c.stage <;> simp only [hstage, headerSizeOf_eq] at hc ⊢
  all_goals exact absurd rfl hc

/-- A piece inside the room of its stage fits the buffer. -/
theorem absorb_bufferedSize_le (h : c.Valid) (he : c.error = .none)
    (hbuffered : c.bufferedSize ≤ 76) {x : List UInt8}
    {payload : SnfOtaPayload} (habsorb : absorb sdk c x = .ok (c', payload))
    (hx : x.length ≤ c.room) : c'.bufferedSize ≤ 76 := by
  by_cases hc : headerSizeOf c.stage = 0
  · unfold bufferedSize at hbuffered ⊢
    rw [absorb_buffer_of_stream habsorb hc]
    exact hbuffered
  · have hfield := StageValid.bufferedSize_le (h.stage he) hc
    have hle := headerSizeOf_le c.stage
    rw [room_of_field hc] at hx
    rw [absorb_bufferedSize habsorb hc]
    omega

variable (sdk) in
theorem advance_bufferedSize_le (hbuffered : c.bufferedSize ≤ 76) :
    (advance sdk c).bufferedSize ≤ 76 := by
  unfold bufferedSize at hbuffered ⊢
  obtain hsame | hempty := (advance_kept sdk c).2
  · rw [hsame]
    exact hbuffered
  · rw [hempty]
    exact Nat.zero_le _

/-- The invariant of the parser with the ends of the files, and the buffer also after an error. -/
structure Bounded (c : SnfOtaParseContext G) : Prop where
  valid : c.Valid
  buffered : c.bufferedSize ≤ 76
  previousEnd : c.error = .none → c.previousEnd ≤ c.packageSize
  file : c.error = .none → c.file.offset + c.file.size ≤ c.packageSize

theorem bounded_of_error (h : c.Valid) (hbuffered : c.bufferedSize ≤ 76) (he : c.error ≠ .none) :
    Bounded c :=
  ⟨h, hbuffered, fun hnone => absurd hnone he, fun hnone => absurd hnone he⟩

theorem EndMove.bounded (h : EndMove sdk c c') (hsize : c'.packageSize = c.packageSize)
    (hend : c.previousEnd ≤ c.packageSize) (hfile : c.file.offset + c.file.size ≤ c.packageSize) :
    c'.previousEnd ≤ c'.packageSize ∧ c'.file.offset + c'.file.size ≤ c'.packageSize := by
  cases h with
  | same hend' hfile' =>
    rw [hend', hfile', hsize]
    exact ⟨hend, hfile⟩
  | table hend' hinside hfile' =>
    rw [hend', hfile', hsize]
    exact ⟨hinside, hfile⟩
  | entry file hstage hread hend' hinside hfile' =>
    rw [hend', hsize]
    constructor
    · exact hinside
    · obtain hsame | hnew := hfile'
      · rw [hsame]
        exact hfile
      · rw [hnew]
        exact hinside

theorem snfOtaParseInit_bounded {packageSize : ℕ} (fileName : Option (List UInt8)) (flashSize : ℕ)
    (hsize : packageSize < 4294967296) :
    Bounded (@snfOtaParseInit G packageSize fileName flashSize).1 := by
  have hvalid := @snfOtaParseInit_valid G packageSize fileName flashSize hsize
  obtain ⟨name,_,_,heq⟩ | ⟨_,heq⟩ := snfOtaParseInit_cases G packageSize fileName flashSize <;>
    rw [heq] at hvalid ⊢
  · exact ⟨hvalid, Nat.zero_le _, fun _ => Nat.zero_le _, fun _ => Nat.zero_le _⟩
  · exact bounded_of_error hvalid (Nat.zero_le _) (by simp)

variable (sdk) in
/-- One call keeps the ends inside the package. -/
theorem snfOtaParseData_bounded (h : Bounded c) (data : List UInt8) :
    Bounded (snfOtaParseData sdk c data).context := by
  have hvalid := snfOtaParseData_valid sdk h.valid data
  have hmove := snfOtaParseData_move sdk h.valid data
  generalize snfOtaParseData sdk c data = r at hmove hvalid ⊢
  cases hmove with
  | stuck he => exact h
  | refused he hdata => exact bounded_of_error hvalid h.buffered (by simp [failedCall])
  | undecrypted he error herror => exact bounded_of_error hvalid h.buffered herror
  | @absorbed he t hpos hle hroom c' payload habsorb =>
    obtain ⟨hsame,_,_⟩ := absorb_spec habsorb
    have hstage := absorb_stageValid h.valid he habsorb (take_length_le hroom data)
    have hinput := advance_sameInput sdk c'
    have hend := h.previousEnd he
    have hfile := h.file he
    rw [← hsame.previousEnd, ← hsame.packageSize] at hend
    rw [← hsame.file, ← hsame.packageSize] at hfile
    have hbounds : (advance sdk c').error = .none → _ := fun hok =>
      (advance_endMove (hsame.packageSize ▸ h.valid.size_lt) hstage hok).bounded hinput.packageSize
      hend hfile
    have hbuffered := absorb_bufferedSize_le h.valid he h.buffered habsorb
      (take_length_le hroom data)
    exact ⟨hvalid, advance_bufferedSize_le sdk hbuffered, fun hok => (hbounds hok).1, fun hok =>
      (hbounds hok).2⟩

theorem ParserCalls.bounded (h : ParserCalls sdk c c') (hc : Bounded c) : Bounded c' := by
  induction h with
  | refl => exact hc
  | call hcalls data ih => exact snfOtaParseData_bounded sdk ih data

theorem ParserReachable.bounded (h : ParserReachable sdk c) : Bounded c := by
  obtain ⟨packageSize,fileName,flashSize,hsize,_,hcalls⟩ := h
  exact hcalls.bounded (snfOtaParseInit_bounded fileName flashSize hsize)

/-- A recorded error stays, and every call returns it. -/
theorem ParserCalls.stuck (h : ParserCalls sdk c c') (he : c.error ≠ .none) : c' = c := by
  induction h with
  | refl => rfl
  | call hcalls data ih =>
    rw [ih, snfOtaParseData_stuck sdk he]
    rfl

/-- Every subtraction of a call takes the smaller from the larger, and every sum is below `2 ^ 32`.
-/
structure LengthsSafe (c : SnfOtaParseContext G) : Prop where
  package : c.offset ≤ c.packageSize
  field : headerSizeOf c.stage ≠ 0 → c.bufferedSize ≤ headerSizeOf c.stage
  gap : c.stage = .fileGap → c.offset ≤ c.file.offset
  imageEnd : c.stage = .image → c.file.offset + c.file.size < 4294967296
  imageTag : c.stage = .image → c.isGcm = true → snfAesGcmTagSize ≤ c.file.offset + c.file.size
  image : c.stage = .image → c.offset ≤ imageEndOf c
  content : c.stage = .image → c.file.offset ≤ c.offset
  contentIv : c.stage = .image → c.isGcm = true → snfAesGcmIvSize ≤ c.offset - c.file.offset

theorem Valid.lengthsSafe (h : c.Valid) (he : c.error = .none) : LengthsSafe c := by
  have hstage := h.stage he
  have hsize := h.size_lt
  refine ⟨h.offset_le, StageValid.bufferedSize_le hstage, ?_, ?_, ?_, ?_, ?_, ?_⟩
  · intro hc
    simp only [StageValid, hc] at hstage
    exact hstage.2.2
  all_goals
    intro hc
    obtain ⟨hsel,hstart,hend⟩ := StageValid.image hstage hc
    have hinside := hsel.inside
    have hcontent := hsel.content
    have hoverhead := c.overhead_eq
  · omega
  · intro hg
    rw [ivSize_of_gcm hg, tagSize_of_gcm hg] at hoverhead
    show 16 ≤ _
    omega
  · rw [imageEndOf_eq hsel hsize]
    exact hend
  · exact Nat.le_trans (Nat.le_add_right _ _) hstart
  · intro hg
    unfold contentStart at hstart
    rw [ivSize_of_gcm hg] at hstart
    show 12 ≤ _
    omega

structure ContextSafe (c : SnfOtaParseContext G) : Prop where
  lengths : LengthsSafe c
  buffered : c.bufferedSize ≤ 76
  previousEnd : c.previousEnd ≤ c.packageSize
  file : c.file.offset + c.file.size ≤ c.packageSize
  packageSize : c.packageSize < 4294967296

theorem Bounded.contextSafe (h : Bounded c) (he : c.error = .none) : ContextSafe c :=
  ⟨Valid.lengthsSafe h.valid he, h.buffered, h.previousEnd he, h.file he, h.valid.size_lt⟩

/-- What a call does to its context, whatever its input is. -/
structure CallSafe (sdk : Sdk G) (c : SnfOtaParseContext G) (data : List UInt8)
    (r : ParseDataResult G) : Prop where
  progress : r.error = .none →
    0 < r.consumed ∧ r.consumed ≤ data.length ∧ r.context.offset = c.offset + r.consumed
  refused : c.error = .none → c.packageSize - c.offset < data.length →
    r = failedCall c .invalidParam
  collected : c.error = .none → headerSizeOf c.stage ≠ 0 →
    c.bufferedSize + min (takeOf c data.length) data.length ≤ 76
  -- An end that the call records is the sum itself.
  previousEnd : r.error = .none → r.context.previousEnd = c.previousEnd ∨
    r.context.previousEnd = r.context.tableEnd ∨
    ∃ file, otaParseFile sdk (c.buffer ++ data.take r.consumed) (c.bufferedSize + r.consumed) =
      .ok file ∧ r.context.previousEnd = file.offset + file.size
  payload : r.payload.offset + r.payload.size ≤ c.flashSize

theorem takeOf_field (hc : headerSizeOf c.stage ≠ 0) (hle : c.bufferedSize ≤ headerSizeOf c.stage)
    (size : ℕ) : takeOf c size = headerSizeOf c.stage - c.bufferedSize := by
  have hheader := headerSizeOf_le c.stage
  unfold takeOf
  cases hstage : c.stage <;> simp only [hstage, headerSizeOf_eq] at hc hle hheader ⊢
  case fileGap => exact absurd rfl hc
  case image => exact absurd rfl hc
  case tail => exact absurd rfl hc
  all_goals exact u32Sub_eq hle (by omega)

theorem Bounded.collected (h : Bounded c) (he : c.error = .none) (hc : headerSizeOf c.stage ≠ 0)
    (size : ℕ) : c.bufferedSize + min (takeOf c size) size ≤ 76 := by
  have hfield := StageValid.bufferedSize_le (h.valid.stage he) hc
  have hle := headerSizeOf_le c.stage
  rw [takeOf_field hc hfield]
  omega

/-- The content of the selected file fits the partition, and every piece lies inside it. -/
theorem absorb_payload_le (h : c.Valid) (he : c.error = .none) {x : List UInt8}
    {payload : SnfOtaPayload} (habsorb : absorb sdk c x = .ok (c', payload))
    (hx : x.length ≤ c.room) : payload.offset + payload.size ≤ c.flashSize := by
  unfold absorb at habsorb
  split at habsorb
  case isTrue hc =>
    obtain ⟨_,_,_,hlength,hoffset,_,_⟩ := absorbImage_spec habsorb
    obtain ⟨hsel,hstart,hend⟩ := StageValid.image (h.stage he) hc
    have hcontent := hsel.content_size
    have hfits := hsel.fits
    simp only [room, hc] at hx
    unfold SnfOtaPayload.size
    omega
  case isFalse =>
    cases habsorb
    exact Nat.zero_le _

theorem EndMove.recorded {x : List UInt8} {payload : SnfOtaPayload} {d : SnfOtaParseContext G}
    (habsorb : absorb sdk c x = .ok (c', payload)) (h : EndMove sdk c' d) :
    d.previousEnd = c.previousEnd ∨ d.previousEnd = d.tableEnd ∨
      ∃ file, otaParseFile sdk (c.buffer ++ x) (c.bufferedSize + x.length) = .ok file ∧
        d.previousEnd = file.offset + file.size := by
  obtain ⟨hsame,_,_⟩ := absorb_spec habsorb
  cases h with
  | same hend hfile => exact Or.inl (hend.trans hsame.previousEnd)
  | table hend hinside hfile => exact Or.inr (Or.inl hend)
  | entry file hstage hread hend hinside hfile =>
    have hc : headerSizeOf c.stage ≠ 0 := by
      rw [← hsame.stage, hstage]
      decide
    have hbuffer := absorb_buffer habsorb
    rw [if_pos hc] at hbuffer
    rw [hbuffer, absorb_bufferedSize habsorb hc] at hread
    exact Or.inr (Or.inr ⟨file, hread, hend⟩)

theorem failedCall_safe (h : Bounded c) {error : SnfOtaErrorCode} (herror : error ≠ .none)
    (hrefused : c.error = .none → c.packageSize - c.offset < data.length → error = .invalidParam) :
    CallSafe sdk c data (failedCall c error) where
  progress := fun hok => absurd hok herror
  refused := fun he hlong => by rw [hrefused he hlong]
  collected := fun he hc => h.collected he hc data.length
  previousEnd := fun hok => absurd hok herror
  payload := Nat.zero_le _

variable (sdk) in
theorem Bounded.callSafe (h : Bounded c) (data : List UInt8) :
    CallSafe sdk c data (snfOtaParseData sdk c data) := by
  have hrefused : c.error = .none → c.packageSize - c.offset < data.length →
      snfOtaParseData sdk c data = failedCall c .invalidParam :=
    fun he hlong => snfOtaParseData_refused sdk he (Or.inr hlong)
  have hmove := snfOtaParseData_move sdk h.valid data
  generalize snfOtaParseData sdk c data = r at hmove hrefused ⊢
  cases hmove with
  | stuck he => exact failedCall_safe h he fun hnone => absurd hnone he
  | refused he hdata => exact failedCall_safe h (by decide) fun _ _ => rfl
  | undecrypted he error herror =>
    exact failedCall_safe h herror fun _ hlong => congrArg ParseDataResult.error (hrefused he hlong)
  | @absorbed he t hpos hle hroom c' payload habsorb =>
    obtain ⟨hsame,hoffset,_⟩ := absorb_spec habsorb
    have hlength : (data.take t).length = t := by
      rw [List.length_take]
      omega
    have hstage := absorb_stageValid h.valid he habsorb (take_length_le hroom data)
    refine ⟨fun _ => ⟨hpos, hle, ?_⟩, hrefused, fun hnone hc => h.collected hnone hc data.length,
      fun hok => ?_, absorb_payload_le h.valid he habsorb (take_length_le hroom data)⟩
    · rw [hlength] at hoffset
      exact (advance_sameInput sdk c').offset.trans hoffset
    · have hend := (advance_endMove (hsame.packageSize ▸ h.valid.size_lt) hstage hok).recorded
        habsorb
      rwa [hlength] at hend

/-- The loop ends: each round consumes a part of the chunk, or fails. -/
theorem otaHandlePackageLoop_ends {fuel : ℕ} {core : OtaCore G} (h : Bounded core.parser)
    (hfuel : data.length < fuel) : ∃ r, otaHandlePackageLoop sdk fuel core data = some r := by
  induction fuel generalizing core data with
  | zero => omega
  | succ fuel ih =>
    have hcall := h.callSafe sdk data
    have hnext := snfOtaParseData_bounded sdk h data
    unfold otaHandlePackageLoop
    dsimp only
    split
    case isTrue => exact ⟨_, rfl⟩
    case isFalse =>
      split
      case isTrue => exact ⟨_, rfl⟩
      case isFalse hok =>
        have hframe := (writePayload_spec
          (core.setParser (snfOtaParseData sdk core.parser data).context)
          (snfOtaParseData sdk core.parser data).payload).frame.parser
        obtain ⟨hpos,hle,_⟩ := hcall.progress (not_not.mp hok)
        split
        · exact ⟨_, rfl⟩
        · apply ih
          · rw [hframe]
            exact hnext
          · rw [List.length_drop]
            omega

/-- In every context that calls after an initialisation lead to, lengths do not wrap, a call
makes progress or fails, an error stays, and the loop over a chunk ends. -/
theorem parser_safe (sdk : Sdk G) (c : SnfOtaParseContext G) (h : ParserReachable sdk c) :
    (c.error = .none → ContextSafe c) ∧
    (∀ data, CallSafe sdk c data (snfOtaParseData sdk c data)) ∧
    (c.error ≠ .none → ∀ c', ParserCalls sdk c c' → ∀ data,
      snfOtaParseData sdk c' data = ⟨c, 0, ⟨[], 0⟩, c.error⟩) ∧
    ∀ core : OtaCore G, core.parser = c → ∀ data, ∃ r, otaHandlePackage sdk core data = some r := by
  have hbounded := h.bounded
  refine ⟨hbounded.contextSafe, hbounded.callSafe sdk, ?_, ?_⟩
  · intro he c' hcalls data
    rw [hcalls.stuck he]
    exact snfOtaParseData_stuck sdk he data
  · intro core hcore data
    unfold otaHandlePackage
    exact otaHandlePackageLoop_ends (hcore ▸ hbounded) (Nat.lt_succ_self _)

def openContext : SnfOtaParseContext Unit :=
  (snfOtaParseInit 105 (some snfOtaDefaultFileName) 4096).1

/-- Three of five bytes of content and tail are still to come. -/
def streamingContext : SnfOtaParseContext Unit :=
  let head := plainHead 3 (crc32Of softSdk [7, 8, 9])
  let headed := (snfOtaParseData softSdk openContext (head.take 24)).context
  let listed := (snfOtaParseData softSdk headed (head.drop 24)).context
  (snfOtaParseData softSdk listed [7]).context

/-- The chunk that ends the content and brings the tail takes two calls. -/
theorem parser_safe_streaming :
    streamingContext.stage = .image ∧ ContextSafe streamingContext
      ∧ CallSafe softSdk streamingContext [8, 9, 0, 0]
        (snfOtaParseData softSdk streamingContext [8, 9, 0, 0])
      ∧ (snfOtaParseData softSdk streamingContext [8, 9, 0, 0]).consumed = 2
      ∧ ∃ r, otaHandlePackage softSdk (byteSession.setParser streamingContext) [8, 9, 0, 0] = some r
        ∧ r.1 = .none ∧ r.2.flash.written = [(8, 1), (9, 2)] := by
  obtain ⟨hcontext,hcall,-,hends⟩ := parser_safe softSdk streamingContext
    ⟨105, some snfOtaDefaultFileName,
      4096, by decide, by decide, .call (.call (.call (.refl _) _) _) _⟩
  obtain ⟨r,hr⟩ := hends (byteSession.setParser streamingContext) (by simp only [OtaCore.setParser])
    [8, 9, 0, 0]
  have hrun : (otaHandlePackage softSdk (byteSession.setParser streamingContext) [8, 9, 0, 0]).map
      (fun r => (r.1, r.2.flash.written)) = some (.none, [(8, 1), (9, 2)]) := by decide +kernel
  rw [hr] at hrun
  simp only [Option.map_some, Option.some.injEq, Prod.mk.injEq] at hrun
  exact ⟨by decide +kernel, hcontext (by decide +kernel), hcall [8, 9, 0, 0],
    by decide +kernel, r, hr, hrun⟩

end Sonoff.OtaParse
