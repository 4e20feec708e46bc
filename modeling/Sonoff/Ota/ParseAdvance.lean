import Sonoff.Ota.ParseInvariant

/-! # Stage advances keep the parser invariant

A piece inside the room of a stage keeps the stage; the advance does nothing
while there is room left, and out of a complete stage it enters the next one or
records an error.
-/
namespace Sonoff.OtaParse
open Bytes AesGcm Ota SnfOtaParseContext

variable {G : Type} {sdk : Sdk G}

/-- A piece inside the room of its stage keeps the stage invariant. -/
theorem absorb_stageValid {c c' : SnfOtaParseContext G} (h : c.Valid) (he : c.error = .none)
    {x : List UInt8} {payload : SnfOtaPayload} (ha : absorb sdk c x = .ok (c', payload))
    (hx : x.length ≤ c.room) : c'.StageValid := by
  obtain ⟨hsame,ho,hg⟩ := absorb_spec ha
  have hb := absorb_bufferedSize ha
  have hn := absorb_buffer_of_stream ha
  have hs := h.stage he
  unfold StageValid at hs ⊢
  unfold room at hx
  rw [hsame.stage]
  cases hc : c.stage <;> simp only [hc, headerSizeOf_eq] at hs hx hb hn ⊢
  case metadata =>
    rw [hsame.file, hsame.packageSize, hsame.fileIndex]
    have hbuf := hb (by decide)
    omega
  case file =>
    rw [hsame.fileIndex, hsame.fileCount, hsame.tableEnd, hsame.previousEnd, hsame.packageSize,
      hsame.file]
    have hbuf := hb (by decide)
    obtain ⟨_,hi,hoff,ht,hp,hf⟩ := hs
    exact ⟨by omega, hi, by omega, ht, hp, hf.imp_right hsame.fileSelected⟩
  case fileGap =>
    rw [hsame.file]
    exact ⟨hsame.fileSelected hs.1, (hn trivial).trans hs.2.1, by omega⟩
  case gcmIv =>
    rw [hsame.file, hsame.isGcm]
    have hbuf := hb (by decide)
    exact ⟨hsame.fileSelected hs.1, hs.2.1, by omega, by omega⟩
  case image =>
    rw [hsame.isGcm, hsame.contentStart, hsame.contentEnd]
    exact ⟨hsame.fileSelected hs.1, (hn trivial).trans hs.2.1, by omega, by omega,
      fun hgcm => hg (hs.2.2.2.2 hgcm)⟩
  case gcmTag =>
    rw [hsame.isGcm, hsame.contentEnd]
    have hbuf := hb (by decide)
    exact ⟨hsame.fileSelected hs.1, hs.2.1, hg hs.2.2.1, by omega, by omega⟩
  case tail =>
    rw [hsame.file]
    exact ⟨hsame.fileSelected hs.1, by omega⟩

theorem absorb_room {c c' : SnfOtaParseContext G} {x : List UInt8} {payload : SnfOtaPayload}
    (ha : absorb sdk c x = .ok (c', payload)) : c'.room = c.room - x.length := by
  obtain ⟨hsame,ho,_⟩ := absorb_spec ha
  have hb := absorb_bufferedSize ha
  unfold room
  rw [hsame.stage]
  cases hc : c.stage <;> simp only [hc, headerSizeOf_eq] at hb ⊢
  case fileGap =>
    rw [hsame.file]
    omega
  case image =>
    rw [hsame.contentEnd]
    omega
  case tail =>
    rw [hsame.packageSize]
    omega
  all_goals
    have hbuf := hb (by decide)
    omega

theorem absorb_valid {c c' : SnfOtaParseContext G} (h : c.Valid) (he : c.error = .none)
    {x : List UInt8} {payload : SnfOtaPayload} (ha : absorb sdk c x = .ok (c', payload))
    (hx : x.length < c.room) : c'.Valid := by
  obtain ⟨hsame,ho,_⟩ := absorb_spec ha
  have hle := h.room_le he
  have hroom := absorb_room ha
  exact ⟨hsame.packageSize ▸ h.size_lt, by rw [hsame.packageSize]; omega,
    fun _ => absorb_stageValid h he ha (by omega), fun _ => Or.inr (by omega)⟩

variable (sdk) in
/-- While there is room the stage advance does nothing. -/
theorem advance_of_room {c : SnfOtaParseContext G} (h : 0 < c.room) : advance sdk c = c := by
  unfold room at h
  unfold advance otaAdvanceStage
  cases hc : c.stage <;> simp only [hc, headerSizeOf_eq] at h ⊢
  case fileGap =>
    simp only [ne_eq, not_true_eq_false, false_and, if_false]
    rw [if_neg (by omega)]
  case image =>
    simp only [ne_eq, not_true_eq_false, false_and, if_false, if_true]
    rw [if_neg (by omega)]
  case tail => simp
  all_goals
    rw [if_pos ⟨by decide, by omega⟩]

theorem advance_tail {c : SnfOtaParseContext G} (h : c.stage = .tail) : advance sdk c = c := by
  simp [advance, otaAdvanceStage, h, headerSizeOf]

theorem otaParseMetadata_ok {data : List UInt8} {size : ℕ} {m : SnfOtaMetadata}
    (h : otaParseMetadata sdk data size = .ok m) : 0 < m.fileCount.toNat := by
  unfold otaParseMetadata at h
  split_ifs at h with h₁ h₂ h₃ h₄ h₅
  cases h
  have hne : byteAt data otaHeadFileCountOffset ≠ 0 := fun hz => h₄ (Or.inl hz)
  exact Nat.pos_of_ne_zero (fun hz => hne (UInt8.toNat_inj.mp hz))

theorem not_fileRangeInvalid {c : SnfOtaParseContext G} {file : SnfOtaFileInfo}
    (h : ¬fileRangeInvalid c file) :
    c.overhead < file.size ∧ c.previousEnd ≤ file.offset ∧
      file.offset + file.size ≤ c.packageSize := by
  unfold fileRangeInvalid at h
  omega

theorem valid_of_error {c : SnfOtaParseContext G} (hs : c.packageSize < 4294967296)
    (ho : c.offset ≤ c.packageSize) (he : c.error ≠ .none) : c.Valid :=
  ⟨hs, ho, fun h => absurd h he, fun h => absurd h he⟩

/-- A stage that starts with an empty field or before the end of its range. -/
theorem valid_of_stage {c : SnfOtaParseContext G} (hs : c.packageSize < 4294967296)
    (ho : c.offset ≤ c.packageSize) (hst : c.StageValid) (hr : c.stage = .tail ∨ 0 < c.room) :
    c.Valid :=
  ⟨hs, ho, fun _ => hst, fun _ => hr⟩

def initContext (packageSize : ℕ) (fileName : List UInt8) (flashSize : ℕ) : SnfOtaParseContext G :=
  { SnfOtaParseContext.zero with
    fileName := fileName.take 32 ++ [0]
    packageSize := packageSize
    flashSize := flashSize
    fileCrc := 0xFFFFFFFF }

def InitAccepts (packageSize : ℕ) (fileName : List UInt8) (flashSize : ℕ) : Prop :=
  100 < packageSize ∧ 0 < flashSize ∧ byteAt fileName 0 ≠ 0

variable (G) in
theorem snfOtaParseInit_cases (packageSize : ℕ) (fileName : Option (List UInt8)) (flashSize : ℕ) :
    (∃ name, fileName = some name ∧ InitAccepts packageSize name flashSize
      ∧ @snfOtaParseInit G packageSize fileName flashSize =
        (initContext packageSize name flashSize, .none))
    ∨ ((∀ name, fileName = some name → ¬InitAccepts packageSize name flashSize)
      ∧ @snfOtaParseInit G packageSize fileName flashSize =
        ({ SnfOtaParseContext.zero with error := .invalidParam }, .invalidParam)) := by
  unfold snfOtaParseInit InitAccepts
  simp only [show snfOtaMetaHeadSize + snfOtaMetaFileSize = 100 from rfl]
  by_cases hsize : packageSize ≤ 100 ∨ flashSize = 0
  · rw [if_pos hsize]
    exact Or.inr ⟨fun _ _ h => by omega, rfl⟩
  · rw [if_neg hsize]
    cases fileName with
    | none => exact Or.inr ⟨nofun, rfl⟩
    | some name =>
      by_cases hname : byteAt name 0 = 0
      · refine Or.inr ⟨?_, by simp [hname]⟩
        rintro n hn h
        cases hn
        exact h.2.2 hname
      · exact Or.inl ⟨name, rfl, ⟨by omega, by omega, hname⟩, by simp only [if_neg hname]; rfl⟩

theorem initContext_valid {packageSize : ℕ} {fileName : List UInt8} {flashSize : ℕ}
    (hs : packageSize < 4294967296) (h : InitAccepts packageSize fileName flashSize) :
    (initContext packageSize fileName flashSize : SnfOtaParseContext G).Valid :=
  valid_of_stage hs (Nat.zero_le _) ⟨Nat.zero_le _,rfl,rfl,by have := h.1; simp only [initContext]; omega,rfl⟩
    (Or.inr (Nat.succ_pos 23))

theorem snfOtaParseInit_valid {packageSize : ℕ} (fileName : Option (List UInt8)) (flashSize : ℕ)
    (hs : packageSize < 4294967296) :
    (@snfOtaParseInit G packageSize fileName flashSize).1.Valid := by
  rcases snfOtaParseInit_cases G packageSize fileName flashSize with ⟨name,_,h,he⟩ | ⟨_,he⟩ <;>
    rw [he]
  · exact initContext_valid hs h
  · exact valid_of_error (Nat.succ_pos _) (Nat.le_refl 0) (by simp)

/-- The stage behind the table, from the start of the selected file. -/
theorem fileStart_valid {c : SnfOtaParseContext G} (hsel : c.FileSelected)
    (hs : c.packageSize < 4294967296) (hb : c.buffer = []) (ho : c.offset = c.file.offset) :
    (SnfOtaParseContext.Valid { c with stage := if c.isGcm then .gcmIv else .image }) := by
  have hlt := hsel.contentStart_lt
  have hle := hsel.contentEnd_le
  have hle' : c.offset ≤ c.packageSize := by
    have := hsel.inside
    omega
  cases hg : c.isGcm with
  | false =>
    have hcs : c.contentStart = c.file.offset := by simp [contentStart, ivSize_of_not_gcm hg]
    refine valid_of_stage hs hle' ⟨⟨hsel.1,hsel.2,hsel.3,hsel.4⟩, hb, ?_, ?_, ?_⟩ (Or.inr ?_)
    · show c.contentStart ≤ c.offset
      omega
    · show c.offset ≤ c.contentEnd
      omega
    · intro h
      exact absurd (hg.symm.trans h) (by decide)
    · show 0 < c.contentEnd - c.offset
      omega
  | true =>
    have hb0 : c.bufferedSize = 0 := by simp [bufferedSize, hb]
    refine valid_of_stage hs hle' ⟨⟨hsel.1,hsel.2,hsel.3,hsel.4⟩, hg, ?_, ?_⟩ (Or.inr ?_)
    · show c.bufferedSize ≤ 12
      omega
    · show c.offset = c.file.offset + c.bufferedSize
      omega
    · show 0 < snfAesGcmIvSize - c.bufferedSize
      rw [hb0]
      decide

def withError (r : SnfOtaParseContext G × SnfOtaErrorCode) :
    SnfOtaParseContext G := { r.1 with error := r.2 }

@[simp] theorem withError_error (c : SnfOtaParseContext G) (e : SnfOtaErrorCode) :
    (withError (c, e)).error = e := rfl

/-- The end of a table entry keeps the invariant, whatever stage it leads to. -/
theorem finishFile_valid {c : SnfOtaParseContext G} {file : SnfOtaFileInfo}
    (hs : c.packageSize < 4294967296) (hi : c.fileIndex < c.fileCount)
    (ho : c.offset = 24 + 76 * (c.fileIndex + 1)) (ht : c.tableEnd ≤ file.offset)
    (hin : file.offset + file.size ≤ c.packageSize) (hf : c.file.size = 0 ∨ c.FileSelected)
    (hst : c.stage = .file) :
    (withError (finishFile c file)).Valid := by
  have hcount : c.fileCount < 256 := c.metadata.fileCount.toNat_lt
  have hidx : (c.fileIndex + 1) % 256 = c.fileIndex + 1 := Nat.mod_eq_of_lt (by omega)
  have hend : u32Add file.offset file.size = file.offset + file.size := u32Add_eq (by omega)
  have hle : c.offset ≤ c.packageSize := by
    unfold tableEnd at ht
    omega
  unfold finishFile
  simp only [hidx, hend, withError]
  split
  case isTrue hlast =>
    have hlast' : c.fileIndex + 1 = c.fileCount := hlast
    split
    case isTrue => exact valid_of_error hs hle (by simp)
    case isFalse hsize =>
      have hsel : c.FileSelected := hf.resolve_left hsize
      have hbehind := hsel.behind
      have hsel' : FileSelected { c with
          previousEnd := file.offset + file.size, fileIndex := c.fileIndex + 1, buffer := [],
          error := .none } := ⟨hsel.1,hsel.2,hsel.3,hsel.4⟩
      split
      case isTrue hstart =>
        have hv := fileStart_valid hsel' hs rfl hstart
        cases hg : c.metadata.cipherType == snfOtaCipherAes256Gcm <;>
          simpa [overhead, isGcm, hg, snfAesGcmIvSize] using hv
      case isFalse hstart =>
        refine valid_of_stage hs hle ⟨⟨hsel.1,hsel.2,hsel.3,hsel.4⟩, rfl, ?_⟩ (Or.inr ?_)
        · show c.offset ≤ c.file.offset
          unfold tableEnd at hbehind
          omega
        · show 0 < c.file.offset - c.offset
          unfold tableEnd at hbehind
          have hne : c.offset ≠ c.file.offset := hstart
          omega
  case isFalse hlast =>
    have hlast' : c.fileIndex + 1 ≠ c.fileCount := hlast
    refine valid_of_stage hs hle ?_ (Or.inr ?_)
    · simp only [StageValid, hst]
      refine ⟨Nat.zero_le _, ?_, ?_, ?_, hin, hf.imp_right fun hsel =>
        ⟨hsel.1,hsel.2,hsel.3,hsel.4⟩⟩
      · show c.fileIndex + 1 < c.fileCount
        omega
      · show c.offset = 24 + 76 * (c.fileIndex + 1) + 0
        omega
      · show c.tableEnd ≤ file.offset + file.size
        omega
    · simp only [room, hst]
      exact Nat.zero_lt_succ 75

def withMetadata (c : SnfOtaParseContext G) (m : SnfOtaMetadata) : SnfOtaParseContext G :=
  { c with
    metadata := m
    authHeaderData := c.buffer.take 24 ++ c.authHeaderData.drop 24
    previousEnd := 24 + 76 * m.fileCount.toNat }

theorem advance_metadata {c : SnfOtaParseContext G} (hst : c.stage = .metadata)
    (hb : c.bufferedSize = 24) : advance sdk c =
      match otaParseMetadata sdk c.buffer 24 with
      | .error error => { c with error := error }
      | .ok m =>
        if 24 + 76 * m.fileCount.toNat > c.packageSize then
          { withMetadata c m with error := .imageIncomplete }
        else { withMetadata c m with buffer := [], stage := .file } := by
  simp only [advance, otaAdvanceStage, withMetadata, hst, headerSizeOf, hb]
  rfl

theorem advance_file {c : SnfOtaParseContext G} (hst : c.stage = .file) (hb : c.bufferedSize = 76) :
    advance sdk c = withError (otaSelectFile sdk c) := by
  simp only [advance, otaAdvanceStage, hst, headerSizeOf, hb]
  rfl

theorem advance_fileGap {c : SnfOtaParseContext G} (hst : c.stage = .fileGap)
    (ho : c.offset = c.file.offset) :
    advance sdk c = { c with stage := if c.isGcm then .gcmIv else .image } := by
  simp [advance, otaAdvanceStage, hst, headerSizeOf, ho]

theorem advance_gcmIv {c : SnfOtaParseContext G} (hst : c.stage = .gcmIv)
    (hb : c.bufferedSize = 12) : advance sdk c =
      match snfAesGcmDecryptStart sdk sdk.otaAesKey c.buffer c.authHeaderData with
      | .error _ => { c with error := .decryptFailed }
      | .ok gcm => { c with gcm := some gcm, buffer := [], stage := .image } := by
  simp only [advance, otaAdvanceStage, hst, headerSizeOf, hb]
  rfl

theorem advance_image {c : SnfOtaParseContext G} (hst : c.stage = .image)
    (ho : c.offset = c.contentEnd) :
    advance sdk c = { c with stage := if c.isGcm then .gcmTag else .tail } := by
  simp [advance, otaAdvanceStage, hst, headerSizeOf, ho]

theorem advance_gcmTag {c : SnfOtaParseContext G} (hst : c.stage = .gcmTag)
    (hb : c.bufferedSize = 16) : advance sdk c =
      match c.gcm.map (fun gcm => snfAesGcmDecryptFinish sdk gcm c.buffer) with
      | some .ok => { c with gcm := Option.none, buffer := [], stage := .tail }
      | _ => { c with gcm := Option.none, error := .decryptFailed } := by
  simp only [advance, otaAdvanceStage, hst, headerSizeOf, hb]
  rfl

theorem otaParseMetadata_error {data : List UInt8} {size : ℕ} {error : SnfOtaErrorCode}
    (h : otaParseMetadata sdk data size = .error error) : error ≠ .none := by
  unfold otaParseMetadata at h
  split_ifs at h <;> cases h <;> decide

theorem otaParseFile_error {data : List UInt8} {size : ℕ} {error : SnfOtaErrorCode}
    (h : otaParseFile sdk data size = .error error) : error ≠ .none := by
  unfold otaParseFile at h
  split_ifs at h <;> cases h <;> decide

/-- The outcomes of a complete table entry: refused, or ended with the file it may select. -/
inductive SelectMove (sdk : Sdk G) (c : SnfOtaParseContext G) :
    SnfOtaParseContext G × SnfOtaErrorCode → Prop
  | refused (error : SnfOtaErrorCode) (herror : error ≠ .none) : SelectMove sdk c (c, error)
  | skipped {file : SnfOtaFileInfo} (hread : otaParseFile sdk c.buffer c.bufferedSize = .ok file)
      (hrange : ¬fileRangeInvalid c file) : SelectMove sdk c (finishFile c file)
  | selected {file : SnfOtaFileInfo} (hread : otaParseFile sdk c.buffer c.bufferedSize = .ok file)
      (hrange : ¬fileRangeInvalid c file) (hfits : file.size - c.overhead ≤ c.flashSize) :
      SelectMove sdk c (finishFile (matchFile c file) file)

variable (sdk) in
theorem otaSelectFile_move (c : SnfOtaParseContext G) : SelectMove sdk c (otaSelectFile sdk c) := by
  unfold otaSelectFile
  cases hread : otaParseFile sdk c.buffer c.bufferedSize with
  | error error => exact .refused error (otaParseFile_error hread)
  | ok file =>
    dsimp only
    split
    case isTrue => exact .refused _ (by decide)
    case isFalse hrange =>
      split
      · split
        case isTrue => exact .refused _ (by decide)
        case isFalse hfits =>
          exact .selected hread hrange (not_lt.mp fun h => hfits (Or.inr h))
      · exact .skipped hread hrange

theorem advance_metadata_valid {c : SnfOtaParseContext G} (hs : c.packageSize < 4294967296)
    (hle : c.offset ≤ c.packageSize) (hst : c.StageValid) (hc : c.stage = .metadata)
    (hb : c.bufferedSize = 24) : (advance sdk c).Valid := by
  rw [advance_metadata hc hb]
  cases hm : otaParseMetadata sdk c.buffer 24 with
  | error error => exact valid_of_error hs hle (otaParseMetadata_error hm)
  | ok m =>
    have hpos := otaParseMetadata_ok hm
    simp only [StageValid, hc] at hst
    obtain ⟨_,ho,hz,_,hidx⟩ := hst
    dsimp only
    split
    case isTrue => exact valid_of_error hs hle (by simp)
    case isFalse htable =>
      refine valid_of_stage hs hle ?_ (Or.inr (Nat.zero_lt_succ 75))
      refine ⟨Nat.zero_le _, ?_, ?_, Nat.le_refl _, Nat.le_of_not_lt htable, Or.inl hz⟩
      · show c.fileIndex < m.fileCount.toNat
        omega
      · show c.offset = 24 + 76 * c.fileIndex + 0
        omega

theorem advance_file_valid {c : SnfOtaParseContext G} (hs : c.packageSize < 4294967296)
    (hle : c.offset ≤ c.packageSize) (hst : c.StageValid) (hc : c.stage = .file)
    (hb : c.bufferedSize = 76) : (advance sdk c).Valid := by
  rw [advance_file hc hb]
  simp only [StageValid, hc] at hst
  obtain ⟨_,hi,ho,ht,hp,hf⟩ := hst
  have hmove := otaSelectFile_move sdk c
  generalize otaSelectFile sdk c = r at hmove ⊢
  cases hmove with
  | refused error herror => exact valid_of_error hs hle herror
  | skipped hread hrange =>
    obtain ⟨_,hprev,hin⟩ := not_fileRangeInvalid hrange
    exact finishFile_valid hs hi (by omega) (Nat.le_trans ht hprev) hin hf hc
  | @selected file hread hrange hfits =>
    obtain ⟨hcont,hprev,hin⟩ := not_fileRangeInvalid hrange
    exact @finishFile_valid _ (matchFile c file) _ hs hi (by simp only [matchFile]; omega)
      (Nat.le_trans ht hprev) hin (Or.inr ⟨hcont,Nat.le_trans ht hprev,hin,hfits⟩) hc

/-- The advance out of a complete stage keeps the invariant. -/
theorem advance_valid {c : SnfOtaParseContext G} (hs : c.packageSize < 4294967296)
    (hle : c.offset ≤ c.packageSize) (hst : c.StageValid) (hr : c.room = 0) :
    (advance sdk c).Valid := by
  cases hc : c.stage
  case metadata =>
    refine advance_metadata_valid hs hle hst hc ?_
    simp only [StageValid, hc] at hst
    simp only [room, hc, headerSizeOf_eq] at hr
    omega
  case file =>
    refine advance_file_valid hs hle hst hc ?_
    simp only [StageValid, hc] at hst
    simp only [room, hc, headerSizeOf_eq] at hr
    omega
  case fileGap =>
    simp only [StageValid, hc] at hst
    simp only [room, hc] at hr
    have ho : c.offset = c.file.offset := by omega
    rw [advance_fileGap hc ho]
    exact fileStart_valid hst.1 hs hst.2.1 ho
  case gcmIv =>
    simp only [StageValid, hc] at hst
    simp only [room, hc, headerSizeOf_eq] at hr
    obtain ⟨hsel,hg,hb,ho⟩ := hst
    rw [advance_gcmIv hc (by omega)]
    cases hstart : snfAesGcmDecryptStart sdk sdk.otaAesKey c.buffer c.authHeaderData with
    | error e => exact valid_of_error hs hle (by simp)
    | ok gcm =>
      have hlt := hsel.contentStart_lt
      have hcs : c.contentStart = c.file.offset + 12 := by simp [contentStart, ivSize_of_gcm hg]
      refine valid_of_stage hs hle ⟨⟨hsel.1,hsel.2,hsel.3,hsel.4⟩, rfl, ?_, ?_, fun _ => rfl⟩
        (Or.inr ?_)
      · show c.contentStart ≤ c.offset
        omega
      · show c.offset ≤ c.contentEnd
        omega
      · show 0 < c.contentEnd - c.offset
        omega
  case image =>
    simp only [StageValid, hc] at hst
    simp only [room, hc] at hr
    obtain ⟨hsel,hb,_,ho,hgcm⟩ := hst
    rw [advance_image hc (by omega)]
    cases hg : c.isGcm with
    | false =>
      have hce : c.contentEnd = c.file.offset + c.file.size := by
        simp [contentEnd, tagSize_of_not_gcm hg]
      refine valid_of_stage hs hle ⟨⟨hsel.1,hsel.2,hsel.3,hsel.4⟩, ?_⟩ (Or.inl rfl)
      show c.file.offset + c.file.size ≤ c.offset
      omega
    | true =>
      have hb0 : c.bufferedSize = 0 := by simp [bufferedSize, hb]
      refine valid_of_stage hs hle ⟨⟨hsel.1,hsel.2,hsel.3,hsel.4⟩, hg, hgcm hg, ?_, ?_⟩ (Or.inr ?_)
      · show c.bufferedSize ≤ 16
        omega
      · show c.offset = c.contentEnd + c.bufferedSize
        omega
      · show 0 < snfAesGcmTagSize - c.bufferedSize
        rw [hb0]
        decide
  case gcmTag =>
    simp only [StageValid, hc] at hst
    simp only [room, hc, headerSizeOf_eq] at hr
    obtain ⟨hsel,hg,_,hb,ho⟩ := hst
    rw [advance_gcmTag hc (by omega)]
    split
    · refine valid_of_stage hs hle ⟨⟨hsel.1,hsel.2,hsel.3,hsel.4⟩, ?_⟩ (Or.inl rfl)
      show c.file.offset + c.file.size ≤ c.offset
      unfold contentEnd at ho
      rw [tagSize_of_gcm hg] at ho
      omega
    · exact valid_of_error hs hle (by simp)
  case tail =>
    rw [advance_tail hc]
    exact valid_of_stage hs hle hst (Or.inl hc)

structure SameInput (c c' : SnfOtaParseContext G) : Prop where
  packageSize : c'.packageSize = c.packageSize
  flashSize : c'.flashSize = c.flashSize
  fileName : c'.fileName = c.fileName
  offset : c'.offset = c.offset
  fileCrc : c'.fileCrc = c.fileCrc

def Kept (c c' : SnfOtaParseContext G) :
    Prop := SameInput c c' ∧ (c'.buffer = c.buffer ∨ c'.buffer = [])

theorem finishFile_kept (c : SnfOtaParseContext G) (file : SnfOtaFileInfo) :
    Kept c (finishFile c file).1 := by
  unfold finishFile
  dsimp only
  split
  · split
    · exact ⟨⟨rfl,rfl,rfl,rfl,rfl⟩, Or.inr rfl⟩
    · split <;> exact ⟨⟨rfl,rfl,rfl,rfl,rfl⟩, Or.inr rfl⟩
  · exact ⟨⟨rfl,rfl,rfl,rfl,rfl⟩, Or.inr rfl⟩

variable (sdk) in
theorem otaSelectFile_kept (c : SnfOtaParseContext G) : Kept c (otaSelectFile sdk c).1 := by
  have hmove := otaSelectFile_move sdk c
  generalize otaSelectFile sdk c = r at hmove ⊢
  cases hmove with
  | refused error herror => exact ⟨⟨rfl,rfl,rfl,rfl,rfl⟩, Or.inl rfl⟩
  | skipped hread hrange => exact finishFile_kept ..
  | @selected file hread hrange hfits =>
    obtain ⟨⟨h₁,h₂,h₃,h₄,h₅⟩,hbuffer⟩ := finishFile_kept (matchFile c file) file
    exact ⟨⟨h₁,h₂,h₃,h₄,h₅⟩, hbuffer⟩

variable (sdk) in
theorem advance_kept (c : SnfOtaParseContext G) : Kept c (advance sdk c) := by
  obtain ⟨⟨h₁,h₂,h₃,h₄,h₅⟩,hbuffer⟩ := otaSelectFile_kept sdk c
  unfold advance otaAdvanceStage
  split
  · exact ⟨⟨rfl,rfl,rfl,rfl,rfl⟩, Or.inl rfl⟩
  · split
    · split
      · exact ⟨⟨rfl,rfl,rfl,rfl,rfl⟩, Or.inl rfl⟩
      · dsimp only
        split
        · exact ⟨⟨rfl,rfl,rfl,rfl,rfl⟩, Or.inl rfl⟩
        · exact ⟨⟨rfl,rfl,rfl,rfl,rfl⟩, Or.inr rfl⟩
    · exact ⟨⟨h₁,h₂,h₃,h₄,h₅⟩, hbuffer⟩
    · split <;> exact ⟨⟨rfl,rfl,rfl,rfl,rfl⟩, Or.inl rfl⟩
    · split
      · exact ⟨⟨rfl,rfl,rfl,rfl,rfl⟩, Or.inl rfl⟩
      · exact ⟨⟨rfl,rfl,rfl,rfl,rfl⟩, Or.inr rfl⟩
    · split <;> split <;> exact ⟨⟨rfl,rfl,rfl,rfl,rfl⟩, Or.inl rfl⟩
    · split
      · exact ⟨⟨rfl,rfl,rfl,rfl,rfl⟩, Or.inr rfl⟩
      · exact ⟨⟨rfl,rfl,rfl,rfl,rfl⟩, Or.inl rfl⟩
    · exact ⟨⟨rfl,rfl,rfl,rfl,rfl⟩, Or.inl rfl⟩

variable (sdk) in
theorem advance_sameInput (c : SnfOtaParseContext G) : SameInput c (advance sdk c) :=
  (advance_kept sdk c).1

theorem emittedSize_fileStart {c : SnfOtaParseContext G}
    (hst : c.stage = if c.isGcm then .gcmIv else .image)
    (ho : c.offset = c.file.offset) : c.emittedSize = 0 := by
  cases hg : c.isGcm <;> simp only [hg, if_true, Bool.false_eq_true, if_false] at hst
  · have hcs : c.contentStart = c.file.offset := by simp [contentStart, ivSize_of_not_gcm hg]
    simp only [emittedSize, hst]
    omega
  · simp only [emittedSize, hst]

theorem finishFile_emittedSize {c : SnfOtaParseContext G} (file : SnfOtaFileInfo)
    (hst : c.stage = .file) : (finishFile c file).1.emittedSize = 0 := by
  unfold finishFile
  dsimp only
  split
  · split
    · simp [emittedSize, hst]
    · split
      case isTrue ho =>
        exact emittedSize_fileStart (by simp only [overhead_ne_zero]; rfl) ho
      case isFalse => rfl
  · simp [emittedSize, hst]

/-- Stage advances pass no content on. -/
theorem advance_emittedSize {c : SnfOtaParseContext G} (hst : c.StageValid) :
    (advance sdk c).emittedSize = c.emittedSize := by
  by_cases hr : c.room = 0
  · cases hc : c.stage <;> simp only [StageValid, room, hc, headerSizeOf_eq] at hst hr
    case metadata =>
      rw [advance_metadata hc (by omega)]
      cases hm : otaParseMetadata sdk c.buffer 24 with
      | error error => simp [emittedSize, hc]
      | ok m =>
        dsimp only
        split <;> simp [emittedSize, withMetadata, hc]
    case file =>
      rw [advance_file hc (by omega)]
      have hsel : (otaSelectFile sdk c).1.emittedSize = 0 := by
        have hmove := otaSelectFile_move sdk c
        generalize otaSelectFile sdk c = r at hmove ⊢
        cases hmove with
        | refused error herror => simp [emittedSize, hc]
        | skipped hread hrange => exact finishFile_emittedSize _ hc
        | selected hread hrange hfits => exact finishFile_emittedSize _ hc
      have hz : c.emittedSize = 0 := by simp only [emittedSize, hc]
      rw [hz]
      exact hsel
    case fileGap =>
      have ho : c.offset = c.file.offset := by omega
      have hz : c.emittedSize = 0 := by simp only [emittedSize, hc]
      rw [advance_fileGap hc ho, hz]
      exact emittedSize_fileStart rfl ho
    case gcmIv =>
      obtain ⟨_,hg,_,ho⟩ := hst
      rw [advance_gcmIv hc (by omega)]
      have hcs : c.contentStart = c.file.offset + 12 := by simp [contentStart, ivSize_of_gcm hg]
      cases hs : snfAesGcmDecryptStart sdk sdk.otaAesKey c.buffer c.authHeaderData with
      | error e => simp [emittedSize, hc]
      | ok gcm =>
        simp only [emittedSize, hc]
        show c.offset - c.contentStart = 0
        omega
    case image =>
      rw [advance_image hc (by omega)]
      have hend : c.contentEnd - c.contentStart = c.offset - c.contentStart := by omega
      have hz : c.emittedSize = c.offset - c.contentStart := by simp only [emittedSize, hc]
      rw [hz]
      split <;> exact hend
    case gcmTag =>
      rw [advance_gcmTag hc (by omega)]
      split
      · simp only [emittedSize, hc]
        rfl
      · simp only [emittedSize, hc]
        rfl
    case tail => rw [advance_tail hc]
  · rw [advance_of_room sdk (by omega)]

theorem absorb_emittedSize {c c' : SnfOtaParseContext G} (hst : c.StageValid) {x : List UInt8}
    {payload : SnfOtaPayload} (ha : absorb sdk c x = .ok (c', payload)) :
    c'.emittedSize = c.emittedSize + payload.data.length
      ∧ (payload.data = [] ∨ payload.offset = c.emittedSize)
      ∧ payload.offset + payload.data.length ≤ c.offset + x.length := by
  by_cases hi : c.stage = .image
  · simp only [absorb, hi, if_true] at ha
    obtain ⟨hsame,_,ho,hl,hp,_,_⟩ := absorbImage_spec ha
    simp only [StageValid, hi] at hst
    simp only [emittedSize, hsame.stage, hi, hsame.contentStart]
    omega
  · simp only [absorb, hi, if_false] at ha
    cases ha
    refine ⟨?_, Or.inl rfl, Nat.zero_le _⟩
    cases hc : c.stage with
    | image =>
      simp only [emittedSize, absorbField, hc]
      exact absurd hc hi
    | _ =>
      simp only [emittedSize, absorbField, hc]
      rfl

/-- One call keeps the invariant. -/
theorem advance_absorb_valid {c c' : SnfOtaParseContext G} (h : c.Valid) (he : c.error = .none)
    {x : List UInt8} {payload : SnfOtaPayload} (ha : absorb sdk c x = .ok (c', payload))
    (hx : x.length ≤ c.room) : (advance sdk c').Valid := by
  have hroom := absorb_room ha
  obtain ⟨hsame,ho,_⟩ := absorb_spec ha
  have hle := h.room_le he
  by_cases hlt : x.length < c.room
  · rw [advance_of_room sdk (by omega)]
    exact absorb_valid h he ha hlt
  · exact advance_valid (hsame.packageSize ▸ h.size_lt) (by rw [hsame.packageSize]; omega)
      (absorb_stageValid h he ha hx) (by omega)

end Sonoff.OtaParse
