import Sonoff.Ota.PackageFormat
import Sonoff.Ota.ParseStream

/-! # Head and file table of a package, as the parser reads them

Each field is one `absorb` and one stage advance, and the advance records no
error exactly when the field satisfies its part of the format.
-/
namespace Sonoff.OtaParse
open Bytes AesGcm Ota SnfOtaParseContext PackageFormat

variable {G : Type} {sdk : Sdk G}

theorem feedBytes_absorbField (hinc : sdk.Incremental) {c : SnfOtaParseContext G} (hv : c.Valid)
    (he : c.error = .none) (hi : c.stage ≠ .image) {x : List UInt8} (hx : x ≠ [])
    (hr : x.length ≤ c.room) : feedBytes sdk c x = (advance sdk (absorbField c x), []) := by
  obtain ⟨c',payload,ha,hf⟩ := feedBytes_room hinc hx hv he hr
  rw [absorb, if_neg hi] at ha
  cases ha
  exact hf

theorem feedBytes_absorbImage (hinc : sdk.Incremental) {c : SnfOtaParseContext G} (hv : c.Valid)
    (he : c.error = .none) (hi : c.stage = .image) {x : List UInt8} (hx : x ≠ [])
    (hr : x.length ≤ c.room) : ∃ c' payload, absorbImage sdk c x = .ok (c', payload) ∧
      feedBytes sdk c x = (advance sdk c', payload.placed) := by
  obtain ⟨c',payload,ha,hf⟩ := feedBytes_room hinc hx hv he hr
  rw [absorb, if_pos hi] at ha
  exact ⟨c', payload, ha, hf⟩

def readField (c : SnfOtaParseContext G) (x : List UInt8) : SnfOtaParseContext G :=
  { c with buffer := x, offset := c.offset + x.length }

@[simp] theorem readField_buffer (c : SnfOtaParseContext G) (x : List UInt8) :
    (readField c x).buffer = x := rfl
@[simp] theorem readField_bufferedSize (c : SnfOtaParseContext G) (x : List UInt8) :
    (readField c x).bufferedSize = x.length := rfl
@[simp] theorem readField_stage (c : SnfOtaParseContext G) (x : List UInt8) :
    (readField c x).stage = c.stage := rfl
@[simp] theorem readField_packageSize (c : SnfOtaParseContext G) (x : List UInt8) :
    (readField c x).packageSize = c.packageSize := rfl

/-- A whole field at the start of its stage. -/
theorem feedBytes_field (hinc : sdk.Incremental) {c : SnfOtaParseContext G} (hv : c.Valid)
    (he : c.error = .none) (hb : c.buffer = []) {x : List UInt8} (hf : headerSizeOf c.stage ≠ 0)
    (hx : x.length = headerSizeOf c.stage) :
    feedBytes sdk c x = (advance sdk (readField c x), []) := by
  have hne : x ≠ [] := List.ne_nil_of_length_pos (by omega)
  have hi : c.stage ≠ .image := fun h => hf (by rw [h]; rfl)
  have hroom : c.room = headerSizeOf c.stage := by
    unfold room
    cases hc : c.stage with
    | metadata | file | gcmIv | gcmTag => simp [bufferedSize, hb]
    | _ =>
      rw [hc] at hf
      exact absurd rfl hf
  rw [feedBytes_absorbField hinc hv he hi hne (by omega)]
  simp only [absorbField, readField, hf, hb, ne_eq, not_false_eq_true, if_true, List.nil_append]

variable {p target : List UInt8} {flashSize : ℕ}

structure Chosen (p : List UInt8) (flashSize i : ℕ) (c : SnfOtaParseContext G) : Prop where
  offset : c.file.offset = entryOffset p i
  size : c.file.size = entrySize p i
  crc : c.file.crc = entryCrc p i
  auth : c.authHeaderData = head p ++ entry p i
  fits : entrySize p i - overhead p ≤ flashSize

/-- What is known of the context after `k` entries. -/
structure TableFacts (p target : List UInt8) (flashSize k : ℕ) (c : SnfOtaParseContext G) :
    Prop where
  offset : c.offset = 24 + 76 * k
  packageSize : c.packageSize = p.length
  flash : c.flashSize = flashSize
  name : cString c.fileName = target
  fileCrc : c.fileCrc = 0xFFFFFFFF
  isGcm : c.isGcm = encrypted p
  fileCount : c.fileCount = fileCount p
  authHead : c.authHeaderData.take 24 = head p
  chosen : (c.file.size = 0 ∧ ∀ j < k, ¬Named p target j)
    ∨ ∃ i < k, Chosen p flashSize i c ∧ c.file.size ≠ 0 ∧ ∀ j < k, Named p target j ↔ j = i

structure TableState (p target : List UInt8) (flashSize k : ℕ) (c : SnfOtaParseContext G) :
    Prop where
  valid : c.Valid
  error : c.error = .none
  stage : c.stage = .file
  buffer : c.buffer = []
  fileIndex : c.fileIndex = k
  previousEnd : c.previousEnd = PackageFormat.previousEnd p k
  facts : TableFacts p target flashSize k c

theorem overhead_of_isGcm {c : SnfOtaParseContext G} (h : c.isGcm = encrypted p) :
    c.overhead = PackageFormat.overhead p := by
  simp [SnfOtaParseContext.overhead, PackageFormat.overhead, h, snfAesGcmIvSize, snfAesGcmTagSize]

/-- The head check on the bytes of the package. -/
theorem otaParseMetadata_head (sdk : Sdk G) (p : List UInt8) :
    (∃ m, otaParseMetadata sdk (head p) 24 = .ok m ∧ HeadValid sdk p ∧ m.fileCount = byteAt p 1
      ∧ m.cipherType = byteAt p 10)
    ∨ (∃ error, otaParseMetadata sdk (head p) 24 = .error error ∧ error ≠ .none ∧
      ¬HeadValid sdk p) := by
  have hbyte : ∀ i, i < 24 → byteAt (head p) i = byteAt p i := fun i hi => by
    simpa [head] using @byteAt_slice p 0 24 i hi
  have hcrc : be32 (head p) 20 = be32 p 20 := by simpa [head] using @be32_slice p 0 24 20 (by omega)
  have htake : (head p).take 20 = slice p 0 20 := by simp [head, slice, List.take_take]
  cases hm : otaParseMetadata sdk (head p) 24 with
  | error error =>
    refine Or.inr ⟨error, rfl, otaParseMetadata_error hm, fun hv => ?_⟩
    simp only [otaParseMetadata, snfOtaMetaHeadSize, otaHeadStructVersionOffset, otaHeadCrcOffset,
      otaHeadFileCountOffset, otaHeadModelVersionOffset, otaHeadCipherTypeOffset,
        snfOtaStructVersion,
      snfOtaCipherNone, snfOtaCipherAes256Gcm, htake, hcrc, hbyte 0 (by omega), hbyte 1 (by omega),
      hbyte 2 (by omega), hbyte 10 (by omega), hv.version, hv.crc, hv.count, hv.modelVersion] at hm
    rcases hv.cipher with hc | hc <;> simp [hc] at hm
  | ok m =>
    refine Or.inl ⟨m, rfl, ?_⟩
    simp only [otaParseMetadata, snfOtaMetaHeadSize, otaHeadStructVersionOffset, otaHeadCrcOffset,
      otaHeadFileCountOffset, otaHeadModelVersionOffset, otaHeadCipherTypeOffset,
        snfOtaStructVersion,
      snfOtaCipherNone, snfOtaCipherAes256Gcm, htake, hcrc, hbyte 0 (by omega), hbyte 1 (by omega),
      hbyte 2 (by omega), hbyte 10 (by omega)] at hm
    split_ifs at hm with h₁ h₂ h₃ h₄ h₅
    cases hm
    exact ⟨⟨not_not.mp h₂,not_not.mp h₃,fun h => h₄ (Or.inl h),fun h => h₄ (Or.inr h),by tauto⟩,
      rfl, rfl⟩

/-- The entry check on the bytes of the package. -/
theorem otaParseFile_entry (sdk : Sdk G) (p : List UInt8) (k : ℕ) :
    (∃ file, otaParseFile sdk (entry p k) 76 = .ok file ∧ file.name = entryName p k ++ [0]
      ∧ file.offset = entryOffset p k ∧ file.size = entrySize p k ∧ file.crc = entryCrc p k
      ∧ crc32Of sdk (slice p (entryStart k) 60) = entryAttributesCrc p k
      ∧ byteAt p (entryStart k) ≠ 0 ∧ byteAt p (entryStart k + 32) ≠ 0)
    ∨ (∃ error, otaParseFile sdk (entry p k) 76 = .error error ∧ error ≠ .none ∧
      ¬EntryValid sdk p k) := by
  have hbyte : ∀ i, i < 76 → byteAt (entry p k) i = byteAt p (entryStart k + i) := fun i hi =>
    byteAt_slice hi
  have hbe : ∀ i, i + 4 ≤ 76 → be32 (entry p k) i = be32 p (entryStart k + i) := fun i hi =>
    be32_slice hi
  have htake : (entry p k).take 60 = slice p (entryStart k) 60 := by
    simp [entry, slice, List.take_take]
  have hname : slice (entry p k) 0 32 = entryName p k := by
    rw [entry, slice_slice (by omega), Nat.add_zero, entryName]
  cases hm : otaParseFile sdk (entry p k) 76 with
  | error error =>
    refine Or.inr ⟨error, rfl, otaParseFile_error hm, fun hv => ?_⟩
    have h₁ := hv.crc
    have h₂ := hv.name
    have h₃ := hv.version
    simp only [entryAttributesCrc] at h₁
    simp [otaParseFile, snfOtaMetaFileSize, otaFileAttributesCrcOffset, otaFileNameOffset,
      otaFileVersionOffset, htake, hbe 60 (by omega), hbyte 0 (by omega), hbyte 32 (by omega), h₁,
      h₂, h₃] at hm
  | ok file =>
    refine Or.inl ⟨file, rfl, ?_⟩
    simp only [otaParseFile, snfOtaMetaFileSize, otaFileAttributesCrcOffset, otaFileNameOffset,
      otaFileVersionOffset, otaFileDataOffset, otaFileSizeOffset, otaFileCrcOffset,
        snfOtaFileNameSize, htake, hname,
      hbe 48 (by omega), hbe 52 (by omega), hbe 56 (by omega), hbe 60 (by omega),
        hbyte 0 (by omega),
      hbyte 32 (by omega), Nat.add_zero] at hm
    split_ifs at hm with h₁ h₂ h₃
    cases hm
    exact ⟨rfl, rfl, rfl, rfl, not_not.mp h₂, fun h => h₃ (Or.inl h), fun h => h₃ (Or.inr h)⟩

/-- The context after an accepted head and table size. -/
theorem head_accepted (hinc : sdk.Incremental) {c : SnfOtaParseContext G} (hv : c.Valid)
    (he : c.error = .none) (hst : c.stage = .metadata) (hb : c.buffer = []) (hlen : 24 ≤ p.length)
    (hsize : c.packageSize = p.length)
    (hcrc : c.fileCrc = 0xFFFFFFFF) (hflash : c.flashSize = flashSize)
    (hname : cString c.fileName = target) : (feedBytes sdk c (head p)).2 = [] ∧
      (((feedBytes sdk c (head p)).1.error = .none ∧ HeadValid sdk p ∧ tableEnd p ≤ p.length
          ∧ TableState p target flashSize 0 (feedBytes sdk c (head p)).1)
        ∨ ((feedBytes sdk c (head p)).1.error ≠ .none ∧
          ¬(HeadValid sdk p ∧ tableEnd p ≤ p.length))) := by
  have hl : (head p).length = 24 := slice_length (by omega)
  have hsv := hv.stage he
  simp only [StageValid, hst, bufferedSize, hb, List.length_nil] at hsv
  obtain ⟨_,hoff,hz,_,hidx⟩ := hsv
  have hvalid := @feedBytes_valid _ _ hinc (head p) c hv (fun _ => by omega)
  rw [feedBytes_field hinc hv he hb (by rw [hst]; decide) (by rw [hst]; exact hl),
    @advance_metadata _ _ (readField c (head p)) hst hl, readField_buffer,
      readField_packageSize] at hvalid ⊢
  refine ⟨rfl, ?_⟩
  rcases otaParseMetadata_head sdk p with ⟨m,hm,hhead,hcount,hcipher⟩ | ⟨error,hm,herr,hhead⟩
  · simp only [hm] at hvalid ⊢
    have hend : 24 + 76 * m.fileCount.toNat = tableEnd p := by rw [hcount]; rfl
    simp only [hend] at hvalid ⊢
    by_cases ht : tableEnd p > c.packageSize
    · rw [if_pos ht]
      exact Or.inr ⟨by simp, fun h => by omega⟩
    · rw [if_neg ht] at hvalid ⊢
      have hgcm : (m.cipherType == snfOtaCipherAes256Gcm) = encrypted p := by rw [hcipher]; rfl
      have hauth : ((head p).take 24 ++ c.authHeaderData.drop 24).take 24 = head p := by
        rw [List.take_of_length_le (show (head p).length ≤ 24 by omega),
          List.take_append_of_le_length (by omega), List.take_of_length_le (by omega)]
      refine Or.inl ⟨he, hhead, by omega, hvalid, he, rfl, rfl, hidx, ?_, ?_⟩
      · exact hend
      · exact ⟨by simp [withMetadata, readField, hl, hoff], hsize, hflash, hname, hcrc, hgcm,
          congrArg UInt8.toNat hcount,
          hauth, Or.inl ⟨hz, fun j hj => absurd hj (Nat.not_lt_zero j)⟩⟩
  · simp only [hm]
    exact Or.inr ⟨herr, fun h => hhead h.1⟩


structure EntryOk (sdk : Sdk G) (p target : List UInt8) (flashSize k : ℕ) : Prop where
  valid : EntryValid sdk p k
  single : Named p target k → (∀ j < k, ¬Named p target j) ∧
    entrySize p k - PackageFormat.overhead p ≤ flashSize
  found : k + 1 = fileCount p → ∃ j ≤ k, Named p target j

structure TableDone (p target : List UInt8) (flashSize i : ℕ) (c : SnfOtaParseContext G) :
    Prop where
  valid : c.Valid
  error : c.error = .none
  facts : TableFacts p target flashSize (fileCount p) c
  buffer : c.buffer = []
  stage : c.stage = if c.offset = c.file.offset then (if c.isGcm then .gcmIv else .image)
    else .fileGap
  index : i < fileCount p
  chosen : Chosen p flashSize i c
  unique : ∀ j < fileCount p, Named p target j ↔ j = i

theorem strcmpEq_iff {c : SnfOtaParseContext G} {file : SnfOtaFileInfo} {k : ℕ}
    (hname : cString c.fileName = target) (hfile : file.name = entryName p k ++ [0]) :
    strcmpEq file.name c.fileName = true ↔ Named p target k := by
  have hz : cString (entryName p k ++ [0]) = cString (entryName p k) := cString_append_zero _
  simp [strcmpEq, hfile, hz, hname, Named]

def entryDone (c : SnfOtaParseContext G) (file : SnfOtaFileInfo) : SnfOtaParseContext G :=
  { c with previousEnd := u32Add file.offset file.size, fileIndex := (c.fileIndex + 1) % 256, buffer := [] }

theorem finishFile_more {c : SnfOtaParseContext G} (file : SnfOtaFileInfo)
    (h : (c.fileIndex + 1) % 256 ≠ c.fileCount) : finishFile c file = (entryDone c file, .none) := if_neg h

theorem finishFile_missing {c : SnfOtaParseContext G} (file : SnfOtaFileInfo)
    (h : (c.fileIndex + 1) % 256 = c.fileCount) (hz : c.file.size = 0) :
    finishFile c file = (entryDone c file, .fileNotFound) := (if_pos h).trans (if_pos hz)

theorem finishFile_last {c : SnfOtaParseContext G} (file : SnfOtaFileInfo)
    (h : (c.fileIndex + 1) % 256 = c.fileCount) (hz : c.file.size ≠ 0) :
    finishFile c file = ({ entryDone c file with
      stage := if c.offset = c.file.offset then (if c.isGcm then .gcmIv else .image)
        else .fileGap }, .none) := by
  refine (if_pos h).trans ((if_neg hz).trans ?_)
  have hst : (if c.overhead ≠ 0 then OtaParseStage.gcmIv else .image) = if c.isGcm then .gcmIv else .image :=
    if_congr (overhead_ne_zero c) rfl rfl
  by_cases ho : c.offset = c.file.offset
  · refine (if_pos ho).trans ?_
    rw [if_pos ho, ← hst]
    rfl
  · refine (if_neg ho).trans ?_
    rw [if_neg ho]
    rfl

/-- The end of an entry whose selection is known. -/
theorem finishFile_accepted {d : SnfOtaParseContext G} {file : SnfOtaFileInfo} {k : ℕ}
    (hf : TableFacts p target flashSize (k + 1) d) (hv : (withError (finishFile d file)).Valid)
    (hidx : d.fileIndex = k) (hk : k < fileCount p) (hst : d.stage = .file)
    (hfo : file.offset = entryOffset p k)
    (hfs : file.size = entrySize p k) (hin : file.offset + file.size < 4294967296) :
    ((withError (finishFile d file)).error = .none ↔
      (k + 1 = fileCount p → ∃ j ≤ k, Named p target j))
      ∧ ((withError (finishFile d file)).error = .none → k + 1 < fileCount p →
        TableState p target flashSize (k + 1) (withError (finishFile d file)))
      ∧ ((withError (finishFile d file)).error = .none → k + 1 = fileCount p →
        ∃ i, TableDone p target flashSize i (withError (finishFile d file))) := by
  have hcount : fileCount p < 256 := (byteAt p 1).toNat_lt
  have hidx' : (d.fileIndex + 1) % 256 = k + 1 := by rw [hidx, Nat.mod_eq_of_lt (by omega)]
  have hend : u32Add file.offset file.size = PackageFormat.previousEnd p (k + 1) := by
    rw [u32Add_eq hin, hfo, hfs]
    rfl
  have hfc := hf.fileCount
  by_cases hlast : k + 1 = fileCount p
  · have hl : (d.fileIndex + 1) % 256 = d.fileCount := by omega
    by_cases hz : d.file.size = 0
    · have hnone := (hf.chosen.resolve_right (by rintro ⟨_,_,_,h,_⟩; exact h hz)).2
      simp only [finishFile_missing file hl hz, withError_error, reduceCtorEq, false_iff,
        false_implies, and_true]
      intro h
      obtain ⟨j,hj,hn⟩ := h hlast
      exact hnone j (by omega) hn
    · obtain ⟨i,hi,hch,_,huniq⟩ := hf.chosen.resolve_left (fun h => hz h.1)
      rw [finishFile_last file hl hz] at hv ⊢
      refine ⟨iff_of_true rfl fun _ => ⟨i, by omega, (huniq i hi).mpr rfl⟩, fun _ h => by omega,
        fun _ _ => ⟨i, hv, rfl, ?_, rfl, rfl, hlast ▸ hi, ⟨hch.1,hch.2,hch.3,hch.4,hch.5⟩, hlast ▸ huniq⟩⟩
      rw [← hlast]
      exact ⟨hf.1,hf.2,hf.3,hf.4,hf.5,hf.6,hf.7,hf.8,
        hf.9.imp_right fun ⟨i,hi,hc,hr⟩ => ⟨i,hi,⟨hc.1,hc.2,hc.3,hc.4,hc.5⟩,hr⟩⟩
  · have hl : (d.fileIndex + 1) % 256 ≠ d.fileCount := by omega
    rw [finishFile_more file hl] at hv ⊢
    refine ⟨iff_of_true rfl fun h => absurd h hlast, fun _ _ => ⟨hv, rfl, hst, rfl, hidx', hend, ?_⟩,
      fun _ h => absurd h hlast⟩
    exact ⟨hf.1,hf.2,hf.3,hf.4,hf.5,hf.6,hf.7,hf.8,
      hf.9.imp_right fun ⟨i,hi,hc,hr⟩ => ⟨i,hi,⟨hc.1,hc.2,hc.3,hc.4,hc.5⟩,hr⟩⟩

theorem fileRangeInvalid_iff {c : SnfOtaParseContext G} {file : SnfOtaFileInfo} {k : ℕ}
    (hg : c.isGcm = encrypted p) (hp : c.previousEnd = PackageFormat.previousEnd p k)
    (hsize : c.packageSize = p.length) (hfo : file.offset = entryOffset p k)
    (hfs : file.size = entrySize p k) :
    ¬fileRangeInvalid c file ↔ PackageFormat.overhead p < entrySize p k
      ∧ PackageFormat.previousEnd p k ≤ entryOffset p k ∧
        entryOffset p k + entrySize p k ≤ p.length := by
  unfold fileRangeInvalid
  rw [overhead_of_isGcm hg, hp, hsize, hfo, hfs]
  omega

/-- What the selection records of an entry that is not refused. -/
theorem TableState.advanced {c : SnfOtaParseContext G} {k : ℕ}
    (h : TableState p target flashSize k c)
    (hl : (entry p k).length = 76) (hn : ¬Named p target k) :
    TableFacts p target flashSize (k + 1) (readField c (entry p k)) := by
  have hf := h.facts
  have ho := hf.offset
  refine ⟨by simp only [readField, hl]; omega, hf.2, hf.3, hf.4, hf.5, hf.6, hf.7, hf.8, ?_⟩
  rcases hf.chosen with ⟨hz,hnone⟩ | ⟨i,hi,hc,hz,huniq⟩
  · refine Or.inl ⟨hz, fun j hj => ?_⟩
    rcases Nat.lt_succ_iff_lt_or_eq.mp hj with hlt | rfl
    · exact hnone j hlt
    · exact hn
  · refine Or.inr ⟨i, by omega, ⟨hc.1,hc.2,hc.3,hc.4,hc.5⟩, hz, fun j hj => ?_⟩
    rcases Nat.lt_succ_iff_lt_or_eq.mp hj with hlt | rfl
    · exact huniq j hlt
    · exact iff_of_false hn (by omega)

theorem TableState.matched {c : SnfOtaParseContext G} {k : ℕ}
    (h : TableState p target flashSize k c)
    (hl : (entry p k).length = 76) (hh : (head p).length = 24) {file : SnfOtaFileInfo}
    (hfo : file.offset = entryOffset p k)
    (hfs : file.size = entrySize p k) (hfc : file.crc = entryCrc p k) (hz : file.size ≠ 0)
    (hfits : entrySize p k - PackageFormat.overhead p ≤ flashSize) (hn : Named p target k)
    (hnone : ∀ j < k, ¬Named p target j) :
    TableFacts p target flashSize (k + 1) (matchFile (readField c (entry p k)) file) := by
  have hf := h.facts
  have ho := hf.offset
  have hauth : c.authHeaderData.take 24 ++ (entry p k).take 76 = head p ++ entry p k := by
    rw [hf.authHead, List.take_of_length_le (by omega)]
  have hhead : (head p ++ entry p k).take 24 = head p := by
    rw [List.take_append_of_le_length (by omega), List.take_of_length_le (by omega)]
  refine ⟨by simp only [matchFile, readField, hl]; omega, hf.2, hf.3, hf.4, hf.5, hf.6, hf.7, ?_,
    ?_⟩
  · show (c.authHeaderData.take 24 ++ (entry p k).take 76).take 24 = head p
    rw [hauth, hhead]
  · refine Or.inr ⟨k, Nat.lt_succ_self k, ⟨hfo,hfs,hfc,hauth,hfits⟩, hz, fun j hj => ?_⟩
    rcases Nat.lt_succ_iff_lt_or_eq.mp hj with hlt | rfl
    · exact iff_of_false (hnone j hlt) (by omega)
    · exact iff_of_true hn rfl

/-- One table entry: the parser goes on exactly when it is acceptable. -/
theorem entry_accepted (hinc : sdk.Incremental) {c : SnfOtaParseContext G} {k : ℕ}
    (h : TableState p target flashSize k c) (hk : k < fileCount p) (htable : tableEnd p ≤ p.length)
    (hs : p.length < 4294967296) :
    (feedBytes sdk c (entry p k)).2 = []
      ∧ ((feedBytes sdk c (entry p k)).1.error = .none ↔ EntryOk sdk p target flashSize k)
      ∧ ((feedBytes sdk c (entry p k)).1.error = .none → k + 1 < fileCount p →
        TableState p target flashSize (k + 1) (feedBytes sdk c (entry p k)).1)
      ∧ ((feedBytes sdk c (entry p k)).1.error = .none → k + 1 = fileCount p →
        ∃ i, TableDone p target flashSize i (feedBytes sdk c (entry p k)).1) := by
  have hl : (entry p k).length = 76 := slice_length (by
    simp only [PackageFormat.tableEnd] at htable
    simp only [entryStart]
    omega)
  have hh : (head p).length = 24 := slice_length (by
    simp only [PackageFormat.tableEnd] at htable
    omega)
  have hf := h.facts
  have ho := hf.offset
  have hsize := hf.packageSize
  have hvalid := @feedBytes_valid _ _ hinc (entry p k) c h.valid (fun _ => by
    simp only [PackageFormat.tableEnd] at htable
    omega)
  rw [feedBytes_field hinc h.valid h.error h.buffer (by rw [h.stage]; decide)
    (by rw [h.stage]; exact hl), @advance_file _ _ (readField c (entry p k)) h.stage hl] at hvalid ⊢
  refine ⟨rfl, ?_⟩
  revert hvalid
  unfold otaSelectFile
  rw [readField_bufferedSize, readField_buffer, hl]
  rcases otaParseFile_entry sdk p
    k with ⟨file,hfile,hname,hfo,hfs,hfc,hcrc,hb₁,hb₂⟩ | ⟨error,hfile,herr,hent⟩
  · rw [hfile]
    dsimp only
    have hrange := @fileRangeInvalid_iff _ p (readField c (entry p k)) file k hf.isGcm h.previousEnd
      hsize hfo hfs
    have hmatch : strcmpEq file.name (readField c (entry p k)).fileName = true ↔ Named p target k :=
      @strcmpEq_iff _ _ _ (readField c (entry p k)) _ _ hf.name hname
    have hover : (readField c (entry p k)).overhead = PackageFormat.overhead p :=
      overhead_of_isGcm hf.isGcm
    by_cases hr : fileRangeInvalid (readField c (entry p k)) file
    · rw [if_pos hr]
      have hbad : ¬EntryValid sdk p k := fun hv => hrange.mpr ⟨hv.content,hv.behind,hv.inside⟩ hr
      exact fun _ => ⟨iff_of_false (by simp) fun hok => hbad hok.valid, nofun, nofun⟩
    · rw [if_neg hr]
      obtain ⟨hcont,hbehind,hin⟩ := hrange.mp hr
      have hent : EntryValid sdk p k := ⟨hcrc,hb₁,hb₂,hcont,hbehind,hin⟩
      by_cases hn : Named p target k
      · rw [if_pos (hmatch.mpr hn), hover, hfs,
          show (readField c (entry p k)).flashSize = flashSize from hf.flash]
        by_cases hbad : (readField c (entry p k)).file.size ≠ 0
            ∨ entrySize p k - PackageFormat.overhead p > flashSize
        · rw [if_pos hbad]
          have hrefused : ¬EntryOk sdk p target flashSize k := by
            intro hok
            obtain ⟨hnone,hfits⟩ := hok.single hn
            rcases hbad with hz | hbig
            · obtain ⟨i,hi,_,_,huniq⟩ := hf.chosen.resolve_left (fun h => hz h.1)
              exact hnone i hi ((huniq i hi).mpr rfl)
            · omega
          exact fun _ => ⟨iff_of_false (by simp) hrefused, nofun, nofun⟩
        · rw [if_neg hbad]
          intro hv
          have hz : (readField c (entry p k)).file.size = 0 := not_not.mp fun h => hbad (Or.inl h)
          have hfits : entrySize p k - PackageFormat.overhead p ≤ flashSize := by omega
          have hnone := (hf.chosen.resolve_right (by rintro ⟨_,_,_,h,_⟩; exact h hz)).2
          have hfacts := h.matched hl hh hfo hfs hfc (by omega) hfits hn hnone
          obtain ⟨h₁,h₂,h₃⟩ :=
            finishFile_accepted hfacts hv h.fileIndex hk h.stage hfo hfs (by omega)
          exact ⟨h₁.trans ⟨fun hfound => ⟨hent,fun _ => ⟨hnone,hfits⟩,hfound⟩, fun hok =>
            hok.found⟩, h₂, h₃⟩
      · rw [if_neg (fun h => hn (hmatch.mp h))]
        intro hv
        obtain ⟨h₁,h₂,h₃⟩ :=
          finishFile_accepted (h.advanced hl hn) hv h.fileIndex hk h.stage hfo hfs (by omega)
        refine ⟨h₁.trans ⟨fun hfound => ⟨hent, fun hn' => absurd hn' hn, hfound⟩, fun hok =>
          hok.found⟩, h₂, h₃⟩
  · rw [hfile]
    intro _
    exact ⟨iff_of_false herr fun hok => hent hok.valid, fun h => absurd h herr, fun h =>
      absurd h herr⟩

variable (sdk) in
theorem feedBytes_take_add (c : SnfOtaParseContext G) (p : List UInt8) (n m : ℕ) :
    feedBytes sdk c (p.take (n + m)) =
      ((feedBytes sdk (feedBytes sdk c (p.take n)).1 (slice p n m)).1,
        (feedBytes sdk c (p.take n)).2 ++
        (feedBytes sdk (feedBytes sdk c (p.take n)).1 (slice p n m)).2) := by
  rw [List.take_add, feedBytes_append]
  rfl

/-- The table from its first entry on: either every entry read so far was
acceptable, or the parser has recorded an error. -/
theorem table_accepted (hinc : sdk.Incremental) {c : SnfOtaParseContext G}
    (h0 : TableState p target flashSize 0 (feedBytes sdk c (p.take 24)).1)
    (hout : (feedBytes sdk c (p.take 24)).2 = []) (hpos : 0 < fileCount p)
    (htable : tableEnd p ≤ p.length) (hs : p.length < 4294967296) {k : ℕ} (hk : k ≤ fileCount p) :
    (feedBytes sdk c (p.take (24 + 76 * k))).2 = []
      ∧ (((∀ j < k, EntryOk sdk p target flashSize j)
          ∧ (k < fileCount p →
            TableState p target flashSize k (feedBytes sdk c (p.take (24 + 76 * k))).1)
          ∧ (k = fileCount p →
            ∃ i, TableDone p target flashSize i (feedBytes sdk c (p.take (24 + 76 * k))).1))
        ∨ ((feedBytes sdk c (p.take (24 + 76 * k))).1.error ≠ .none
          ∧ ∃ j < k, ¬EntryOk sdk p target flashSize j)) := by
  induction k with
  | zero =>
    exact ⟨hout, Or.inl ⟨fun j hj => absurd hj (Nat.not_lt_zero j), fun _ => h0, fun h => by omega⟩⟩
  | succ k ih =>
    obtain ⟨hempty,hcase⟩ := ih (by omega)
    have hadd := feedBytes_take_add sdk c p (24 + 76 * k) 76
    rw [show 24 + 76 * k + 76 = 24 + 76 * (k + 1) by omega, hempty] at hadd
    rw [hadd]
    rcases hcase with ⟨hok,hstate,_⟩ | ⟨herr,j,hj,hbad⟩
    · obtain ⟨he,hiff,hmore,hlast⟩ := entry_accepted hinc (hstate (by omega)) (by omega) htable hs
      refine ⟨he, ?_⟩
      by_cases hnone : (feedBytes sdk (feedBytes sdk c (p.take (24 + 76 * k))).1
        (entry p k)).1.error = .none
      · refine Or.inl ⟨fun j hj => ?_, hmore hnone, hlast hnone⟩
        rcases Nat.lt_succ_iff_lt_or_eq.mp hj with hlt | rfl
        · exact hok j hlt
        · exact hiff.mp hnone
      · exact Or.inr ⟨hnone, k, Nat.lt_succ_self k, fun h => hnone (hiff.mpr h)⟩
    · rw [feedBytes_of_error herr]
      exact ⟨rfl, Or.inr ⟨herr, j, by omega, hbad⟩⟩

end Sonoff.OtaParse
