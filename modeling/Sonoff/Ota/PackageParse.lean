import Sonoff.Ota.PackageTable

/-! # The parser accepts exactly the package format

Behind the table the parser passes over the gap, reads IV, content and tag of the
selected file and ignores the rest; together with head and table this gives both
directions of the acceptance and the bytes it emits.
-/
namespace Sonoff.OtaParse
open Bytes AesGcm Ota SnfOtaParseContext PackageFormat

variable {G : Type} {sdk : Sdk G} {p target : List UInt8} {flashSize i : ℕ}

/-- What stays known of the context from the start of the selected file on. -/
structure InFile (p : List UInt8) (flashSize i : ℕ) (c : SnfOtaParseContext G) : Prop where
  valid : c.Valid
  error : c.error = .none
  packageSize : c.packageSize = p.length
  isGcm : c.isGcm = encrypted p
  chosen : Chosen p flashSize i c

theorem InFile.next {c c' : SnfOtaParseContext G} (h : InFile p flashSize i c) (hv : c'.Valid)
    (he : c'.error = .none) (hsize : c'.packageSize = c.packageSize)
    (hmeta : c'.metadata = c.metadata)
    (hfile : c'.file = c.file) (hauth : c'.authHeaderData = c.authHeaderData) :
    InFile p flashSize i c' where
  valid := hv
  error := he
  packageSize := hsize.trans h.packageSize
  isGcm := by rw [← h.isGcm, SnfOtaParseContext.isGcm, SnfOtaParseContext.isGcm, hmeta]
  chosen := ⟨hfile ▸ h.chosen.1, hfile ▸ h.chosen.2, hfile ▸ h.chosen.3, hauth.trans h.chosen.4,
    h.chosen.5⟩

structure AtFile (p : List UInt8) (flashSize i : ℕ) (c : SnfOtaParseContext G) : Prop where
  file : InFile p flashSize i c
  stage : c.stage = if c.isGcm then .gcmIv else .image
  buffer : c.buffer = []
  offset : c.offset = entryOffset p i
  fileCrc : c.fileCrc = 0xFFFFFFFF

structure Delivered (sdk : Sdk G) (p : List UInt8) (flashSize i : ℕ) (plain : List UInt8)
    (c : SnfOtaParseContext G) : Prop where
  file : InFile p flashSize i c
  stage : c.stage = .tail
  offset : c.offset = entryOffset p i + entrySize p i
  fileCrc : c.fileCrc = snfCrc32 sdk 0xFFFFFFFF plain

theorem feedBytes_nil (c : SnfOtaParseContext G) : feedBytes sdk c [] = (c, []) := rfl

theorem gap_passed (hinc : sdk.Incremental) {c : SnfOtaParseContext G}
    (h : TableDone p target flashSize i c)
    (hbehind : tableEnd p ≤ entryOffset p i) (hin : entryOffset p i ≤ p.length) :
    (feedBytes sdk c (slice p (tableEnd p) (entryOffset p i - tableEnd p))).2 = []
      ∧ AtFile p flashSize i
        (feedBytes sdk c (slice p (tableEnd p) (entryOffset p i - tableEnd p))).1 := by
  have hf := h.facts
  have ho : c.offset = tableEnd p := hf.offset
  have hfo := h.chosen.offset
  have hfile : InFile p flashSize i c := ⟨h.valid, h.error, hf.packageSize, hf.isGcm, h.chosen⟩
  have hl : (slice p (tableEnd p) (entryOffset p i - tableEnd p)).length =
      entryOffset p i - tableEnd p :=
    slice_length (by omega)
  by_cases hgap : c.offset = c.file.offset
  · have hz : slice p (tableEnd p) (entryOffset p i - tableEnd p) = [] :=
      List.eq_nil_of_length_eq_zero (by omega)
    rw [hz, feedBytes_nil]
    exact ⟨rfl, hfile, by rw [h.stage, if_pos hgap], h.buffer, hgap.trans hfo, hf.fileCrc⟩
  · have hst : c.stage = .fileGap := by rw [h.stage, if_neg hgap]
    have hne : slice p (tableEnd p) (entryOffset p i - tableEnd p) ≠ [] :=
      List.ne_nil_of_length_pos (by omega)
    have hv := @feedBytes_valid _ _ hinc (slice p (tableEnd p) (entryOffset p i - tableEnd p)) c
      h.valid (fun _ => by have := hf.packageSize; omega)
    have hend : (absorbField c (slice p (tableEnd p) (entryOffset p i - tableEnd p))).offset =
        c.file.offset := by
      simp only [absorbField, hl]
      omega
    rw [feedBytes_absorbField hinc h.valid h.error (by rw [hst]; simp) hne
      (by simp only [room, hst]; omega), @advance_fileGap _ _ (absorbField c _) hst hend] at hv ⊢
    have hbuf : (absorbField c (slice p (tableEnd p) (entryOffset p i - tableEnd p))).buffer =
        [] := by
      simp [absorbField, hst, headerSizeOf, h.buffer]
    exact ⟨rfl, hfile.next hv h.error rfl rfl rfl rfl, rfl, hbuf, hend.trans hfo, hf.fileCrc⟩

theorem InFile.contentStart {c : SnfOtaParseContext G} (h : InFile p flashSize i c) :
    c.contentStart = entryOffset p i + (if encrypted p then 12 else 0) := by
  simp only [SnfOtaParseContext.contentStart, ivSize, h.chosen.offset, h.isGcm]

theorem InFile.contentEnd {c : SnfOtaParseContext G} (h : InFile p flashSize i c) :
    c.contentEnd = entryOffset p i + entrySize p i - (if encrypted p then 16 else 0) := by
  simp only [SnfOtaParseContext.contentEnd, tagSize, h.chosen.offset, h.chosen.size, h.isGcm]

/-- The whole content of the selected file: it is emitted from offset 0 and the
next stage starts behind it. -/
theorem content_passed (hinc : sdk.Incremental) {c : SnfOtaParseContext G}
    (h : InFile p flashSize i c) (hst : c.stage = .image) (ho : c.offset = c.contentStart)
    (hlt : c.contentStart < c.contentEnd) (hin : c.contentEnd ≤ p.length) :
    ∃ c' payload, absorbImage sdk c (slice p c.contentStart (c.contentEnd - c.contentStart)) =
      .ok (c', payload) ∧
      (feedBytes sdk c (slice p c.contentStart (c.contentEnd - c.contentStart))).2 =
      payload.data.zipIdx 0 ∧
      InFile p flashSize i
      (feedBytes sdk c (slice p c.contentStart (c.contentEnd - c.contentStart))).1
      ∧ (feedBytes sdk c (slice p c.contentStart (c.contentEnd - c.contentStart))).1 =
        { c' with stage := if c.isGcm then .gcmTag else .tail }
      ∧ c'.offset = c.contentEnd := by
  have hl : (slice p c.contentStart (c.contentEnd - c.contentStart)).length =
      c.contentEnd - c.contentStart :=
    slice_length (by omega)
  have hne := List.ne_nil_of_length_pos
      (show 0 < (slice p c.contentStart (c.contentEnd - c.contentStart)).length by
    omega)
  have hsize := h.packageSize
  have hv := @feedBytes_valid _ _ hinc (slice p c.contentStart (c.contentEnd - c.contentStart)) c
    h.valid (fun _ => by omega)
  obtain ⟨c',payload,ha,hf⟩ := feedBytes_absorbImage hinc h.valid h.error hst hne
    (by simp only [room, hst]; omega)
  obtain ⟨hsame,_,hoff,_,hpo,_,_⟩ := absorbImage_spec ha
  have hend : c'.offset = c.contentEnd := by omega
  rw [hf, advance_image (hsame.stage.trans hst) (by rw [hsame.contentEnd, hend]),
    hsame.isGcm] at hv ⊢
  refine ⟨c', payload, ha, ?_, ?_, rfl, hend⟩
  · rw [SnfOtaPayload.placed, show payload.offset = 0 by omega]
  · exact h.next hv (hsame.error.trans h.error) hsame.packageSize hsame.metadata hsame.file
      hsame.authHeaderData

/-- The content of an unencrypted file is emitted as it is. -/
theorem plain_delivered (hinc : sdk.Incremental) {c : SnfOtaParseContext G}
    (h : AtFile p flashSize i c) (hp : encrypted p = false) (hcont : 0 < entrySize p i)
    (hin : entryOffset p i + entrySize p i ≤ p.length) :
    (feedBytes sdk c (slice p (entryOffset p i) (entrySize p i))).2 =
        (slice p (entryOffset p i) (entrySize p i)).zipIdx 0
      ∧ Delivered sdk p flashSize i (slice p (entryOffset p i) (entrySize p i))
        (feedBytes sdk c (slice p (entryOffset p i) (entrySize p i))).1 := by
  have hg : c.isGcm = false := h.file.isGcm.trans hp
  have hst : c.stage = .image := by simpa [hg] using h.stage
  have hstart := h.file.contentStart
  have hend := h.file.contentEnd
  have ho := h.offset
  simp only [hp, Bool.false_eq_true, if_false, Nat.add_zero, Nat.sub_zero] at hstart hend
  obtain ⟨c',payload,ha,hout,hfile,hc',hoff⟩ :=
    content_passed hinc h.file hst (by omega) (by omega) (by omega)
  rw [hstart, hend, Nat.add_sub_cancel_left] at ha hout hfile hc'
  simp only [absorbImage, hg, Bool.false_eq_true, if_false, Except.ok.injEq, Prod.mk.injEq] at ha
  obtain ⟨hc,hpay⟩ := ha
  refine ⟨by rw [hout, ← hpay], hfile, ?_, ?_, ?_⟩ <;> rw [hc']
  · simp [hg]
  · exact hoff.trans hend
  · show c'.fileCrc = _
    rw [← hc, h.fileCrc]

/-- The IV starts the decryption, or the parser fails. -/
theorem iv_read (hinc : sdk.Incremental) {c : SnfOtaParseContext G} (h : InFile p flashSize i c)
    (hst : c.stage = .gcmIv) (hb : c.buffer = []) {n : ℕ} (ho : c.offset = n)
    (hin : n + 12 ≤ p.length) : (feedBytes sdk c (slice p n 12)).2 = []
      ∧ ((∃ gcm, snfAesGcmDecryptStart sdk sdk.otaAesKey (slice p n 12) (head p ++ entry p i) =
        .ok gcm ∧ InFile p flashSize i (feedBytes sdk c (slice p n 12)).1
          ∧ (feedBytes sdk c (slice p n 12)).1 =
            { readField c (slice p n 12) with gcm := some gcm, buffer := [], stage := .image })
        ∨ ((feedBytes sdk c (slice p n 12)).1.error ≠ .none
          ∧ ∀ gcm, snfAesGcmDecryptStart sdk sdk.otaAesKey (slice p n 12) (head p ++ entry p i) ≠
            .ok gcm)) := by
  have hl : (slice p n 12).length = 12 := slice_length hin
  have hsize := h.packageSize
  have hv := @feedBytes_valid _ _ hinc (slice p n 12) c h.valid (fun _ => by omega)
  rw [← h.chosen.auth]
  rw [feedBytes_field hinc h.valid h.error hb (by rw [hst]; decide) (by rw [hst]; exact hl),
    @advance_gcmIv _ _ (readField c (slice p n 12)) hst hl, readField_buffer,
    show (readField c (slice p n 12)).authHeaderData = c.authHeaderData from rfl] at hv ⊢
  refine ⟨rfl, ?_⟩
  cases hs : snfAesGcmDecryptStart sdk sdk.otaAesKey (slice p n 12) c.authHeaderData with
  | error e => exact Or.inr ⟨by simp, nofun⟩
  | ok gcm =>
    rw [hs] at hv
    exact Or.inl ⟨gcm, rfl, h.next hv h.error rfl rfl rfl rfl, rfl⟩

/-- The tag ends the decryption, or the parser fails. -/
theorem tag_read (hinc : sdk.Incremental) {c : SnfOtaParseContext G} (h : InFile p flashSize i c)
    (hst : c.stage = .gcmTag) (hb : c.buffer = []) {gcm : G} (hgcm : c.gcm = some gcm) {n : ℕ}
    (ho : c.offset = n) (hin : n + 16 ≤ p.length) :
    (feedBytes sdk c (slice p n 16)).2 = []
      ∧ ((snfAesGcmDecryptFinish sdk gcm (slice p n 16) = .ok
          ∧ InFile p flashSize i (feedBytes sdk c (slice p n 16)).1
          ∧ (feedBytes sdk c (slice p n 16)).1 =
            { readField c (slice p n 16) with gcm := Option.none, buffer := [], stage := .tail })
        ∨ ((feedBytes sdk c (slice p n 16)).1.error ≠ .none
          ∧ snfAesGcmDecryptFinish sdk gcm (slice p n 16) ≠ .ok)) := by
  have hl : (slice p n 16).length = 16 := slice_length (by omega)
  have hsize := h.packageSize
  have hv := @feedBytes_valid _ _ hinc (slice p n 16) c h.valid (fun _ => by omega)
  rw [feedBytes_field hinc h.valid h.error hb (by rw [hst]; decide) (by rw [hst]; exact hl),
    @advance_gcmTag _ _ (readField c (slice p n 16)) hst hl, readField_buffer,
    show (readField c (slice p n 16)).gcm = some gcm from hgcm] at hv ⊢
  refine ⟨rfl, ?_⟩
  cases hf : snfAesGcmDecryptFinish sdk gcm (slice p n 16) with
  | ok =>
    simp only [Option.map_some, hf] at hv ⊢
    exact Or.inl ⟨trivial, h.next hv h.error rfl rfl rfl rfl, trivial⟩
  | _ =>
    simp only [Option.map_some, hf]
    exact Or.inr ⟨by simp, by simp⟩


theorem plaintext_iff (hinc : sdk.Incremental) (hp : encrypted p = true) {off size : ℕ}
    (hoff : entryOffset p i = off) (hsz : entrySize p i = size) (hcont : 28 < size)
    (hin : off + size ≤ p.length) (plain : List UInt8) : Plaintext sdk p i plain ↔
      ∃ g₁ g₂, snfAesGcmDecryptStart sdk sdk.otaAesKey (slice p off 12) (head p ++ entry p i) =
        .ok g₁ ∧ snfAesGcmDecryptUpdate sdk g₁ (slice p (off + 12) (size - 28)) = .ok (g₂, plain)
        ∧ snfAesGcmDecryptFinish sdk g₂ (slice p (off + size - 16) 16) = .ok := by
  have hl : (slice p (off + 12) (size - 28)).length = size - 28 := slice_length (by omega)
  simp only [Plaintext, hp, if_true, hoff, hsz]
  exact hinc.opens_iff (List.ne_nil_of_length_pos (by omega))

theorem absorbImage_gcm {c c' : SnfOtaParseContext G} {gcm : G} {x : List UInt8}
    {payload : SnfOtaPayload} (hg : c.isGcm = true) (hgcm : c.gcm = some gcm)
    (h : absorbImage sdk c x = .ok (c', payload)) :
    ∃ gcm', snfAesGcmDecryptUpdate sdk gcm x = .ok (gcm', payload.data) ∧ c'.gcm = some gcm' := by
  unfold absorbImage at h
  simp only [hg, if_true, hgcm] at h
  split at h
  · cases h
  case h_2 hu =>
    cases h
    exact ⟨_, hu, rfl⟩

/-- What an encrypted file does to the parser: IV, content and tag. -/
theorem encrypted_delivered (hinc : sdk.Incremental) {c : SnfOtaParseContext G}
    (h : AtFile p flashSize i c) (hp : encrypted p = true) {off size : ℕ}
    (hoff : entryOffset p i = off) (hsz : entrySize p i = size)
    (hcont : 28 < size) (hin : off + size ≤ p.length) :
    (∃ plain, Plaintext sdk p i plain ∧ (feedBytes sdk c (slice p off size)).2 = plain.zipIdx 0
      ∧ Delivered sdk p flashSize i plain (feedBytes sdk c (slice p off size)).1)
    ∨ ((feedBytes sdk c (slice p off size)).1.error ≠ .none ∧
      ∀ plain, ¬Plaintext sdk p i plain) := by
  have hopen := plaintext_iff hinc hp hoff hsz hcont hin
  have hg : c.isGcm = true := h.file.isGcm.trans hp
  have hst : c.stage = .gcmIv := by simpa [hg] using h.stage
  have ho : c.offset = off := h.offset.trans hoff
  have hcut : slice p off size = slice p off 12 ++
      (slice p (off + 12) (size - 28) ++ slice p (off + size - 16) 16) := by
    rw [show off + size - 16 = off + 12 + (size - 28) by omega, ← slice_add, ← slice_add]
    congr 1
    omega
  rw [hcut, feedBytes_append, feedBytes_append]
  obtain ⟨hout₁,hiv⟩ := iv_read hinc h.file hst h.buffer ho (by omega)
  rw [hout₁]
  rcases hiv with ⟨g₁,hstart,hfile₁,heq₁⟩ | ⟨herr,hnone⟩
  · generalize (feedBytes sdk c (slice p off 12)).1 = c₁ at hfile₁ heq₁ ⊢
    have hst₁ : c₁.stage = .image := by rw [heq₁]
    have hgcm₁ : c₁.gcm = some g₁ := by rw [heq₁]
    have hcrc₁ : c₁.fileCrc = 0xFFFFFFFF := by
      rw [heq₁]
      exact h.fileCrc
    have hg₁ : c₁.isGcm = true := hfile₁.isGcm.trans hp
    have ho₁ : c₁.offset = off + 12 := by
      rw [heq₁]
      show c.offset + (slice p off 12).length = off + 12
      rw [ho, slice_length (by omega)]
    have hs₁ := hfile₁.contentStart
    have he₁ := hfile₁.contentEnd
    simp only [hp, if_true, hoff, hsz] at hs₁ he₁
    obtain ⟨c₂,payload,ha,hout₂,hfile₂,heq₂,hend₂⟩ :=
      content_passed hinc hfile₁ hst₁ (by omega) (by omega)
      (by omega)
    rw [hs₁, he₁, show off + size - 16 - (off + 12) = size - 28 by omega] at ha hout₂ hfile₂ heq₂
    obtain ⟨g₂,hupdate,hgcm₂⟩ := absorbImage_gcm hg₁ hgcm₁ ha
    obtain ⟨_,hbuf₂,_,_,_,hcrc₂,_⟩ := absorbImage_spec ha
    rw [hout₂]
    generalize (feedBytes sdk c₁ (slice p (off + 12) (size - 28))).1 = c₃ at hfile₂ heq₂ ⊢
    have hst₃ : c₃.stage = .gcmTag := by rw [heq₂, hg₁]; rfl
    have hbuf₃ : c₃.buffer = [] := by
      rw [heq₂]
      show c₂.buffer = []
      rw [hbuf₂, heq₁]
    have hgcm₃ : c₃.gcm = some g₂ := by rw [heq₂, ← hgcm₂]
    have hoff₃ : c₃.offset = off + size - 16 := by rw [heq₂, ← he₁, ← hend₂]
    obtain ⟨hout₃,htag⟩ := tag_read hinc hfile₂ hst₃ hbuf₃ hgcm₃ hoff₃ (by omega)
    rw [hout₃, List.append_nil, List.nil_append]
    rcases htag with ⟨hok,hfile₃,heq₃⟩ | ⟨herr,hbad⟩
    · have hplain := (hopen payload.data).mpr ⟨g₁,g₂,hstart,hupdate,hok⟩
      refine Or.inl ⟨payload.data, hplain, rfl, hfile₃, by rw [heq₃], ?_, ?_⟩ <;> rw [heq₃]
      · show c₃.offset + (slice p (off + size - 16) 16).length = _
        rw [slice_length (by omega), hoff, hsz]
        omega
      · show c₃.fileCrc = _
        rw [heq₂]
        show c₂.fileCrc = _
        rw [hcrc₂, hcrc₁]
    · refine Or.inr ⟨herr, fun plain hplain => ?_⟩
      obtain ⟨g,g',hs,hu,hf⟩ := (hopen plain).mp hplain
      have hsame : g₁ = g := Except.ok.inj (hstart.symm.trans hs)
      subst hsame
      have hsame : (g₂, payload.data) = (g', plain) := Except.ok.inj (hupdate.symm.trans hu)
      cases hsame
      exact hbad hf
  · rw [feedBytes_of_error herr, feedBytes_of_error herr]
    refine Or.inr ⟨herr, fun plain hplain => ?_⟩
    obtain ⟨g₁,_,hs,_⟩ := (hopen plain).mp hplain
    exact hnone g₁ hs

/-- Behind the selected file only the offset moves. -/
theorem tail_passed (hinc : sdk.Incremental) {c : SnfOtaParseContext G} (h : c.Valid)
    (he : c.error = .none) (hst : c.stage = .tail) {x : List UInt8}
    (hx : c.offset + x.length ≤ c.packageSize) :
    feedBytes sdk c x = ({ c with offset := c.offset + x.length }, []) := by
  by_cases hne : x = []
  · subst hne
    rfl
  · rw [feedBytes_absorbField hinc h he (by rw [hst]; simp) hne (by simp only [room, hst]; omega),
      @advance_tail _ _ (absorbField c x) hst]
    simp [absorbField, hst, headerSizeOf]

theorem Delivered.finish (hinc : sdk.Incremental) {c : SnfOtaParseContext G} {plain x : List UInt8}
    (h : Delivered sdk p flashSize i plain c) {n : ℕ} (hn : c.offset = n)
    (hx : n + x.length = p.length) : (feedBytes sdk c x).2 = []
      ∧ (snfOtaParseFinish (feedBytes sdk c x).1 = .none ↔ crc32Of sdk plain = entryCrc p i) := by
  have hsize := h.file.packageSize
  rw [tail_passed hinc h.file.valid h.file.error h.stage (by omega)]
  refine ⟨rfl, ?_⟩
  have hoff : c.offset + x.length = c.packageSize := by omega
  simp only [snfOtaParseFinish, h.file.error, h.stage, hoff, h.fileCrc, h.file.chosen.crc, ne_eq,
    not_true_eq_false, or_self, if_false]
  show (if ¬crc32Of sdk plain = entryCrc p i then _ else _) = _ ↔ _
  split
  case isTrue hne =>
    exact iff_of_false (by simp) hne
  case isFalse heq =>
    exact iff_of_true rfl (not_not.mp heq)

/-- Everything behind the table. -/
theorem file_accepted (hinc : sdk.Incremental) {c : SnfOtaParseContext G}
    (h : TableDone p target flashSize i c)
    (hent : EntryValid sdk p i) (hbehind : tableEnd p ≤ entryOffset p i) :
    (∃ plain, Plaintext sdk p i plain ∧ (feedBytes sdk c (p.drop (tableEnd p))).2 = plain.zipIdx 0
      ∧ (snfOtaParseFinish (feedBytes sdk c (p.drop (tableEnd p))).1 = .none ↔
        crc32Of sdk plain = entryCrc p i))
    ∨ (snfOtaParseFinish (feedBytes sdk c (p.drop (tableEnd p))).1 ≠ .none ∧
      ∀ plain, ¬Plaintext sdk p i plain) := by
  obtain ⟨off,hoff⟩ : ∃ n, entryOffset p i = n := ⟨_, rfl⟩
  obtain ⟨size,hsz⟩ : ∃ n, entrySize p i = n := ⟨_, rfl⟩
  obtain ⟨hgap,hat⟩ := gap_passed hinc h hbehind (by have := hent.inside; omega)
  have hin := hent.inside
  have hcont := hent.content
  rw [hoff] at hgap hat hbehind
  rw [hoff, hsz] at hin
  rw [hsz] at hcont
  have hcut : p.drop (tableEnd p) =
      slice p (tableEnd p) (off - tableEnd p) ++ (slice p off size ++ p.drop (off + size)) := by
    have h₁ := List.take_append_drop (off - tableEnd p) (p.drop (tableEnd p))
    have h₂ := List.take_append_drop size (p.drop off)
    rw [List.drop_drop, show tableEnd p + (off - tableEnd p) = off by omega] at h₁
    rw [List.drop_drop] at h₂
    simp only [slice]
    rw [h₂, h₁]
  rw [hcut, feedBytes_append, feedBytes_append, hgap]
  have hrest : off + size + (p.drop (off + size)).length = p.length := by
    rw [List.length_drop]
    omega
  generalize (feedBytes sdk c (slice p (tableEnd p) (off - tableEnd p))).1 = c₁ at hat ⊢
  have hdone : ∀ plain, Plaintext sdk p i plain →
    (feedBytes sdk c₁ (slice p off size)).2 = plain.zipIdx 0 →
      Delivered sdk p flashSize i plain (feedBytes sdk c₁ (slice p off size)).1 →
      ∃ plain, Plaintext sdk p i plain
        ∧ [] ++ ((feedBytes sdk c₁ (slice p off size)).2
          ++ (feedBytes sdk (feedBytes sdk c₁ (slice p off size)).1 (p.drop (off + size))).2) =
            plain.zipIdx 0
        ∧ (snfOtaParseFinish
          (feedBytes sdk (feedBytes sdk c₁ (slice p off size)).1 (p.drop (off + size))).1 = .none
          ↔ crc32Of sdk plain = entryCrc p i) := by
    intro plain hplain hout hdel
    obtain ⟨hnil,hiff⟩ := hdel.finish hinc (hdel.offset.trans (by rw [hoff, hsz])) hrest
    exact ⟨plain, hplain, by rw [hout, hnil]; simp, hiff⟩
  cases hp : encrypted p with
  | false =>
    have hover : PackageFormat.overhead p = 0 := by simp [PackageFormat.overhead, hp]
    have hplain : Plaintext sdk p i (slice p off size) := by simp [Plaintext, hp, hoff, hsz]
    obtain ⟨hout,hdel⟩ := plain_delivered hinc hat hp (by omega) (by omega)
    rw [hoff, hsz] at hout hdel
    exact Or.inl (hdone _ hplain hout hdel)
  | true =>
    have hover : PackageFormat.overhead p = 28 := by simp [PackageFormat.overhead, hp]
    rcases encrypted_delivered hinc hat hp hoff hsz (by omega)
      hin with ⟨plain,hplain,hout,hdel⟩ | ⟨herr,hbad⟩
    · exact Or.inl (hdone plain hplain hout hdel)
    · rw [feedBytes_of_error herr, snfOtaParseFinish_of_error herr]
      exact Or.inr ⟨herr, hbad⟩

theorem EntryOk.of_selects {plain : List UInt8} (h : Selects sdk p target flashSize i plain) {k : ℕ}
    (hk : k < fileCount p) : EntryOk sdk p target flashSize k where
  valid := h.entries k hk
  single := fun hn => by
    have hki := (h.unique k hk).mp hn
    refine ⟨fun j hj hnj => ?_, hki ▸ h.fits⟩
    have := (h.unique j (by omega)).mp hnj
    omega
  found := fun hlast => ⟨i, by have := h.index; omega, (h.unique i h.index).mpr rfl⟩

theorem tableEnd_le_entryOffset (h : ∀ j < fileCount p, EntryValid sdk p j) {k : ℕ}
    (hk : k < fileCount p) : tableEnd p ≤ entryOffset p k := by
  induction k with
  | zero => exact (h 0 hk).behind
  | succ k ih =>
    have hprev := ih (by omega)
    have hb := (h (k + 1) hk).behind
    simp only [PackageFormat.previousEnd] at hb
    omega

/-- Feeding a whole package: the result is a success exactly for an acceptable
package, and then the selected plaintext has been emitted from offset 0. -/
theorem feed_package (hinc : sdk.Incremental) {c : SnfOtaParseContext G} (hv : c.Valid)
    (he : c.error = .none) (hst : c.stage = .metadata) (hb : c.buffer = [])
    (hsize : c.packageSize = p.length)
    (hcrc : c.fileCrc = 0xFFFFFFFF) (hflash : c.flashSize = flashSize)
    (hname : cString c.fileName = target) :
    (snfOtaParseFinish (feedBytes sdk c p).1 = .none →
      ∃ i plain, Selects sdk p target flashSize i plain)
      ∧ (∀ i plain, Selects sdk p target flashSize i plain →
        snfOtaParseFinish (feedBytes sdk c p).1 = .none ∧
          (feedBytes sdk c p).2 = plain.zipIdx 0) := by
  have hs : p.length < 4294967296 := hsize ▸ hv.size_lt
  have hlen : 24 ≤ p.length := by
    have hsv := hv.stage he
    simp only [StageValid, hst] at hsv
    omega
  have hfail : ∀ n, (feedBytes sdk c (p.take n)).1.error ≠ .none →
      snfOtaParseFinish (feedBytes sdk c p).1 ≠ .none := by
    intro n herr
    have happ := feedBytes_append sdk c (p.take n) (p.drop n)
    rw [List.take_append_drop, feedBytes_of_error herr] at happ
    rw [happ, snfOtaParseFinish_of_error herr]
    exact herr
  obtain ⟨hout,hcase⟩ := head_accepted hinc hv he hst hb hlen hsize hcrc hflash hname
  rcases hcase with ⟨_,hhead,htable,hstate⟩ | ⟨herr,hbad⟩
  · have hpos : 0 < fileCount p := Nat.pos_of_ne_zero fun h => hhead.count (UInt8.toNat_inj.mp h)
    obtain ⟨hnil,hcase⟩ :=
      table_accepted hinc hstate hout hpos htable hs (Nat.le_refl (fileCount p))
    rcases hcase with ⟨hok,_,hdone⟩ | ⟨herr,j,hj,hbad⟩
    · obtain ⟨i,hi⟩ := hdone rfl
      have hentries : ∀ j < fileCount p, EntryValid sdk p j := fun j hj => (hok j hj).valid
      have happ := feedBytes_append sdk c (p.take (tableEnd p)) (p.drop (tableEnd p))
      rw [List.take_append_drop] at happ
      have hfile := file_accepted hinc hi (hentries i hi.index)
        (tableEnd_le_entryOffset hentries hi.index)
      rw [show 24 + 76 * fileCount p = tableEnd p from rfl] at hnil hfile
      rw [happ, hnil, List.nil_append]
      have hsel : ∀ plain, Plaintext sdk p i plain → crc32Of sdk plain = entryCrc p i →
          Selects sdk p target flashSize i plain := fun plain hplain hc =>
        ⟨hhead, htable, hentries, hi.index, hi.unique, hi.chosen.fits, hplain, hc⟩
      have hsame : ∀ {i' plain'}, Selects sdk p target flashSize i' plain' → i' = i := fun h =>
        (hi.unique _ h.index).mp ((h.unique _ h.index).mpr rfl)
      rcases hfile with ⟨plain,hplain,hemit,hiff⟩ | ⟨hne,hno⟩
      · refine ⟨fun h => ⟨i, plain, hsel plain hplain (hiff.mp h)⟩, fun i' plain' h => ?_⟩
        have hi' := hsame h
        subst hi'
        have heq := Plaintext.unique h.plaintext hplain
        subst heq
        exact ⟨hiff.mpr h.crc, hemit⟩
      · refine ⟨fun h => absurd h hne, fun i' plain' h => ?_⟩
        have hi' := hsame h
        subst hi'
        exact absurd h.plaintext (hno plain')
    · exact ⟨fun h => absurd h (hfail _ herr), fun i plain h =>
        absurd (EntryOk.of_selects h hj) hbad⟩
  · have hhd : head p = p.take 24 := rfl
    rw [hhd] at herr
    exact ⟨fun h => absurd h (hfail 24 herr), fun i plain h => absurd ⟨h.head,h.table⟩ hbad⟩

end Sonoff.OtaParse
