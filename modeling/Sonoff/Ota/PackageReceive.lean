import Sonoff.Ota.FlashWrite
import Sonoff.Ota.ParseStream
import Sonoff.Utils.SoftSdk

/-! # The package receive path does not see the chunk boundaries

`otaHandlePackage` on one chunk is `feedBytes` on its bytes, unless the partition
fails; a sequence of chunks is `feedBytes` on their concatenation.
-/
namespace Sonoff.Ota
open Bytes AesGcm NorFlash OtaParse

variable {G : Type} {sdk : Sdk G}

/-- All bytes lie in sectors that `otaEraseBeforeWrite` erases. -/
def Erasable (placed : List (UInt8 × ℕ)) : Prop := ∀ byte ∈ placed, byte.2 < otaEraseLimit

theorem Erasable.end_le {payload : SnfOtaPayload} (h : Erasable payload.placed)
    (hne : payload.data ≠ []) : payload.offset + payload.size ≤ otaEraseLimit := by
  have hpos : 0 < payload.size := List.length_pos_iff.mpr hne
  have hlast : payload.size - 1 < payload.placed.length := by
    simp only [SnfOtaPayload.placed, List.length_zipIdx]
    exact Nat.sub_lt hpos Nat.one_pos
  have hmem := h _ (List.getElem_mem hlast)
  simp only [SnfOtaPayload.placed, List.getElem_zipIdx] at hmem
  omega

structure PackageSpec (sdk : Sdk G) (core : OtaCore G) (data : List UInt8)
    (r : SnfOtaErrorCode × OtaCore G) : Prop where
  config : r.2.config = core.config
  info : r.2.info = { core.info with nextEraseOffset := r.2.info.nextEraseOffset }
  length : r.2.flash.length = core.flash.length
  valid : r.2.parser.Valid
  inside : core.flash.Inside → r.2.flash.Inside
  fed : ((r.1 = .eraseFailed ∨ r.1 = .writeFailed)
      ∧ (Erasable (feedBytes sdk core.parser data).2 → ¬r.2.flash.Succeeded)) ∨
    (r.2.parser = (feedBytes sdk core.parser data).1 ∧ r.1 = r.2.parser.error
      ∧ r.2.flash.written = core.flash.written ++ (feedBytes sdk core.parser data).2)
  consumed : r.1 = .none → r.2.parser.packageSize = core.parser.packageSize
    ∧ r.2.parser.offset = core.parser.offset + data.length
  filled : r.1 = .none → ∀ front, Filled core front → front.length = core.parser.emittedSize →
    ∃ piece, Filled r.2 (front ++ piece) ∧ (front ++ piece).length = r.2.parser.emittedSize
      ∧ (feedBytes sdk core.parser data).2 = piece.zipIdx front.length
  once : ∀ front, Filled core front → front.length = core.parser.emittedSize →
    ErasedOnce 4096 r.2.flash.ops

theorem PackageSpec.ended {core : OtaCore G} (hv : core.parser.Valid)
    (he : core.parser.error = .none) : PackageSpec sdk core [] (.none, core) :=
  ⟨rfl, rfl, rfl, hv, id, Or.inr ⟨rfl, he.symm, by simp [feedBytes]⟩, fun _ => ⟨rfl, rfl⟩,
    fun _ front hf hl => ⟨[], by simpa using hf, by simpa using hl, rfl⟩, fun _ h _ => h.once⟩

theorem PackageSpec.parseFailed {core : OtaCore G} {data : List UInt8}
    {parser : SnfOtaParseContext G}
    (hv : parser.Valid) (he : parser.error ≠ .none)
    (hfed : feedBytes sdk core.parser data = (parser, [])) :
    PackageSpec sdk core data (parser.error, core.setParser parser) :=
  ⟨rfl, rfl, rfl, hv, id, Or.inr ⟨by rw [hfed]; rfl, rfl, by rw [hfed]; simp [OtaCore.setParser]⟩,
    fun h => absurd h he, fun h => absurd h he, fun _ h _ => h.once⟩

structure PayloadSpec (core : OtaCore G) (payload : SnfOtaPayload)
    (r : SnfOtaErrorCode × OtaCore G) : Prop where
  frame : FlashOnly core r.2
  inside : core.flash.Inside → r.2.flash.Inside
  code : payload.offset + payload.size < 4294967296 → r.1 = .none ∨ r.1 = .eraseFailed ∨
    r.1 = .writeFailed
  issued : r.1 ≠ .none → Erasable payload.placed → ¬r.2.flash.Succeeded
  written : r.1 = .none → r.2.flash.written = core.flash.written ++ payload.placed
  succeeded : r.1 = .none → core.flash.Succeeded → r.2.flash.Succeeded
  filled : r.1 = .none → ∀ front : List UInt8, payload.data = [] ∨ payload.offset = front.length →
    Filled core front → Filled r.2 (front ++ payload.data)
  once : ∀ front : List UInt8, payload.data = [] ∨ payload.offset = front.length →
    Filled core front → ErasedOnce 4096 r.2.flash.ops

theorem writePayload_spec (core : OtaCore G) (payload : SnfOtaPayload) :
    PayloadSpec core payload (writePayload core payload) := by
  unfold writePayload
  split
  case isTrue hne =>
    have hd : payload.data ≠ [] := fun h => hne (by simp [SnfOtaPayload.size, h])
    have hw := otaEraseAndWrite_spec core payload.offset payload.data
    exact ⟨hw.frame, hw.inside, hw.code, fun hfail herasable =>
      hw.issued hfail (herasable.end_le hd), hw.written,
      hw.succeeded, fun hn front hnext hf => hw.filled hn hd front (hnext.resolve_left hd) hf,
      fun front hnext hf => hw.once hd front (hnext.resolve_left hd) hf⟩
  case isFalse hz =>
    have hd : payload.data = [] := List.eq_nil_of_length_eq_zero (not_not.mp hz)
    exact ⟨.refl core, id, fun _ => Or.inl rfl, fun hfail => absurd rfl hfail,
      fun _ => by simp [SnfOtaPayload.placed, hd],
      fun _ h => h, fun _ front _ hf => by simpa [hd] using hf, fun _ _ hf => hf.once⟩

section Step
variable {core : OtaCore G} {data : List UInt8} {t : ℕ} {w : SnfOtaErrorCode × OtaCore G}

/-- What a chunk places starts with the payload of its first call. -/
theorem feedBytes_call (hcall : CallSpec sdk core.parser data t) :
    (feedBytes sdk core.parser data).2 = (snfOtaParseData sdk core.parser data).payload.placed
      ++ (feedBytes sdk (snfOtaParseData sdk core.parser data).context (data.drop t)).2 := by
  have hsplit := feedBytes_append sdk core.parser (data.take t) (data.drop t)
  rw [List.take_append_drop, hcall.fed] at hsplit
  exact congrArg Prod.snd hsplit

/-- The call succeeded and the partition refused its payload. -/
theorem PackageSpec.writeFailed (hv : core.parser.Valid) (hcall : CallSpec sdk core.parser data t)
    (hw : PayloadSpec (core.setParser (snfOtaParseData sdk core.parser data).context)
      (snfOtaParseData sdk core.parser data).payload w) (hne : w.1 ≠ .none) :
    PackageSpec sdk core data w where
  config := hw.frame.config
  info := hw.frame.info
  length := hw.frame.length
  valid := hw.frame.parser ▸ hcall.valid
  inside := hw.inside
  fed := by
    refine Or.inl ⟨(hw.code (Nat.lt_of_le_of_lt hcall.inside hv.size_lt)).resolve_left hne, ?_⟩
    intro herasable
    rw [feedBytes_call hcall] at herasable
    exact hw.issued hne (fun byte hbyte => herasable byte (List.mem_append_left _ hbyte))
  consumed := fun h => absurd h hne
  filled := fun h => absurd h hne
  once := fun front hf hl =>
    hw.once front (hcall.next.imp_right (fun h => h.trans hl.symm)) ⟨hf.programmed,hf.succeeded⟩

/-- The call succeeded, its payload was written, and the rest of the chunk follows. -/
theorem PackageSpec.step (hcall : CallSpec sdk core.parser data t)
    (hw : PayloadSpec (core.setParser (snfOtaParseData sdk core.parser data).context)
      (snfOtaParseData sdk core.parser data).payload w) (hok : w.1 = .none)
    {r : SnfOtaErrorCode × OtaCore G} (hr : PackageSpec sdk w.2 (data.drop t) r) :
    PackageSpec sdk core data r := by
  have hsplit := feedBytes_append sdk core.parser (data.take t) (data.drop t)
  have hparser : w.2.parser = (snfOtaParseData sdk core.parser data).context := hw.frame.parser
  rw [List.take_append_drop, hcall.fed] at hsplit
  dsimp only at hsplit
  rw [← hparser] at hsplit
  have hwritten : w.2.flash.written = core.flash.written ++
      (snfOtaParseData sdk core.parser data).payload.placed :=
    hw.written hok
  obtain ⟨hsize,hoff⟩ := hcall.input
  have hle := hcall.le
  have hfront : ∀ front, Filled core front → front.length = core.parser.emittedSize →
      Filled w.2 (front ++ (snfOtaParseData sdk core.parser data).payload.data)
        ∧ (front ++ (snfOtaParseData sdk core.parser data).payload.data).length =
          w.2.parser.emittedSize := by
    intro front hf hl
    refine ⟨hw.filled hok front (hcall.next.imp_right (fun h => h.trans hl.symm))
      ⟨hf.programmed,hf.succeeded⟩, ?_⟩
    rw [hparser, hcall.emitted, List.length_append, hl]
    rfl
  refine ⟨hr.config.trans hw.frame.config, ?_, hr.length.trans hw.frame.length, hr.valid,
    fun h => hr.inside (hw.inside h), ?_, ?_, ?_, ?_⟩
  · rw [hr.info, hw.frame.info]
    rfl
  · rcases hr.fed with ⟨hcode,hissued⟩ | ⟨hp,hcode,hwr⟩
    · refine Or.inl ⟨hcode, fun herasable => hissued ?_⟩
      rw [hsplit] at herasable
      exact fun byte hbyte => herasable byte (List.mem_append_right _ hbyte)
    · refine Or.inr ⟨by rw [hsplit, hp], hcode, ?_⟩
      rw [hsplit, hwr, hwritten, List.append_assoc]
  · intro hn
    obtain ⟨h₁,h₂⟩ := hr.consumed hn
    rw [hparser] at h₁ h₂
    rw [List.length_drop] at h₂
    exact ⟨h₁.trans hsize, by omega⟩
  · intro hn front hf hl
    have hnext := hcall.next.imp_right (fun h => h.trans hl.symm)
    obtain ⟨hf',hl'⟩ := hfront front hf hl
    obtain ⟨piece,hp₁,hp₂,hp₃⟩ := hr.filled hn _ hf' hl'
    refine ⟨(snfOtaParseData sdk core.parser data).payload.data ++ piece, ?_, ?_, ?_⟩
    · rwa [← List.append_assoc]
    · rwa [← List.append_assoc]
    · rw [hsplit, hp₃, List.zipIdx_append, List.length_append]
      rcases hnext with hz | ho
      · simp [SnfOtaPayload.placed, hz]
      · simp [SnfOtaPayload.placed, ho]
  · intro front hf hl
    obtain ⟨hf',hl'⟩ := hfront front hf hl
    exact hr.once _ hf' hl'

end Step

theorem otaHandlePackageLoop_spec (hinc : sdk.Incremental) {fuel : ℕ} {core : OtaCore G}
    (hv : core.parser.Valid) {data : List UInt8}
    (hn : core.parser.error = .none → data.length ≤ core.parser.packageSize - core.parser.offset)
    (hd : data = [] → core.parser.error = .none) (hfuel : data.length < fuel) :
    ∃ r, otaHandlePackageLoop sdk fuel core data = some r ∧ PackageSpec sdk core data r := by
  induction fuel generalizing core data with
  | zero => omega
  | succ fuel ih =>
    unfold otaHandlePackageLoop
    by_cases hempty : data = []
    · subst hempty
      exact ⟨_, by simp, .ended hv (hd rfl)⟩
    rw [if_neg hempty]
    dsimp only
    by_cases he : core.parser.error = .none
    · obtain ⟨t,hcall⟩ := snfOtaParseData_callSpec hinc hv he hempty (hn he)
      have herr := snfOtaParseData_error sdk core.parser data
      obtain ⟨hsize,hoff⟩ := hcall.input
      have hnd := hn he
      have hle := hcall.le
      have hpos := hcall.pos
      split
      case isTrue hfail =>
        rw [herr] at hfail ⊢
        have hsplit := feedBytes_append sdk core.parser (data.take t) (data.drop t)
        have hp := hcall.placed.resolve_right (by rwa [herr])
        rw [List.take_append_drop, hcall.fed] at hsplit
        dsimp only at hsplit
        rw [feedBytes_of_error hfail, hp] at hsplit
        exact ⟨_, rfl, .parseFailed hcall.valid hfail hsplit⟩
      case isFalse hok =>
        have hok : (snfOtaParseData sdk core.parser data).context.error = .none :=
          herr ▸ not_not.mp hok
        have hw := writePayload_spec (core.setParser (snfOtaParseData sdk core.parser data).context)
          (snfOtaParseData sdk core.parser data).payload
        have hparser := hw.frame.parser
        simp only [OtaCore.setParser] at hparser
        split
        case isTrue hne => exact ⟨_, rfl, .writeFailed hv hcall hw hne⟩
        case isFalse hwok =>
          rw [hcall.consumed]
          obtain ⟨r,hr,hspec⟩ := @ih _ (hparser ▸ hcall.valid) (data.drop t)
            (fun _ => by rw [hparser, hsize, hoff, List.length_drop]; omega)
            (fun _ => by rw [hparser, hok]) (by rw [List.length_drop]; omega)
          exact ⟨r, hr, .step hcall hw (not_not.mp hwok) hspec⟩
    · have herr : (snfOtaParseData sdk core.parser data).error = core.parser.error := by
        simp [snfOtaParseData, he]
      have hctx : (snfOtaParseData sdk core.parser data).context = core.parser := by
        simp [snfOtaParseData, he]
      rw [if_pos (by rwa [herr]), hctx, herr]
      exact ⟨_, rfl, .parseFailed hv he (feedBytes_of_error he data)⟩

/-- A parser that has recorded an error fails every further piece. -/
theorem PackageSpec.error_none {core : OtaCore G} {data : List UInt8}
    {r : SnfOtaErrorCode × OtaCore G}
    (h : PackageSpec sdk core data r) (hok : r.1 = .none) : core.parser.error = .none := by
  by_contra he
  obtain ⟨hp,hcode,_⟩ := h.fed.resolve_left (by rw [hok]; simp)
  rw [feedBytes_of_error he] at hp
  have hp : r.2.parser = core.parser := hp
  exact he (by rw [← hp, ← hcode, hok])

theorem otaHandlePackage_spec (hinc : sdk.Incremental) {core : OtaCore G} (hv : core.parser.Valid)
    {data : List UInt8} (hd : data ≠ [])
    (hn : core.parser.error = .none → data.length ≤ core.parser.packageSize - core.parser.offset) :
    ∃ r, otaHandlePackage sdk core data = some r ∧ PackageSpec sdk core data r :=
  otaHandlePackageLoop_spec hinc hv hn (fun h => absurd h hd) (Nat.lt_succ_self _)

/-- The chunks handled in order until the first error, then `snfOtaParseFinish`. -/
def receivePackage (sdk : Sdk G) : OtaCore G → List (List UInt8) →
    Option (SnfOtaErrorCode × OtaCore G)
  | core, [] => some (snfOtaParseFinish core.parser, core)
  | core, data :: rest =>
    match otaHandlePackage sdk core data with
    | Option.none => Option.none
    | some (error, core) =>
      if error ≠ .none then some (error, core) else receivePackage sdk core rest

/-- The result a whole input leads to, and what it leaves in the partition. -/
theorem receivePackage_spec (hinc : sdk.Incremental) {chunks : List (List UInt8)} {core : OtaCore G}
    (hv : core.parser.Valid) (hne : ∀ x ∈ chunks, x ≠ [])
    (hn : core.parser.error = .none →
      chunks.flatten.length ≤ core.parser.packageSize - core.parser.offset)
    (herasable : Erasable (feedBytes sdk core.parser chunks.flatten).2) :
    ∃ r, receivePackage sdk core chunks = some r ∧
      (r.2.flash.Succeeded → r.1 = snfOtaParseFinish (feedBytes sdk core.parser chunks.flatten).1
        ∧ r.2.flash.written = core.flash.written ++
          (feedBytes sdk core.parser chunks.flatten).2) := by
  induction chunks generalizing core with
  | nil => exact ⟨_, rfl, fun _ => ⟨rfl, by simp [feedBytes]⟩⟩
  | cons data rest ih =>
    rw [List.flatten_cons] at herasable ⊢
    rw [List.flatten_cons, List.length_append] at hn
    obtain ⟨r,hr,hspec⟩ := otaHandlePackage_spec hinc hv (hne data List.mem_cons_self)
      (fun he => by have := hn he; omega)
    have happ := feedBytes_append sdk core.parser data rest.flatten
    rw [happ] at herasable
    simp only [receivePackage, hr]
    split
    case isTrue hfail =>
      refine ⟨r, rfl, fun hall => ?_⟩
      have hfed := hspec.fed.resolve_left
        (fun h => h.2 (fun byte hbyte => herasable byte (List.mem_append_left _ hbyte)) hall)
      obtain ⟨hp,hcode,hw⟩ := hfed
      have herr : (feedBytes sdk core.parser data).1.error ≠ .none := by rwa [← hp, ← hcode]
      rw [happ, feedBytes_of_error herr, ← hp, List.append_nil]
      exact ⟨hcode.trans (snfOtaParseFinish_of_error (hcode ▸ hfail)).symm, hw⟩
    case isFalse hok =>
      have hok := not_not.mp hok
      obtain ⟨hp,hcode,hw⟩ := hspec.fed.resolve_left (by rw [hok]; simp)
      obtain ⟨hsize,hoff⟩ := hspec.consumed hok
      have he : core.parser.error = .none := hspec.error_none hok
      have hlen := hn he
      rw [← hp] at herasable
      obtain ⟨r',hr',hspec'⟩ :=
        ih hspec.valid (fun x hx => hne x (List.mem_cons_of_mem _ hx)) (fun _ => by omega)
        (fun byte hbyte => herasable byte (List.mem_append_right _ hbyte))
      refine ⟨r', hr', fun hall => ?_⟩
      obtain ⟨hres,hwr⟩ := hspec' hall
      rw [happ, ← hp]
      exact ⟨hres, by rw [hwr, hw, List.append_assoc]⟩

def packageSession (config : SnfOtaConfig) (packageSize : ℕ) (fileName : Option (List UInt8))
    (flashSize : ℕ) (flash : Flash) : OtaCore G where
  config := config
  parser := (snfOtaParseInit packageSize fileName flashSize).1
  info := { SnfOtaInfo.zero with state := .receiving, totalSize := packageSize }
  flash := flash

def contentOf (sdk : Sdk G) (packageSize : ℕ) (fileName : Option (List UInt8)) (flashSize : ℕ)
    (input : List UInt8) : List (UInt8 × ℕ) :=
  (feedBytes sdk (snfOtaParseInit packageSize fileName flashSize).1 input).2

/-- Two ways of cutting one input into chunks end with the same result and the
same bytes written to the same offsets, whatever the input is, if the flash
operations succeed and no content reaches the sector behind the erase limit. -/
theorem receivePackage_chunk_independent (hinc : sdk.Incremental) (config : SnfOtaConfig)
    {packageSize : ℕ} (hsize : packageSize < 4294967296) (fileName : Option (List UInt8))
    (flashSize : ℕ) (flash₁ flash₂ : Flash) (hlog₁ : flash₁.log = []) (hlog₂ : flash₂.log = [])
    (input : List UInt8) (hlen : input.length ≤ packageSize)
    (herasable : Erasable (contentOf sdk packageSize fileName flashSize input))
    (chunks₁ chunks₂ : List (List UInt8)) (hne₁ : ∀ x ∈ chunks₁, x ≠ [])
    (hne₂ : ∀ x ∈ chunks₂, x ≠ [])
    (hcut₁ : chunks₁.flatten = input) (hcut₂ : chunks₂.flatten = input) :
    ∃ r₁ r₂, receivePackage sdk (packageSession config packageSize fileName flashSize flash₁)
      chunks₁ = some r₁ ∧
      receivePackage sdk (packageSession config packageSize fileName flashSize flash₂) chunks₂ =
      some r₂ ∧ (r₁.2.flash.Succeeded → r₂.2.flash.Succeeded →
        r₁.1 = r₂.1 ∧ r₁.2.flash.written = r₂.2.flash.written) := by
  have hv := @snfOtaParseInit_valid G packageSize fileName flashSize hsize
  have hinit := snfOtaParseInit_cases G packageSize fileName flashSize
  have hspec : ∀ (flash : Flash) (chunks : List (List UInt8)), flash.log = [] →
    (∀ x ∈ chunks, x ≠ []) → chunks.flatten = input → ∃ r,
        receivePackage sdk (packageSession config packageSize fileName flashSize flash) chunks =
          some r
        ∧ (r.2.flash.Succeeded →
          r.1 = snfOtaParseFinish
            (feedBytes sdk (snfOtaParseInit packageSize fileName flashSize).1 input).1
          ∧ r.2.flash.written = contentOf sdk packageSize fileName flashSize input) := by
    intro flash chunks hlog hne hcut
    subst hcut
    obtain ⟨r,hr,h⟩ := @receivePackage_spec _ _ hinc chunks
      (packageSession config packageSize fileName flashSize flash) hv hne (fun he => by
        rcases hinit with ⟨name,_,_,hi⟩ | ⟨_,hi⟩ <;> simp only [packageSession, hi] at he ⊢
        · exact hlen
        · cases he) herasable
    have hz : flash.written = [] := by simp [Flash.written, hlog]
    exact ⟨r, hr, fun hall =>
      ⟨(h hall).1, by rw [(h hall).2]; simp [packageSession, hz, contentOf]⟩⟩
  obtain ⟨r₁,hr₁,h₁⟩ := hspec flash₁ chunks₁ hlog₁ hne₁ hcut₁
  obtain ⟨r₂,hr₂,h₂⟩ := hspec flash₂ chunks₂ hlog₂ hne₂ hcut₂
  refine ⟨r₁, r₂, hr₁, hr₂, fun hall₁ hall₂ => ?_⟩
  obtain ⟨hc₁,hp₁⟩ := h₁ hall₁
  obtain ⟨hc₂,hp₂⟩ := h₂ hall₂
  exact ⟨hc₁.trans hc₂.symm, hp₁.trans hp₂.symm⟩

def blankFlash : Flash := ⟨4096, fun _ => 0xFF, [], []⟩

def withCrc (data : List UInt8) : List UInt8 := data ++ packBe32 (crc32Of softSdk data)

def plainHead (size crc : ℕ) : List UInt8 :=
  withCrc ([1, 1, 109] ++ List.replicate 17 0)
    ++ withCrc (snfOtaDefaultFileName ++ List.replicate (32 - snfOtaDefaultFileName.length) 0 ++
      49 :: List.replicate 15 0 ++ packBe32 100 ++ packBe32 size ++ packBe32 crc) ++
      List.replicate 12 0

def bytePackage : List UInt8 := plainHead 1 (crc32Of softSdk [7]) ++ [7]

def byteSession : OtaCore Unit :=
  packageSession .zero 101 (some snfOtaDefaultFileName) 4096 blankFlash

/-- The package arrives whole, and cut inside the head and inside its entry. -/
theorem receivePackage_chunk_independent_byte :
    ∃ r₁ r₂, receivePackage softSdk byteSession [bytePackage] = some r₁
      ∧ receivePackage softSdk byteSession [bytePackage.take 10, (bytePackage.drop 10).take 60,
        bytePackage.drop 70] = some r₂
      ∧ r₁.1 = .none ∧ r₁.2.flash.written = [(7, 0)]
      ∧ r₁.1 = r₂.1 ∧ r₁.2.flash.written = r₂.2.flash.written := by
  obtain ⟨r₁,r₂,hr₁,hr₂,heq⟩ := receivePackage_chunk_independent softSdk_incremental .zero
    (show 101 < 4294967296 by decide) (some snfOtaDefaultFileName) 4096 blankFlash blankFlash rfl
    rfl bytePackage (by decide +kernel) (by unfold Erasable; decide +kernel) [bytePackage]
    [bytePackage.take 10, (bytePackage.drop 10).take 60, bytePackage.drop 70] (by decide +kernel)
      (by decide +kernel)
    (by decide +kernel) (by decide +kernel)
  have hrun₁ : (receivePackage softSdk byteSession [bytePackage]).map
      (fun r => (r.1, r.2.flash.written, decide r.2.flash.Succeeded)) =
        some (.none, [(7, 0)], true) := by decide +kernel
  have hrun₂ : (receivePackage softSdk byteSession
      [bytePackage.take 10, (bytePackage.drop 10).take 60, bytePackage.drop 70]).map
      (fun r => decide r.2.flash.Succeeded) = some true := by decide +kernel
  rw [show receivePackage softSdk byteSession _ = _ from hr₁] at hrun₁
  rw [show receivePackage softSdk byteSession _ = _ from hr₂] at hrun₂
  simp only [Option.map_some, Option.some.injEq, Prod.mk.injEq, decide_eq_true_eq] at hrun₁ hrun₂
  obtain ⟨hok,hwritten,hall₁⟩ := hrun₁
  exact ⟨r₁, r₂, hr₁, hr₂, hok, hwritten, heq hall₁ hrun₂⟩

/-- A partition that reaches up to the erase limit and whose operations all
succeed; its first `k` sectors are erased. -/
structure Willing (core : OtaCore G) (k : ℕ) : Prop where
  results : core.flash.results = []
  length : otaEraseLimit ≤ core.flash.length
  erased : core.info.nextEraseOffset = 4096 * k
  succeeded : core.flash.Succeeded

theorem snfOtaAdapterIssue_willing {flash : Flash} (op : FlashOp) (hres : flash.results = [])
    (hpos : op.size ≠ 0) (hin : op.offset + op.size ≤ flash.length) :
    (snfOtaAdapterIssue flash op).1 = true ∧ (snfOtaAdapterIssue flash op).2.results = [] := by
  have hrange : otaAdapterCheckRange flash op.offset op.size = true := by
    simp only [otaAdapterCheckRange, Bool.and_eq_true, decide_eq_true_eq]
    omega
  simp [snfOtaAdapterIssue, hres, hpos, hrange, Flash.record]

theorem otaEraseLoop_willing {writeEnd n fuel k : ℕ} {core : OtaCore G} (h : Willing core k)
    (hk : k ≤ n) (hend : writeEnd ≤ 4096 * n) (hlast : 4096 * n < writeEnd + 4096)
    (hlimit : 4096 * n ≤ otaEraseLimit) (hfuel : writeEnd - core.info.nextEraseOffset ≤ fuel) :
    (otaEraseLoop writeEnd fuel core).1 = .none ∧
      Willing (otaEraseLoop writeEnd fuel core).2 n := by
  have hnext := h.erased
  induction fuel generalizing core k with
  | zero =>
    have hkn : k = n := by omega
    exact ⟨rfl, hkn ▸ h⟩
  | succ fuel ih =>
    unfold otaEraseLoop
    split
    case isTrue hopen =>
      have hlen := h.length
      have hguard : ¬core.info.nextEraseOffset > uint32Max - snfOtaEraseSectorSize := by
        simp only [otaEraseLimit, uint32Max, snfOtaEraseSectorSize] at hlimit ⊢
        omega
      obtain ⟨hok,hres⟩ :=
        snfOtaAdapterIssue_willing (.erase core.info.nextEraseOffset 4096) h.results
        (by simp [FlashOp.size]) (by simp only [FlashOp.offset, FlashOp.size]; omega)
      have hsucc := snfOtaAdapterIssue_succeeded h.succeeded hok
      dsimp only
      rw [if_neg hguard]
      simp only [snfOtaAdapterErase, snfOtaEraseSectorSize, hok, Bool.not_true, Bool.false_eq_true,
        if_false]
      refine @ih (k + 1) _ ⟨hres, hlen, ?_, hsucc⟩ (by omega) ?_ ?_
      · simp only [OtaCore.setNextErase]
        omega
      · simp only [OtaCore.setNextErase]
        omega
      · simp only [OtaCore.setNextErase]
        omega
    case isFalse hdone =>
      have hkn : k = n := by omega
      exact ⟨rfl, hkn ▸ h⟩

/-- A piece that stays in front of the erase limit is written. -/
theorem otaEraseAndWrite_willing {offset n k : ℕ} {piece : List UInt8} {core : OtaCore G}
    (h : Willing core k) (hpos : piece ≠ []) (hk : k ≤ n) (hend : offset + piece.length ≤ 4096 * n)
    (hlast : 4096 * n < offset + piece.length + 4096) (hlimit : 4096 * n ≤ otaEraseLimit) :
    (otaEraseAndWrite core offset piece).1 = .none ∧
      Willing (otaEraseAndWrite core offset piece).2 n := by
  have hsize : ¬piece.length > uint32Max - offset := by
    simp only [otaEraseLimit, uint32Max, snfOtaEraseSectorSize] at hlimit ⊢
    omega
  obtain ⟨hnone,hw⟩ := otaEraseLoop_willing h hk hend hlast hlimit (Nat.le_refl _)
  unfold otaEraseAndWrite otaEraseBeforeWrite
  rw [if_neg hsize]
  dsimp only
  generalize otaEraseLoop (offset + piece.length) _ core = r at hnone hw ⊢
  have hlen := hw.length
  obtain ⟨hok,hres⟩ := snfOtaAdapterIssue_willing (.write offset piece) hw.results
    (by simpa [FlashOp.size] using hpos) (by simp only [FlashOp.offset, FlashOp.size]; omega)
  have hsucc := snfOtaAdapterIssue_succeeded hw.succeeded hok
  simp only [hnone, ne_eq, not_true_eq_false, if_false, snfOtaAdapterWrite, hok, Bool.not_true,
    Bool.false_eq_true]
  exact ⟨trivial, hres, hlen, hw.erased, hsucc⟩

/-- Behind the limit the guard of the erase loop fails the piece; no operation is issued. -/
theorem otaEraseAndWrite_beyond {offset : ℕ} {piece : List UInt8} {core : OtaCore G}
    (hnext : core.info.nextEraseOffset = otaEraseLimit)
    (hend : otaEraseLimit < offset + piece.length)
    (hsize : offset + piece.length ≤ uint32Max) :
    otaEraseAndWrite core offset piece = (.eraseFailed, core) := by
  have hguard : core.info.nextEraseOffset > uint32Max - snfOtaEraseSectorSize := by
    rw [hnext]
    decide
  have hopen : offset + piece.length > core.info.nextEraseOffset := hnext ▸ hend
  have hloop : otaEraseLoop (offset + piece.length)
    (offset + piece.length - core.info.nextEraseOffset) core =
      (.eraseFailed, core) := by
    obtain ⟨fuel,hfuel⟩ := Nat.exists_eq_add_of_lt hopen
    rw [show offset + piece.length - core.info.nextEraseOffset =
      fuel + 1 by omega, otaEraseLoop, if_pos hopen]
    dsimp only
    rw [if_pos hguard]
  have hfits : ¬piece.length > uint32Max - offset := by omega
  unfold otaEraseAndWrite otaEraseBeforeWrite
  rw [if_neg hfits]
  dsimp only
  rw [hloop]
  rfl

structure InContent (core : OtaCore G) (n : ℕ) : Prop where
  error : core.parser.error = .none
  stage : core.parser.stage = .image
  plain : core.parser.isGcm = false
  inside : core.parser.file.offset + core.parser.file.size ≤ core.parser.packageSize
  size : core.parser.packageSize < 4294967296
  offset : core.parser.offset = core.parser.file.offset + n

variable (sdk) in
/-- A piece that leaves some of the content is written as it is. -/
theorem otaHandlePackage_content {core : OtaCore G} {n : ℕ} (h : InContent core n) {x : List UInt8}
    (hx : x ≠ []) (hroom : n + x.length < core.parser.file.size) :
    ∃ parser : SnfOtaParseContext G, parser.file = core.parser.file ∧
      InContent (core.setParser parser) (n + x.length)
      ∧ otaHandlePackage sdk core x = some (otaEraseAndWrite (core.setParser parser) n x) := by
  have hpos := List.length_pos_iff.mpr hx
  have hin := h.inside
  have hsize := h.size
  have hoff := h.offset
  have hend : imageEndOf core.parser = core.parser.file.offset + core.parser.file.size := by
    simp only [imageEndOf, h.plain, Bool.false_eq_true, if_false]
    exact u32Add_eq (by omega)
  have htake : min (takeOf core.parser x.length) x.length = x.length := by
    simp only [takeOf, h.stage, hend]
    rw [u32Sub_eq (by omega) (by omega)]
    omega
  have hplace : u32Sub core.parser.offset core.parser.file.offset = n := by
    rw [u32Sub_eq (by omega) (by omega)]
    omega
  have hmoved : u32Add core.parser.offset x.length = core.parser.offset + x.length :=
    u32Add_eq (by omega)
  have hopen : core.parser.offset + x.length ≠ core.parser.file.offset + core.parser.file.size := by
    omega
  let parser := { core.parser with
    fileCrc := snfCrc32 sdk core.parser.fileCrc x, offset := core.parser.offset + x.length }
  have hcall : snfOtaParseData sdk core.parser x = ⟨parser, x.length, ⟨x, n⟩, .none⟩ := by
    have hfits : ¬x = [] ∧ ¬core.parser.packageSize = 0 ∧
      core.parser.offset ≤ core.parser.packageSize
        ∧ x.length ≤ core.parser.packageSize - core.parser.offset :=
          ⟨hx, by omega, by omega, by omega⟩
    simpa [snfOtaParseData, h.error, h.stage, htake, otaParsePayload, h.plain, hplace, hmoved, hend,
      SnfOtaPayload.size, otaAdvanceStage, headerSizeOf, hopen, parser] using hfits
  refine ⟨parser, rfl,
    ⟨h.error, h.stage, h.plain, hin, hsize, by simp only [OtaCore.setParser, parser]; omega⟩, ?_⟩
  have hne : (⟨x, n⟩ : SnfOtaPayload).size ≠ 0 := Nat.ne_of_gt hpos
  unfold otaHandlePackage otaHandlePackageLoop
  rw [if_neg hx, hcall]
  simp only [ne_eq, not_true_eq_false, if_false, writePayload, hne, not_false_eq_true, if_true,
    List.drop_length]
  split
  case isTrue => rfl
  case isFalse hok =>
    obtain ⟨rest,hrest⟩ := Nat.exists_eq_succ_of_ne_zero (Nat.ne_of_gt hpos)
    rw [hrest, otaHandlePackageLoop, if_pos rfl, ← not_not.mp hok]

theorem receivePackage_continue {core core' : OtaCore G} {data : List UInt8}
    (rest : List (List UInt8)) (h : otaHandlePackage sdk core data = some (.none, core')) :
    receivePackage sdk core (data :: rest) = receivePackage sdk core' rest := by
  simp [receivePackage, h]

theorem receivePackage_stop {core core' : OtaCore G} {data : List UInt8} {error : SnfOtaErrorCode}
    (rest : List (List UInt8)) (h : otaHandlePackage sdk core data = some (error, core'))
    (hne : error ≠ .none) : receivePackage sdk core (data :: rest) = some (error, core') := by
  simp [receivePackage, h, hne]

variable (sdk) in
/-- A piece of a willing session's content in front of the erase limit. -/
theorem otaHandlePackage_willing {core : OtaCore G} {n k m : ℕ} (h : InContent core n)
    (hw : Willing core k) {x : List UInt8} (hx : x ≠ [])
    (hroom : n + x.length < core.parser.file.size) (hk : k ≤ m)
    (hend : n + x.length ≤ 4096 * m) (hlast : 4096 * m < n + x.length + 4096)
    (hlimit : 4096 * m ≤ otaEraseLimit) :
    ∃ core', otaHandlePackage sdk core x = some (.none, core') ∧ InContent core' (n + x.length) ∧
      Willing core' m ∧ core'.parser.file = core.parser.file ∧
      core'.flash.written = core.flash.written ++ x.zipIdx n := by
  obtain ⟨parser,hfile,hin,hcall⟩ := otaHandlePackage_content sdk h hx hroom
  have hw' : Willing (core.setParser parser) k := ⟨hw.results, hw.length, hw.erased, hw.succeeded⟩
  obtain ⟨hok,hnext⟩ := otaEraseAndWrite_willing hw' hx hk hend hlast hlimit
  have hspec := otaEraseAndWrite_spec (core.setParser parser) n x
  rw [hcall]
  refine ⟨_, by rw [← hok], ?_, hnext, ?_, hspec.written hok⟩
  · exact ⟨hspec.frame.parser ▸ hin.error, hspec.frame.parser ▸ hin.stage,
      hspec.frame.parser ▸ hin.plain,
      hspec.frame.parser ▸ hin.inside, hspec.frame.parser ▸ hin.size,
        hspec.frame.parser ▸ hin.offset⟩
  · rw [hspec.frame.parser]
    exact hfile

variable (sdk) in
/-- A piece that reaches behind the limit fails; the partition stays as it is. -/
theorem otaHandlePackage_beyond {core : OtaCore G} {n : ℕ} (h : InContent core n)
    (hnext : core.info.nextEraseOffset = otaEraseLimit) {x : List UInt8} (hx : x ≠ [])
    (hroom : n + x.length < core.parser.file.size) (hend : otaEraseLimit < n + x.length) :
    ∃ core', otaHandlePackage sdk core x = some (.eraseFailed, core') ∧
      core'.flash = core.flash := by
  obtain ⟨parser,-,hin,hcall⟩ := otaHandlePackage_content sdk h hx hroom
  have hsize : n + x.length ≤ uint32Max := by
    have hlt := h.size
    have hinside := h.inside
    simp only [uint32Max]
    omega
  refine ⟨core.setParser parser, ?_, rfl⟩
  rw [hcall, otaEraseAndWrite_beyond (show (core.setParser parser).info.nextEraseOffset =
    _ from hnext) hend hsize]

variable (sdk) in
/-- The last byte in front of the limit is written when it comes alone, and is
lost with the byte behind it when both come in one piece. -/
theorem receivePackage_limit {core : OtaCore G} (h : InContent core 0) (hw : Willing core 0)
    {big : List UInt8} (hbig : big.length = otaEraseLimit - 1)
    (hsize : otaEraseLimit + 1 < core.parser.file.size) (a b : UInt8) :
    ∃ r₁ r₂, receivePackage sdk core [big, [a, b]] = some r₁ ∧
      receivePackage sdk core [big, [a], [b]] = some r₂
      ∧ r₁.2.flash.Succeeded ∧ r₂.2.flash.Succeeded
      ∧ r₂.2.flash.written = r₁.2.flash.written ++ [(a, otaEraseLimit - 1)] := by
  have hlimit : otaEraseLimit = 4294963200 := rfl
  have hne : big ≠ [] := List.ne_nil_of_length_pos (by omega)
  obtain ⟨c₁,hc₁,hin₁,hw₁,hf₁,hwr₁⟩ :=
    otaHandlePackage_willing sdk (m := 1048575) h hw hne (by omega)
    (by omega) (by omega) (by omega) (by omega)
  rw [Nat.zero_add, hbig] at hin₁
  obtain ⟨c₂,hc₂,hin₂,hw₂,hf₂,hwr₂⟩ := otaHandlePackage_willing sdk (m := 1048575) hin₁ hw₁
    (List.cons_ne_nil a []) (by rw [hf₁, List.length_singleton]; omega) (Nat.le_refl _)
    (by rw [List.length_singleton]; omega) (by rw [List.length_singleton]; omega) (by omega)
  obtain ⟨e₁,he₁,hflash₁⟩ := otaHandlePackage_beyond sdk hin₁ (by rw [hw₁.erased]; omega)
    (List.cons_ne_nil a [b]) (by rw [hf₁]; simp only [List.length_cons, List.length_nil]; omega)
    (by simp only [List.length_cons, List.length_nil]; omega)
  obtain ⟨e₂,he₂,hflash₂⟩ := otaHandlePackage_beyond sdk hin₂ (by rw [hw₂.erased]; omega)
    (List.cons_ne_nil b []) (by rw [hf₂, hf₁]; simp only [List.length_singleton]; omega)
    (by simp only [List.length_singleton]; omega)
  refine ⟨(.eraseFailed, e₁), (.eraseFailed, e₂), ?_, ?_, ?_, ?_, ?_⟩
  · rw [receivePackage_continue _ hc₁, receivePackage_stop _ he₁ (by decide)]
  · rw [receivePackage_continue _ hc₁, receivePackage_continue _ hc₂,
      receivePackage_stop _ he₂ (by decide)]
  · exact hflash₁ ▸ hw₁.succeeded
  · exact hflash₂ ▸ hw₂.succeeded
  · rw [hflash₂, hwr₂, hflash₁]
    rfl

def wideSession : OtaCore Unit :=
  packageSession .zero 4294963302 (some snfOtaDefaultFileName) 4294967295 ⟨4294967295, fun _ =>
    0xFF, [], []⟩

theorem wideSession_head :
    ∃ core, otaHandlePackage softSdk wideSession (plainHead 4294963202 0) = some (.none, core)
    ∧ InContent core 0 ∧ Willing core 0 ∧ core.parser.file.size = 4294963202 := by
  have hparser : (otaHandlePackage softSdk wideSession (plainHead 4294963202 0)).map (fun r =>
      ((r.2.parser.error, r.2.parser.stage, r.2.parser.isGcm), r.2.parser.file.offset,
        r.2.parser.file.size, r.2.parser.packageSize, r.2.parser.offset)) =
      some ((.none, .image, false), 100, 4294963202, 4294963302, 100) := by decide +kernel
  have hflash : (otaHandlePackage softSdk wideSession (plainHead 4294963202 0)).map (fun r =>
      (r.1, r.2.flash.results, r.2.flash.length, r.2.info.nextEraseOffset,
        decide r.2.flash.Succeeded)) =
      some (.none, [], 4294967295, 0, true) := by decide +kernel
  obtain ⟨⟨error,core⟩,hcall,hseen⟩ := Option.map_eq_some_iff.mp hparser
  rw [hcall] at hflash
  simp only [Option.map_some, Option.some.injEq, Prod.mk.injEq, decide_eq_true_eq] at hseen hflash
  obtain ⟨⟨herr,hstage,hplain⟩,hfile,hsize,hpackage,hoff⟩ := hseen
  obtain ⟨rfl,hres,hlen,hnext,hall⟩ := hflash
  refine ⟨core, hcall, ⟨herr, hstage, hplain, ?_, ?_, ?_⟩, ⟨hres, ?_, hnext, hall⟩, hsize⟩
  · rw [hfile, hsize, hpackage]
  · rw [hpackage]
    decide
  · rw [hoff, hfile]
  · rw [hlen]
    decide

/-- The content in front of the limit but its last byte, and two bytes more, in
one piece or in two: every flash operation succeeds, and one byte differs. -/
theorem receivePackage_chunk_dependent :
    ∃ r₁ r₂, receivePackage softSdk wideSession
        [plainHead 4294963202 0, List.replicate 4294963199 0, [0, 0]] = some r₁
      ∧ receivePackage softSdk wideSession
        [plainHead 4294963202 0, List.replicate 4294963199 0, [0], [0]] = some r₂
      ∧ r₁.2.flash.Succeeded ∧ r₂.2.flash.Succeeded ∧ r₁.2.flash.written ≠ r₂.2.flash.written := by
  obtain ⟨core,hcall,hin,hw,hsize⟩ := wideSession_head
  obtain ⟨r₁,r₂,hr₁,hr₂,hall₁,hall₂,hwr⟩ := receivePackage_limit softSdk hin hw
    (show (List.replicate 4294963199 0).length = otaEraseLimit - 1 from List.length_replicate)
    (by rw [hsize]; decide) 0 0
  refine ⟨r₁, r₂, ?_, ?_, hall₁, hall₂, ?_⟩
  · rw [receivePackage_continue _ hcall]
    exact hr₁
  · rw [receivePackage_continue _ hcall]
    exact hr₂
  · rw [hwr]
    simp

end Sonoff.Ota
