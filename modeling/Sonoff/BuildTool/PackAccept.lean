import Mathlib.Data.List.Nodup
import Sonoff.BuildTool.PackLayout
import Sonoff.Utils.SoftSdk

/-! # What the packaging script writes, the parser accepts

Every file of a written package is the one its name selects, with its plaintext.
-/
namespace Sonoff.PackOta
open Bytes AesGcm Ota OtaParse PackageFormat

variable {G : Type} {sdk : Sdk G} {lib : PyLib} {files : List PackFile} {key : Option (List UInt8)}

namespace PackParts

theorem byteAt_package (parts : PackParts lib files key) {i : ℕ} (hi : i < 24) :
    byteAt parts.package i = byteAt parts.head i := by
  rw [← parts.slice_head, PackageFormat.head, byteAt_slice hi, Nat.zero_add]

def headBody (parts : PackParts lib files key) : List UInt8 :=
  [UInt8.ofNat structVersion, UInt8.ofNat files.length] ++ parts.modelVersion
    ++ ([UInt8.ofNat (if key.isNone then 0 else 1)] ++ List.replicate 9 0)

theorem head_eq (parts : PackParts lib files key) :
    parts.head = parts.headBody ++ packBe32 (lib.crc32 parts.headBody) := rfl

theorem headBody_length (parts : PackParts lib files key) : parts.headBody.length = 20 := by
  simp [headBody, parts.modelLength]

theorem byteAt_count (parts : PackParts lib files key) :
    byteAt parts.package 1 = UInt8.ofNat files.length := by
  rw [parts.byteAt_package (by omega)]
  rfl

theorem byteAt_cipher (parts : PackParts lib files key) :
    byteAt parts.package 10 = UInt8.ofNat (if key.isNone then 0 else 1) := by
  have hl := parts.headBody_length
  rw [parts.byteAt_package (by omega), parts.head_eq, byteAt_append_left (by omega), headBody,
    byteAt_append_right (by simp [parts.modelLength])]
  simp [parts.modelLength, byteAt]

theorem fileCount_package (parts : PackParts lib files key) :
    fileCount parts.package = files.length := by
  have h := parts.count
  rw [fileCount, parts.byteAt_count, UInt8.toNat_ofNat', Nat.mod_eq_of_lt (by omega)]

theorem encrypted_package (parts : PackParts lib files key) :
    encrypted parts.package = key.isSome := by
  rw [encrypted, parts.byteAt_cipher]
  cases key <;> rfl

theorem overhead_package (parts : PackParts lib files key) :
    PackageFormat.overhead parts.package = if key.isSome then 28 else 0 := by
  rw [PackageFormat.overhead, parts.encrypted_package]

theorem head_valid (parts : PackParts lib files key) (hm : lib.Matches sdk) :
    HeadValid sdk parts.package := by
  have hl := parts.headBody_length
  have hcount := parts.count
  have hbe : be32 parts.package 20 = lib.crc32 parts.headBody := by
    have h₁ := @be32_slice parts.package 0 24 20 (by omega)
    have h₂ := be32_mid (hm.crc32_lt parts.headBody) parts.headBody []
    rw [hl, List.append_nil, ← parts.head_eq] at h₂
    rw [Nat.zero_add] at h₁
    rw [← h₁]
    exact (congrArg (fun x => be32 x 20) parts.slice_head).trans h₂
  have hbody : slice parts.package 0 20 = parts.headBody := by
    have h := @slice_slice parts.package 0 24 0 20 (by omega)
    rw [Nat.add_zero] at h
    rw [← h, show slice parts.package 0 24 = parts.head from parts.slice_head, parts.head_eq,
      slice_append_left (by omega), ← hl, slice_all]
  refine ⟨?_, ?_, ?_, ?_, ?_⟩
  · rw [parts.byteAt_package (by omega)]
    rfl
  · rw [hbe, hbody, hm.crc32]
  · rw [parts.byteAt_count]
    intro h
    have hz := congrArg UInt8.toNat h
    rw [UInt8.toNat_ofNat', Nat.mod_eq_of_lt (by omega), show (0 : UInt8).toNat = 0 from rfl] at hz
    omega
  · rw [parts.byteAt_package (by omega), parts.head_eq, byteAt_append_left (by omega)]
    have hm := parts.modelHead
    have hml := parts.modelLength
    rw [headBody, byteAt_append_left (by simp [hml]), byteAt_append_right (by simp)]
    exact hm
  · rw [parts.byteAt_cipher]
    cases key
    · exact Or.inl rfl
    · exact Or.inr rfl

/-- Everything the format says of the `k`-th entry, in terms of the `k`-th file. -/
structure FileEntry (sdk : Sdk G) (key : Option (List UInt8)) (files : List PackFile)
    (p : List UInt8) (k : ℕ) (file : PackFile) : Prop where
  offset : entryOffset p k = contentAt key files k
  size : entrySize p k = contentSize key file
  crc : entryCrc p k = crc32Of sdk file.plain
  attributesCrc : crc32Of sdk (slice p (entryStart k) 60) = entryAttributesCrc p k
  named : ∀ target, Named p target k ↔ encodeAscii file.name = .ok target
  nameHead : byteAt p (entryStart k) ≠ 0
  versionHead : byteAt p (entryStart k + 32) ≠ 0
  nonempty : file.plain ≠ []

theorem file_entry (parts : PackParts lib files key) (hm : lib.Matches sdk) {k : ℕ}
    {file : PackFile} (hk : files[k]? = some file) :
    FileEntry sdk key files parts.package k file := by
  obtain ⟨entry,content,name,version,he,_,hn,hv,hp,hf⟩ := parts.entry_fields hm hk
  have hslice := parts.slice_entry hm he hf.length
  have hbe : ∀ i, i + 4 ≤ 76 → be32 parts.package (entryStart k + i) = be32 entry i := by
    intro i hi
    rw [← hslice]
    exact (be32_slice hi).symm
  have hbyte : ∀ i, i < 76 → byteAt parts.package (entryStart k + i) = byteAt entry i := by
    intro i hi
    rw [← hslice]
    exact (byteAt_slice hi).symm
  have hsub : ∀ i n, i + n ≤ 76 → slice parts.package (entryStart k + i) n = slice entry i n := by
    intro i n hi
    rw [← hslice]
    exact (slice_slice hi).symm
  have h0 := hbyte 0 (by omega)
  have hs32 := hsub 0 32 (by omega)
  have hs60 := hsub 0 60 (by omega)
  rw [Nat.add_zero] at h0 hs32 hs60
  refine ⟨(hbe 48 (by omega)).trans hf.offsetField, (hbe 52 (by omega)).trans hf.sizeField,
    (hbe 56 (by omega)).trans hf.crc, ?_, ?_, ?_, ?_, hp.nonempty⟩
  · rw [hs60, entryAttributesCrc, hbe 60 (by omega), hf.attributesCrc]
  · intro target
    have hstr : cString (entryName parts.package k) = name := by
      rw [entryName, hs32, hf.nameSlice, padded, cString_append_zeros hn.printable]
    rw [Named, hstr, hn.ascii]
    exact ⟨fun h => congrArg Except.ok h, fun h => Except.ok.inj h⟩
  · rw [h0, hf.nameHead]
    exact hn.field_head
  · rw [hbyte 32 (by omega), hf.versionHead]
    exact hv.field_head

theorem sizeBefore_succ {k : ℕ} {file : PackFile} (hk : files[k]? = some file) :
    sizeBefore key files (k + 1) = sizeBefore key files k + contentSize key file := by
  simp only [sizeBefore]
  rw [List.take_add_one, hk, List.map_append, List.sum_append]
  simp

theorem entry_valid (parts : PackParts lib files key) (hm : lib.Matches sdk) {k : ℕ}
    (hk : k < files.length) : EntryValid sdk parts.package k := by
  have hget : files[k]? = some files[k] := List.getElem?_eq_getElem hk
  have hf := parts.file_entry hm hget
  obtain ⟨_,content,_,_,_,hc,_,_,hp,_⟩ := parts.entry_fields hm hget
  have hcl : content.length = contentSize key files[k] := by
    rw [hp.payload, packContent_length hm parts.keyLength]
  have hpos := List.length_pos_iff.mpr hf.nonempty
  refine ⟨hf.attributesCrc, hf.nameHead, hf.versionHead, ?_, ?_, ?_⟩
  · rw [parts.overhead_package, hf.size]
    simp only [contentSize, PackOta.ivSize, tagSize]
    split <;> omega
  · rw [hf.offset]
    cases k with
    | zero =>
      rw [PackageFormat.previousEnd, PackageFormat.tableEnd, parts.fileCount_package, contentAt]
      omega
    | succ k =>
      have hprev : files[k]? = some files[k] := List.getElem?_eq_getElem (by omega)
      have hfp := parts.file_entry hm hprev
      rw [PackageFormat.previousEnd, hfp.offset, hfp.size, contentAt, contentAt,
        sizeBefore_succ hprev]
      omega
  · rw [hf.offset, hf.size, ← hcl]
    exact (parts.slice_content hm hc).2

theorem plaintext_package (parts : PackParts lib files key) (hm : lib.Matches sdk)
    (hkey : ∀ k, key = some k → k = sdk.otaAesKey) {k : ℕ} {file : PackFile}
    (hk : files[k]? = some file) : Plaintext sdk parts.package k file.plain := by
  have hf := parts.file_entry hm hk
  obtain ⟨entry,content,_,_,he,hc,_,_,hp,hef⟩ := parts.entry_fields hm hk
  have hslice := (parts.slice_content hm hc).1
  have hcl : content.length = contentSize key file := by
    rw [hp.payload, packContent_length hm parts.keyLength]
  rw [hcl] at hslice
  rw [Plaintext, parts.encrypted_package, hf.offset, hf.size, parts.slice_head,
    parts.slice_entry hm he hef.length]
  have hpay := hp.payload
  cases key with
  | none =>
    rw [if_neg (by simp), hslice, hpay]
    rfl
  | some key =>
    simp only [Option.isSome_some, if_true]
    have hk' := hkey key rfl
    obtain ⟨cipher,tag,henc,hcipher,htag,hopen⟩ := hm.encrypt key (lib.tokenBytes k) file.plain
      (parts.head ++ entry) (parts.keyLength key rfl) (hm.tokenBytes k)
    have hiv := hm.tokenBytes k
    have hbytes : content = lib.tokenBytes k ++ (cipher ++ tag) := by
      rw [hpay, ← henc]
      rfl
    have hsz : contentSize (some key) file = 12 + (cipher.length + 16) := by
      rw [← hcl, hbytes, List.length_append, List.length_append, hiv, htag]
    obtain ⟨start,hstart⟩ : ∃ n, contentAt (some key) files k = n := ⟨_, rfl⟩
    rw [hsz, hstart] at hslice ⊢
    have hcut : ∀ i n, i + n ≤ 12 + (cipher.length + 16) →
        slice parts.package (start + i) n = slice content i n := by
      intro i n hi
      rw [← hslice]
      exact (slice_slice hi).symm
    have h₁ : slice parts.package start 12 = lib.tokenBytes k := by
      have h := hcut 0 12 (by omega)
      rw [Nat.add_zero] at h
      rw [h, hbytes, slice_append_left (by omega), ← hiv, slice_all]
    have h₂ : slice parts.package (start + 12) (12 + (cipher.length + 16) - 28) = cipher := by
      rw [hcut 12 _ (by omega), hbytes, slice_append_right (by omega), hiv, Nat.sub_self,
        slice_append_left (by omega),
          show 12 + (cipher.length + 16) - 28 = cipher.length by omega, slice_all]
    have h₃ : slice parts.package (start + (12 + (cipher.length + 16)) - 16) 16 = tag := by
      rw [show start + (12 + (cipher.length + 16)) - 16 =
        start + (12 + cipher.length) by omega, hcut _ _ (by omega),
        hbytes, slice_append_right (by omega), slice_append_right (by omega), hiv,
        show 12 + cipher.length - 12 - cipher.length = 0 by omega, ← htag, slice_all]
    rw [h₁, h₂, h₃, ← hk']
    exact hopen

/-- Every file of a written package is selected by its name. -/
theorem selects (parts : PackParts lib files key) (hm : lib.Matches sdk)
    (hkey : ∀ k, key = some k → k = sdk.otaAesKey) {i : ℕ} {file : PackFile}
    (hi : files[i]? = some file) {name : List UInt8} (hname : encodeAscii file.name = .ok name)
    {flashSize : ℕ} (hfits : file.plain.length ≤ flashSize) :
    Selects sdk parts.package name flashSize i file.plain := by
  obtain ⟨hlt,hget⟩ := List.getElem?_eq_some_iff.mp hi
  have hf := parts.file_entry hm hi
  have hlen := parts.package_length hm
  refine ⟨parts.head_valid hm, ?_, ?_, ?_, ?_, ?_, parts.plaintext_package hm hkey hi, hf.crc.symm⟩
  · rw [PackageFormat.tableEnd, parts.fileCount_package]
    omega
  · rw [parts.fileCount_package]
    exact fun j hj => parts.entry_valid hm hj
  · rwa [parts.fileCount_package]
  · rw [parts.fileCount_package]
    intro j hj
    have hgetj : files[j]? = some files[j] := List.getElem?_eq_getElem hj
    rw [(parts.file_entry hm hgetj).named name]
    refine ⟨fun h => ?_, ?_⟩
    · have hsame := encodeAscii_inj h (hget ▸ hname)
      exact (@List.Nodup.getElem_inj_iff _ _ parts.distinct j (by simpa using hj) i
        (by simpa using hlt)).mp (by simpa using hsame)
    · rintro rfl
      exact hget ▸ hname
  · rw [hf.size, parts.overhead_package]
    simp only [contentSize, PackOta.ivSize, tagSize]
    split <;> omega

end PackParts

def payloadBytes (payloads : List SnfOtaPayload) : List UInt8 := payloads.flatMap SnfOtaPayload.data

theorem payloadBytes_of_placed {payloads : List SnfOtaPayload} {plain : List UInt8}
    (h : placedOf payloads = plain.zipIdx 0) : payloadBytes payloads = plain := by
  have hm : (placedOf payloads).map Prod.fst = payloadBytes payloads := by
    simp [placedOf, payloadBytes, List.map_flatMap, SnfOtaPayload.placed]
  rw [← hm, h]
  simp

structure Packable (files : List PackFile) (modelVersion : List Char) (key : Option (List UInt8)) :
    Prop where
  count : 1 ≤ files.length ∧ files.length ≤ 255
  distinct : (files.map PackFile.name).Nodup
  model : ∃ x, encodeString modelVersion 8 = .ok x
  name : ∀ f ∈ files, ∃ x, encodeString f.name 32 = .ok x
  version : ∀ f ∈ files, ∃ x, encodeString f.version 16 = .ok x
  keyLength : ∀ k, key = some k → k.length = 32
  plain : ∀ f ∈ files, f.plain ≠ []
  size : 24 + 76 * files.length + (files.map (contentSize key)).sum < 4294967296

theorem packFiles_total {modelVersion : List Char} (h : Packable files modelVersion key) :
    ∃ p, packFiles lib files modelVersion key = .ok p := by
  obtain ⟨mv,hmv⟩ := h.model
  obtain ⟨r,hr⟩ := @packLoop_total lib key
    (packHead lib files.length mv (if key.isNone then 0 else 1)) files 0
    (headSize + fileSize * files.length) h.plain h.name h.version h.size
  have hk : ¬(key.any (fun key => key.length ≠ keySize)) = true := by
    cases key with
    | none => simp
    | some k => simp [keySize, h.keyLength k rfl]
  unfold packFiles
  rw [if_neg (not_not.mpr h.count), if_neg (not_not.mpr h.distinct), if_neg hk, hmv]
  dsimp only
  rw [hr]
  exact ⟨_, rfl⟩

/-- Packaging and parsing agree: every packable list of files is packed, and
with the same key each file is found by its name and comes out as it went in,
however the package is cut. -/
theorem parse_packFiles (hinc : sdk.Incremental) (hm : lib.Matches sdk) {modelVersion : List Char}
    (h : Packable files modelVersion key) (hkey : ∀ k, key = some k → k = sdk.otaAesKey) :
    ∃ p, packFiles lib files modelVersion key = .ok p ∧ p.length < 4294967296 ∧
      ∀ (i : ℕ) (file : PackFile), files[i]? = some file →
        ∀ flashSize, file.plain.length ≤ flashSize →
        ∀ chunks : List (List UInt8), chunks.flatten = p →
          ∃ name payloads, encodeAscii file.name = .ok name
            ∧ parsePackage sdk p.length (some (nameField name)) flashSize chunks =
              some (.none, payloads)
            ∧ payloadBytes payloads = file.plain := by
  obtain ⟨p,hp⟩ := @packFiles_total lib _ _ _ h
  obtain ⟨parts,rfl⟩ := packFiles_parts hp
  have hlen := parts.package_length hm
  have hsize := h.size
  refine ⟨parts.package, hp, by omega, fun i file hi flashSize hfits chunks hcut => ?_⟩
  obtain ⟨field,hfield⟩ := h.name file (List.mem_of_getElem? hi)
  obtain ⟨name,henc,_⟩ := encodeString_ok hfield
  have hsel := parts.selects hm hkey hi henc.ascii hfits
  obtain ⟨error,payloads,hparse,hiff,hemit⟩ :=
    parsePackage_spec hinc (by omega) henc.nonempty henc.printable henc.fits
    flashSize hcut
  refine ⟨name, payloads, henc.ascii, ?_, payloadBytes_of_placed (hemit i file.plain hsel)⟩
  rw [hparse, hiff.mpr ⟨i,file.plain,hsel⟩]

def softLib : PyLib where
  crc32 := crc32Of softSdk
  encrypt := fun _ _ plain _ => plain ++ List.replicate 16 0
  tokenBytes := fun _ => List.replicate 12 0

theorem softLib_matches : softLib.Matches softSdk where
  crc32 := fun _ => rfl
  tokenBytes := fun _ => rfl
  encrypt := fun _ _ plain _ _ _ =>
    ⟨plain, List.replicate 16 0, rfl, rfl, rfl, rfl, (), (), (), rfl, rfl, rfl, rfl⟩

/-- Two files, the second with the default target name. -/
def twoFiles : List PackFile :=
  [⟨"boot".toList, "1".toList, [5, 6]⟩, ⟨"ota.bin".toList, "1.0.2".toList, [7, 8, 9]⟩]

theorem twoFiles_packable : Packable twoFiles "M1".toList none where
  count := by decide
  distinct := by decide
  model := ⟨_, rfl⟩
  name := by
    simp only [twoFiles, List.forall_mem_cons]
    exact ⟨⟨_, rfl⟩, ⟨_, rfl⟩, nofun⟩
  version := by
    simp only [twoFiles, List.forall_mem_cons]
    exact ⟨⟨_, rfl⟩, ⟨_, rfl⟩, nofun⟩
  keyLength := nofun
  plain := by decide
  size := by decide

theorem parse_packFiles_twoFiles :
    ∃ p, packFiles softLib twoFiles "M1".toList none = .ok p ∧ p.length < 4294967296 ∧
      ∀ (i : ℕ) (file : PackFile), twoFiles[i]? = some file →
        ∀ flashSize, file.plain.length ≤ flashSize →
        ∀ chunks : List (List UInt8), chunks.flatten = p →
          ∃ name payloads, encodeAscii file.name = .ok name
            ∧ parsePackage softSdk p.length (some (nameField name)) flashSize chunks =
              some (.none, payloads)
            ∧ payloadBytes payloads = file.plain :=
  parse_packFiles softSdk_incremental softLib_matches twoFiles_packable nofun

end Sonoff.PackOta
