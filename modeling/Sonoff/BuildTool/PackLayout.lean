import Sonoff.BuildTool.PackOta
import Sonoff.Ota.PackageAccept

/-! # The layout of a written package

The fields of head and entries read back, and where each entry and each content
stands.
-/
namespace Sonoff.PackOta
open Bytes AesGcm Ota OtaParse PackageFormat

variable {G : Type} {sdk : Sdk G} {lib : PyLib}

/-- The script's libraries against the firmware's: one CRC32, fresh 12-byte
tokens, and a GCM encryption that the firmware's decryption inverts. -/
structure PyLib.Matches (lib : PyLib) (sdk : Sdk G) : Prop where
  crc32 : ∀ data, lib.crc32 data = crc32Of sdk data
  tokenBytes : ∀ n, (lib.tokenBytes n).length = 12
  encrypt : ∀ key iv plain authData, key.length = 32 → iv.length = 12 →
    ∃ cipher tag, lib.encrypt key iv plain authData = cipher ++ tag ∧ cipher.length = plain.length
      ∧ tag.length = 16 ∧ sdk.Opens key iv authData cipher tag plain

theorem PyLib.Matches.crc32_lt (h : lib.Matches sdk) (data : List UInt8) :
    lib.crc32 data < 4294967296 := by
  rw [h.crc32]
  exact UInt32.toNat_lt _

/-- A string the script accepts for a field, as the bytes of that field. -/
structure Encodes (value : List Char) (size : ℕ) (encoded : List UInt8) : Prop where
  ascii : encodeAscii value = .ok encoded
  nonempty : encoded ≠ []
  fits : encoded.length ≤ size
  printable : ∀ b ∈ encoded, b ≠ 0

theorem encodeString_ok {value : List Char} {size : ℕ} {field : List UInt8}
    (h : encodeString value size = .ok field) : ∃ encoded, Encodes value size encoded
      ∧ field = encoded ++ List.replicate (size - encoded.length) 0 := by
  unfold encodeString at h
  split at h
  · cases h
  case h_2 encoded ha =>
    split at h
    case isTrue => cases h
    case isFalse hcheck =>
      cases h
      simp only [not_or, List.any_eq_true, not_exists, not_and, Bool.or_eq_true,
        decide_eq_true_eq] at hcheck
      refine ⟨encoded, ⟨ha, hcheck.1, Nat.le_of_not_lt hcheck.2.1, ?_⟩, rfl⟩
      rintro b hb rfl
      exact absurd (hcheck.2.2 0 hb).1 (by decide)

theorem Encodes.field_length {value : List Char} {size : ℕ} {encoded : List UInt8}
    (h : Encodes value size encoded) :
    (encoded ++ List.replicate (size - encoded.length) 0).length = size := by
  have := h.fits
  simp only [List.length_append, List.length_replicate]
  omega

theorem Encodes.field_head {value : List Char} {size : ℕ} {encoded : List UInt8}
    (h : Encodes value size encoded) :
    byteAt (encoded ++ List.replicate (size - encoded.length) 0) 0 ≠ 0 := by
  have hne := h.nonempty
  cases encoded with
  | nil => exact absurd rfl hne
  | cons b bs =>
    have hb := h.printable b List.mem_cons_self
    simpa [byteAt] using hb

/-- ASCII encoding is injective where it succeeds. -/
theorem encodeAscii_inj {left right : List Char} {encoded : List UInt8}
    (hl : encodeAscii left = .ok encoded)
    (hr : encodeAscii right = .ok encoded) : left = right := by
  unfold encodeAscii at hl hr
  split at hl
  case isTrue => cases hl
  case isFalse hla =>
    split at hr
    case isTrue => cases hr
    case isFalse hra =>
      have heq := (Except.ok.inj hl).trans (Except.ok.inj hr).symm
      simp only [List.any_eq_true, decide_eq_true_eq, not_exists, not_and, Nat.not_le] at hla hra
      clear hl hr
      induction left generalizing right with
      | nil =>
        cases right with
        | nil => rfl
        | cons c cs => simp at heq
      | cons c cs ih =>
        cases right with
        | nil => simp at heq
        | cons d ds =>
          simp only [List.map_cons, List.cons.injEq] at heq
          have hc := hla c List.mem_cons_self
          have hd := hra d List.mem_cons_self
          have hcd : c.toNat = d.toNat := by
            have := congrArg UInt8.toNat heq.1
            simpa [Nat.mod_eq_of_lt (show c.toNat < 256 by omega),
              Nat.mod_eq_of_lt (show d.toNat < 256 by omega)] using this
          rw [Char.toNat_inj.mp hcd, ih heq.2 (fun x hx => hla x (List.mem_cons_of_mem _ hx))
            (fun x hx => hra x (List.mem_cons_of_mem _ hx))]

structure EntryFields (sdk : Sdk G) (name version : List UInt8) (offset size : ℕ)
    (plain entry : List UInt8) : Prop where
  length : entry.length = 76
  nameSlice : slice entry 0 32 = name
  nameHead : byteAt entry 0 = byteAt name 0
  versionHead : byteAt entry 32 = byteAt version 0
  offsetField : be32 entry 48 = offset
  sizeField : be32 entry 52 = size
  crc : be32 entry 56 = crc32Of sdk plain
  attributesCrc : be32 entry 60 = crc32Of sdk (slice entry 0 60)

theorem packEntry_fields (hm : lib.Matches sdk) {name version : List UInt8} (hn : name.length = 32)
    (hv : version.length = 16) {offset size : ℕ} (ho : offset < 4294967296) (hs : size < 4294967296)
    (plain : List UInt8) :
    EntryFields sdk name version offset size plain
      (packEntry lib name version offset size plain) := by
  have hc := hm.crc32_lt plain
  obtain ⟨pre,hpre⟩ :
      ∃ pre, name ++ version ++ (packBe32 offset ++ packBe32 size ++ packBe32 (lib.crc32 plain)) =
      pre :=
    ⟨_, rfl⟩
  have hc' := hm.crc32_lt pre
  have hl : pre.length = 60 := by
    rw [← hpre]
    simp [hn, hv]
  have hentry : packEntry lib name version offset size plain =
      pre ++ (packBe32 (lib.crc32 pre) ++ List.replicate 12 0) := by
    rw [← hpre]
    rfl
  have h60 : slice (packEntry lib name version offset size plain) 0 60 = pre := by
    rw [hentry, slice_append_left (by omega), ← hl, slice_all]
  have hname : packEntry lib name version offset size plain =
      name ++ (version ++ (packBe32 offset ++ packBe32 size ++ packBe32 (lib.crc32 plain))
        ++ (packBe32 (lib.crc32 pre) ++ List.replicate 12 0)) := by
    rw [hentry, ← hpre]
    simp
  refine ⟨?_, ?_, ?_, ?_, ?_, ?_, ?_, ?_⟩
  · rw [hentry]
    simp [hl]
  · rw [hname, slice_append_left (by omega), ← hn, slice_all]
  · rw [hname, byteAt_append_left (by omega)]
  · rw [hname, byteAt_append_right (by omega), hn, Nat.sub_self, List.append_assoc,
      byteAt_append_left (by omega)]
  · have h := be32_mid ho (name ++ version)
      (packBe32 size ++ packBe32 (lib.crc32 plain) ++
        (packBe32 (lib.crc32 pre) ++ List.replicate 12 0))
    rw [List.length_append, hn, hv] at h
    rw [hname]
    simpa using h
  · have h := be32_mid hs (name ++ version ++ packBe32 offset)
      (packBe32 (lib.crc32 plain) ++ (packBe32 (lib.crc32 pre) ++ List.replicate 12 0))
    rw [List.length_append, List.length_append, hn, hv, packBe32_length] at h
    rw [hname]
    simpa using h
  · have h := be32_mid hc (name ++ version ++ packBe32 offset ++ packBe32 size)
      (packBe32 (lib.crc32 pre) ++ List.replicate 12 0)
    rw [List.length_append, List.length_append, List.length_append, hn, hv, packBe32_length,
      packBe32_length] at h
    rw [hname, ← hm.crc32 plain]
    simpa using h
  · have h := be32_mid hc' pre (List.replicate 12 0)
    rw [hl] at h
    rw [h60, ← hm.crc32 pre, hentry]
    simpa using h

def padded (encoded : List UInt8) (size : ℕ) :
    List UInt8 := encoded ++ List.replicate (size - encoded.length) 0

structure PackedAt (lib : PyLib) (key : Option (List UInt8)) (head : List UInt8) (file : PackFile)
    (n offset : ℕ) (entry content : List UInt8) : Prop where
  nonempty : file.plain ≠ []
  bound : offset + contentSize key file < 4294967296
  fields : ∃ name version, Encodes file.name 32 name ∧ Encodes file.version 16 version
    ∧ entry = packEntry lib (padded name 32) (padded version 16) offset (contentSize key file)
      file.plain
  payload : content = packContent lib key n file.plain (head ++ entry)

def sizeBefore (key : Option (List UInt8)) (files : List PackFile) (k : ℕ) : ℕ :=
  ((files.take k).map (contentSize key)).sum

/-- One file of a run that succeeds. -/
theorem packLoop_cons_ok {key : Option (List UInt8)} {head : List UInt8} {file : PackFile}
    {files : List PackFile} {n offset : ℕ} {entries contents : List (List UInt8)}
    (h : packLoop lib key head (file :: files) n offset = .ok (entries, contents)) :
    file.plain ≠ [] ∧ offset + contentSize key file < 4294967296 ∧ ∃ name version es cs,
      encodeString file.name 32 = .ok name ∧ encodeString file.version 16 = .ok version ∧
      packLoop lib key head files (n + 1) (offset + contentSize key file) = .ok (es, cs) ∧
      entries = packEntry lib name version offset (contentSize key file) file.plain :: es ∧
      contents = packContent lib key n file.plain
        (head ++ packEntry lib name version offset (contentSize key file) file.plain) :: cs := by
  unfold packLoop at h
  by_cases hplain : file.plain = []
  · rw [if_pos hplain] at h
    cases h
  by_cases hsize : offset + contentSize key file > 0xffffffff
  · simp only [if_neg hplain, if_pos hsize] at h
    cases h
  simp only [if_neg hplain, if_neg hsize] at h
  cases hname : encodeString file.name 32 with
  | error e =>
    rw [hname] at h
    cases h
  | ok name =>
    cases hversion : encodeString file.version 16 with
    | error e =>
      rw [hname, hversion] at h
      cases h
    | ok version =>
      simp only [hname, hversion] at h
      cases hrest : packLoop lib key head files (n + 1) (offset + contentSize key file) with
      | error e =>
        rw [hrest] at h
        cases h
      | ok rest =>
        rw [hrest] at h
        cases h
        exact ⟨hplain, by omega, name, version, _, _, rfl, rfl, rfl, rfl, rfl⟩

theorem packLoop_ok {key : Option (List UInt8)} {head : List UInt8} {files : List PackFile}
    {n offset : ℕ} {entries contents : List (List UInt8)}
    (h : packLoop lib key head files n offset = .ok (entries, contents)) :
    entries.length = files.length ∧ contents.length = files.length ∧
      ∀ k file, files[k]? = some file →
      ∃ entry content, entries[k]? = some entry ∧ contents[k]? = some content
        ∧ PackedAt lib key head file (n + k) (offset + sizeBefore key files k) entry content := by
  induction files generalizing n offset entries contents with
  | nil =>
    cases h
    exact ⟨rfl, rfl, fun k file hk => by simp at hk⟩
  | cons file files ih =>
    unfold packLoop at h
    obtain ⟨hplain,hsize,name,version,es,cs,hname,hversion,hrest,rfl,rfl⟩ := packLoop_cons_ok h
    obtain ⟨hl₁,hl₂,hall⟩ := ih hrest
    refine ⟨by simp [hl₁], by simp [hl₂], fun k f hk => ?_⟩
    cases k with
    | zero =>
      cases hk
      obtain ⟨name',hn,rfl⟩ := encodeString_ok hname
      obtain ⟨version',hv,rfl⟩ := encodeString_ok hversion
      exact ⟨_, _, rfl, rfl, hplain, by simp only [sizeBefore]; simp; omega,
        ⟨name',version',hn,hv,by simp [sizeBefore, padded]⟩, rfl⟩
    | succ k =>
      obtain ⟨entry,content,he,hc,hp⟩ := hall k f hk
      refine ⟨entry, content, he, hc, ?_⟩
      have hoff : offset + sizeBefore key (file :: files) (k + 1) =
          offset + contentSize key file + sizeBefore key files k := by
        simp only [sizeBefore, List.take_succ_cons, List.map_cons, List.sum_cons]
        omega
      rw [hoff, show n + (k + 1) = n + 1 + k by omega]
      exact hp

/-- The loop fails on no acceptable list of files. -/
theorem packLoop_total {key : Option (List UInt8)} {head : List UInt8} {files : List PackFile}
    {n offset : ℕ} (hplain : ∀ f ∈ files, f.plain ≠ [])
    (hname : ∀ f ∈ files, ∃ x, encodeString f.name 32 = .ok x)
    (hversion : ∀ f ∈ files, ∃ x, encodeString f.version 16 = .ok x)
    (hsize : offset + (files.map (contentSize key)).sum < 4294967296) :
    ∃ r, packLoop lib key head files n offset = .ok r := by
  induction files generalizing n offset with
  | nil => exact ⟨_, rfl⟩
  | cons file files ih =>
    rw [List.map_cons, List.sum_cons] at hsize
    obtain ⟨x,hx⟩ := hname file List.mem_cons_self
    obtain ⟨y,hy⟩ := hversion file List.mem_cons_self
    obtain ⟨r,hr⟩ := @ih (n + 1) (offset + contentSize key file) (fun f hf =>
      hplain f (List.mem_cons_of_mem _ hf))
      (fun f hf => hname f (List.mem_cons_of_mem _ hf)) (fun f hf =>
        hversion f (List.mem_cons_of_mem _ hf)) (by omega)
    unfold packLoop
    rw [if_neg (hplain file List.mem_cons_self)]
    dsimp only
    rw [if_neg (by omega), hx, hy]
    dsimp only
    rw [hr]
    exact ⟨_, rfl⟩

structure PackParts (lib : PyLib) (files : List PackFile) (key : Option (List UInt8)) where
  modelVersion : List UInt8
  entries : List (List UInt8)
  contents : List (List UInt8)
  count : 1 ≤ files.length ∧ files.length ≤ 255
  distinct : (files.map PackFile.name).Nodup
  keyLength : ∀ k, key = some k → k.length = 32
  modelLength : modelVersion.length = 8
  modelHead : byteAt modelVersion 0 ≠ 0
  entriesLength : entries.length = files.length
  contentsLength : contents.length = files.length
  packed : ∀ k file, files[k]? = some file → ∃ entry content, entries[k]? = some entry ∧
    contents[k]? = some content ∧
    PackedAt lib key (packHead lib files.length modelVersion (if key.isNone then 0 else 1)) file k
      (24 + 76 * files.length + sizeBefore key files k) entry content

namespace PackParts
variable {files : List PackFile} {key : Option (List UInt8)}

def head (parts : PackParts lib files key) : List UInt8 :=
  packHead lib files.length parts.modelVersion (if key.isNone then 0 else 1)

def package (parts : PackParts lib files key) : List UInt8 :=
  parts.head ++ parts.entries.flatten ++ parts.contents.flatten

end PackParts

theorem packFiles_parts {files : List PackFile} {modelVersion : List Char}
    {key : Option (List UInt8)} {p : List UInt8}
    (h : packFiles lib files modelVersion key = .ok p) :
    ∃ parts : PackParts lib files key, p = parts.package := by
  unfold packFiles at h
  by_cases hcount : ¬(1 ≤ files.length ∧ files.length ≤ 255)
  · rw [if_pos hcount] at h
    cases h
  rw [if_neg hcount] at h
  by_cases hdistinct : ¬(files.map PackFile.name).Nodup
  · rw [if_pos hdistinct] at h
    cases h
  rw [if_neg hdistinct] at h
  by_cases hkey : key.any (fun key => key.length ≠ keySize)
  · rw [if_pos hkey] at h
    cases h
  rw [if_neg hkey] at h
  dsimp only at h
  split at h
  case h_1 => cases h
  case h_2 mv hmv =>
    split at h
    case h_1 => cases h
    case h_2 entries contents hloop =>
      cases h
      obtain ⟨encoded,henc,rfl⟩ := encodeString_ok hmv
      obtain ⟨hl₁,hl₂,hall⟩ := packLoop_ok hloop
      refine ⟨⟨_, entries, contents, not_not.mp hcount, not_not.mp hdistinct, ?_, henc.field_length,
        henc.field_head, hl₁, hl₂, ?_⟩, rfl⟩
      · rintro k rfl
        by_contra hne
        exact hkey (by simp [keySize, hne])
      · intro k file hk
        obtain ⟨entry,content,he,hc,hp⟩ := hall k file hk
        exact ⟨entry, content, he, hc, by simpa [headSize, fileSize] using hp⟩

theorem packContent_length (hm : lib.Matches sdk) {key : Option (List UInt8)}
    (hk : ∀ k, key = some k → k.length = 32) (n : ℕ) (file : PackFile) (authData : List UInt8) :
    (packContent lib key n file.plain authData).length = contentSize key file := by
  cases key with
  | none => rfl
  | some key =>
    obtain ⟨cipher,tag,he,hc,ht,_⟩ :=
      hm.encrypt key (lib.tokenBytes n) file.plain authData (hk key rfl) (hm.tokenBytes n)
    simp only [packContent, List.length_append, hm.tokenBytes, he, hc, ht, contentSize,
      Option.isSome_some, if_true, ivSize, tagSize]
    omega

namespace PackParts
variable {files : List PackFile} {key : Option (List UInt8)}

def contentAt (key : Option (List UInt8)) (files : List PackFile) (k : ℕ) : ℕ :=
  24 + 76 * files.length + sizeBefore key files k

theorem head_length (parts : PackParts lib files key) : parts.head.length = 24 := by
  simp [head, packHead, parts.modelLength]

theorem entry_fields (parts : PackParts lib files key) (hm : lib.Matches sdk) {k : ℕ}
    {file : PackFile} (hk : files[k]? = some file) :
    ∃ entry content name version, parts.entries[k]? = some entry
      ∧ parts.contents[k]? = some content ∧ Encodes file.name 32 name ∧
        Encodes file.version 16 version
      ∧ PackedAt lib key parts.head file k (contentAt key files k) entry content
      ∧ EntryFields sdk (padded name 32) (padded version 16) (contentAt key files k)
        (contentSize key file)
        file.plain entry := by
  obtain ⟨entry,content,he,hc,hp⟩ := parts.packed k file hk
  obtain ⟨name,version,hn,hv,hentry⟩ := hp.fields
  have hb := hp.bound
  refine ⟨entry, content, name, version, he, hc, hn, hv, hp, ?_⟩
  rw [hentry]
  exact packEntry_fields hm hn.field_length hv.field_length (by simp only [contentAt]; omega)
    (by omega) file.plain

theorem entries_lengths (parts : PackParts lib files key) (hm : lib.Matches sdk) :
    parts.entries.map List.length = List.replicate files.length 76 := by
  refine List.ext_getElem? fun k => ?_
  rw [List.getElem?_map, List.getElem?_replicate]
  cases hk : files[k]? with
  | none =>
    have hn := List.getElem?_eq_none_iff.mp hk
    rw [List.getElem?_eq_none (by rw [parts.entriesLength]; exact hn), if_neg (by omega)]
    rfl
  | some file =>
    obtain ⟨entry,_,_,_,he,_,_,_,_,hf⟩ := parts.entry_fields hm hk
    have hlt := (List.getElem?_eq_some_iff.mp hk).1
    rw [he, if_pos hlt, Option.map_some, hf.length]

theorem contents_lengths (parts : PackParts lib files key) (hm : lib.Matches sdk) :
    parts.contents.map List.length = files.map (contentSize key) := by
  refine List.ext_getElem? fun k => ?_
  rw [List.getElem?_map, List.getElem?_map]
  cases hk : files[k]? with
  | none =>
    have hn := List.getElem?_eq_none_iff.mp hk
    rw [List.getElem?_eq_none (by rw [parts.contentsLength]; exact hn)]
    rfl
  | some file =>
    obtain ⟨_,content,_,_,_,hc,_,_,hp,_⟩ := parts.entry_fields hm hk
    rw [hc, Option.map_some, Option.map_some, hp.payload, packContent_length hm parts.keyLength]

theorem slice_head (parts : PackParts lib files key) :
    PackageFormat.head parts.package = parts.head := by
  have hl := parts.head_length
  rw [PackageFormat.head, package, List.append_assoc, slice_append_left (Nat.le_of_eq hl.symm)]
  exact hl ▸ slice_all parts.head

theorem entries_size (parts : PackParts lib files key) (hm : lib.Matches sdk) :
    parts.entries.flatten.length = 76 * files.length := by
  rw [List.length_flatten, parts.entries_lengths hm, List.sum_replicate_nat, Nat.mul_comm]

theorem package_length (parts : PackParts lib files key) (hm : lib.Matches sdk) :
    parts.package.length = 24 + 76 * files.length + (files.map (contentSize key)).sum := by
  rw [package, List.length_append, List.length_append, parts.head_length, parts.entries_size hm,
    List.length_flatten, parts.contents_lengths hm]

theorem slice_entry (parts : PackParts lib files key) (hm : lib.Matches sdk) {k : ℕ}
    {entry : List UInt8} (he : parts.entries[k]? = some entry) (hl : entry.length = 76) :
    PackageFormat.entry parts.package k = entry := by
  obtain ⟨hk,hget⟩ := List.getElem?_eq_some_iff.mp he
  have hk' : k < files.length := parts.entriesLength ▸ hk
  have hflat := slice_flatten hk
  have hsum : ((parts.entries.take k).map List.length).sum = 76 * k := by
    rw [List.map_take, parts.entries_lengths hm, List.take_replicate, List.sum_replicate_nat]
    rw [Nat.min_eq_left (by omega), Nat.mul_comm]
  rw [hsum, hget, hl] at hflat
  have hsize := parts.entries_size hm
  have hhead := parts.head_length
  rw [PackageFormat.entry, package, slice_append_left (by
      rw [List.length_append, hsize, hhead]
      simp only [entryStart]
      omega), slice_append_right (by rw [hhead]; simp only [entryStart]; omega), hhead, entryStart,
    Nat.add_sub_cancel_left]
  exact hflat

theorem slice_content (parts : PackParts lib files key) (hm : lib.Matches sdk) {k : ℕ}
    {content : List UInt8} (hc : parts.contents[k]? = some content) :
    slice parts.package (contentAt key files k) content.length = content
      ∧ contentAt key files k + content.length ≤ parts.package.length := by
  obtain ⟨hk,hget⟩ := List.getElem?_eq_some_iff.mp hc
  have hflat := slice_flatten hk
  have hsum : ((parts.contents.take k).map List.length).sum = sizeBefore key files k := by
    rw [List.map_take, parts.contents_lengths hm, ← List.map_take]
    rfl
  rw [hsum, hget] at hflat
  have hpre : (parts.head ++ parts.entries.flatten).length = 24 + 76 * files.length := by
    rw [List.length_append, parts.head_length, parts.entries_size hm]
  have hin : sizeBefore key files k + content.length ≤ parts.contents.flatten.length := by
    have h₁ : parts.contents.flatten.length = ((parts.contents.take k).map List.length).sum
        + ((parts.contents.drop k).map List.length).sum := by
      rw [← List.sum_append, ← List.map_append, List.take_append_drop, List.length_flatten]
    rw [h₁, hsum, List.drop_eq_getElem_cons hk, List.map_cons, List.sum_cons, hget]
    omega
  refine ⟨?_, ?_⟩
  · rw [package, slice_append_right (by rw [hpre]; simp only [contentAt]; omega), hpre, contentAt,
      Nat.add_sub_cancel_left]
    exact hflat
  · rw [package, List.length_append, hpre]
    simp only [contentAt]
    omega

end PackParts

end Sonoff.PackOta
