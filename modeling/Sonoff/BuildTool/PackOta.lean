import Sonoff.Base.Bytes

/-! # The packaging script

`pack_ota.py` writes the package the firmware parses. A Python `str` is its list
of characters; what the script takes from libraries (`zlib.crc32`,
`AESGCM(key).encrypt` and the successive `secrets.token_bytes`) is a parameter.
-/
namespace Sonoff.PackOta
open Bytes

def keySize : ℕ := 32
def ivSize : ℕ := 12
def tagSize : ℕ := 16
def headSize : ℕ := 24
def fileSize : ℕ := 76
def structVersion : ℕ := 1

/-- Library functions of the script; `encrypt key iv data aad` returns ciphertext and tag. -/
structure PyLib where
  crc32 : List UInt8 → ℕ
  encrypt : List UInt8 → List UInt8 → List UInt8 → List UInt8 → List UInt8
  tokenBytes : ℕ → List UInt8

/-- One `(name, version, plaintext)` of the input list. -/
structure PackFile where
  name : List Char
  version : List Char
  plain : List UInt8
  deriving DecidableEq

/-- `value.encode("ascii")`. -/
def encodeAscii (value : List Char) : Except String (List UInt8) :=
  if value.any (fun c => 128 ≤ c.toNat) then
    .error "'ascii' codec can't encode character: ordinal not in range(128)"
  else .ok (value.map fun c => UInt8.ofNat c.toNat)

def encodeString (value : List Char) (size : ℕ) : Except String (List UInt8) :=
  match encodeAscii value with
  | .error e => .error e
  | .ok encoded =>
    if encoded = [] ∨ encoded.length > size ∨
      encoded.any (fun byte => byte < 0x20 || byte > 0x7e) then
      .error s!"Field must contain 1 to {size} printable ASCII characters"
    else .ok (encoded ++ List.replicate (size - encoded.length) 0)

def contentSize (key : Option (List UInt8)) (file : PackFile) : ℕ :=
  file.plain.length + if key.isSome then ivSize + tagSize else 0

def packEntry (lib : PyLib) (name version : List UInt8) (offset size : ℕ) (plain : List UInt8) :
    List UInt8 :=
  let entry := name ++ version
  let entry := entry ++ (packBe32 offset ++ packBe32 size ++ packBe32 (lib.crc32 plain))
  entry ++ (packBe32 (lib.crc32 entry) ++ List.replicate 12 0)

/-- The content of one file, encrypted with the `n`-th token as its IV. -/
def packContent (lib : PyLib) (key : Option (List UInt8)) (n : ℕ) (plain authData : List UInt8) :
    List UInt8 :=
  match key with
  | none => plain
  | some key =>
    let iv := lib.tokenBytes n
    iv ++ lib.encrypt key iv plain authData

/-- The loop of `pack_files`: the entries and the contents of the remaining files. -/
def packLoop (lib : PyLib) (key : Option (List UInt8)) (head : List UInt8) :
    List PackFile → ℕ → ℕ → Except String (List (List UInt8) × List (List UInt8))
  | [], _, _ => .ok ([], [])
  | file :: files, n, offset =>
    if file.plain = [] then .error "Empty OTA file"
    else
      let size := contentSize key file
      if offset + size > 0xffffffff then .error "OTA package exceeds 32-bit length"
      else
        match encodeString file.name 32, encodeString file.version 16 with
        | .error e, _ => .error e
        | .ok _, .error e => .error e
        | .ok name, .ok version =>
          let entry := packEntry lib name version offset size file.plain
          let content := packContent lib key n file.plain (head ++ entry)
          match packLoop lib key head files (n + 1) (offset + size) with
          | .error e => .error e
          | .ok (entries, contents) => .ok (entry :: entries, content :: contents)

def packHead (lib : PyLib) (fileCount : ℕ) (modelVersion : List UInt8) (cipherType : ℕ) :
    List UInt8 :=
  let head := [UInt8.ofNat structVersion, UInt8.ofNat fileCount] ++ modelVersion
  let head := head ++ ([UInt8.ofNat cipherType] ++ List.replicate 9 0)
  head ++ packBe32 (lib.crc32 head)

def packFiles (lib : PyLib) (files : List PackFile) (modelVersion : List Char)
    (key : Option (List UInt8)) : Except String (List UInt8) :=
  if ¬(1 ≤ files.length ∧ files.length ≤ 255) then .error "OTA package must contain 1 to 255 files"
  else if ¬(files.map PackFile.name).Nodup then .error "Duplicate OTA file name"
  else if key.any (fun key => key.length ≠ keySize) then
    .error "OTA key must contain exactly 32 bytes"
  else
    let cipherType := if key.isNone then 0 else 1
    match encodeString modelVersion 8 with
    | .error e => .error e
    | .ok modelVersion =>
      let head := packHead lib files.length modelVersion cipherType
      let offset := headSize + fileSize * files.length
      match packLoop lib key head files 0 offset with
      | .error e => .error e
      | .ok (entries, contents) => .ok (head ++ entries.flatten ++ contents.flatten)

end Sonoff.PackOta
