import Sonoff.Matter.FlashNamespace

/-! # Packed records

Structures without padding, their words least significant byte first, have the
properties `FlashNamespaceValue` asks of a header, whatever the sizes of their
arrays.
-/
namespace Sonoff.Matter
open Bytes NorFlash

/-- `namespace_flash_t` with an array of so many bytes. -/
def packedNamespace (sizeofUcNamespace : ℕ) : RecordFormat NamespaceEntry where
  size := 4 + (4 + sizeofUcNamespace)
  Fits e := e.dwOffsetByByte < 4294967296 ∧ e.ucNamespace.length = sizeofUcNamespace
  body e := packLe32 e.dwOffsetByByte ++ e.ucNamespace
  unbody bytes := ⟨le32 bytes 0, bytes.drop 4⟩
  flag_le := Nat.le_add_right _ _
  body_length := by
    intro e he
    rw [List.length_append, packLe32_length, he.2]
  unbody_body := by
    intro e he
    have hword : le32 (packLe32 e.dwOffsetByByte ++ e.ucNamespace) 0 = e.dwOffsetByByte :=
      le32_mid he.1 [] e.ucNamespace
    rw [hword, List.drop_left' (packLe32_length _)]

def packedName (sizeofUcName : ℕ) : RecordFormat NameEntry where
  size := 4 + (4 + (4 + sizeofUcName))
  Fits e := e.dwOffsetByByte < 4294967296 ∧ e.dwlength < 4294967296 ∧ e.ucName.length = sizeofUcName
  body e := packLe32 e.dwOffsetByByte ++ packLe32 e.dwlength ++ e.ucName
  unbody bytes := ⟨le32 bytes 0, le32 bytes 4, bytes.drop 8⟩
  flag_le := Nat.le_add_right _ _
  body_length := by
    intro e he
    simp only [List.length_append, packLe32_length, he.2.2, Nat.add_assoc]
  unbody_body := by
    intro e he
    have hoffset : le32 (packLe32 e.dwOffsetByByte ++ packLe32 e.dwlength ++ e.ucName) 0 =
        e.dwOffsetByByte := by
      rw [List.append_assoc]
      exact le32_mid he.1 [] _
    have hlength : le32 (packLe32 e.dwOffsetByByte ++ packLe32 e.dwlength ++ e.ucName) 4 =
        e.dwlength :=
      le32_mid he.2.1 (packLe32 e.dwOffsetByByte) e.ucName
    rw [hoffset, hlength, List.drop_left' (by simp)]

def packedHeader (flashNameSpaceMaxArray flashNameMaxArray sizeofUcNamespace sizeofUcName
      startSector sectors : ℕ)
    (hnamespaces : flashNameSpaceMaxArray * (packedNamespace sizeofUcNamespace).size ≤
      nameSpaceFlashTotalSize)
    (hnames : flashNameMaxArray * (packedName sizeofUcName).size ≤ nameFlashTotalSize)
    (hname : 0 < sizeofUcName) (hsectors : 1 + 2 * flashNameSpaceMaxArray ≤ sectors)
    (hpartition : flashSectorSize * sectors < 4294967296) :
    FlashNamespaceValue where
  flashNameSpaceMaxArray := flashNameSpaceMaxArray
  flashNameMaxArray := flashNameMaxArray
  flashSpaceUsing := 0x5A5A5A5A
  flashSpaceMask := 0x0A0A0A0A
  sizeofUcNamespace := sizeofUcNamespace
  sizeofUcName := sizeofUcName
  namespaceFlash := packedNamespace sizeofUcNamespace
  nameFlash := packedName sizeofUcName
  startSector := startSector
  sectors := sectors
  using_lt := by omega
  mask_lt := by omega
  using_ne_mask := by omega
  mask_clears := by decide
  ucName_pos := hname
  namespace_fits _ hoffset hlength := ⟨hoffset, hlength⟩
  name_fits _ hoffset hlength hname := ⟨hoffset, hlength, hname⟩
  namespaces_fit := hnamespaces
  names_fit := hnames
  partition_fits := hsectors
  partition_lt := hpartition

/-- Two namespaces with three names each, in a partition of five sectors. -/
def smallHeader : FlashNamespaceValue :=
  packedHeader 2 3 8 8 0 5 (by decide) (by decide) (by decide) (by decide) (by decide)

def newFlash : MatterFlash := ⟨fun _ => 0xFF, []⟩

end Sonoff.Matter
