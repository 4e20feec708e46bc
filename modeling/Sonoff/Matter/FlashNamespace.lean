import Sonoff.Base.RecordTable

/-! # The Matter key-value store on flash

`flash_namespace_value.c` keeps a directory of namespaces in one sector, and for
each namespace one sector with the names and one with the data behind them. A
name table grows from its start: a value is replaced by masking its record and
appending another one, and the two sectors are rewritten without the masked
records when there is no room behind the last one.

The header with the record types and the flags is not part of the sources:
`FlashNamespaceValue` is what the code relies on there. The sizes of the three
areas are those of the flash map in the comment at the head of the file.
-/
namespace Sonoff.Matter
open Bytes NorFlash

inductive BkRet
  | kNoErr
  | kGeneralErr
  deriving DecidableEq, Repr

/-- `namespace_flash_t` behind `dwUsingFlag`. -/
structure NamespaceEntry where
  dwOffsetByByte : ℕ
  ucNamespace : List UInt8
  deriving DecidableEq, Repr

/-- `name_flash_t` behind `dwUsingFlag`. -/
structure NameEntry where
  dwOffsetByByte : ℕ
  dwlength : ℕ
  ucName : List UInt8
  deriving DecidableEq, Repr

abbrev NamespaceFlash := Record NamespaceEntry
abbrev NameFlash := Record NameEntry

def flashSectorSize : ℕ := 4096
def nameSpaceFlashTotalSize : ℕ := flashSectorSize
def nameFlashTotalSize : ℕ := flashSectorSize

structure FlashNamespaceValue where
  /-- `FLASH_NAME_SPACE_MAX_ARRAY`, `FLASH_NAME_MAX_ARRAY` -/
  flashNameSpaceMaxArray : ℕ
  flashNameMaxArray : ℕ
  flashSpaceUsing : ℕ
  flashSpaceMask : ℕ
  sizeofUcNamespace : ℕ
  sizeofUcName : ℕ
  /-- `PER_NAME_SPACE_FLASH_SIZE` and `PER_NAME_FLASH_SIZE` are the sizes of these. -/
  namespaceFlash : RecordFormat NamespaceEntry
  nameFlash : RecordFormat NameEntry
  /-- The sector the Matter partition starts at, and how many it has. -/
  startSector : ℕ
  sectors : ℕ
  using_lt : flashSpaceUsing < 4294967295
  mask_lt : flashSpaceMask < 4294967295
  using_ne_mask : flashSpaceUsing ≠ flashSpaceMask
  /-- Masking a record only clears bits of its flag. -/
  mask_clears : List.zipWith (· &&& ·) (packLe32 flashSpaceUsing) (packLe32 flashSpaceMask) =
    packLe32 flashSpaceMask
  ucName_pos : 0 < sizeofUcName
  namespace_fits : ∀ e : NamespaceEntry, e.dwOffsetByByte < 4294967296 →
    e.ucNamespace.length = sizeofUcNamespace → namespaceFlash.Fits e
  name_fits : ∀ e : NameEntry, e.dwOffsetByByte < 4294967296 → e.dwlength < 4294967296 →
    e.ucName.length = sizeofUcName → nameFlash.Fits e
  namespaces_fit : flashNameSpaceMaxArray * namespaceFlash.size ≤ nameSpaceFlashTotalSize
  names_fit : flashNameMaxArray * nameFlash.size ≤ nameFlashTotalSize
  partition_fits : 1 + 2 * flashNameSpaceMaxArray ≤ sectors
  partition_lt : flashSectorSize * sectors < 4294967296

namespace FlashNamespaceValue

variable (C : FlashNamespaceValue)

/-- `partition_start_addr`, which `get_matter_flash_base_addr` returns. -/
def baseAddr : ℕ := flashSectorSize * C.startSector

def nameSpaceFlashActualUseSize : ℕ := C.flashNameSpaceMaxArray * C.namespaceFlash.size

def nameFlashDataBaseAddr :
    ℕ := nameSpaceFlashTotalSize + C.flashNameSpaceMaxArray * nameFlashTotalSize

end FlashNamespaceValue

/-- The flash with the operations on it, newest first. -/
structure MatterFlash where
  content : ℕ → UInt8
  ops : List FlashOp

def MatterFlash.apply (flash : MatterFlash) (op : FlashOp) : MatterFlash where
  content := op.effect flashSectorSize flash.content
  ops := op :: flash.ops

def bkFlashReadBytes (flash : MatterFlash) (addr n : ℕ) :
    List UInt8 := readBytes flash.content addr n

def bkFlashWriteBytes (flash : MatterFlash) (addr : ℕ) (data : List UInt8) :
    MatterFlash := flash.apply (.write addr data)

@[simp] theorem bkFlashWriteBytes_content (flash : MatterFlash) (addr : ℕ) (data : List UInt8) :
    (bkFlashWriteBytes flash addr data).content = (FlashOp.write addr data).effect flashSectorSize
    flash.content := rfl

def bkFlashEraseSector (flash : MatterFlash) (addr : ℕ) : MatterFlash :=
  flash.apply (.erase (flashSectorSize * (addr / flashSectorSize)) flashSectorSize)

def bkStrnlen (ucdata : List UInt8) (dwLenMax : ℕ) : ℕ := if ucdata.length ≥ dwLenMax then dwLenMax
    else ucdata.length

/-- The comparison of both lookups: `memcmp` over what of the name fits the array, then the lengths.
-/
def sameName (field : List UInt8) (size : ℕ) (name : List UInt8) : Bool :=
  let n := bkStrnlen name (size - 1)
  field.take n == name.take n && (cString field).length == name.length

/-- `memset` to zero, then `memcpy` of what fits. -/
def storedName (size : ℕ) (name : List UInt8) : List UInt8 :=
  name.take (bkStrnlen name (size - 1)) ++ List.replicate (size - bkStrnlen name (size - 1)) 0

/-- Which `os_malloc` calls of one call of the store succeed: those of `get_namespace_addr` and
`get_name_addr`, the two of `bk_set_name_data_new_addr`, and those of `bk_set_namespace` and
`bK_clear_namespace`. -/
structure Allocs where
  namespaceDataArr : Bool
  nameDataArr : Bool
  nameTemp : Bool
  dataBuff : Bool
  newNamespace : Bool
  namespaceTemp : Bool
  deriving DecidableEq, Repr

def Allocs.all : Allocs := ⟨true, true, true, true, true, true⟩

section Functions

variable (C : FlashNamespaceValue)

def getNamespaceAddrLoop (ucnamespace : List UInt8) : ℕ → List NamespaceFlash → Option (ℕ × ℕ)
  | _, [] => none
  | dwLoop, entry :: rest =>
    if entry.flag ≠ C.flashSpaceUsing then getNamespaceAddrLoop ucnamespace (dwLoop + 1) rest
    else if sameName entry.value.ucNamespace C.sizeofUcNamespace ucnamespace then
      some (entry.value.dwOffsetByByte, dwLoop)
    else getNamespaceAddrLoop ucnamespace (dwLoop + 1) rest

def namespaceDataArr (flash : MatterFlash) : List NamespaceFlash :=
  C.namespaceFlash.records (bkFlashReadBytes flash C.baseAddr C.nameSpaceFlashActualUseSize)
    C.flashNameSpaceMaxArray

/-- `*addr` and `*block`; `none` is `kGeneralErr`, which stands for no memory as well. -/
def getNamespaceAddr (allocs : Allocs) (flash : MatterFlash) (ucnamespace : List UInt8) :
    Option (ℕ × ℕ) :=
  if !allocs.namespaceDataArr then none
  else getNamespaceAddrLoop C ucnamespace 0 (namespaceDataArr C flash)

def getNameAddrLoop (ucname : List UInt8) : ℕ → List NameFlash → Option (ℕ × ℕ)
  | _, [] => none
  | dwLoop, entry :: rest =>
    if entry.flag ≠ C.flashSpaceUsing then getNameAddrLoop ucname (dwLoop + 1) rest
    else if sameName entry.value.ucName C.sizeofUcName ucname then
      some (dwLoop * C.nameFlash.size, entry.value.dwOffsetByByte)
    else getNameAddrLoop ucname (dwLoop + 1) rest

def nameDataArr (flash : MatterFlash) (baseAddr : ℕ) : List NameFlash :=
  C.nameFlash.records (bkFlashReadBytes flash baseAddr nameFlashTotalSize) C.flashNameMaxArray

/-- `*offset_addr` and `*data_offset_addr`; the second is left at another record where the name
is not found, and no caller reads it then. -/
def getNameAddr (allocs : Allocs) (flash : MatterFlash) (ucname : List UInt8) (baseAddr : ℕ) :
    Option (ℕ × ℕ) :=
  if !allocs.nameDataArr then none
  else getNameAddrLoop C ucname 0 (nameDataArr C flash baseAddr)

def bkEraseNameData (flash : MatterFlash) (nBaseAddr dataSectorAddr : ℕ) : MatterFlash :=
  bkFlashEraseSector (bkFlashEraseSector flash nBaseAddr) dataSectorAddr

structure Reorganize where
  flash : MatterFlash
  dwDataAddr : ℕ
  dwNameAddr : ℕ
  dwOffset : ℕ

def bkReorganizeNameDataStep (databuf : List UInt8) (r : Reorganize) (entry : NameFlash) :
    Reorganize :=
  if entry.flag = C.flashSpaceUsing then
    let flash := bkFlashWriteBytes r.flash r.dwDataAddr
      (slice databuf entry.value.dwOffsetByByte entry.value.dwlength)
    let moved : NameFlash :=
      { entry with value := { entry.value with dwOffsetByByte := r.dwOffset } }
    { flash := bkFlashWriteBytes flash r.dwNameAddr (C.nameFlash.encode moved)
      dwDataAddr := r.dwDataAddr + entry.value.dwlength
      dwNameAddr := r.dwNameAddr + C.nameFlash.size
      dwOffset := u32Add r.dwOffset entry.value.dwlength }
  else r

def placed (nameData : NameFlash) (dwlength dwOffsetByByte : ℕ) : NameFlash where
  flag := C.flashSpaceUsing
  value := { nameData.value with dwlength := dwlength, dwOffsetByByte := dwOffsetByByte }

def bkReorganizeNameData (flash : MatterFlash) (nBaseAddr : ℕ) (nameTemp : List NameFlash)
    (databuf : List UInt8) (dataSectorAddr : ℕ) (indata : List UInt8) (nameData : NameFlash) :
    BkRet × MatterFlash :=
  let start : Reorganize :=
    ⟨bkEraseNameData flash nBaseAddr dataSectorAddr, dataSectorAddr, nBaseAddr, 0⟩
  let r := nameTemp.foldl (bkReorganizeNameDataStep C databuf) start
  if u32Add r.dwOffset indata.length ≥ flashSectorSize then (.kGeneralErr, r.flash)
  else
    let flash := bkFlashWriteBytes r.flash r.dwDataAddr indata
    (.kNoErr, bkFlashWriteBytes flash r.dwNameAddr
      (C.nameFlash.encode (placed C nameData indata.length r.dwOffset)))

/-- Where the scan of the name table ends: at a record that was never written, or behind the last
one, with the number of masked records. -/
inductive NameScan
  | slot (dwLoop dataOffsetAddr : ℕ)
  | full (dwMaskCount : ℕ)
  deriving DecidableEq, Repr

def nameScan (dwLoop dataOffsetAddr dwMaskCount : ℕ) : List NameFlash → NameScan
  | [] => .full dwMaskCount
  | entry :: rest =>
    if entry.flag ≠ C.flashSpaceUsing ∧ entry.flag ≠ C.flashSpaceMask then
      .slot dwLoop dataOffsetAddr
    else nameScan (dwLoop + 1) (u32Add entry.value.dwOffsetByByte entry.value.dwlength)
      (if entry.flag = C.flashSpaceMask then dwMaskCount + 1 else dwMaskCount) rest

def bkSetNameDataNewAddr (allocs : Allocs) (flash : MatterFlash) (dataSectorAddr baseAddr : ℕ)
    (indata : List UInt8) (nameData : NameFlash) : BkRet × MatterFlash :=
  let nameTemp := nameDataArr C flash baseAddr
  let reorganize := bkReorganizeNameData C flash baseAddr nameTemp
    (bkFlashReadBytes flash dataSectorAddr flashSectorSize) dataSectorAddr indata nameData
  if !allocs.nameTemp || !allocs.dataBuff then (.kGeneralErr, flash)
  else
    match nameScan C 0 0 0 nameTemp with
    | .slot dwLoop dataOffsetAddr =>
      if u32Add dataOffsetAddr indata.length ≥ flashSectorSize then reorganize
      else
        let written := bkFlashWriteBytes flash (dataSectorAddr + dataOffsetAddr) indata
        (.kNoErr, bkFlashWriteBytes written (baseAddr + dwLoop * C.nameFlash.size)
          (C.nameFlash.encode (placed C nameData indata.length dataOffsetAddr)))
    | .full dwMaskCount => if dwMaskCount > 0 then reorganize else (.kGeneralErr, flash)

def bkSetNamespaceLoop : ℕ → List NamespaceFlash → Option ℕ
  | _, [] => none
  | dwLoop, entry :: rest =>
    if entry.flag ≠ C.flashSpaceUsing then some dwLoop else bkSetNamespaceLoop (dwLoop + 1) rest

/-- The first record of the directory that is not in use; `none` is `kGeneralErr`. -/
def bkSetNamespace (allocs : Allocs) (flash : MatterFlash) (ucnamespace : List UInt8) :
    Option ((ℕ × ℕ) × MatterFlash) :=
  if !allocs.newNamespace then none
  else
    match bkSetNamespaceLoop C 0 (namespaceDataArr C flash) with
    | none => none
    | some dwLoop =>
      let entry : NamespaceFlash :=
        ⟨C.flashSpaceUsing, dwLoop * nameFlashTotalSize + nameSpaceFlashTotalSize,
        storedName C.sizeofUcNamespace ucnamespace⟩
      some ((entry.value.dwOffsetByByte, dwLoop),
        bkFlashWriteBytes flash (C.baseAddr + dwLoop * C.namespaceFlash.size)
          (C.namespaceFlash.encode entry))

def dataBufSize : ℕ := 2048

def dataSectorAddr (block : ℕ) : ℕ := C.baseAddr + block * flashSectorSize + C.nameFlashDataBaseAddr

/-- The old value is read into `data_buf` on the stack: `none` is a value that does not fit there.
-/
def bkSetNameData (allocs : Allocs) (flash : MatterFlash) (ucname indata : List UInt8)
    (dwNOffsetAddr dwOffsetBlock : ℕ) : Option (BkRet × MatterFlash) :=
  let dwSecAddr := C.baseAddr + dwNOffsetAddr
  match getNameAddr C allocs flash ucname dwSecAddr with
  | some (dwOffsetAddr, dwDataOffsetAddr) =>
    let nameTemp := C.nameFlash.decode
      (bkFlashReadBytes flash (dwSecAddr + dwOffsetAddr) C.nameFlash.size)
    if nameTemp.value.dwlength > dataBufSize then none
    else
      let dataBuf := bkFlashReadBytes flash (dataSectorAddr C dwOffsetBlock + dwDataOffsetAddr)
        nameTemp.value.dwlength
      if nameTemp.value.dwlength ≠ indata.length ∨ dataBuf.take indata.length ≠ indata then
        let masked := bkFlashWriteBytes flash (dwSecAddr + dwOffsetAddr)
          (C.nameFlash.encode { nameTemp with flag := C.flashSpaceMask })
        let nameTemp := C.nameFlash.decode
          (bkFlashReadBytes masked (dwSecAddr + dwOffsetAddr) C.nameFlash.size)
        some (bkSetNameDataNewAddr C allocs masked (dataSectorAddr C dwOffsetBlock) dwSecAddr indata
          nameTemp)
      else some (.kNoErr, flash)
  | none =>
    let nameTemp : NameFlash :=
      ⟨C.flashSpaceUsing, 0, indata.length, storedName C.sizeofUcName ucname⟩
    some (bkSetNameDataNewAddr C allocs flash (dataSectorAddr C dwOffsetBlock) dwSecAddr indata
      nameTemp)

def bkWriteData (allocs : Allocs) (flash : MatterFlash) (ucnamespace ucname indata : List UInt8) :
    Option (BkRet × MatterFlash) :=
  match getNamespaceAddr C allocs flash ucnamespace with
  | some (dwOffsetAddr, dwOffBlock) =>
    bkSetNameData C allocs flash ucname indata dwOffsetAddr dwOffBlock
  | none =>
    match bkSetNamespace C allocs flash ucnamespace with
    | none => some (.kGeneralErr, flash)
    | some ((dwOffsetAddr, dwOffBlock), flash) =>
      bkSetNameData C allocs flash ucname indata dwOffsetAddr dwOffBlock

/-- `out_data`, as long as `*out_length` says; `none` is `kGeneralErr`. -/
def bkReadData (allocs : Allocs) (flash : MatterFlash) (ucnamespace ucname : List UInt8)
    (dwReadLen : ℕ) : Option (List UInt8) :=
  match getNamespaceAddr C allocs flash ucnamespace with
  | none => none
  | some (dwOffsetAddr, dwOffBlock) =>
    let dwSecBaseAddr := C.baseAddr + dwOffsetAddr
    match getNameAddr C allocs flash ucname dwSecBaseAddr with
    | none => none
    | some (dwOffsetAddr, dwDataOffsetAddr) =>
      let nameTemp := C.nameFlash.decode
        (bkFlashReadBytes flash (dwSecBaseAddr + dwOffsetAddr) C.nameFlash.size)
      let dwActualLen := if dwReadLen > nameTemp.value.dwlength then nameTemp.value.dwlength
        else dwReadLen
      some (bkFlashReadBytes flash (dataSectorAddr C dwOffBlock + dwDataOffsetAddr) dwActualLen)

def bkCleanData (allocs : Allocs) (flash : MatterFlash) (ucnamespace ucname : List UInt8) :
    BkRet × MatterFlash :=
  match getNamespaceAddr C allocs flash ucnamespace with
  | none => (.kGeneralErr, flash)
  | some (dwOffsetAddr, _) =>
    let dwActualAddr := C.baseAddr + dwOffsetAddr
    match getNameAddr C allocs flash ucname dwActualAddr with
    | none => (.kGeneralErr, flash)
    | some (dwNameOffset, _) =>
      (.kNoErr, bkFlashWriteBytes flash (dwActualAddr + dwNameOffset) (packLe32 C.flashSpaceMask))

/-- The directory is rewritten without the masked namespace, every other one in its own place. -/
def bkClearNamespaceLoop (flash : MatterFlash) : ℕ → List NamespaceFlash → MatterFlash
  | _, [] => flash
  | dwLoop, entry :: rest =>
    if entry.flag = C.flashSpaceUsing then
      bkClearNamespaceLoop
        (bkFlashWriteBytes flash (C.baseAddr + dwLoop * C.namespaceFlash.size)
          (C.namespaceFlash.encode entry)) (dwLoop + 1) rest
    else bkClearNamespaceLoop flash (dwLoop + 1) rest

def bkClearNamespace (allocs : Allocs) (flash : MatterFlash) (ucnamespace : List UInt8) :
    BkRet × MatterFlash :=
  if !allocs.namespaceTemp then (.kGeneralErr, flash)
  else
    match getNamespaceAddr C allocs flash ucnamespace with
    | none => (.kGeneralErr, flash)
    | some (_, dwOffBlock) =>
      let namespaceTemp := (namespaceDataArr C flash).modify dwOffBlock fun entry =>
        { entry with flag := C.flashSpaceMask }
      let dwStartAddr := C.baseAddr + nameSpaceFlashTotalSize + dwOffBlock * nameFlashTotalSize
      let cleared := bkFlashEraseSector
        (bkEraseNameData flash dwStartAddr (dataSectorAddr C dwOffBlock)) C.baseAddr
      (.kNoErr, bkClearNamespaceLoop C cleared 0 namespaceTemp)

def bkEnsureNamespace (allocs : Allocs) (flash : MatterFlash) (ucnamespace : List UInt8) :
    BkRet × MatterFlash :=
  match getNamespaceAddr C allocs flash ucnamespace with
  | some _ => (.kNoErr, flash)
  | none =>
    match bkSetNamespace C allocs flash ucnamespace with
    | some (_, flash) => (.kNoErr, flash)
    | none => (.kGeneralErr, flash)

def bkEnsureNameData (allocs : Allocs) (flash : MatterFlash) (ucnamespace ucname : List UInt8) :
    BkRet :=
  match getNamespaceAddr C allocs flash ucnamespace with
  | none => .kGeneralErr
  | some (dwOffsetAddr, _) =>
    match getNameAddr C allocs flash ucname (C.baseAddr + dwOffsetAddr) with
    | some _ => .kNoErr
    | none => .kGeneralErr

def bkEraseAll (flash : MatterFlash) : MatterFlash :=
  (List.range C.sectors).foldl (fun flash i =>
    bkFlashEraseSector flash (C.baseAddr + i * nameSpaceFlashTotalSize)) flash

end Functions

end Sonoff.Matter
