import Sonoff.Matter.FlashNamespaceBlock

/-! # Setting a value

Rewriting the two sectors of a namespace without the masked entries, appending an
entry, and replacing a value: the log of the namespace takes the value exactly
where the list of its live pairs does.
-/
namespace Sonoff.Matter
open Bytes NorFlash MaskedLog

section Written

variable {C : FlashNamespaceValue} {content content' : ℕ → UInt8} {nameSector dataSector : ℕ}
  {log : NameLog}

structure Rewriting (C : FlashNamespaceValue) (nameSector dataSector : ℕ) (start : MatterFlash)
    (r : Reorganize) (done : NameLog) : Prop where
  written : Written C r.flash.content nameSector dataSector done
  confined : Confined nameSector dataSector start r.flash
  dataAddr : r.dwDataAddr = flashSectorSize * dataSector + total List.length done
  nameAddr : r.dwNameAddr = flashSectorSize * nameSector + done.length * C.nameFlash.size
  offset : r.dwOffset = total List.length done

theorem slice_value {databuf v rest : List UInt8} {offset n : ℕ} (hn : rest.length = n)
    (h : slice databuf offset (v.length + n) = v ++ rest) :
    slice databuf offset v.length = v ∧ slice databuf (offset + v.length) n = rest := by
  rw [slice_add] at h
  have hsum := congrArg List.length h
  simp only [List.length_append] at hsum
  have h₁ : (slice databuf offset v.length).length ≤ v.length := List.length_take_le _ _
  have h₂ : (slice databuf (offset + v.length) n).length ≤ n := List.length_take_le _ _
  exact List.append_inj h (by omega)

variable {start : MatterFlash} {databuf : List UInt8}

theorem Rewriting.step {r : Reorganize} {done : NameLog} {e : Entry (List UInt8) (List UInt8)}
    {offset : ℕ} (h : Rewriting C nameSector dataSector start r done)
    (hlt : nameSector < dataSector)
    (hname : NameFits C.sizeofUcName e.key)
    (hslot : e.live = true → done.length < C.flashNameMaxArray)
    (hroom : e.live = true → total List.length done + e.value.length ≤ flashSectorSize)
    (hbuf : slice databuf offset e.value.length = e.value) :
    Rewriting C nameSector dataSector start
      (bkReorganizeNameDataStep C databuf r (nameRecord C offset e))
      (done ++ [e].filter (·.live)) := by
  cases hlive : e.live with
  | false =>
    have hskip : (nameRecord C offset e).flag ≠ C.flashSpaceUsing := by
      simpa [nameRecord, hlive] using C.using_ne_mask.symm
    rw [bkReorganizeNameDataStep, if_neg hskip, List.filter_cons_of_neg (by simp [hlive])]
    simpa using h
  | true =>
    have hsize : flashSectorSize < 4294967296 := by decide
    have hnext := h.written.append hlt hname (hslot hlive) (hroom hlive)
    have hmoved : ({ nameRecord C offset e with
        value := { (nameRecord C offset e).value with dwOffsetByByte := r.dwOffset } } :
          NameFlash) =
        nameRecord C (total List.length done) e := by
      simp [nameRecord, hlive, h.offset]
    rw [bkReorganizeNameDataStep, if_pos (by simp [nameRecord, hlive]),
      List.filter_cons_of_pos (by simp [hlive]), hmoved]
    simp only [nameRecord, hbuf, h.dataAddr, h.nameAddr, List.filter_nil]
    constructor
    · exact hnext.1
    · exact h.confined.trans hnext.2
    · simp [Nat.add_assoc]
    · simp only [List.length_append, List.length_singleton, Nat.succ_mul]
      omega
    · have := hroom hlive
      simp only [h.offset, total_append, total_cons, total_nil]
      exact u32Add_eq (by omega)

theorem Rewriting.blank {r : Reorganize} {done : NameLog}
    (h : Rewriting C nameSector dataSector start r done) (n : ℕ) :
    Rewriting C nameSector dataSector start
      ((List.replicate n (blankRecord C)).foldl (bkReorganizeNameDataStep C databuf) r) done := by
  induction n with
  | zero => exact h
  | succ n ih =>
    rw [List.replicate_succ, List.foldl_cons, bkReorganizeNameDataStep,
      if_neg (blankRecord_flag C).1]
    exact ih

/-- The loop writes back the live entries, in order. -/
theorem Rewriting.fold {r : Reorganize} {done todo : NameLog} {offset : ℕ}
    (hlt : nameSector < dataSector)
    (h : Rewriting C nameSector dataSector start r done)
    (hnames : ∀ e ∈ todo, NameFits C.sizeofUcName e.key)
    (hslots : done.length + (todo.filter (·.live)).length ≤ C.flashNameMaxArray)
    (hroom : total List.length done + total List.length (todo.filter (·.live)) ≤ flashSectorSize)
    (hbuf : slice databuf offset (total List.length todo) = todo.flatMap (·.value)) (n : ℕ) :
    Rewriting C nameSector dataSector start
      ((nameRecords C offset todo ++ List.replicate n (blankRecord C)).foldl
        (bkReorganizeNameDataStep C databuf) r)
      (done ++ todo.filter (·.live)) := by
  induction todo generalizing r done offset with
  | nil => simpa [nameRecords] using h.blank n
  | cons e todo ih =>
    rw [total_cons, List.flatMap_cons] at hbuf
    obtain ⟨hvalue, hrest⟩ := slice_value (flatMap_value_length todo) hbuf
    have hkept : (e :: todo).filter (·.live) = [e].filter (·.live) ++ todo.filter (·.live) := by
      rw [← List.filter_append]
      rfl
    rw [hkept] at hslots hroom ⊢
    rw [List.length_append] at hslots
    rw [total_append] at hroom
    have hstep : Rewriting C nameSector dataSector start
      (bkReorganizeNameDataStep C databuf r (nameRecord C offset e))
        (done ++ [e].filter (·.live)) := by
      refine h.step hlt (hnames e List.mem_cons_self) ?_ ?_ hvalue
      · intro hlive
        simp only [List.filter_cons, hlive, if_true, List.filter_nil,
          List.length_singleton] at hslots
        omega
      · intro hlive
        simp only [List.filter_cons, hlive, if_true, List.filter_nil, total_cons,
          total_nil] at hroom
        omega
    have := ih hstep (fun x hx => hnames x (List.mem_cons_of_mem _ hx))
      (by rw [List.length_append]; omega) (by rw [total_append]; omega) hrest
    simpa only [nameRecords, List.cons_append, List.foldl_cons, List.append_assoc] using this

/-- Reorganizing the two sectors erases them, and then compacts the log. -/
theorem Written.reorganize {flash : MatterFlash}
    (h : Written C flash.content nameSector dataSector log)
    (hlt : nameSector < dataSector) (hnames : ∀ e ∈ log, NameFits C.sizeofUcName e.key)
    {name data : List UInt8} (hname : NameFits C.sizeofUcName name)
    (hslot : (log.filter (·.live)).length < C.flashNameMaxArray)
    (hdata : data.length + flashSectorSize < 4294967296) {nameData : NameFlash}
    (hrecord : nameData.value.ucName = storedName C.sizeofUcName name) (n : ℕ) :
    let result := bkReorganizeNameData C flash (flashSectorSize * nameSector)
      (nameRecords C 0 log ++ List.replicate n (blankRecord C))
      (readBytes flash.content (flashSectorSize * dataSector) flashSectorSize)
      (flashSectorSize * dataSector) data nameData
    let kept := compact List.length flashSectorSize log name data
    Written C result.2.content nameSector dataSector kept.2 ∧ (result.1 = .kNoErr ↔ kept.1 = true) ∧
      Confined nameSector dataSector (bkEraseNameData flash (flashSectorSize * nameSector)
          (flashSectorSize * dataSector)) result.2 := by
  intro result kept
  have hlive : total List.length (log.filter (·.live)) ≤ total List.length log := by
    rw [total_filter_live]
    exact pairsTotal_pairs_le _ _
  have htotal := h.total_le
  have hbuf : slice (readBytes flash.content (flashSectorSize * dataSector) flashSectorSize) 0
    (total List.length log) = log.flatMap (·.value) := by
    rw [slice_readBytes (by omega), h.values.slice (by rw [flatMap_value_length]; omega),
      ← flatMap_value_length, slice_all]
  have hstart : Rewriting C nameSector dataSector
      (bkEraseNameData flash (flashSectorSize * nameSector) (flashSectorSize * dataSector))
      ⟨bkEraseNameData flash (flashSectorSize * nameSector) (flashSectorSize * dataSector),
        flashSectorSize * dataSector, flashSectorSize * nameSector, 0⟩ [] :=
    ⟨(Written.erase hlt flash).1, Issued.refl _, by simp, by simp, rfl⟩
  have hfold := hstart.fold hlt hnames (by simpa using Nat.le_of_lt hslot)
    (by simpa using Nat.le_trans hlive htotal) hbuf n
  rw [List.nil_append] at hfold
  have hadd : u32Add (total List.length (log.filter (·.live))) data.length =
      total List.length (log.filter (·.live)) + data.length := u32Add_eq (by omega)
  simp only [result, kept, bkReorganizeNameData, hfold.offset, hadd, compact]
  by_cases hfit : total List.length (log.filter (·.live)) + data.length < flashSectorSize
  · rw [if_neg (by omega), if_pos hfit]
    have hnext := hfold.written.append hlt (e := ⟨true, name, data⟩) hname hslot (Nat.le_of_lt hfit)
    have hplaced : placed C nameData data.length (total List.length (log.filter (·.live))) =
        nameRecord C (total List.length (log.filter (·.live))) ⟨true, name, data⟩ := by
      simp [placed, nameRecord, hrecord]
    simp only [hfold.dataAddr, hfold.nameAddr, hplaced]
    exact ⟨hnext.1, by simp, hfold.confined.trans hnext.2⟩
  · rw [if_pos (by omega), if_neg hfit]
    exact ⟨hfold.written, by simp, hfold.confined⟩

def appendEntry (C : FlashNamespaceValue) (nameSector dataSector : ℕ) (log : NameLog)
    (flash : MatterFlash) (name data : List UInt8) :
    MatterFlash :=
  bkFlashWriteBytes (bkFlashWriteBytes flash (flashSectorSize * dataSector + total List.length log)
    data) (flashSectorSize * nameSector + log.length * C.nameFlash.size)
    (C.nameFlash.encode (nameRecord C (total List.length log) ⟨true, name, data⟩))

theorem nameDataArr_table {flash : MatterFlash}
    (h : C.nameFlash.Table flash.content (flashSectorSize * nameSector)
    (nameSlots C log))
    (hle : log.length ≤ C.flashNameMaxArray) : nameDataArr C flash (flashSectorSize * nameSector) =
      nameRecords C 0 log ++ List.replicate (C.flashNameMaxArray - log.length) (blankRecord C) := by
  have hfit : C.flashNameMaxArray * C.nameFlash.size ≤ nameFlashTotalSize := C.names_fit
  have hrecords := h.records (n := nameFlashTotalSize) (by rwa [nameSlots_length hle])
  rwa [nameSlots_length hle, slotRecord_nameSlots] at hrecords

/-- What the scan of the name table decides: append, reorganize, or give up. -/
theorem Written.setNameDataNewAddr_cases {flash : MatterFlash}
    (h : Written C flash.content nameSector dataSector log)
    (hle : log.length ≤ C.flashNameMaxArray) {name data : List UInt8}
    (hdata : data.length + flashSectorSize < 4294967296)
    {nameData : NameFlash} (hrecord : nameData.value.ucName = storedName C.sizeofUcName name) :
    let result := bkSetNameDataNewAddr C .all flash (flashSectorSize * dataSector)
      (flashSectorSize * nameSector) data nameData
    (log.length < C.flashNameMaxArray ∧ total List.length log + data.length < flashSectorSize ∧
      result = (.kNoErr, appendEntry C nameSector dataSector log flash name data)) ∨
    ((if log.length < C.flashNameMaxArray then
      ¬total List.length log + data.length < flashSectorSize
        else ∃ e ∈ log, e.live = false) ∧
      result = bkReorganizeNameData C flash (flashSectorSize * nameSector)
        (nameRecords C 0 log ++ List.replicate (C.flashNameMaxArray - log.length) (blankRecord C))
        (readBytes flash.content (flashSectorSize * dataSector) flashSectorSize)
          (flashSectorSize * dataSector) data nameData) ∨
    (¬log.length < C.flashNameMaxArray ∧ (¬∃ e ∈ log, e.live = false) ∧
      result = (.kGeneralErr, flash)) := by
  intro result
  have htotal := h.total_le
  have hsize : flashSectorSize + flashSectorSize < 4294967296 := by decide
  have harr := nameDataArr_table h.names hle
  have hscan : nameScan C 0 0 0
    (nameRecords C 0 log ++ List.replicate (C.flashNameMaxArray - log.length)
    (blankRecord C)) = _ :=
    nameScan_records 0 0 0 _ (by omega)
  have hadd : u32Add (total List.length log) data.length = total List.length log + data.length :=
    u32Add_eq (by omega)
  simp only [result, bkSetNameDataNewAddr, Allocs.all, Bool.not_true, Bool.or_self,
    Bool.false_eq_true, if_false, harr, hscan, bkFlashReadBytes, Nat.zero_add]
  by_cases hslot : log.length < C.flashNameMaxArray
  · rw [if_pos hslot, if_neg (by omega)]
    simp only
    by_cases hroom : total List.length log + data.length < flashSectorSize
    · left
      have hplaced : placed C nameData data.length (total List.length log) =
          nameRecord C (total List.length log) ⟨true, name, data⟩ := by
        simp [placed, nameRecord, hrecord]
      rw [if_neg (by omega), hplaced]
      exact ⟨hslot, hroom, rfl⟩
    · right
      left
      rw [if_pos (by omega)]
      exact ⟨hroom, rfl⟩
  · right
    rw [if_neg hslot, if_pos (by omega)]
    simp only
    by_cases hmasked : ∃ e ∈ log, e.live = false
    · left
      have hcount : 0 < maskCount log := by
        obtain ⟨e, he, hlive⟩ := hmasked
        apply List.length_pos_of_mem (a := e)
        exact List.mem_filter.mpr ⟨he, by simp [hlive]⟩
      rw [if_pos hcount]
      exact ⟨hmasked, rfl⟩
    · right
      have hcount : maskCount log = 0 := by
        simp only [maskCount, List.length_eq_zero_iff, List.filter_eq_nil_iff]
        intro e he hlive
        exact hmasked ⟨e, he, by simpa using hlive⟩
      rw [if_neg (by omega)]
      exact ⟨hslot, hmasked, rfl⟩

/-- Where the log is reorganized a slot is free afterwards. -/
theorem reorganize_slot (hle : log.length ≤ C.flashNameMaxArray) {data : List UInt8}
    (h : if log.length < C.flashNameMaxArray then
      ¬total List.length log + data.length < flashSectorSize
      else ∃ e ∈ log, e.live = false) : (log.filter (·.live)).length < C.flashNameMaxArray := by
  have hkept := List.length_filter_le (fun e : Entry (List UInt8) (List UInt8) => e.live) log
  split at h
  · omega
  · obtain ⟨e, he, hlive⟩ := h
    have hlost : (log.filter (·.live)).length < log.length :=
      List.length_filter_lt_length_iff_exists.mpr ⟨e, he, by simp [hlive]⟩
    omega

/-- A new entry goes behind the last one, or into the compacted log. -/
theorem Written.setNameDataNewAddr {flash : MatterFlash}
    (h : Written C flash.content nameSector dataSector log)
    (hlt : nameSector < dataSector) (hnames : ∀ e ∈ log, NameFits C.sizeofUcName e.key)
    {name data : List UInt8} (hname : NameFits C.sizeofUcName name)
    (hle : log.length ≤ C.flashNameMaxArray)
    (hdata : data.length + flashSectorSize < 4294967296) {nameData : NameFlash}
    (hrecord : nameData.value.ucName = storedName C.sizeofUcName name) :
    let result := bkSetNameDataNewAddr C .all flash (flashSectorSize * dataSector)
      (flashSectorSize * nameSector) data nameData
    let appended := MaskedLog.append List.length C.flashNameMaxArray flashSectorSize log name data
    Written C result.2.content nameSector dataSector appended.2 ∧
      (result.1 = .kNoErr ↔ appended.1 = true) ∧ Confined nameSector dataSector flash result.2 := by
  intro result appended
  rcases h.setNameDataNewAddr_cases hle hdata hrecord with
    ⟨hslot, hroom, hresult⟩ | ⟨hcase, hresult⟩ | ⟨hslot, hmasked, hresult⟩
  · have hnext := h.append hlt (e := ⟨true, name, data⟩) hname hslot (Nat.le_of_lt hroom)
    simp only [result, appended, hresult, MaskedLog.append, if_pos hslot, if_pos hroom]
    exact ⟨hnext.1, by simp, hnext.2⟩
  · obtain ⟨hwritten, hret, hconfined⟩ :=
      h.reorganize hlt hnames hname (reorganize_slot hle hcase) hdata hrecord
        (C.flashNameMaxArray - log.length)
    have happended : appended = compact List.length flashSectorSize log name data := by
      simp only [appended, MaskedLog.append]
      split at hcase
      case isTrue hslot =>
        rw [if_pos hslot, if_neg hcase]
      case isFalse hslot =>
        rw [if_neg hslot, if_pos hcase]
    rw [happended]
    simp only [result, hresult]
    exact ⟨hwritten, hret, (Written.erase (C := C) hlt flash).2.trans hconfined⟩
  · simp only [result, appended, hresult, MaskedLog.append, if_neg hslot, if_neg hmasked]
    exact ⟨h, by simp, Issued.refl _⟩

end Written

/-- The two sectors of a namespace between two calls. -/
structure Block (C : FlashNamespaceValue) (content : ℕ → UInt8) (nameSector dataSector : ℕ)
    (log : NameLog) : Prop where
  sectors : nameSector < dataSector
  written : Written C content nameSector dataSector log
  fits : ∀ e ∈ log, NameFits C.sizeofUcName e.key
  slots : log.length ≤ C.flashNameMaxArray
  room : total List.length log < flashSectorSize
  distinct : ((pairs log).map Prod.fst).Nodup

/-- What `bk_set_name_data` does to the pairs of a namespace; `none` is the overrun of `data_buf`
by the old value. -/
def setPair (C : FlashNamespaceValue) (ps : List (List UInt8 × List UInt8))
    (name data : List UInt8) : Option (Bool × List (List UInt8 × List UInt8)) :=
  if ((ps.lookup name).getD []).length > dataBufSize then none
  else some (put List.length C.flashNameMaxArray flashSectorSize ps name data)

section Block

variable {C : FlashNamespaceValue} {content content' : ℕ → UInt8} {nameSector dataSector : ℕ}
  {log : NameLog} {name data : List UInt8}

theorem Block.congr (h : Block C content nameSector dataSector log)
    (hsame : ∀ sector, sector = nameSector ∨ sector = dataSector →
      readBytes content' (flashSectorSize * sector) flashSectorSize = readBytes content
        (flashSectorSize * sector) flashSectorSize) :
    Block C content' nameSector dataSector log :=
  ⟨h.sectors, h.written.congr h.slots hsame, h.fits, h.slots, h.room, h.distinct⟩

/-- The log can be read; behind its values there may be bytes of no record. -/
structure Readable (C : FlashNamespaceValue) (content : ℕ → UInt8) (nameSector dataSector : ℕ)
    (log : NameLog) : Prop where
  names : C.nameFlash.Table content (flashSectorSize * nameSector) (nameSlots C log)
  values : ∃ extra, Filled content (flashSectorSize * dataSector) flashSectorSize
    (log.flatMap (·.value) ++ extra)
  fits : ∀ e ∈ log, NameFits C.sizeofUcName e.key
  slots : log.length ≤ C.flashNameMaxArray
  distinct : ((pairs log).map Prod.fst).Nodup

theorem Block.readable (h : Block C content nameSector dataSector log) :
    Readable C content nameSector dataSector log :=
  ⟨h.written.names, ⟨[], by rw [List.append_nil]; exact h.written.values⟩, h.fits, h.slots,
    h.distinct⟩

/-- The lookup of a name: the pairs have none, or the log has a live entry for it. -/
theorem Readable.getNameAddr {flash : MatterFlash}
    (h : Readable C flash.content nameSector dataSector log)
    (hname : name.length < C.sizeofUcName) :
    ((pairs log).lookup name = none ∧ getNameAddr C .all flash name (flashSectorSize * nameSector) =
      none) ∨
    ∃ before v after, log = before ++ ⟨true, name, v⟩ :: after ∧ (pairs log).lookup name = some v ∧
      getNameAddr C .all flash name (flashSectorSize * nameSector) =
        some (before.length * C.nameFlash.size, total List.length before) := by
  have hrecords := getNameAddrLoop_records h.fits hname 0 0 (C.flashNameMaxArray - log.length)
  rw [← nameDataArr_table h.names h.slots] at hrecords
  rcases hrecords with ⟨hnot, hnone⟩ | ⟨before, v, after, rfl, hsome⟩
  · exact Or.inl ⟨lookup_eq_none_of_notMem hnot, hnone⟩
  · refine Or.inr ⟨before, v, after, rfl, lookup_pairs_entry h.distinct, ?_⟩
    simpa [Matter.getNameAddr, Allocs.all] using hsome

/-- The record of an entry, read on its own. -/
theorem Readable.record {before after : NameLog} {k v : List UInt8} {live : Bool}
    (h : Readable C content nameSector dataSector (before ++ ⟨live, k, v⟩ :: after)) :
    C.nameFlash.decode
        (readBytes content (flashSectorSize * nameSector + before.length * C.nameFlash.size)
          C.nameFlash.size) =
      nameRecord C (total List.length before) ⟨live, k, v⟩ :=
  h.names.record (nameSlots_entry before after ⟨live, k, v⟩)

/-- The value of an entry, or a beginning of it. -/
theorem Readable.value {before after : NameLog} {k v : List UInt8} {live : Bool} {n : ℕ}
    (h : Readable C content nameSector dataSector (before ++ ⟨live, k, v⟩ :: after))
    (hn : n ≤ v.length) :
    readBytes content (flashSectorSize * dataSector + total List.length before) n = v.take n := by
  obtain ⟨extra, hvalues⟩ := h.values
  have hlen : total List.length before + n ≤
      ((before ++ ⟨live, k, v⟩ :: after : NameLog).flatMap (·.value)).length := by
    rw [flatMap_value_length, total_append, total_cons]
    dsimp only
    omega
  rw [hvalues.slice (by rw [List.length_append]; omega), slice_append_left hlen,
    List.flatMap_append, List.flatMap_cons, ← flatMap_value_length]
  simp [slice, List.take_append, Nat.sub_eq_zero_of_le hn]

/-- Masking an entry takes its pair out. -/
theorem Block.mask {flash : MatterFlash} {before after : NameLog} {k v bytes : List UInt8}
    (h : Block C flash.content nameSector dataSector (before ++ ⟨true, k, v⟩ :: after))
    (hbytes : bytes = packLe32 C.flashSpaceMask ∨
      bytes = C.nameFlash.encode (nameRecord C (total List.length before) ⟨false, k, v⟩)) :
    let masked := bkFlashWriteBytes flash
      (flashSectorSize * nameSector + before.length * C.nameFlash.size) bytes
    Block C masked.content nameSector dataSector (before ++ ⟨false, k, v⟩ :: after) ∧
      pairs (before ++ ⟨false, k, v⟩ :: after) = (pairs (before ++ ⟨true, k, v⟩ :: after)).filter
        (fun p => p.1 != k) ∧
      Confined nameSector dataSector flash masked := by
  intro masked
  obtain ⟨hwritten, hsame⟩ := h.written.mask h.sectors h.slots hbytes
  have hpairs := pairs_mask h.distinct
  have hfits := h.fits
  have hslots := h.slots
  have hroom := h.room
  simp only [List.mem_append, List.mem_cons, List.length_append, List.length_cons, total_append,
    total_cons] at hfits hslots hroom
  refine ⟨⟨h.sectors, hwritten, ?_, ?_, ?_, ?_⟩, hpairs, hsame⟩
  · intro e he
    rcases List.mem_append.mp he with he | he
    · exact hfits e (Or.inl he)
    · rcases List.mem_cons.mp he with rfl | he
      · exact hfits ⟨true, k, v⟩ (Or.inr (Or.inl rfl))
      · exact hfits e (Or.inr (Or.inr he))
  · simpa using hslots
  · simpa using hroom
  · rw [hpairs]
    exact nodup_filter_keys h.distinct _

theorem mem_append_snd {e : Entry (List UInt8) (List UInt8)} {capacity room : ℕ}
    (h : e ∈ (MaskedLog.append List.length capacity room log name data).2) :
    e ∈ log ∨ e = ⟨true, name, data⟩ := by
  have hcompact : ∀ {x : Entry (List UInt8) (List UInt8)}, x ∈
    (compact List.length room log name data).2 →
      x ∈ log ∨ x = ⟨true, name, data⟩ := by
    intro x hx
    simp only [compact] at hx
    split at hx
    · rcases List.mem_append.mp hx with hx | hx
      · exact Or.inl (List.mem_of_mem_filter hx)
      · exact Or.inr (List.mem_singleton.mp hx)
    · exact Or.inl (List.mem_of_mem_filter hx)
  simp only [MaskedLog.append] at h
  split at h
  · split at h
    · rcases List.mem_append.mp h with h | h
      · exact Or.inl h
      · exact Or.inr (List.mem_singleton.mp h)
    · exact hcompact h
  · split at h
    · exact hcompact h
    · exact Or.inl h

/-- Adding a pair for a name without one. -/
theorem Block.add {flash : MatterFlash} (h : Block C flash.content nameSector dataSector log)
    (hname : NameFits C.sizeofUcName name) (hdata : data.length + flashSectorSize < 4294967296)
    (hfresh : (pairs log).lookup name = none) {nameData : NameFlash}
    (hrecord : nameData.value.ucName = storedName C.sizeofUcName name) :
    let result := bkSetNameDataNewAddr C .all flash (flashSectorSize * dataSector)
      (flashSectorSize * nameSector) data nameData
    ∃ log', Block C result.2.content nameSector dataSector log' ∧
      pairs log' = (put List.length C.flashNameMaxArray flashSectorSize (pairs log) name data).2 ∧
      (result.1 = .kNoErr ↔
        (put List.length C.flashNameMaxArray flashSectorSize (pairs log) name data).1 = true) ∧
      Confined nameSector dataSector flash result.2 := by
  intro result
  obtain ⟨hwritten, hret, hsame⟩ :=
    h.written.setNameDataNewAddr h.sectors h.fits hname h.slots hdata hrecord
  have hpairs : pairs
      (MaskedLog.append List.length C.flashNameMaxArray flashSectorSize log name data).2 = _ :=
    pairs_append_snd h.slots
  have hfst : (MaskedLog.append List.length C.flashNameMaxArray flashSectorSize log name data).1 =
      true ↔ _ :=
    append_fst h.slots
  have hput : put List.length C.flashNameMaxArray flashSectorSize (pairs log) name data = _ :=
    put_fresh hfresh
  have hsnd : pairs (MaskedLog.append List.length C.flashNameMaxArray flashSectorSize log name
    data).2 = (put List.length C.flashNameMaxArray flashSectorSize (pairs log) name data).2 := by
    rw [hpairs, hput]
    split <;> rfl
  refine ⟨_, ⟨h.sectors, hwritten, ?_, length_append_snd h.slots, total_append_snd h.room, ?_⟩,
    hsnd, ?_, hsame⟩
  · intro e he
    rcases mem_append_snd he with he | rfl
    · exact h.fits e he
    · exact hname
  · rw [hsnd]
    exact nodup_put h.distinct
  · rw [hret, hfst, hput]
    split <;> simp_all

/-- `bk_set_name_data` sets the pair of a name. -/
theorem Block.bkSetNameData {flash : MatterFlash}
    (h : Block C flash.content nameSector dataSector log)
    (hname : NameFits C.sizeofUcName name) (hdata : data.length + flashSectorSize < 4294967296)
    {dwNOffsetAddr dwOffsetBlock : ℕ}
    (hsec : C.baseAddr + dwNOffsetAddr = flashSectorSize * nameSector)
    (hblock : dataSectorAddr C dwOffsetBlock = flashSectorSize * dataSector) :
    (setPair C (pairs log) name data = none ∧
      bkSetNameData C .all flash name data dwNOffsetAddr dwOffsetBlock = none) ∨
    ∃ ok ps' ret flash' log', setPair C (pairs log) name data = some (ok, ps') ∧
      bkSetNameData C .all flash name data dwNOffsetAddr dwOffsetBlock = some (ret, flash') ∧
      Block C flash'.content nameSector dataSector log' ∧ pairs log' = ps' ∧
        (ret = .kNoErr ↔ ok = true) ∧
      Confined nameSector dataSector flash flash' := by
  simp only [Matter.bkSetNameData, setPair, hsec, hblock]
  rcases h.readable.getNameAddr hname.1 with ⟨hfresh, haddr⟩ | ⟨before, v, after, rfl, hfound,
    haddr⟩
  · rw [haddr, hfresh]
    right
    obtain ⟨log', hb, hpairs, hret, hsame⟩ :=
      @Block.add _ _ _ _ _ data _ h hname hdata hfresh ⟨C.flashSpaceUsing, 0, data.length,
        storedName C.sizeofUcName name⟩ rfl
    exact ⟨_, _, _, _, log', by simp [dataBufSize], rfl, hb, hpairs, hret, hsame⟩
  · rw [haddr, hfound]
    simp only [bkFlashReadBytes, h.readable.record, nameRecord, Option.getD_some]
    by_cases hlong : v.length > dataBufSize
    · left
      simp [hlong]
    · right
      rw [if_neg hlong, if_neg hlong, h.readable.value (Nat.le_refl _), List.take_length]
      by_cases hequal : v = data
      · subst hequal
        rw [if_neg (by simp)]
        rw [put_same hfound]
        exact ⟨_, _, _, _, _, rfl, rfl, h, rfl, by simp, Issued.refl _⟩
      · have hdiffer : v.length ≠ data.length ∨ v.take data.length ≠ data := by
          by_contra hsame
          simp only [not_or, not_not] at hsame
          rw [← hsame.1, List.take_length] at hsame
          exact hequal hsame.2
        rw [if_pos hdiffer]
        obtain ⟨hb, hpairs, hsame⟩ :=
          h.mask (Or.inr (Eq.refl
            (C.nameFlash.encode (nameRecord C (total List.length before) ⟨false, name, v⟩))))
        have hnew : (pairs (before ++ ⟨false, name, v⟩ :: after)).lookup name = none := by
          rw [hpairs]
          exact lookup_filter_self _ _
        have hold : (pairs (before ++ ⟨true, name, v⟩ :: after)).lookup name ≠ some data := by
          rw [hfound]
          simpa using hequal
        rw [put_filter hold, ← hpairs]
        obtain ⟨log', hb', hpairs', hret, hsame'⟩ := @Block.add _ _ _ _ _ data _ hb hname hdata hnew
          (nameRecord C (total List.length before) ⟨false, name, v⟩) rfl
        refine ⟨_, _, _, _, log', rfl, ?_, hb', hpairs', hret, hsame.trans hsame'⟩
        -- the record that is read back is the masked one
        have hback := hb.readable.record
        simp only [nameRecord, Bool.false_eq_true, if_false] at hback ⊢
        rw [hback]

end Block

end Sonoff.Matter
