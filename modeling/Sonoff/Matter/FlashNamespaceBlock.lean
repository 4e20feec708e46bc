import Sonoff.Base.MaskedLog
import Sonoff.Matter.FlashNamespace

/-! # The two sectors of a namespace

A namespace is a log of masked and live entries: the records in its name sector,
in order, each with the offset of its value, and the values one behind the other
in its data sector. Setting a value appends to that log, compacting it where that
is needed, and reaches no other sector.
-/
namespace Sonoff.Matter
open Bytes NorFlash MaskedLog

abbrev NameLog := List (Entry (List UInt8) (List UInt8))

def NameFits (size : ℕ) (name : List UInt8) : Prop := name.length < size ∧ ∀ b ∈ name, b ≠ 0

instance (size : ℕ) (name : List UInt8) : Decidable (NameFits size name) :=
  @instDecidableAnd _ _ (Nat.decLt _ _) (List.decidableBAll (fun b => b ≠ 0) name)

variable {size : ℕ} {name query : List UInt8}

theorem bkStrnlen_fits (h : name.length < size) : bkStrnlen name (size - 1) = name.length := by
  unfold bkStrnlen
  split
  · omega
  · rfl

theorem storedName_fits (h : name.length < size) :
    storedName size name = name ++ List.replicate (size - name.length) 0 := by
  rw [storedName, bkStrnlen_fits h, List.take_length]

theorem storedName_length (h : 0 < size) (name : List UInt8) :
    (storedName size name).length = size := by
  simp only [storedName, bkStrnlen, List.length_append, List.length_take, List.length_replicate]
  split <;> omega

theorem cString_storedName (h : NameFits size name) : cString (storedName size name) = name := by
  rw [storedName_fits h.1]
  exact cString_append_zeros h.2 _

/-- Both lookups find exactly the name that was stored. -/
theorem sameName_storedName (h : NameFits size name) (hq : query.length < size) :
    sameName (storedName size name) size query = true ↔ name = query := by
  simp only [sameName, bkStrnlen_fits hq, cString_storedName h, List.take_length, Bool.and_eq_true,
    beq_iff_eq]
  constructor
  · rintro ⟨htake, hlen⟩
    rwa [storedName_fits h.1, ← hlen, List.take_left] at htake
  · rintro rfl
    exact ⟨by rw [storedName_fits h.1, List.take_left], rfl⟩

/-- A name that does not fit its array equals no stored one. -/
theorem sameName_long (h : NameFits size name) (hq : size ≤ query.length) :
    sameName (storedName size name) size query = false := by
  have hlen := h.1
  have hne : (name.length == query.length) = false := by
    rw [beq_eq_false_iff_ne]
    omega
  simp [sameName, cString_storedName h, hne]

section Records

variable (C : FlashNamespaceValue)

def nameRecord (dwOffsetByByte : ℕ) (e : Entry (List UInt8) (List UInt8)) : NameFlash where
  flag := if e.live then C.flashSpaceUsing else C.flashSpaceMask
  value := ⟨dwOffsetByByte, e.value.length, storedName C.sizeofUcName e.key⟩

def nameRecords : ℕ → NameLog → List NameFlash
  | _, [] => []
  | offset, e :: log => nameRecord C offset e :: nameRecords (offset + e.value.length) log

def nameSlots (log : NameLog) : List (Option NameFlash) :=
  (nameRecords C 0 log).map some ++ List.replicate (C.flashNameMaxArray - log.length) none

variable {C} {offset : ℕ} {log : NameLog}

@[simp] theorem nameRecords_length (offset : ℕ) (log : NameLog) :
    (nameRecords C offset log).length = log.length := by
  induction log generalizing offset with
  | nil => rfl
  | cons e log ih => simp [nameRecords, ih]

theorem nameRecords_append (offset : ℕ) (log log' : NameLog) :
    nameRecords C offset (log ++ log') =
      nameRecords C offset log ++ nameRecords C (offset + total List.length log) log' := by
  induction log generalizing offset with
  | nil => simp [nameRecords]
  | cons e log ih => simp [nameRecords, ih, Nat.add_assoc]

theorem nameSlots_length (h : log.length ≤ C.flashNameMaxArray) :
    (nameSlots C log).length = C.flashNameMaxArray := by
  simp only [nameSlots, List.length_append, List.length_map, nameRecords_length,
    List.length_replicate]
  omega

/-- The first slot behind the records is blank. -/
theorem nameSlots_blank (h : log.length < C.flashNameMaxArray) :
    (nameSlots C log)[log.length]? = some none := by
  rw [nameSlots, List.getElem?_append_right (by simp)]
  simp only [List.length_map, nameRecords_length, Nat.sub_self, List.getElem?_replicate]
  rw [if_pos (by omega)]

theorem nameSlots_set_blank (e : Entry (List UInt8) (List UInt8))
    (h : log.length < C.flashNameMaxArray) :
    (nameSlots C log).set log.length (some (nameRecord C (total List.length log) e)) =
      nameSlots C (log ++ [e]) := by
  obtain ⟨rest, hrest⟩ := Nat.exists_eq_add_of_lt h
  have hleft : C.flashNameMaxArray - log.length = rest + 1 := by omega
  have hright : C.flashNameMaxArray - (log.length + 1) = rest := by omega
  simp only [nameSlots, List.length_append, List.length_singleton, hleft, hright,
    nameRecords_append, nameRecords,
    List.replicate_succ, List.map_append, List.map_cons, List.map_nil, Nat.zero_add]
  rw [List.set_append_right _ _ (by simp)]
  simp

/-- The record of an entry inside the log. -/
theorem nameSlots_entry (before after : NameLog) (e : Entry (List UInt8) (List UInt8)) :
    (nameSlots C (before ++ e :: after))[before.length]? =
      some (some (nameRecord C (total List.length before) e)) := by
  rw [nameSlots, List.getElem?_append_left (by simp), nameRecords_append, List.map_append,
    List.getElem?_append_right (by simp)]
  simp [nameRecords]

/-- Masking an entry changes the flag of its record alone. -/
theorem nameSlots_set_entry (before after : NameLog) {e e' : Entry (List UInt8) (List UInt8)}
    (h : e'.value.length = e.value.length) :
    (nameSlots C (before ++ e :: after)).set before.length
    (some (nameRecord C (total List.length before) e')) =
      nameSlots C (before ++ e' :: after) := by
  simp only [nameSlots, nameRecords_append, nameRecords, h, List.map_append, List.map_cons,
    List.length_append, List.length_cons, List.append_assoc]
  rw [List.set_append_right _ _ (by simp)]
  simp

def blankRecord (C : FlashNamespaceValue) : NameFlash := C.nameFlash.slotRecord none

theorem blankRecord_flag (C : FlashNamespaceValue) :
    (blankRecord C).flag ≠ C.flashSpaceUsing ∧ (blankRecord C).flag ≠ C.flashSpaceMask := by
  have hu := C.using_lt
  have hm := C.mask_lt
  have hblank : (blankRecord C).flag = 4294967295 := C.nameFlash.slotRecord_none_flag
  omega

theorem slotRecord_nameSlots (log : NameLog) :
    (nameSlots C log).map C.nameFlash.slotRecord =
      nameRecords C 0 log ++ List.replicate (C.flashNameMaxArray - log.length) (blankRecord C) := by
  simp only [nameSlots, List.map_append, List.map_map, List.map_replicate]
  congr 1
  exact List.map_id _

theorem getNameAddrLoop_blank (q : List UInt8) (i n : ℕ) :
    getNameAddrLoop C q i (List.replicate n (blankRecord C)) = none := by
  induction n generalizing i with
  | zero => rfl
  | succ n ih =>
    rw [List.replicate_succ, getNameAddrLoop, if_pos (blankRecord_flag C).1]
    exact ih (i + 1)

/-- The lookup finds the first live entry of the name, with the offset of its value. -/
theorem getNameAddrLoop_records {q : List UInt8} (hnames : ∀ e ∈ log, NameFits C.sizeofUcName e.key)
    (hq : q.length < C.sizeofUcName) (i offset n : ℕ) :
    (q ∉ (pairs log).map Prod.fst ∧
      getNameAddrLoop C q i (nameRecords C offset log ++ List.replicate n (blankRecord C)) = none) ∨
    ∃ before v after, log = before ++ ⟨true, q, v⟩ :: after ∧
      getNameAddrLoop C q i (nameRecords C offset log ++ List.replicate n (blankRecord C)) =
        some ((i + before.length) * C.nameFlash.size, offset + total List.length before) := by
  induction log generalizing i offset with
  | nil => exact Or.inl ⟨by simp, getNameAddrLoop_blank q i n⟩
  | cons e log ih =>
    have hrest := ih (fun x hx => hnames x (List.mem_cons_of_mem _ hx)) (i + 1)
      (offset + e.value.length)
    obtain ⟨live, key, value⟩ := e
    have hkey : NameFits C.sizeofUcName key := hnames _ List.mem_cons_self
    simp only [nameRecords, List.cons_append, getNameAddrLoop, nameRecord, pairs_cons]
    by_cases hfound : live = true ∧ key = q
    · obtain ⟨rfl, rfl⟩ := hfound
      right
      refine ⟨[], value, log, rfl, ?_⟩
      simp [(sameName_storedName hkey hq).mpr rfl]
    · -- the entry is skipped: it is masked, or has another name
      have hskip : ∀ found rest : Option (ℕ × ℕ),
          (if (if live = true then C.flashSpaceUsing else C.flashSpaceMask) ≠ C.flashSpaceUsing then
            rest
            else if sameName (storedName C.sizeofUcName key) C.sizeofUcName q = true then found
                else rest) = rest := by
        intro found rest
        cases live with
        | false => simp [Ne.symm C.using_ne_mask]
        | true =>
          have hne : sameName (storedName C.sizeofUcName key) C.sizeofUcName q ≠ true := by
            intro h
            exact hfound ⟨rfl, (sameName_storedName hkey hq).mp h⟩
          simp [hne]
      rw [hskip]
      rcases hrest with ⟨hnot, hnone⟩ | ⟨before, v, after, rfl, hsome⟩
      · left
        refine ⟨?_, hnone⟩
        split
        case isTrue hlive =>
          simp only [List.map_cons, List.mem_cons, not_or]
          exact ⟨fun h => hfound ⟨hlive, h.symm⟩, hnot⟩
        case isFalse => exact hnot
      · right
        refine ⟨⟨live, key, value⟩ :: before, v, after, rfl, ?_⟩
        rw [hsome]
        simp only [List.length_cons, total_cons, Option.some.injEq, Prod.mk.injEq]
        exact ⟨by congr 1; omega, by omega⟩

/-- No stored name is a name that does not fit. -/
theorem getNameAddrLoop_long {q : List UInt8} (hnames : ∀ e ∈ log, NameFits C.sizeofUcName e.key)
    (hq : C.sizeofUcName ≤ q.length) (i offset n : ℕ) :
    getNameAddrLoop C q i (nameRecords C offset log ++ List.replicate n (blankRecord C)) =
      none := by
  induction log generalizing i offset with
  | nil => exact getNameAddrLoop_blank q i n
  | cons e log ih =>
    have hrest := ih (fun x hx => hnames x (List.mem_cons_of_mem _ hx)) (i + 1)
      (offset + e.value.length)
    have hlong := sameName_long (hnames e List.mem_cons_self) hq
    simp only [nameRecords, List.cons_append, getNameAddrLoop, nameRecord, hlong,
      Bool.false_eq_true, if_false, ite_self]
    exact hrest

def maskCount (log : NameLog) : ℕ := (log.filter fun e => !e.live).length

/-- The scan stops at the first blank slot, behind the last value. -/
theorem nameScan_records (offset i m n : ℕ) (hlt : offset + total List.length log < 4294967296) :
    nameScan C i offset m (nameRecords C offset log ++ List.replicate n (blankRecord C)) =
      if n = 0 then .full (m + maskCount log)
          else .slot (i + log.length) (offset + total List.length log) := by
  induction log generalizing offset i m with
  | nil =>
    cases n with
    | zero => simp [nameRecords, nameScan, maskCount]
    | succ n => simp [nameRecords, nameScan, List.replicate_succ, blankRecord_flag C]
  | cons e log ih =>
    rw [total_cons] at hlt
    have hoff : u32Add offset e.value.length = offset + e.value.length := u32Add_eq (by omega)
    have hrest := ih (offset + e.value.length) (i + 1)
      (if e.live = true then m else m + 1) (by omega)
    cases hlive : e.live with
    | true =>
      simp only [hlive, if_true] at hrest
      simp only [nameRecords, List.cons_append, nameScan, nameRecord, hlive, if_true, ne_eq,
        not_true_eq_false, false_and, if_false, hoff, C.using_ne_mask, hrest, total_cons,
        List.length_cons, maskCount]
      rw [List.filter_cons_of_neg (by simp [hlive])]
      split
      · rfl
      · congr 1 <;> omega
    | false =>
      simp only [hlive, Bool.false_eq_true, if_false] at hrest
      simp only [nameRecords, List.cons_append, nameScan, nameRecord, hlive, Bool.false_eq_true,
        if_false, ne_eq, not_true_eq_false, and_false, if_true, hoff, hrest, total_cons,
        List.length_cons, maskCount]
      rw [List.filter_cons_of_pos (by simp [hlive])]
      split
      · simp only [List.length_cons]
        congr 1
        omega
      · congr 1 <;> omega

end Records

def MatterFlash.applyAll (flash : MatterFlash) (ops : List FlashOp) :
    MatterFlash := ops.foldl MatterFlash.apply flash

theorem applyAll_content (flash : MatterFlash) (ops : List FlashOp) :
    (flash.applyAll ops).content = effects flashSectorSize flash.content ops := by
  induction ops generalizing flash with
  | nil => rfl
  | cons op ops ih => exact ih (flash.apply op)

/-- One flash comes from another by operations in some sectors, and every write among them reads
back. -/
def Issued (P : ℕ → Prop) (flash flash' : MatterFlash) : Prop :=
  ∃ ops, flash' = flash.applyAll ops ∧ (∀ op ∈ ops, ∃ k, P k ∧ op.InSector flashSectorSize k) ∧
    Programs flashSectorSize flash.content ops

namespace Issued

variable {P Q : ℕ → Prop} {flash flash' flash'' : MatterFlash}

theorem refl (flash : MatterFlash) : Issued P flash flash := ⟨[], rfl, by simp, trivial⟩

theorem trans (h : Issued P flash flash') (h' : Issued P flash' flash'') :
    Issued P flash flash'' := by
  obtain ⟨ops, rfl, hops, hprograms⟩ := h
  obtain ⟨ops', rfl, hops', hprograms'⟩ := h'
  refine ⟨ops ++ ops', (List.foldl_append ..).symm, ?_,
    hprograms.append (by rwa [← applyAll_content])⟩
  intro op hop
  rcases List.mem_append.mp hop with hop | hop
  · exact hops op hop
  · exact hops' op hop

theorem mono (hPQ : ∀ k, P k → Q k) (h : Issued P flash flash') : Issued Q flash flash' := by
  obtain ⟨ops, heq, hops, hprograms⟩ := h
  refine ⟨ops, heq, ?_, hprograms⟩
  intro op hop
  obtain ⟨k, hk, hin⟩ := hops op hop
  exact ⟨k, hPQ k hk, hin⟩

theorem single {op : FlashOp} {k : ℕ} (hk : P k) (hin : op.InSector flashSectorSize k)
    (hback : op.ReadsBack flashSectorSize flash.content) : Issued P flash (flash.apply op) :=
  ⟨[op], rfl, by simpa using ⟨k, hk, hin⟩, hback, trivial⟩

theorem erase {k : ℕ} (hk : P k) :
    Issued P flash (bkFlashEraseSector flash (flashSectorSize * k)) := by
  have hsec : flashSectorSize * k / flashSectorSize = k := Nat.mul_div_cancel_left k (by decide)
  exact single hk ⟨by rw [hsec], rfl⟩ trivial

/-- Sectors without an operation read as before. -/
theorem sector (h : Issued P flash flash') {k : ℕ} (hk : ¬P k) :
    readBytes flash'.content (flashSectorSize * k) flashSectorSize = readBytes flash.content
      (flashSectorSize * k) flashSectorSize := by
  obtain ⟨ops, rfl, hops, -⟩ := h
  rw [applyAll_content]
  exact readBytes_effects (by decide) hk hops

end Issued

abbrev Confined (nameSector dataSector : ℕ) (flash flash' : MatterFlash) : Prop :=
  Issued (fun k => k = nameSector ∨ k = dataSector) flash flash'

/-- The name sector and the data sector hold a log, as far as it has been written. -/
structure Written (C : FlashNamespaceValue) (content : ℕ → UInt8) (nameSector dataSector : ℕ)
    (log : NameLog) : Prop where
  names : C.nameFlash.Table content (flashSectorSize * nameSector) (nameSlots C log)
  values : Filled content (flashSectorSize * dataSector) flashSectorSize (log.flatMap (·.value))

section Written

variable {C : FlashNamespaceValue} {content content' : ℕ → UInt8} {nameSector dataSector : ℕ}
  {log : NameLog}

theorem flatMap_value_length (log : NameLog) :
    (log.flatMap (·.value)).length = total List.length log := by
  induction log with
  | nil => rfl
  | cons e log ih => rw [List.flatMap_cons, List.length_append, total_cons, ih]

theorem Written.total_le (h : Written C content nameSector dataSector log) :
    total List.length log ≤ flashSectorSize := by
  obtain ⟨blank, hlen, -⟩ := h.values
  rw [flatMap_value_length] at hlen
  omega

theorem Written.congr (h : Written C content nameSector dataSector log)
    (hle : log.length ≤ C.flashNameMaxArray)
    (hsame : ∀ sector, sector = nameSector ∨ sector = dataSector →
      readBytes content' (flashSectorSize * sector) flashSectorSize = readBytes content
        (flashSectorSize * sector) flashSectorSize) :
    Written C content' nameSector dataSector log := by
  constructor
  · apply h.names.congr
    have hfit : 0 + (nameSlots C log).length * C.nameFlash.size ≤ flashSectorSize := by
      rw [nameSlots_length hle, Nat.zero_add]
      exact C.names_fit
    rw [← Nat.add_zero (flashSectorSize * nameSector), ← slice_readBytes hfit,
      hsame nameSector (Or.inl rfl), slice_readBytes hfit]
  · exact h.values.congr (hsame dataSector (Or.inr rfl))

/-- Blank sectors hold an empty log. -/
theorem Written.blank
    (hnames : readBytes content (flashSectorSize * nameSector) flashSectorSize =
      List.replicate flashSectorSize 0xFF)
    (hvalues : readBytes content (flashSectorSize * dataSector) flashSectorSize =
      List.replicate flashSectorSize 0xFF) :
    Written C content nameSector dataSector [] := by
  constructor
  · have hslots : nameSlots C [] = List.replicate C.flashNameMaxArray none := by
      simp [nameSlots, nameRecords]
    rw [hslots]
    exact RecordFormat.Table.blank hnames C.names_fit
  · exact Filled.blank hvalues

theorem Written.erase (hlt : nameSector < dataSector) (flash : MatterFlash) :
    let cleared := bkEraseNameData flash (flashSectorSize * nameSector)
      (flashSectorSize * dataSector)
    Written C cleared.content nameSector dataSector [] ∧
      Confined nameSector dataSector flash cleared := by
  intro cleared
  have hsec : ∀ k, flashSectorSize * k / flashSectorSize = k := fun k =>
    Nat.mul_div_cancel_left k (by decide)
  have hapart := sector_le flashSectorSize hlt
  refine ⟨?_, (Issued.erase (Or.inl rfl)).trans (Issued.erase (Or.inr rfl))⟩
  simp only [cleared, bkEraseNameData, bkFlashEraseSector, MatterFlash.apply, hsec]
  apply Written.blank
  · rw [readBytes_erase_apart (by decide) (Or.inl hapart)]
    exact readBytes_erase _ _ _
  · exact readBytes_erase _ _ _

theorem nameRecord_valid {e : Entry (List UInt8) (List UInt8)} {offset : ℕ}
    (hname : NameFits C.sizeofUcName e.key)
    (hoff : offset < 4294967296) (hlen : e.value.length < 4294967296) :
    C.nameFlash.Valid (nameRecord C offset e) := by
  have hu := C.using_lt
  have hm := C.mask_lt
  constructor
  · simp only [nameRecord]
    split <;> omega
  · exact C.name_fits _ hoff hlen (storedName_length (by have := hname.1; omega) _)

/-- A value and then its record behind the log. -/
theorem Written.append {flash : MatterFlash} (h : Written C flash.content nameSector dataSector log)
    (hlt : nameSector < dataSector)
    {e : Entry (List UInt8) (List UInt8)} (hname : NameFits C.sizeofUcName e.key)
    (hslot : log.length < C.flashNameMaxArray)
    (hroom : total List.length log + e.value.length ≤ flashSectorSize) :
    let valued := bkFlashWriteBytes flash (flashSectorSize * dataSector + total List.length log)
      e.value
    let recorded := bkFlashWriteBytes valued
      (flashSectorSize * nameSector + log.length * C.nameFlash.size)
      (C.nameFlash.encode (nameRecord C (total List.length log) e))
    Written C recorded.content nameSector dataSector (log ++ [e]) ∧
      Confined nameSector dataSector flash recorded := by
  intro valued recorded
  have hapart := sector_le flashSectorSize hlt
  have hfit : C.flashNameMaxArray * C.nameFlash.size ≤ flashSectorSize := C.names_fit
  have hend := RecordFormat.Table.slot_le (F := C.nameFlash) hslot
  have hsize : flashSectorSize < 4294967296 := by decide
  have hvalid : C.nameFlash.Valid (nameRecord C (total List.length log) e) :=
    nameRecord_valid hname (by omega) (by omega)
  have hrec := RecordFormat.encode_length hvalid
  have hslots : (nameSlots C log).length = C.flashNameMaxArray :=
    nameSlots_length (Nat.le_of_lt hslot)
  have hvalues : Filled valued.content (flashSectorSize * dataSector) flashSectorSize
      (log.flatMap (·.value) ++ e.value) := by
    have hend : (log.flatMap (·.value)).length + e.value.length ≤ flashSectorSize := by
      rw [flatMap_value_length]
      exact hroom
    have hw := @Filled.write _ _ flashSectorSize _ _ _ h.values hend
    rwa [flatMap_value_length] at hw
  have hnames : C.nameFlash.Table valued.content (flashSectorSize * nameSector)
      (nameSlots C log) := by
    apply h.names.congr
    rw [hslots, bkFlashWriteBytes_content]
    exact readBytes_write_apart (Or.inl (by omega))
  have hrecorded : C.nameFlash.Table recorded.content (flashSectorSize * nameSector)
      (nameSlots C (log ++ [e])) := by
    rw [← nameSlots_set_blank e hslot, bkFlashWriteBytes_content]
    exact hnames.write_blank (nameSlots_blank hslot) hvalid
  refine ⟨⟨hrecorded, ?_⟩, ?_⟩
  · simp only [List.flatMap_append, List.flatMap_cons, List.flatMap_nil, List.append_nil]
    rw [bkFlashWriteBytes_content]
    exact hvalues.congr (readBytes_write_apart (Or.inr (by omega)))
  · have hvalue : (FlashOp.write (flashSectorSize * dataSector + total List.length log)
      e.value).ReadsBack flashSectorSize
        flash.content := by
      have hread := hvalues.slice
          (show total List.length log + e.value.length ≤
          (log.flatMap (·.value) ++ e.value).length by
        rw [List.length_append, flatMap_value_length])
      rw [← flatMap_value_length, slice_append_right (Nat.le_refl _), Nat.sub_self, slice_all,
        flatMap_value_length] at hread
      exact hread
    have hrecord : (FlashOp.write (flashSectorSize * nameSector + log.length * C.nameFlash.size)
        (C.nameFlash.encode (nameRecord C (total List.length log) e))).ReadsBack flashSectorSize
          valued.content := by
      have hbytes := hrecorded.bytes log.length _ (nameSlots_entry log [] e)
      rw [FlashOp.ReadsBack, hrec]
      exact hbytes
    refine Issued.trans (Issued.single (Or.inr rfl) ?_ hvalue)
      (Issued.single (Or.inl rfl) ?_ hrecord)
    · exact ⟨Nat.le_add_right _ _, by omega⟩
    · exact ⟨Nat.le_add_right _ _, by omega⟩

/-- Masking the flag of an entry's record, alone or with the rest of the record. -/
theorem Written.mask {flash : MatterFlash} {before after : NameLog} {k v bytes : List UInt8}
    (hlt : nameSector < dataSector)
    (h : Written C flash.content nameSector dataSector (before ++ ⟨true, k, v⟩ :: after))
    (hle : (before ++ ⟨true, k, v⟩ :: after : NameLog).length ≤ C.flashNameMaxArray)
    (hbytes : bytes = packLe32 C.flashSpaceMask ∨
      bytes = C.nameFlash.encode (nameRecord C (total List.length before) ⟨false, k, v⟩)) :
    let masked := bkFlashWriteBytes flash
      (flashSectorSize * nameSector + before.length * C.nameFlash.size) bytes
    Written C masked.content nameSector dataSector (before ++ ⟨false, k, v⟩ :: after) ∧
      Confined nameSector dataSector flash masked := by
  intro masked
  have hapart := sector_le flashSectorSize hlt
  have hfit : C.flashNameMaxArray * C.nameFlash.size ≤ flashSectorSize := C.names_fit
  have hslot : before.length < C.flashNameMaxArray := by
    simp only [List.length_append, List.length_cons] at hle
    omega
  have hend := RecordFormat.Table.slot_le (F := C.nameFlash) hslot
  have hmask : C.flashSpaceMask < 4294967296 := Nat.lt_succ_of_lt C.mask_lt
  have hentry := nameSlots_entry (C := C) before after ⟨true, k, v⟩
  have hvalid := h.names.valid _ _ hentry
  have hsize : bytes.length ≤ C.nameFlash.size := by
    rcases hbytes with rfl | rfl
    · exact C.nameFlash.flag_le
    · exact Nat.le_of_eq (RecordFormat.encode_length ⟨hmask, hvalid.2⟩)
  have hset : (nameSlots C (before ++ ⟨true, k, v⟩ :: after)).set before.length
      (some (nameRecord C (total List.length before) ⟨false, k, v⟩)) =
        nameSlots C (before ++ ⟨false, k, v⟩ :: after) :=
    nameSlots_set_entry before after rfl
  have hmasked : C.nameFlash.Table masked.content (flashSectorSize * nameSector)
      (nameSlots C (before ++ ⟨false, k, v⟩ :: after)) := by
    rw [← hset, bkFlashWriteBytes_content]
    rcases hbytes with rfl | rfl
    · exact h.names.write_flag hentry hmask C.mask_clears
    · exact h.names.write_flagged hentry hmask C.mask_clears
  have hback : (FlashOp.write (flashSectorSize * nameSector + before.length * C.nameFlash.size)
    bytes).ReadsBack flashSectorSize
      flash.content := by
    have hslotBytes := hmasked.bytes before.length _ (nameSlots_entry before after ⟨false, k, v⟩)
    rw [FlashOp.ReadsBack]
    rcases hbytes with rfl | rfl
    · obtain ⟨rest, hrest⟩ := Nat.exists_eq_add_of_le C.nameFlash.flag_le
      rw [hrest, readBytes_add, ← hrest] at hslotBytes
      exact (List.append_inj hslotBytes (by simp)).1
    · rw [RecordFormat.encode_length
        (hmasked.valid before.length _ (nameSlots_entry before after ⟨false, k, v⟩))]
      exact hslotBytes
  refine ⟨⟨hmasked, ?_⟩, Issued.single (Or.inl rfl) ⟨Nat.le_add_right _ _, by omega⟩ hback⟩
  · have hvalues := h.values
    simp only [List.flatMap_append, List.flatMap_cons] at hvalues ⊢
    rw [bkFlashWriteBytes_content]
    exact hvalues.congr (readBytes_write_apart (Or.inr (by omega)))

end Written

end Sonoff.Matter
