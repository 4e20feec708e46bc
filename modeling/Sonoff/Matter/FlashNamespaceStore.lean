import Sonoff.Matter.FlashNamespaceSet

/-! # The directory of namespaces

The directory has one slot for each pair of sectors. A call on a namespace
changes its two sectors or its slot, so that the other namespaces keep what they
hold.
-/
namespace Sonoff.Matter
open Bytes NorFlash MaskedLog

structure Space where
  name : List UInt8
  log : NameLog
  deriving DecidableEq, Repr

/-- The log behind a slot; an unused pair of sectors is blank. -/
def slotLog : Option Space → NameLog
  | some s => s.log
  | none => []

section Sectors

variable (C : FlashNamespaceValue)

def nameSector (block : ℕ) : ℕ := C.startSector + 1 + block
def dataSector (block : ℕ) : ℕ := C.startSector + 1 + C.flashNameSpaceMaxArray + block

theorem dataSectorAddr_eq (block : ℕ) :
    dataSectorAddr C block = flashSectorSize * dataSector C block := by
  simp only [dataSectorAddr, FlashNamespaceValue.baseAddr,
    FlashNamespaceValue.nameFlashDataBaseAddr, nameSpaceFlashTotalSize,
    nameFlashTotalSize, flashSectorSize, dataSector]
  omega

theorem nameSectorAddr_eq (block : ℕ) :
    C.baseAddr + (block * nameFlashTotalSize + nameSpaceFlashTotalSize) =
      flashSectorSize * nameSector C block := by
  simp only [FlashNamespaceValue.baseAddr, nameSpaceFlashTotalSize, nameFlashTotalSize,
    flashSectorSize, nameSector]
  omega

def dirRecord (block : ℕ) (name : List UInt8) : NamespaceFlash :=
  ⟨C.flashSpaceUsing, block * nameFlashTotalSize + nameSpaceFlashTotalSize,
    storedName C.sizeofUcNamespace name⟩

def dirSlots (spaces : List (Option Space)) : List (Option NamespaceFlash) :=
  spaces.mapIdx fun block slot => slot.map fun s => dirRecord C block s.name

end Sectors

structure Directory (C : FlashNamespaceValue) (content : ℕ → UInt8) (spaces : List (Option Space)) :
    Prop where
  length : spaces.length = C.flashNameSpaceMaxArray
  directory : C.namespaceFlash.Table content C.baseAddr (dirSlots C spaces)
  fits : ∀ s, some s ∈ spaces → NameFits C.sizeofUcNamespace s.name
  distinct : ∀ (block block' : ℕ) (s s' : Space), spaces[block]? = some (some s) →
    spaces[block']? = some (some s') → s.name = s'.name → block = block'

structure Stored (C : FlashNamespaceValue) (content : ℕ → UInt8) (spaces : List (Option Space)) :
    Prop extends Directory C content spaces where
  blocks : ∀ (block : ℕ) (slot : Option Space), spaces[block]? = some slot →
    Block C content (nameSector C block) (dataSector C block) (slotLog slot)

section Stored

variable {C : FlashNamespaceValue} {content content' : ℕ → UInt8} {spaces : List (Option Space)}
  {q : List UInt8}

@[simp] theorem dirSlots_length (spaces : List (Option Space)) :
    (dirSlots C spaces).length = spaces.length := by
  simp [dirSlots]

theorem dirSlots_getElem? (spaces : List (Option Space)) (block : ℕ) :
    (dirSlots C spaces)[block]? = spaces[block]?.map fun slot => slot.map fun s =>
    dirRecord C block s.name := by
  simp [dirSlots]

theorem dirSlots_set (spaces : List (Option Space)) (block : ℕ) (slot : Option Space) :
    dirSlots C (spaces.set block slot) = (dirSlots C spaces).set block (slot.map fun s =>
      dirRecord C block s.name) := by
  apply List.ext_getElem?
  intro i
  rw [dirSlots_getElem?, List.getElem?_set, List.getElem?_set, dirSlots_getElem?, dirSlots_length]
  split
  case isTrue h =>
    subst h
    split <;> rfl
  case isFalse => rfl

theorem dirRecord_valid {block : ℕ} {name : List UInt8} (hblock : block < C.flashNameSpaceMaxArray)
    (hname : NameFits C.sizeofUcNamespace name) :
    C.namespaceFlash.Valid (dirRecord C block name) := by
  have hu := C.using_lt
  have hsectors := C.partition_fits
  have hpartition := C.partition_lt
  have hle : flashSectorSize * (block + 1) ≤ flashSectorSize * C.sectors :=
    Nat.mul_le_mul_left _ (by omega)
  have haddr : block * nameFlashTotalSize + nameSpaceFlashTotalSize =
      flashSectorSize * (block + 1) := by
    simp only [nameFlashTotalSize, nameSpaceFlashTotalSize, flashSectorSize]
    omega
  refine ⟨by simp only [dirRecord]; omega,
    C.namespace_fits _ ?_ (storedName_length (by have := hname.1; omega) _)⟩
  simp only [dirRecord]
  omega

/-- The directory's records in RAM. -/
theorem Directory.namespaceDataArr {flash : MatterFlash} (h : Directory C flash.content spaces) :
    namespaceDataArr C flash = (dirSlots C spaces).map C.namespaceFlash.slotRecord := by
  have hlen : (dirSlots C spaces).length = C.flashNameSpaceMaxArray := by
    rw [dirSlots_length, h.length]
  have hrecords := h.directory.records (n := C.nameSpaceFlashActualUseSize)
    (by rw [hlen, FlashNamespaceValue.nameSpaceFlashActualUseSize])
  rwa [hlen] at hrecords

theorem blankNamespace_flag : (C.namespaceFlash.slotRecord none).flag ≠ C.flashSpaceUsing := by
  have hu := C.using_lt
  have hblank : (C.namespaceFlash.slotRecord none).flag = 4294967295 :=
    C.namespaceFlash.slotRecord_none_flag
  omega

/-- The lookup of a namespace in the part of the directory from a slot on. -/
theorem getNamespaceAddrLoop_slots (hq : q.length < C.sizeofUcNamespace)
    (rest : List (Option Space)) (hfits : ∀ s, some s ∈ rest → NameFits C.sizeofUcNamespace s.name)
    (first : ℕ) : ((∀ s, some s ∈ rest → s.name ≠ q) ∧ getNamespaceAddrLoop C q first
      ((rest.mapIdx fun i slot => slot.map fun s => dirRecord C (first + i) s.name).map
        C.namespaceFlash.slotRecord) = none) ∨
    ∃ i s, rest[i]? = some (some s) ∧ s.name = q ∧ getNamespaceAddrLoop C q first
      ((rest.mapIdx fun i slot => slot.map fun s => dirRecord C (first + i) s.name).map
        C.namespaceFlash.slotRecord) =
        some ((first + i) * nameFlashTotalSize + nameSpaceFlashTotalSize, first + i) := by
  induction rest generalizing first with
  | nil => exact Or.inl ⟨by simp, rfl⟩
  | cons slot rest ih =>
    have hrest := ih (fun s hs => hfits s (List.mem_cons_of_mem _ hs)) (first + 1)
    have hshift : (fun i (slot : Option Space) => slot.map fun s =>
      dirRecord C (first + (i + 1)) s.name) =
        fun i slot => slot.map fun s => dirRecord C (first + 1 + i) s.name := by
      funext i slot
      rw [show first + (i + 1) = first + 1 + i by omega]
    rw [List.mapIdx_cons, List.map_cons, hshift, Nat.add_zero]
    have hlift : (∀ s, slot = some s → s.name ≠ q) →
        (getNamespaceAddrLoop C q first
          (C.namespaceFlash.slotRecord (slot.map fun s => dirRecord C first s.name) ::
            (rest.mapIdx fun i slot => slot.map fun s => dirRecord C (first + 1 + i) s.name).map
              C.namespaceFlash.slotRecord) =
          getNamespaceAddrLoop C q (first + 1)
            ((rest.mapIdx fun i slot => slot.map fun s => dirRecord C (first + 1 + i) s.name).map
                C.namespaceFlash.slotRecord)) := by
      intro hne
      rw [getNamespaceAddrLoop]
      cases slot with
      | none => exact if_pos blankNamespace_flag
      | some s =>
        have hother : sameName (storedName C.sizeofUcNamespace s.name) C.sizeofUcNamespace q ≠
            true := by
          intro hsame
          exact hne s rfl ((sameName_storedName (hfits s List.mem_cons_self) hq).mp hsame)
        simp [dirRecord, RecordFormat.slotRecord, hother]
    by_cases hhere : ∃ s, slot = some s ∧ s.name = q
    · obtain ⟨s, rfl, rfl⟩ := hhere
      right
      refine ⟨0, s, rfl, rfl, ?_⟩
      rw [getNamespaceAddrLoop]
      simp [dirRecord, RecordFormat.slotRecord,
        (sameName_storedName (hfits s List.mem_cons_self) hq).mpr rfl]
    · have hne : ∀ s, slot = some s → s.name ≠ q := fun s hs hsq => hhere ⟨s, hs, hsq⟩
      rw [hlift hne]
      rcases hrest with ⟨hnot, hnone⟩ | ⟨i, s, hi, hs, hsome⟩
      · left
        refine ⟨?_, hnone⟩
        intro s hs
        rcases List.mem_cons.mp hs with heq | hs
        · exact hne s heq.symm
        · exact hnot s hs
      · right
        refine ⟨i + 1, s, by simpa using hi, hs, ?_⟩
        rw [hsome]
        simp only [Option.some.injEq, Prod.mk.injEq]
        constructor
        · congr 2
          omega
        · omega

/-- The lookup of a namespace: no slot has it, or one does. -/
theorem Directory.getNamespaceAddr {flash : MatterFlash} (h : Directory C flash.content spaces)
    (hq : q.length < C.sizeofUcNamespace) :
    ((∀ s, some s ∈ spaces → s.name ≠ q) ∧ getNamespaceAddr C .all flash q = none) ∨
    ∃ block s, spaces[block]? = some (some s) ∧ s.name = q ∧
      getNamespaceAddr C .all flash q = some (block * nameFlashTotalSize + nameSpaceFlashTotalSize,
        block) := by
  have hslots := getNamespaceAddrLoop_slots hq spaces h.fits 0
  simp only [Nat.zero_add] at hslots
  rw [Matter.getNamespaceAddr, h.namespaceDataArr]
  exact hslots

/-- The directory lies in its own sector. -/
theorem Directory.congr (h : Directory C content spaces)
    (hsame : readBytes content' (flashSectorSize * C.startSector) flashSectorSize =
      readBytes content (flashSectorSize * C.startSector) flashSectorSize) :
      Directory C content' spaces := by
  refine ⟨h.length, ?_, h.fits, h.distinct⟩
  apply h.directory.congr
  have hfit : 0 + (dirSlots C spaces).length * C.namespaceFlash.size ≤ flashSectorSize := by
    rw [dirSlots_length, h.length, Nat.zero_add]
    exact C.namespaces_fit
  rw [← Nat.add_zero C.baseAddr, ← slice_readBytes hfit, FlashNamespaceValue.baseAddr, hsame,
    slice_readBytes hfit]

theorem nameSector_ne {block block' : ℕ} (h : block < C.flashNameSpaceMaxArray)
    (hne : block ≠ block') : nameSector C block ≠ nameSector C block' ∧
    nameSector C block ≠ dataSector C block' := by
  simp only [nameSector, dataSector]
  omega

theorem dataSector_ne {block block' : ℕ} (h : block' < C.flashNameSpaceMaxArray)
    (hne : block ≠ block') : dataSector C block ≠ nameSector C block' ∧
    dataSector C block ≠ dataSector C block' := by
  simp only [nameSector, dataSector]
  omega

theorem startSector_ne (block : ℕ) : C.startSector ≠ nameSector C block ∧
    C.startSector ≠ dataSector C block := by
  simp only [nameSector, dataSector]
  omega

/-- Nothing but one namespace changes. -/
theorem Stored.other_blocks {flash flash' : MatterFlash} (h : Stored C flash.content spaces)
    {block : ℕ} (hlt : block < C.flashNameSpaceMaxArray)
    (hconfined : Confined (nameSector C block) (dataSector C block) flash flash')
    {block' : ℕ} {slot : Option Space} (hslot : spaces[block']? = some slot)
    (hne : block' ≠ block) :
    Block C flash'.content (nameSector C block') (dataSector C block') (slotLog slot) := by
  have hlt' : block' < C.flashNameSpaceMaxArray := by
    rw [← h.length]
    exact (List.getElem?_eq_some_iff.mp hslot).1
  apply (h.blocks block' slot hslot).congr
  rintro sector (rfl | rfl)
  · exact hconfined.sector (not_or.mpr (nameSector_ne hlt' hne))
  · exact hconfined.sector (not_or.mpr (dataSector_ne hlt hne))

theorem Directory.block_lt (h : Directory C content spaces) {block : ℕ} {slot : Option Space}
    (hslot : spaces[block]? = some slot) :
    block < C.flashNameSpaceMaxArray := by
  rw [← h.length]
  exact (List.getElem?_eq_some_iff.mp hslot).1

/-- The directory names the namespaces, whatever their logs are. -/
theorem Directory.setLog {block : ℕ} {s : Space} (h : Directory C content spaces)
    (hslot : spaces[block]? = some (some s))
    (log : NameLog) : Directory C content (spaces.set block (some { s with log := log })) := by
  have hkeep : dirSlots C (spaces.set block (some { s with log := log })) = dirSlots C spaces := by
    rw [dirSlots_set]
    apply set_getElem?_eq
    rw [dirSlots_getElem?, hslot]
    rfl
  -- every slot of the new list has the name of a slot of the old one
  have hname : ∀ (i : ℕ) (t : Space), (spaces.set block (some { s with log := log }))[i]? =
    some (some t) → ∃ t' : Space, spaces[i]? = some (some t') ∧ t'.name = t.name := by
    intro i t ht
    rcases getElem?_set_cases ht with ⟨rfl, hnew⟩ | ⟨-, hold⟩
    · cases hnew
      exact ⟨s, hslot, rfl⟩
    · exact ⟨t, hold, rfl⟩
  constructor
  · rw [List.length_set, h.length]
  · rw [hkeep]
    exact h.directory
  · intro t ht
    obtain ⟨i, hi⟩ := List.mem_iff_getElem?.mp ht
    obtain ⟨t', ht', hnm⟩ := hname i t hi
    rw [← hnm]
    exact h.fits t' (List.mem_of_getElem? ht')
  · intro i j t t' hi hj heq
    obtain ⟨u, hu, hun⟩ := hname i t hi
    obtain ⟨u', hu', hun'⟩ := hname j t' hj
    exact h.distinct i j u u' hu hu' (by rw [hun, hun', heq])

/-- One namespace gets another log. -/
theorem Stored.setLog {flash flash' : MatterFlash} {block : ℕ} {s : Space} {log : NameLog}
    (h : Stored C flash.content spaces)
    (hslot : spaces[block]? = some (some s))
    (hconfined : Confined (nameSector C block) (dataSector C block) flash flash')
    (hblock : Block C flash'.content (nameSector C block) (dataSector C block) log) :
    Stored C flash'.content (spaces.set block (some { s with log := log })) := by
  have hdirectory := h.toDirectory.congr (hconfined.sector (not_or.mpr (startSector_ne block)))
  refine ⟨hdirectory.setLog hslot log, ?_⟩
  intro i slot hi
  rcases getElem?_set_cases hi with ⟨rfl, rfl⟩ | ⟨hne, hi⟩
  · exact hblock
  · exact h.other_blocks (h.block_lt hslot) hconfined hi hne

/-- A record for a blank slot of the directory. -/
theorem directory_write {flash : MatterFlash} {slots : List (Option NamespaceFlash)} {i : ℕ}
    {r : NamespaceFlash} (h : C.namespaceFlash.Table flash.content C.baseAddr slots)
    (hi : slots[i]? = some none) (hlt : i < C.flashNameSpaceMaxArray)
    (hvalid : C.namespaceFlash.Valid r) :
    let written := bkFlashWriteBytes flash (C.baseAddr + i * C.namespaceFlash.size)
      (C.namespaceFlash.encode r)
    C.namespaceFlash.Table written.content C.baseAddr (slots.set i (some r)) ∧
      Issued (fun k => k = C.startSector) flash written := by
  intro written
  have htable : C.namespaceFlash.Table written.content C.baseAddr (slots.set i (some r)) := by
    rw [bkFlashWriteBytes_content]
    exact h.write_blank hi hvalid
  refine ⟨htable, Issued.single rfl ⟨Nat.le_add_right _ _, ?_⟩ ?_⟩
  · have hend := RecordFormat.Table.slot_le (F := C.namespaceFlash) hlt
    have hfit : C.flashNameSpaceMaxArray * C.namespaceFlash.size ≤ flashSectorSize :=
      C.namespaces_fit
    rw [RecordFormat.encode_length hvalid, FlashNamespaceValue.baseAddr]
    omega
  · have hbytes := htable.bytes i _ (List.getElem?_set_self (List.getElem?_eq_some_iff.mp hi).1)
    rw [FlashOp.ReadsBack, RecordFormat.encode_length hvalid]
    exact hbytes

/-- A new namespace in a blank slot. -/
theorem Stored.setName {flash : MatterFlash} {block : ℕ} (h : Stored C flash.content spaces)
    (hslot : spaces[block]? = some none)
    (hq : NameFits C.sizeofUcNamespace q) (hfresh : ∀ s, some s ∈ spaces → s.name ≠ q) :
    let added := bkFlashWriteBytes flash (C.baseAddr + block * C.namespaceFlash.size)
      (C.namespaceFlash.encode (dirRecord C block q))
    Stored C added.content (spaces.set block (some ⟨q, []⟩)) ∧
      Issued (fun k => k = C.startSector) flash added := by
  intro added
  have hlt := h.block_lt hslot
  have hblank : (dirSlots C spaces)[block]? = some none := by
    rw [dirSlots_getElem?, hslot]
    rfl
  obtain ⟨htable, hissued⟩ := directory_write h.directory hblank hlt (dirRecord_valid hlt hq)
  refine ⟨⟨⟨?_, ?_, ?_, ?_⟩, ?_⟩, hissued⟩
  · rw [List.length_set, h.length]
  · rw [dirSlots_set]
    exact htable
  · intro t ht
    rcases List.mem_or_eq_of_mem_set ht with ht | ht
    · exact h.fits t ht
    · cases ht
      exact hq
  · intro i j t t' hi hj heq
    rcases getElem?_set_cases hi with ⟨hib, ht⟩ | ⟨-, hold⟩
    · rcases getElem?_set_cases hj with ⟨hjb, -⟩ | ⟨-, hold'⟩
      · rw [hib, hjb]
      · cases ht
        exact absurd heq.symm (hfresh t' (List.mem_of_getElem? hold'))
    · rcases getElem?_set_cases hj with ⟨-, ht'⟩ | ⟨-, hold'⟩
      · cases ht'
        exact absurd heq (hfresh t (List.mem_of_getElem? hold))
      · exact h.distinct i j t t' hold hold' heq
  · intro i slot hi
    have hold : ∃ slot', spaces[i]? = some slot' ∧ slotLog slot' = slotLog slot := by
      rcases getElem?_set_cases hi with ⟨rfl, rfl⟩ | ⟨-, hi⟩
      · exact ⟨none, hslot, rfl⟩
      · exact ⟨slot, hi, rfl⟩
    obtain ⟨slot', hslot', hlog⟩ := hold
    rw [← hlog]
    apply (h.blocks i slot' hslot').congr
    rintro sector (rfl | rfl)
    · exact hissued.sector (startSector_ne i).1.symm
    · exact hissued.sector (startSector_ne i).2.symm

theorem bkSetNamespaceLoop_records (records : List NamespaceFlash) (first : ℕ) :
    ((∀ r ∈ records, r.flag = C.flashSpaceUsing) ∧ bkSetNamespaceLoop C first records = none) ∨
    ∃ (i : ℕ) (r : NamespaceFlash), records[i]? = some r ∧ r.flag ≠ C.flashSpaceUsing ∧
      bkSetNamespaceLoop C first records = some (first + i) := by
  induction records generalizing first with
  | nil => exact Or.inl ⟨by simp, rfl⟩
  | cons r records ih =>
    rw [bkSetNamespaceLoop]
    split
    case isTrue hfree =>
      exact Or.inr ⟨0, r, rfl, hfree, rfl⟩
    case isFalse hused =>
      rw [ne_eq, not_not] at hused
      rcases ih (first + 1) with ⟨hall, hnone⟩ | ⟨i, r', hi, hfree, hsome⟩
      · left
        refine ⟨?_, hnone⟩
        intro x hx
        rcases List.mem_cons.mp hx with rfl | hx
        · exact hused
        · exact hall x hx
      · right
        exact ⟨i + 1, r', by simpa using hi, hfree, by rw [hsome]; congr 1; omega⟩

/-- A slot of the directory is in use exactly where it has a namespace. -/
theorem dirSlot_record {block : ℕ} {r : NamespaceFlash} (h : ((dirSlots C spaces).map
    C.namespaceFlash.slotRecord)[block]? = some r) :
    (∃ s, spaces[block]? = some (some s) ∧ r = dirRecord C block s.name) ∨
      (spaces[block]? = some none ∧ r.flag ≠ C.flashSpaceUsing) := by
  rw [List.getElem?_map, dirSlots_getElem?] at h
  cases hslot : spaces[block]? with
  | none => simp [hslot] at h
  | some slot =>
    rw [hslot] at h
    cases slot with
    | none =>
      right
      simp only [Option.map_some, Option.map_none, Option.some.injEq] at h
      exact ⟨rfl, h ▸ blankNamespace_flag⟩
    | some s =>
      left
      simp only [Option.map_some, Option.some.injEq, RecordFormat.slotRecord] at h
      exact ⟨s, rfl, h.symm⟩

/-- Setting up a namespace: the directory is full, or it takes the first free slot. -/
theorem Stored.bkSetNamespace {flash : MatterFlash} (h : Stored C flash.content spaces) :
    (none ∉ spaces ∧ bkSetNamespace C .all flash q = none) ∨
    ∃ block : ℕ, spaces[block]? = some none ∧ bkSetNamespace C .all flash q =
      some ((block * nameFlashTotalSize + nameSpaceFlashTotalSize, block),
        bkFlashWriteBytes flash (C.baseAddr + block * C.namespaceFlash.size)
            (C.namespaceFlash.encode (dirRecord C block q))) := by
  rw [Matter.bkSetNamespace, h.namespaceDataArr]
  rcases bkSetNamespaceLoop_records ((dirSlots C spaces).map C.namespaceFlash.slotRecord) 0 with
    ⟨hall, hnone⟩ | ⟨block, r, hr, hfree, hsome⟩
  · left
    rw [hnone]
    refine ⟨?_, rfl⟩
    intro hmem
    obtain ⟨block, hblock⟩ := List.mem_iff_getElem?.mp hmem
    have hr : ((dirSlots C spaces).map C.namespaceFlash.slotRecord)[block]? =
        some (C.namespaceFlash.slotRecord none) := by
      simp [dirSlots_getElem?, hblock]
    exact blankNamespace_flag (hall _ (List.mem_of_getElem? hr))
  · right
    rw [hsome, Nat.zero_add]
    rcases dirSlot_record hr with ⟨s, -, rfl⟩ | ⟨hslot, -⟩
    · exact absurd rfl hfree
    · exact ⟨block, hslot, rfl⟩

def Kept (C : FlashNamespaceValue) (r : NamespaceFlash) (slot : Option NamespaceFlash) : Prop :=
  (slot = some r ∧ r.flag = C.flashSpaceUsing ∧ C.namespaceFlash.Valid r) ∨
    (slot = none ∧ r.flag ≠ C.flashSpaceUsing)

/-- The loop writes the records back that are in use, each into its own slot, and nothing else. -/
theorem bkClearNamespaceLoop_table {records : List NamespaceFlash}
    {slots done : List (Option NamespaceFlash)} (hlen : records.length = slots.length)
    (hkept : ∀ (i : ℕ) (r : NamespaceFlash) (slot : Option NamespaceFlash), records[i]? = some r →
      slots[i]? = some slot → Kept C r slot)
    (hfit : done.length + slots.length ≤ C.flashNameSpaceMaxArray) {flash : MatterFlash}
    (h : C.namespaceFlash.Table flash.content C.baseAddr
      (done ++ List.replicate slots.length none)) :
    C.namespaceFlash.Table (bkClearNamespaceLoop C flash done.length records).content C.baseAddr
      (done ++ slots) ∧ Issued (fun k => k = C.startSector) flash
      (bkClearNamespaceLoop C flash done.length records) := by
  induction records generalizing slots done flash with
  | nil =>
    obtain rfl : slots = [] := List.length_eq_zero_iff.mp (by simpa using hlen.symm)
    exact ⟨by simpa [bkClearNamespaceLoop] using h, Issued.refl _⟩
  | cons r records ih =>
    obtain ⟨slot, slots, rfl⟩ : ∃ slot rest, slots = slot :: rest := by
      cases slots with
      | nil => simp at hlen
      | cons slot rest => exact ⟨slot, rest, rfl⟩
    have hlen' : records.length = slots.length := by simpa using hlen
    have hkept' : ∀ (i : ℕ) (r : NamespaceFlash) (slot : Option NamespaceFlash), records[i]? =
      some r → slots[i]? = some slot →
        Kept C r slot := fun i x y hx hy =>
          hkept (i + 1) x y (by simpa using hx) (by simpa using hy)
    have hfit' : (done ++ [slot]).length + slots.length ≤ C.flashNameSpaceMaxArray := by
      simp only [List.length_cons] at hfit
      simp only [List.length_append, List.length_singleton]
      omega
    have hslot : (done ++ List.replicate (slots.length + 1) none :
      List (Option NamespaceFlash))[done.length]? = some
        none := by
      simp
    have hset : (done ++ List.replicate (slots.length + 1) none : List (Option NamespaceFlash)).set
      done.length slot =
        done ++ [slot] ++ List.replicate slots.length none := by
      rw [List.set_append_right _ _ (Nat.le_refl _)]
      simp [List.replicate_succ]
    rw [List.length_cons] at h
    rcases hkept 0 r slot rfl rfl with ⟨rfl, hused, hvalid⟩ | ⟨rfl, hfree⟩
    · have hdone : done.length < C.flashNameSpaceMaxArray := by
        simp only [List.length_cons] at hfit
        omega
      obtain ⟨hwritten, hfirst⟩ := directory_write h hslot hdone hvalid
      rw [hset] at hwritten
      obtain ⟨htable, hrest⟩ := ih hlen' hkept' hfit' hwritten
      simp only [bkClearNamespaceLoop, hused, if_true]
      rw [List.length_append, List.length_singleton] at htable hrest
      exact ⟨by simpa using htable, hfirst.trans hrest⟩
    · have hstill : C.namespaceFlash.Table flash.content C.baseAddr
          (done ++ [none] ++ List.replicate slots.length none) := by
        rwa [← hset, set_getElem?_eq hslot]
      obtain ⟨htable, hrest⟩ := ih hlen' hkept' hfit' hstill
      simp only [bkClearNamespaceLoop, hfree, if_false]
      rw [List.length_append, List.length_singleton] at htable hrest
      exact ⟨by simpa using htable, hrest⟩

end Stored

end Sonoff.Matter
