import Sonoff.Matter.FlashNamespaceStore

/-! # Clearing namespaces

Clearing a namespace erases its two sectors and the directory, and writes the
directory back without it; erasing the partition leaves an empty store. -/
namespace Sonoff.Matter
open Bytes NorFlash MaskedLog

variable {C : FlashNamespaceValue} {content : ℕ → UInt8} {spaces : List (Option Space)}

theorem Block.empty {nameSector dataSector : ℕ} (hlt : nameSector < dataSector)
    (h : Written C content nameSector dataSector []) : Block C content nameSector dataSector [] :=
  ⟨hlt, h, by simp, Nat.zero_le _, by decide, by simp⟩

theorem nameSector_lt {block : ℕ} (h : block < C.flashNameSpaceMaxArray) :
    nameSector C block < dataSector C block := by
  simp only [nameSector, dataSector]
  omega

def InPartition (C : FlashNamespaceValue) (k : ℕ) :
    Prop := C.startSector ≤ k ∧ k < C.startSector + C.sectors

theorem nameSector_inPartition {block : ℕ} (h : block < C.flashNameSpaceMaxArray) :
    InPartition C (nameSector C block) := by
  have hsectors := C.partition_fits
  constructor <;> simp only [nameSector] <;> omega

theorem dataSector_inPartition {block : ℕ} (h : block < C.flashNameSpaceMaxArray) :
    InPartition C (dataSector C block) := by
  have hsectors := C.partition_fits
  constructor <;> simp only [dataSector] <;> omega

theorem startSector_inPartition (C : FlashNamespaceValue) : InPartition C C.startSector := by
  have hsectors := C.partition_fits
  exact ⟨Nat.le_refl _, by omega⟩

theorem Confined.inPartition {flash flash' : MatterFlash} {block : ℕ}
    (h : Confined (nameSector C block) (dataSector C block) flash flash')
    (hlt : block < C.flashNameSpaceMaxArray) : Issued (InPartition C) flash flash' := by
  apply h.mono
  rintro k (rfl | rfl)
  · exact nameSector_inPartition hlt
  · exact dataSector_inPartition hlt

/-- The records that the loop over the directory writes back. -/
theorem kept_records (h : Stored C content spaces) {block : ℕ} (hblock : block < spaces.length)
    (i : ℕ) (r : NamespaceFlash) (slot : Option NamespaceFlash)
    (hr : (((dirSlots C spaces).map C.namespaceFlash.slotRecord).modify block
      fun entry => { entry with flag := C.flashSpaceMask })[i]? = some r)
    (hslot : (dirSlots C (spaces.set block none))[i]? = some slot) : Kept C r slot := by
  rw [dirSlots_getElem?] at hslot
  by_cases hib : i = block
  · subst hib
    right
    rw [List.getElem?_set_self hblock] at hslot
    simp only [Option.map_some, Option.map_none, Option.some.injEq] at hslot
    rw [List.getElem?_modify_eq] at hr
    obtain ⟨r', -, rfl⟩ := Option.map_eq_some_iff.mp hr
    exact ⟨hslot.symm, C.using_ne_mask.symm⟩
  · rw [List.getElem?_set_ne (Ne.symm hib)] at hslot
    rw [List.getElem?_modify_ne _ _ (Ne.symm hib)] at hr
    rcases dirSlot_record hr with ⟨s, hs, rfl⟩ | ⟨hs, hfree⟩
    · left
      rw [hs] at hslot
      simp only [Option.map_some, Option.some.injEq] at hslot
      exact ⟨hslot.symm, rfl, dirRecord_valid (h.block_lt hs) (h.fits s (List.mem_of_getElem? hs))⟩
    · right
      rw [hs] at hslot
      simp only [Option.map_some, Option.map_none, Option.some.injEq] at hslot
      exact ⟨hslot.symm, hfree⟩

/-- A cleared namespace is gone, with the other ones in their places. -/
theorem Stored.clear {flash : MatterFlash} (h : Stored C flash.content spaces) {block : ℕ}
    {s : Space} {q : List UInt8} {addr : ℕ}
    (hslot : spaces[block]? = some (some s))
    (hfound : Matter.getNamespaceAddr C .all flash q = some (addr, block)) :
    ∃ flash', bkClearNamespace C .all flash q = (.kNoErr, flash') ∧
      Stored C flash'.content (spaces.set block none) ∧
      Issued (InPartition C) flash flash' := by
  have hlt := h.block_lt hslot
  have hblock : block < spaces.length := (List.getElem?_eq_some_iff.mp hslot).1
  refine ⟨_, by simp only [bkClearNamespace, hfound]; rfl, ?_⟩
  have hname : C.baseAddr + nameSpaceFlashTotalSize + block * nameFlashTotalSize =
      flashSectorSize * nameSector C block := by
    rw [← nameSectorAddr_eq]
    omega
  rw [hname, dataSectorAddr_eq, h.namespaceDataArr]
  obtain ⟨hwritten, hconfined⟩ := Written.erase (C := C) (nameSector_lt hlt) flash
  generalize bkEraseNameData flash (flashSectorSize * nameSector C block)
    (flashSectorSize * dataSector C block) = cleared
    at hwritten hconfined ⊢
  have herase : Issued (fun k => k = C.startSector) cleared
    (bkFlashEraseSector cleared C.baseAddr) := Issued.erase rfl
  have hdir : C.namespaceFlash.Table (bkFlashEraseSector cleared C.baseAddr).content C.baseAddr
      ([] ++ List.replicate (dirSlots C (spaces.set block none)).length none) := by
    rw [List.nil_append, dirSlots_length, List.length_set, h.length]
    have hblank : readBytes (bkFlashEraseSector cleared C.baseAddr).content C.baseAddr
      flashSectorSize =
        List.replicate flashSectorSize 0xFF := by
      have hbase : C.baseAddr / flashSectorSize = C.startSector :=
        Nat.mul_div_cancel_left _ (by decide)
      simp only [bkFlashEraseSector, MatterFlash.apply, hbase]
      exact readBytes_erase _ _ _
    exact RecordFormat.Table.blank hblank C.namespaces_fit
  obtain ⟨htable, hloop⟩ :=
    bkClearNamespaceLoop_table (by simp) (kept_records h hblock) (by simp [h.length]) hdir
  have hrewritten := herase.trans hloop
  rw [List.length_nil] at htable hrewritten
  refine ⟨⟨⟨?_, ?_, ?_, ?_⟩, ?_⟩, ?_⟩
  · rw [List.length_set, h.length]
  · simpa using htable
  · intro t ht
    rcases List.mem_or_eq_of_mem_set ht with ht | ht
    · exact h.fits t ht
    · cases ht
  · intro i j t t' hi hj heq
    rcases getElem?_set_cases hi with ⟨-, ht⟩ | ⟨-, hold⟩
    · cases ht
    · rcases getElem?_set_cases hj with ⟨-, ht'⟩ | ⟨-, hold'⟩
      · cases ht'
      · exact h.distinct i j t t' hold hold' heq
  · intro i slot hi
    have hcleared : Block C cleared.content (nameSector C i) (dataSector C i) (slotLog slot) := by
      rcases getElem?_set_cases hi with ⟨rfl, rfl⟩ | ⟨hne, hold⟩
      · exact Block.empty (nameSector_lt hlt) hwritten
      · exact h.other_blocks hlt hconfined hold hne
    apply hcleared.congr
    rintro sector (rfl | rfl)
    · exact hrewritten.sector (startSector_ne i).1.symm
    · exact hrewritten.sector (startSector_ne i).2.symm
  · refine (hconfined.inPartition hlt).trans (hrewritten.mono ?_)
    rintro k rfl
    exact startSector_inPartition C

/-- A blank partition is an empty store. -/
theorem Stored.blank (h : ∀ k < C.sectors,
    readBytes content (flashSectorSize * (C.startSector + k)) flashSectorSize =
      List.replicate flashSectorSize 0xFF) :
    Stored C content (List.replicate C.flashNameSpaceMaxArray none) := by
  have hsectors := C.partition_fits
  have hdir : dirSlots C (List.replicate C.flashNameSpaceMaxArray none) =
      List.replicate C.flashNameSpaceMaxArray none := by
    apply List.ext_getElem?
    intro i
    rw [dirSlots_getElem?]
    simp only [List.getElem?_replicate]
    split <;> rfl
  refine ⟨⟨?_, ?_, ?_, ?_⟩, ?_⟩
  · exact List.length_replicate
  · rw [hdir]
    exact RecordFormat.Table.blank (h 0 (by omega)) C.namespaces_fit
  · intro s hs
    cases List.eq_of_mem_replicate hs
  · intro block block' s s' hs
    simp [List.getElem?_replicate] at hs
  · intro block slot hslot
    rw [List.getElem?_replicate] at hslot
    split at hslot
    case isTrue hlt =>
      cases hslot
      refine Block.empty (nameSector_lt hlt) (Written.blank ?_ ?_)
      · have := h (1 + block) (by omega)
        rwa [← Nat.add_assoc] at this
      · have := h (1 + C.flashNameSpaceMaxArray + block) (by omega)
        rwa [← Nat.add_assoc, ← Nat.add_assoc] at this
    case isFalse => cases hslot

theorem bkEraseAll_blank (flash : MatterFlash) (k : ℕ) (hk : k < C.sectors) :
    readBytes (bkEraseAll C flash).content (flashSectorSize * (C.startSector + k)) flashSectorSize =
      List.replicate flashSectorSize 0xFF := by
  have haddr : ∀ n, flashSectorSize *
    ((C.baseAddr + n * nameSpaceFlashTotalSize) / flashSectorSize) =
      flashSectorSize * (C.startSector + n) := by
    intro n
    simp only [FlashNamespaceValue.baseAddr, nameSpaceFlashTotalSize]
    rw [Nat.mul_comm n, ← Nat.mul_add, Nat.mul_div_cancel_left _ (by decide)]
  rw [bkEraseAll]
  generalize C.sectors = n at hk
  induction n with
  | zero => exact absurd hk (Nat.not_lt_zero k)
  | succ n ih =>
    rw [List.range_succ, List.foldl_append, List.foldl_cons, List.foldl_nil]
    simp only [bkFlashEraseSector, MatterFlash.apply, haddr] at ih ⊢
    rcases Nat.lt_succ_iff_lt_or_eq.mp hk with hlt | rfl
    · rw [readBytes_erase_apart (by decide) (sectors_apart _ (by omega))]
      exact ih hlt
    · exact readBytes_erase _ _ _

theorem bkEraseAll_issued (flash : MatterFlash) :
    Issued (InPartition C) flash (bkEraseAll C flash) := by
  have hall : ∀ n ≤ C.sectors, Issued (InPartition C) flash
      ((List.range n).foldl (fun flash i =>
        bkFlashEraseSector flash (C.baseAddr + i * nameSpaceFlashTotalSize)) flash) := by
    intro n
    induction n with
    | zero => exact fun _ => Issued.refl flash
    | succ n ih =>
      intro hn
      rw [List.range_succ, List.foldl_append, List.foldl_cons, List.foldl_nil]
      have haddr : C.baseAddr + n * nameSpaceFlashTotalSize =
          flashSectorSize * (C.startSector + n) := by
        simp only [FlashNamespaceValue.baseAddr, nameSpaceFlashTotalSize]
        rw [Nat.mul_comm n, ← Nat.mul_add]
      rw [haddr]
      have hin : InPartition C (C.startSector + n) := ⟨Nat.le_add_right _ _, by omega⟩
      exact (ih (by omega)).trans (Issued.erase hin)
  exact hall C.sectors (Nat.le_refl _)

/-- Erasing the partition empties the store, whatever it held. -/
theorem Stored.eraseAll (flash : MatterFlash) :
    Stored C (bkEraseAll C flash).content (List.replicate C.flashNameSpaceMaxArray none) :=
  Stored.blank (bkEraseAll_blank flash)

end Sonoff.Matter
