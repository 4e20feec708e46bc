import Sonoff.Matter.FlashNamespaceKvs
import Sonoff.Matter.FlashNamespaceLayout

/-! # The store on flash refines the bounded map

Each call keeps the invariant of the flash and changes the namespaces as the map
does; so whole runs are answered as the map answers them.
-/
namespace Sonoff.Matter
open Bytes NorFlash MaskedLog Machine

variable {C : FlashNamespaceValue} {flash : MatterFlash} {spaces : List (Option Space)} {m : KvMap}
  {ns name data : List UInt8}

theorem ret_ofBool {ret : BkRet} {ok : Bool} (h : ret = .kNoErr ↔ ok = true) :
    ret = .ofBool ok := by
  cases ok with
  | true => exact h.mpr rfl
  | false =>
    cases ret with
    | kNoErr => exact absurd (h.mp rfl) Bool.false_ne_true
    | kGeneralErr => rfl

/-- Setting a value in a namespace of the directory. -/
theorem Stored.bkSetNameData (h : Stored C flash.content spaces) {block : ℕ} {s : Space}
    (hslot : spaces[block]? = some (some s))
    (hname : NameFits C.sizeofUcName name) (hdata : data.length + flashSectorSize < 4294967296) :
    (setPair C (pairs s.log) name data = none ∧
      bkSetNameData C .all flash name data (block * nameFlashTotalSize + nameSpaceFlashTotalSize)
        block = none) ∨
    ∃ ok ps flash' log, setPair C (pairs s.log) name data = some (ok, ps) ∧
      bkSetNameData C .all flash name data (block * nameFlashTotalSize + nameSpaceFlashTotalSize)
        block = some (.ofBool ok, flash') ∧
      Stored C flash'.content (spaces.set block (some { s with log := log })) ∧ pairs log = ps ∧
      Confined (nameSector C block) (dataSector C block) flash flash' := by
  have hblock := h.blocks block (some s) hslot
  rcases hblock.bkSetNameData hname hdata (nameSectorAddr_eq C block)
      (dataSectorAddr_eq C block) with
    ⟨hspec, hcode⟩ | ⟨ok, ps, ret, flash', log, hspec, hcode, hblock', hpairs, hret, hconfined⟩
  · exact Or.inl ⟨hspec, hcode⟩
  · right
    rw [ret_ofBool hret] at hcode
    exact ⟨ok, ps, flash', log, hspec, hcode, h.setLog hslot hconfined hblock', hpairs, hconfined⟩

def Refines (C : FlashNamespaceValue) (flash : MatterFlash) (m : KvMap) : Prop :=
  ∃ spaces, Stored C flash.content spaces ∧ Represents spaces m

/-- The slots of a namespace that is in the directory. -/
theorem Stored.others (h : Stored C flash.content spaces) {block : ℕ} {s : Space}
    (hslot : spaces[block]? = some (some s))
    (i : ℕ) (t : Space) (ht : spaces[i]? = some (some t)) (heq : t.name = s.name) : i = block :=
  h.distinct i block t s ht hslot heq

theorem Represents.setLog (hrep : Represents spaces m) (h : Stored C flash.content spaces)
    {block : ℕ} {s : Space} (hslot : spaces[block]? = some (some s)) (log : NameLog) :
    Represents (spaces.set block (some { s with log := log }))
      (m.set s.name (some (MaskedLog.pairs log))) := by
  refine @Represents.update _ _ s.name hrep block _ (some { s with log := log }) hslot ?_ ?_
    (h.others hslot) _ rfl ?_
  · intro t ht
    cases ht
    rfl
  · intro t ht
    cases ht
    rfl
  · have hcount := @countP_set_isNone _ _ _ (some { s with log := log }) hslot
    simp only [Option.isNone_some, Bool.false_eq_true, if_false, Nat.add_zero] at hcount
    rw [hcount]
    exact hrep.free

theorem Represents.addSpace (hrep : Represents spaces m) {block : ℕ}
    (hslot : spaces[block]? = some none) (hfresh : ∀ s, some s ∈ spaces → s.name ≠ ns) :
    Represents (spaces.set block (some ⟨ns, []⟩)) { m.set ns (some []) with free :=
      m.free - 1 } := by
  refine @Represents.update _ _ ns hrep block _ (some ⟨ns, []⟩) hslot ?_ ?_ ?_ _ rfl ?_
  · intro t ht
    cases ht
  · intro t ht
    cases ht
    rfl
  · intro i t ht heq
    exact absurd heq (hfresh t (List.mem_of_getElem? ht))
  · have hcount := @countP_set_isNone _ _ _ (some ⟨ns, []⟩) hslot
    simp only [Option.isNone_some, Option.isNone_none, Bool.false_eq_true, if_false, if_true,
      Nat.add_zero] at hcount
    have hfree := hrep.free
    simp only
    omega

theorem Represents.removeSpace (hrep : Represents spaces m) (h : Stored C flash.content spaces)
    {block : ℕ} {s : Space} (hslot : spaces[block]? = some (some s)) :
    Represents (spaces.set block none) { m.set s.name none with free := m.free + 1 } := by
  refine @Represents.update _ _ s.name hrep block _ none hslot ?_ ?_ (h.others hslot) _ rfl ?_
  · intro t ht
    cases ht
    rfl
  · intro t ht
    cases ht
  · have hcount := @countP_set_isNone _ _ _ none hslot
    simp only [Option.isNone_some, Option.isNone_none, Bool.false_eq_true, if_false, if_true,
      Nat.add_zero] at hcount
    have hfree := hrep.free
    simp only
    omega

/-- A namespace is added to the directory where the map adds it. -/
theorem Refines.setNamespace (h : Stored C flash.content spaces) (hrep : Represents spaces m)
    (hns : NameFits C.sizeofUcNamespace ns) (hfresh : ∀ s, some s ∈ spaces → s.name ≠ ns) :
    (m.add ns = none ∧ bkSetNamespace C .all flash ns = none) ∨
    ∃ m' block op, m.add ns = some m' ∧ spaces[block]? = some none ∧
      bkSetNamespace C .all flash ns =
        some ((block * nameFlashTotalSize + nameSpaceFlashTotalSize, block), flash.apply op) ∧
      Stored C (flash.apply op).content (spaces.set block (some ⟨ns, []⟩)) ∧
        Represents (spaces.set block (some ⟨ns, []⟩)) m' ∧
      Issued (fun k => k = C.startSector) flash (flash.apply op) := by
  rcases h.bkSetNamespace (q := ns) with ⟨hfull, hcode⟩ | ⟨block, hslot, hcode⟩
  · left
    refine ⟨?_, hcode⟩
    rw [KvMap.add, if_pos]
    rw [hrep.free, List.countP_eq_zero]
    rintro slot hmem hnone
    rw [Option.isNone_iff_eq_none.mp hnone] at hmem
    exact hfull hmem
  · right
    have hpos : m.free ≠ 0 := by
      rw [hrep.free]
      have hsome : 0 < spaces.countP Option.isNone :=
        List.countP_pos_iff.mpr ⟨none, List.mem_of_getElem? hslot, rfl⟩
      omega
    obtain ⟨hstored, hissued⟩ := h.setName hslot hns hfresh
    exact ⟨_, block, _, by rw [KvMap.add, if_neg hpos], hslot, hcode, hstored, hrep.addSpace hslot hfresh, hissued⟩

/-- Writing into a namespace of the directory. -/
theorem Refines.setNameData (h : Stored C flash.content spaces) (hrep : Represents spaces m)
    {block : ℕ} {s : Space} (hslot : spaces[block]? = some (some s))
    (hname : NameFits C.sizeofUcName name) (hdata : data.length + flashSectorSize < 4294967296) :
    (mapWrite C m s.name (pairs s.log) name data = none ∧
      bkSetNameData C .all flash name data (block * nameFlashTotalSize + nameSpaceFlashTotalSize)
        block = none) ∨
    ∃ ret flash' m', mapWrite C m s.name (pairs s.log) name data = some (.ret ret, m') ∧
      bkSetNameData C .all flash name data (block * nameFlashTotalSize + nameSpaceFlashTotalSize)
        block = some (ret, flash') ∧
      Refines C flash' m' ∧ Confined (nameSector C block) (dataSector C block) flash flash' := by
  rcases h.bkSetNameData hslot hname hdata with ⟨hspec, hcode⟩ | ⟨ok, ps, flash', log, hspec, hcode,
    hstored, rfl, hconfined⟩
  · left
    exact ⟨by rw [mapWrite, hspec]; rfl, hcode⟩
  · right
    exact ⟨.ofBool ok, flash', m.set s.name (some (pairs log)), by rw [mapWrite, hspec]; rfl, hcode,
      ⟨_, hstored, hrep.setLog h hslot log⟩, hconfined⟩

theorem Refines.writeData (h : Refines C flash m) (hns : NameFits C.sizeofUcNamespace ns)
    (hname : NameFits C.sizeofUcName name)
    (hdata : data.length + flashSectorSize < 4294967296) :
    (mapCall C m (.writeData ns name data) = none ∧ bkWriteData C .all flash ns name data = none) ∨
    ∃ ret flash' m', mapCall C m (.writeData ns name data) = some (.ret ret, m') ∧
      bkWriteData C .all flash ns name data = some (ret, flash') ∧ Refines C flash' m' ∧
        Issued (InPartition C) flash flash' := by
  obtain ⟨spaces, hstored, hrep⟩ := h
  simp only [mapCall, bkWriteData]
  rcases hstored.getNamespaceAddr hns.1 with ⟨hfresh, haddr⟩ | ⟨block, s, hslot, rfl, haddr⟩
  · rw [haddr, hrep.absent hfresh]
    rcases Refines.setNamespace hstored hrep hns hfresh with
      ⟨hadd, hset⟩ | ⟨m', block, op, hadd, hslot, hset, hstored', hrep', hdir⟩
    · right
      rw [hadd, hset]
      exact ⟨_, _, _, rfl, rfl, ⟨spaces, hstored, hrep⟩, Issued.refl _⟩
    · rw [hadd, hset]
      have hslot' : (spaces.set block (some ⟨ns, []⟩))[block]? = some (some ⟨ns, []⟩) :=
        List.getElem?_set_self (List.getElem?_eq_some_iff.mp hslot).1
      rcases Refines.setNameData hstored' hrep' hslot' hname hdata with
        ⟨hspec, hcode⟩ | ⟨ret, flash'', m'', hspec, hcode, h', hconfined⟩
      · exact Or.inl ⟨hspec, hcode⟩
      · right
        refine ⟨ret, flash'', m'', hspec, hcode, h',
          (hdir.mono ?_).trans (hconfined.inPartition (hstored.block_lt hslot))⟩
        rintro k rfl
        exact startSector_inPartition C
  · rw [haddr, hrep.found hslot]
    rcases Refines.setNameData hstored hrep hslot hname hdata with
      ⟨hspec, hcode⟩ | ⟨ret, flash', m', hspec, hcode, h', hconfined⟩
    · exact Or.inl ⟨hspec, hcode⟩
    · exact Or.inr ⟨ret, flash', m', hspec, hcode, h',
        hconfined.inPartition (hstored.block_lt hslot)⟩

/-- Reading takes a beginning of the value in the map; it needs the directory and the namespace it
reads. -/
theorem Directory.readData (h : Directory C flash.content spaces) (hrep : Represents spaces m)
    (hread : ∀ (block : ℕ) (s : Space), spaces[block]? = some (some s) → s.name = ns →
      Readable C flash.content (nameSector C block) (dataSector C block) s.log)
    (hns : ns.length < C.sizeofUcNamespace) (hname : name.length < C.sizeofUcName) (n : ℕ) :
    bkReadData C .all flash ns name n = (m.get ns name).map fun v => v.take n := by
  rw [bkReadData, KvMap.get]
  rcases h.getNamespaceAddr hns with ⟨hfresh, haddr⟩ | ⟨block, s, hslot, rfl, haddr⟩
  · rw [haddr, hrep.absent hfresh]
    rfl
  · have hblock := hread block s hslot rfl
    rw [haddr, hrep.found hslot]
    simp only [nameSectorAddr_eq, dataSectorAddr_eq, Option.bind_some]
    rcases hblock.getNameAddr hname with ⟨hnone, haddr'⟩ | ⟨before, v, after, hlog, hfound, haddr'⟩
    · rw [haddr', hnone]
      rfl
    · rw [haddr', hfound]
      rw [hlog] at hblock
      simp only [bkFlashReadBytes, hblock.record, nameRecord, Option.map_some, Option.some.injEq]
      rw [hblock.value (by split <;> omega)]
      split
      case isTrue hlong =>
        rw [List.take_length, List.take_of_length_le (Nat.le_of_lt hlong)]
      case isFalse => rfl

theorem Refines.readData (h : Refines C flash m) (hns : ns.length < C.sizeofUcNamespace)
    (hname : name.length < C.sizeofUcName)
    (n : ℕ) : bkReadData C .all flash ns name n = (m.get ns name).map fun v => v.take n := by
  obtain ⟨spaces, hstored, hrep⟩ := h
  exact hstored.toDirectory.readData hrep (fun block s hslot _ =>
    (hstored.blocks block _ hslot).readable) hns hname n

theorem Refines.cleanData (h : Refines C flash m) (hns : ns.length < C.sizeofUcNamespace)
    (hname : name.length < C.sizeofUcName) :
    ∃ ret flash' m', mapCall C m (.cleanData ns name) = some (.ret ret, m') ∧
      bkCleanData C .all flash ns name = (ret, flash') ∧
      Refines C flash' m' ∧ Issued (InPartition C) flash flash' := by
  obtain ⟨spaces, hstored, hrep⟩ := h
  simp only [mapCall, bkCleanData]
  rcases hstored.getNamespaceAddr hns with ⟨hfresh, haddr⟩ | ⟨block, s, hslot, rfl, haddr⟩
  · rw [haddr, hrep.absent hfresh]
    exact ⟨_, _, _, rfl, rfl, ⟨spaces, hstored, hrep⟩, Issued.refl _⟩
  · have hblock : Block C flash.content (nameSector C block) (dataSector C block) s.log :=
      hstored.blocks block _ hslot
    rw [haddr, hrep.found hslot]
    simp only [nameSectorAddr_eq]
    rcases hblock.readable.getNameAddr hname with ⟨hnone, haddr'⟩ | ⟨before, v, after, hlog, hfound,
      haddr'⟩
    · rw [haddr', hnone]
      exact ⟨_, _, _, if_pos rfl, rfl, ⟨spaces, hstored, hrep⟩, Issued.refl _⟩
    · rw [haddr', hfound]
      refine ⟨_, _, _, if_neg (by simp), rfl, ?_⟩
      rw [hlog] at hblock
      obtain ⟨hmasked, hpairs, hconfined⟩ := hblock.mask (Or.inl rfl)
      rw [hlog, ← hpairs]
      exact ⟨⟨_, hstored.setLog hslot hconfined hmasked, hrep.setLog hstored hslot _⟩,
        hconfined.inPartition (hstored.block_lt hslot)⟩

theorem Refines.clearNamespace (h : Refines C flash m) (hns : ns.length < C.sizeofUcNamespace) :
    ∃ ret flash' m', mapCall C m (.clearNamespace ns) = some (.ret ret, m') ∧
      bkClearNamespace C .all flash ns = (ret, flash') ∧
      Refines C flash' m' ∧ Issued (InPartition C) flash flash' := by
  obtain ⟨spaces, hstored, hrep⟩ := h
  simp only [mapCall]
  rcases hstored.getNamespaceAddr hns with ⟨hfresh, haddr⟩ | ⟨block, s, hslot, rfl, haddr⟩
  · rw [hrep.absent hfresh]
    exact ⟨_, _, _, if_pos
      rfl, by rw [bkClearNamespace, haddr]; rfl, ⟨spaces, hstored, hrep⟩, Issued.refl _⟩
  · rw [hrep.found hslot]
    obtain ⟨flash', hcode, hstored', hissued⟩ := hstored.clear hslot haddr
    exact ⟨_, flash', _, if_neg (by simp), hcode, ⟨_, hstored', hrep.removeSpace hstored hslot⟩,
      hissued⟩

theorem Refines.ensureNamespace (h : Refines C flash m) (hns : NameFits C.sizeofUcNamespace ns) :
    ∃ ret flash' m', mapCall C m (.ensureNamespace ns) = some (.ret ret, m') ∧
      bkEnsureNamespace C .all flash ns = (ret, flash') ∧
      Refines C flash' m' ∧ Issued (InPartition C) flash flash' := by
  obtain ⟨spaces, hstored, hrep⟩ := h
  simp only [mapCall, bkEnsureNamespace]
  rcases hstored.getNamespaceAddr hns.1 with ⟨hfresh, haddr⟩ | ⟨block, s, hslot, rfl, haddr⟩
  · rw [haddr, hrep.absent hfresh, if_pos rfl]
    rcases Refines.setNamespace hstored hrep hns hfresh with
      ⟨hadd, hset⟩ | ⟨m', block, op, hadd, hslot, hset, hstored', hrep', hdir⟩
    · rw [hadd, hset]
      exact ⟨_, _, _, rfl, rfl, ⟨spaces, hstored, hrep⟩, Issued.refl _⟩
    · rw [hadd, hset]
      refine ⟨_, _, _, rfl, rfl, ⟨_, hstored', hrep'⟩, hdir.mono ?_⟩
      rintro k rfl
      exact startSector_inPartition C
  · rw [haddr, hrep.found hslot]
    exact ⟨_, _, _, if_neg (by simp), rfl, ⟨spaces, hstored, hrep⟩, Issued.refl _⟩

theorem Refines.ensureNameData (h : Refines C flash m) (hns : ns.length < C.sizeofUcNamespace)
    (hname : name.length < C.sizeofUcName) :
    bkEnsureNameData C .all flash ns name = if m.get ns name = none then .kGeneralErr
      else .kNoErr := by
  obtain ⟨spaces, hstored, hrep⟩ := h
  rw [bkEnsureNameData, KvMap.get]
  rcases hstored.getNamespaceAddr hns with ⟨hfresh, haddr⟩ | ⟨block, s, hslot, rfl, haddr⟩
  · rw [haddr, hrep.absent hfresh]
    exact (if_pos rfl).symm
  · have hblock : Block C flash.content (nameSector C block) (dataSector C block) s.log :=
      hstored.blocks block _ hslot
    rw [haddr, hrep.found hslot]
    simp only [nameSectorAddr_eq, Option.bind_some]
    rcases hblock.readable.getNameAddr hname with ⟨hnone, haddr'⟩ | ⟨before, v, after, hlog, hfound,
      haddr'⟩
    · simp only [haddr', hnone, if_true]
    · simp only [haddr', hfound, reduceCtorEq, if_false]

theorem Refines.eraseAll (flash : MatterFlash) : Refines C (bkEraseAll C flash) (.empty C) :=
  ⟨_, Stored.eraseAll flash, Represents.empty C⟩

/-- One call: both overrun, or both give the same answer and stay related. -/
theorem Refines.call (h : Refines C flash m) {call : KvCall} (hcall : call.Fits C) :
    (kvCall C .all flash call = none ∧ mapCall C m call = none) ∨
    ∃ reply flash' m', kvCall C .all flash call = some (reply, flash') ∧
      mapCall C m call = some (reply, m') ∧
      Refines C flash' m' ∧ Issued (InPartition C) flash flash' := by
  cases call with
  | writeData ns name data =>
    rcases h.writeData hcall.1 hcall.2.1 hcall.2.2 with ⟨hspec, hcode⟩ | ⟨ret, flash', m', hspec,
      hcode, h'⟩
    · exact Or.inl ⟨by rw [kvCall, hcode]; rfl, hspec⟩
    · exact Or.inr ⟨.ret ret, flash', m', by rw [kvCall, hcode]; rfl, hspec, h'⟩
  | readData ns name n =>
    right
    exact ⟨_, flash, m, rfl, by rw [mapCall, h.readData hcall.1.1 hcall.2.1], h, Issued.refl _⟩
  | cleanData ns name =>
    obtain ⟨ret, flash', m', hspec, hcode, h'⟩ := h.cleanData hcall.1.1 hcall.2.1
    exact Or.inr ⟨.ret ret, flash', m', by rw [kvCall, hcode], hspec, h'⟩
  | clearNamespace ns =>
    obtain ⟨ret, flash', m', hspec, hcode, h'⟩ := h.clearNamespace hcall.1
    exact Or.inr ⟨.ret ret, flash', m', by rw [kvCall, hcode], hspec, h'⟩
  | ensureNamespace ns =>
    obtain ⟨ret, flash', m', hspec, hcode, h'⟩ := h.ensureNamespace hcall
    exact Or.inr ⟨.ret ret, flash', m', by rw [kvCall, hcode], hspec, h'⟩
  | ensureNameData ns name =>
    right
    exact ⟨_, flash, m,
      rfl, by rw [mapCall, h.ensureNameData hcall.1.1 hcall.2.1], h, Issued.refl _⟩
  | eraseAll => exact Or.inr ⟨_, _, _, rfl, rfl, Refines.eraseAll flash, bkEraseAll_issued flash⟩

theorem Refines.call_answers (h : Refines C flash m) {call : KvCall} (hcall : call.Fits C) :
    (kvCall C .all flash call = none ∧ mapCall C m call = none) ∨
    ∃ reply flash' m', kvCall C .all flash call = some (reply, flash') ∧
      mapCall C m call = some (reply, m') ∧
      Refines C flash' m' := by
  rcases h.call hcall with hoverrun | ⟨reply, flash', m', hcode, hspec, h', -⟩
  · exact Or.inl hoverrun
  · exact Or.inr ⟨reply, flash', m', hcode, hspec, h'⟩

/-- From an erased partition on, and as long as no allocation fails, the store answers every
sequence of calls that fit as the bounded map does. -/
theorem kv_answers (C : FlashNamespaceValue) (flash : MatterFlash) (calls : List KvCall)
    (h : ∀ call ∈ calls, call.Fits C) :
    answers (kvCall C .all) (bkEraseAll C flash) calls = answers (mapCall C) (.empty C) calls :=
  answers_eq (fun _ _ _ hcall hrel => hrel.call_answers hcall) (Refines.eraseAll flash) h

/-- The fourth write finds three records in the table, two of them masked. -/
theorem kv_answers_rewrite :
    answers (mapCall smallHeader) (.empty smallHeader)
      [.writeData [1] [2] [3, 4], .writeData [1] [2] [5], .writeData [1] [2] [6],
        .writeData [1] [3] [7], .readData [1] [2] 9] =
      [some (.ret .kNoErr), some (.ret .kNoErr), some (.ret .kNoErr), some (.ret .kNoErr),
        some (.data (some [6]))] := by
  rw [← kv_answers smallHeader newFlash _
    (by simp [KvCall.Fits, NameFits, smallHeader, packedHeader, flashSectorSize])]
  decide +kernel

end Sonoff.Matter
