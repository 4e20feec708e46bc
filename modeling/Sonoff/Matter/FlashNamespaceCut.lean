import Sonoff.Matter.FlashNamespaceRuns

/-! # A write that is cut off

The power may fail between any two operations of a write. The other namespaces
do not notice; and unless the two sectors are being reorganized the namespace
itself loses nothing but the old value of the key, and never has half of a value.
-/
namespace Sonoff.Matter
open Bytes NorFlash MaskedLog Machine

variable {C : FlashNamespaceValue} {flash flash' flash'' : MatterFlash} {name data : List UInt8}
  {nameSector dataSector : ℕ} {log : NameLog}

theorem applyAll_ops (flash : MatterFlash) (ops : List FlashOp) :
    (flash.applyAll ops).ops = ops.reverse ++ flash.ops := by
  induction ops generalizing flash with
  | nil => rfl
  | cons op ops ih =>
    rw [List.reverse_cons, List.append_assoc]
    exact ih (flash.apply op)

/-- The operations of a call can be read off the flash. -/
theorem applyAll_inj {ops ops' : List FlashOp} (h : flash.applyAll ops = flash.applyAll ops') :
    ops = ops' := by
  have hops := congrArg MatterFlash.ops h
  rw [applyAll_ops, applyAll_ops] at hops
  exact List.reverse_injective (List.append_cancel_right hops)

/-- Every state on the way from one flash to another, both ends included. -/
def Through (P : MatterFlash → Prop) (flash flash' : MatterFlash) : Prop :=
  ∃ ops, flash' = flash.applyAll ops ∧ ∀ k, P (flash.applyAll (ops.take k))

def Erases (flash flash' : MatterFlash) : Prop :=
  ∃ ops, flash' = flash.applyAll ops ∧ ∃ offset size, FlashOp.erase offset size ∈ ops

section Through

variable {P : MatterFlash → Prop}

theorem Through.refl (h : P flash) : Through P flash flash :=
  ⟨[], rfl, fun k => by rw [List.take_nil]; exact h⟩

theorem Through.step {op : FlashOp} (h : P flash) (hrest : Through P (flash.apply op) flash') :
    Through P flash flash' := by
  obtain ⟨ops, rfl, hops⟩ := hrest
  refine ⟨op :: ops, rfl, ?_⟩
  intro k
  cases k with
  | zero => exact h
  | succ k => exact hops k

theorem Erases.step {op : FlashOp} (hrest : Erases (flash.apply op) flash') :
    Erases flash flash' := by
  obtain ⟨ops, rfl, offset, size, hmem⟩ := hrest
  exact ⟨op :: ops, rfl, offset, size, List.mem_cons_of_mem _ hmem⟩

/-- Reorganizing begins with two erasures. -/
theorem Erases.bkEraseNameData {Q : ℕ → Prop} {a b : ℕ}
    (h : Issued Q (bkEraseNameData flash a b) flash') :
    Erases flash flash' := by
  obtain ⟨ops, rfl, -, -⟩ := h
  exact ⟨_ :: _ :: ops, rfl, _, _, List.mem_cons_self⟩

end Through

/-- The log at some point of a write: other names have their pairs, the name itself its old one,
none, or the new one. -/
def Moment (C : FlashNamespaceValue) (nameSector dataSector : ℕ) (log : NameLog)
    (name data : List UInt8) (flash : MatterFlash) : Prop :=
  ∃ log', Readable C flash.content nameSector dataSector log' ∧
    (∀ name', name' ≠ name → (pairs log').lookup name' = (pairs log).lookup name') ∧
    ((pairs log').lookup name = (pairs log).lookup name ∨ (pairs log').lookup name = none ∨
      (pairs log').lookup name = some data)

/-- Appending an entry: the value is behind the log before its record is there. -/
theorem Block.appendEntry_through {log₀ : NameLog}
    (h : Block C flash.content nameSector dataSector log)
    (hname : NameFits C.sizeofUcName name) (hslot : log.length < C.flashNameMaxArray)
    (hroom : total List.length log + data.length < flashSectorSize)
    (hfresh : (pairs log).lookup name = none)
    (hothers : ∀ name', name' ≠ name → (pairs log).lookup name' = (pairs log₀).lookup name') :
    Through (Moment C nameSector dataSector log₀ name data) flash
      (appendEntry C nameSector dataSector log flash name
      data) := by
  have hmoment : ∀ f : MatterFlash, Readable C f.content nameSector dataSector log →
    Moment C nameSector dataSector log₀ name data f :=
    fun f hf => ⟨log, hf, hothers, Or.inr (Or.inl hfresh)⟩
  have hvalued : Readable C
    (bkFlashWriteBytes flash (flashSectorSize * dataSector + total List.length log) data).content
      nameSector dataSector log := by
    have hapart := sector_le flashSectorSize h.sectors
    have hfit : C.flashNameMaxArray * C.nameFlash.size ≤ flashSectorSize := C.names_fit
    refine ⟨?_, ⟨data, ?_⟩, h.fits, h.slots, h.distinct⟩
    · rw [bkFlashWriteBytes_content]
      apply h.written.names.congr
      rw [nameSlots_length h.slots]
      exact readBytes_write_apart (Or.inl (by omega))
    · have hend : (log.flatMap (·.value)).length + data.length ≤ flashSectorSize := by
        rw [flatMap_value_length]
        exact Nat.le_of_lt hroom
      have hvalues := @Filled.write _ _ flashSectorSize _ _ _ h.written.values hend
      rw [flatMap_value_length] at hvalues
      exact hvalues
  have hrecorded : Moment C nameSector dataSector log₀ name data
    (appendEntry C nameSector dataSector log flash name
      data) := by
    have hnext : Written C (appendEntry C nameSector dataSector log flash name data).content
      nameSector dataSector (log ++ [⟨true, name, data⟩]) :=
      (h.written.append h.sectors hname hslot (Nat.le_of_lt hroom)).1
    have hnew : pairs (log ++ [⟨true, name, data⟩]) = pairs log ++ [(name, data)] := by
      simp [pairs_cons]
    refine ⟨log ++ [⟨true, name, data⟩],
      ⟨hnext.names, ⟨[], by rw [List.append_nil]; exact hnext.values⟩, ?_, ?_, ?_⟩, ?_, ?_⟩
    · intro e he
      rcases List.mem_append.mp he with he | he
      · exact h.fits e he
      · rw [List.mem_singleton.mp he]
        exact hname
    · rw [List.length_append, List.length_singleton]
      omega
    · rw [hnew]
      exact nodup_concat_keys h.distinct hfresh
    · intro name' hne
      rw [hnew, lookup_concat_ne hne, hothers name' hne]
    · rw [hnew, lookup_concat_self hfresh]
      exact Or.inr (Or.inr rfl)
  exact (Through.refl hrecorded).step (hmoment _ hvalued) |>.step (hmoment _ h.readable)

/-- A new pair: reorganizing, or an entry appended. -/
theorem Block.newAddr_through {log₀ : NameLog} (h : Block C flash.content nameSector dataSector log)
    (hname : NameFits C.sizeofUcName name) (hdata : data.length + flashSectorSize < 4294967296)
    (hfresh : (pairs log).lookup name = none)
    (hothers : ∀ name', name' ≠ name → (pairs log).lookup name' = (pairs log₀).lookup name')
    (nameData : NameFlash) (hrecord : nameData.value.ucName = storedName C.sizeofUcName name) :
    let result := bkSetNameDataNewAddr C .all flash (flashSectorSize * dataSector)
      (flashSectorSize * nameSector) data nameData
    Erases flash result.2 ∨
      Through (Moment C nameSector dataSector log₀ name data) flash result.2 := by
  intro result
  rcases h.written.setNameDataNewAddr_cases h.slots hdata hrecord with
    ⟨hslot, hroom, hresult⟩ | ⟨hcase, hresult⟩ | ⟨-, -, hresult⟩
  · right
    simp only [result, hresult]
    exact h.appendEntry_through hname hslot hroom hfresh hothers
  · left
    have hconfined := (h.written.reorganize h.sectors h.fits hname (reorganize_slot h.slots hcase)
      hdata hrecord (C.flashNameMaxArray - log.length)).2.2
    simp only [result, hresult]
    exact Erases.bkEraseNameData hconfined
  · right
    simp only [result, hresult]
    exact Through.refl ⟨log, h.readable, hothers, Or.inr (Or.inl hfresh)⟩

/-- A write in one namespace: reorganizing, or small steps. -/
theorem Block.bkSetNameData_through (h : Block C flash.content nameSector dataSector log)
    (hname : NameFits C.sizeofUcName name) (hdata : data.length + flashSectorSize < 4294967296)
    {dwNOffsetAddr dwOffsetBlock : ℕ}
    (hsec : C.baseAddr + dwNOffsetAddr = flashSectorSize * nameSector)
    (hblock : dataSectorAddr C dwOffsetBlock = flashSectorSize * dataSector) {ret : BkRet}
    (hset : Matter.bkSetNameData C .all flash name data dwNOffsetAddr dwOffsetBlock =
      some (ret, flash')) :
    Erases flash flash' ∨ Through (Moment C nameSector dataSector log name data) flash flash' := by
  have hstart : Moment C nameSector dataSector log name data flash :=
    ⟨log, h.readable, fun _ _ => rfl, Or.inl rfl⟩
  simp only [Matter.bkSetNameData, hsec, hblock] at hset
  rcases h.readable.getNameAddr hname.1 with ⟨hfresh, haddr⟩ | ⟨before, v, after, rfl, hfound,
    haddr⟩
  · rw [haddr] at hset
    simp only [Option.some.injEq] at hset
    obtain rfl := congrArg Prod.snd hset
    exact h.newAddr_through hname hdata hfresh (fun _ _ => rfl) _ rfl
  · rw [haddr] at hset
    simp only [bkFlashReadBytes, h.readable.record, nameRecord] at hset
    split at hset
    · cases hset
    · rw [h.readable.value (Nat.le_refl _), List.take_length] at hset
      split at hset
      · -- the old record is masked first
        obtain ⟨hb, hpairs, -⟩ :=
          h.mask (Or.inr (Eq.refl
            (C.nameFlash.encode (nameRecord C (total List.length before) ⟨false, name, v⟩))))
        have hnew : (pairs (before ++ ⟨false, name, v⟩ :: after)).lookup name = none := by
          rw [hpairs]
          exact lookup_filter_self _ _
        have hothers : ∀ name', name' ≠ name →
          (pairs (before ++ ⟨false, name, v⟩ :: after)).lookup name' =
            (pairs (before ++ ⟨true, name, v⟩ :: after)).lookup name' := by
          intro name' hne
          rw [hpairs]
          exact lookup_filter_ne _ hne
        have hback := hb.readable.record
        simp only [nameRecord, Bool.false_eq_true, if_false, Option.some.injEq] at hback hset
        rw [hback] at hset
        obtain rfl := congrArg Prod.snd hset
        rcases hb.newAddr_through hname hdata hnew hothers
          (nameRecord C (total List.length before) ⟨false, name, v⟩)
          rfl with herases | hthrough
        · exact Or.inl herases.step
        · exact Or.inr (hthrough.step hstart)
      · cases hset
        exact Or.inr (Through.refl hstart)

section Store

variable {start : MatterFlash} {spaces : List (Option Space)} {m : KvMap} {ns : List UInt8}
  {block : ℕ} {s : Space} {ops : List FlashOp}

/-- The sectors that some operations of a call on one namespace leave. -/
theorem confined_sector
    (hops : ∀ op ∈ ops, ∃ k, (k = nameSector ∨ k = dataSector) ∧ op.InSector flashSectorSize k)
    {k : ℕ} (hk : ¬(k = nameSector ∨ k = dataSector)) :
    readBytes (flash.applyAll ops).content (flashSectorSize * k) flashSectorSize =
      readBytes flash.content (flashSectorSize * k) flashSectorSize := by
  rw [applyAll_content]
  exact readBytes_effects (by decide) hk hops

/-- Another namespace reads as before. -/
theorem Stored.cut_other (h : Stored C flash.content spaces) (hrep : Represents spaces m)
    (hslot : spaces[block]? = some (some s))
    (hops : ∀ op ∈ ops, ∃ k, (k = Matter.nameSector C block ∨ k = Matter.dataSector C block) ∧
      op.InSector flashSectorSize k)
    (hns : ns.length < C.sizeofUcNamespace) (hname : name.length < C.sizeofUcName)
    (hne : ns ≠ s.name) (n : ℕ) :
    bkReadData C .all (flash.applyAll ops) ns name n = (m.get ns name).map fun v => v.take n := by
  refine (h.toDirectory.congr (confined_sector hops (not_or.mpr (startSector_ne block)))).readData
    hrep ?_ hns hname n
  intro i t ht htns
  have hib : i ≠ block := by
    rintro rfl
    rw [hslot] at ht
    cases ht
    exact hne htns.symm
  have hother : Block C (flash.applyAll ops).content (Matter.nameSector C i) (Matter.dataSector C i)
      t.log := by
    apply (h.blocks i _ ht).congr
    rintro sector (rfl | rfl)
    · exact confined_sector hops (not_or.mpr (nameSector_ne (h.block_lt ht) hib))
    · exact confined_sector hops (not_or.mpr (dataSector_ne (h.block_lt hslot) hib))
  exact hother.readable

/-- The namespace itself reads as the log it holds. -/
theorem Stored.cut_self (h : Stored C flash.content spaces) (hrep : Represents spaces m)
    (hslot : spaces[block]? = some (some s))
    (hops : ∀ op ∈ ops, ∃ k, (k = Matter.nameSector C block ∨ k = Matter.dataSector C block) ∧
      op.InSector flashSectorSize k)
    (hread : Readable C (flash.applyAll ops).content (Matter.nameSector C block)
      (Matter.dataSector C block) log)
    (hns : s.name.length < C.sizeofUcNamespace) (hname : name.length < C.sizeofUcName) (n : ℕ) :
    bkReadData C .all (flash.applyAll ops) s.name name n = ((pairs log).lookup name).map fun v =>
      v.take n := by
  have hdirectory :=
    (h.toDirectory.congr (confined_sector hops (not_or.mpr (startSector_ne block)))).setLog hslot
    log
  have hgets : (m.set s.name (some (pairs log))).get s.name name = (pairs log).lookup name := by
    simp [KvMap.get, KvMap.set]
  rw [← hgets]
  refine hdirectory.readData (hrep.setLog h hslot log) ?_ hns hname n
  intro i t ht htns
  rcases getElem?_set_cases ht with ⟨rfl, hnew⟩ | ⟨hne, hold⟩
  · cases hnew
    exact hread
  · exact absurd (h.others hslot i t hold htns) hne

/-- What a write that is cut off leaves to be read. -/
structure CutReads (C : FlashNamespaceValue) (before cut : MatterFlash) (erases : Prop)
    (ns name data : List UInt8) : Prop where
  spaces : ∀ ns' name' n, NameFits C.sizeofUcNamespace ns' → NameFits C.sizeofUcName name' →
    ns' ≠ ns → bkReadData C .all cut ns' name' n = bkReadData C .all before ns' name' n
  names : ¬erases → ∀ name' n, NameFits C.sizeofUcName name' → name' ≠ name →
    bkReadData C .all cut ns name' n = bkReadData C .all before ns name' n
  value : ¬erases → ∀ n, bkReadData C .all cut ns name n = bkReadData C .all before ns name n ∨
    bkReadData C .all cut ns name n = none ∨ bkReadData C .all cut ns name n = some (data.take n)

theorem CutReads.of_same {before before' cut : MatterFlash} {erases erases' : Prop}
    (h : CutReads C before cut erases ns name data)
    (hsame : ∀ ns' name' n, NameFits C.sizeofUcNamespace ns' → NameFits C.sizeofUcName name' →
      bkReadData C .all before ns' name' n = bkReadData C .all before' ns' name' n)
    (hns : NameFits C.sizeofUcNamespace ns) (hname : NameFits C.sizeofUcName name)
    (herases : erases → erases') :
    CutReads C before' cut erases' ns name data := by
  constructor
  · intro ns' name' n hns' hname' hne
    rw [h.spaces ns' name' n hns' hname' hne, hsame ns' name' n hns' hname']
  · intro hnone name' n hname' hne
    rw [h.names (mt herases hnone) name' n hname' hne, hsame ns name' n hns hname']
  · intro hnone n
    have hvalue := h.value (mt herases hnone) n
    rwa [hsame ns name n hns hname] at hvalue

/-- Cutting off a write into a namespace of the directory. -/
theorem Stored.cutReads {ret : BkRet} (h : Stored C flash.content spaces)
    (hrep : Represents spaces m) (hslot : spaces[block]? = some (some s))
    (hns : NameFits C.sizeofUcNamespace s.name)
      (hname : NameFits C.sizeofUcName name)
    (hdata : data.length + flashSectorSize < 4294967296)
    (hset : Matter.bkSetNameData C .all flash name data
      (block * nameFlashTotalSize + nameSpaceFlashTotalSize) block = some
      (ret, flash')) :
    ∃ ops, flash' = flash.applyAll ops ∧
      ∀ k, CutReads C flash (flash.applyAll (ops.take k))
        (∃ offset size, FlashOp.erase offset size ∈ ops) s.name name
          data := by
  have hblock : Block C flash.content (Matter.nameSector C block) (Matter.dataSector C block)
    s.log := h.blocks block _ hslot
  rcases h.bkSetNameData hslot hname hdata with ⟨-, hnone⟩ | ⟨ok, ps, f, log', -, hcode, -, -,
    hconfined⟩
  · rw [hnone] at hset
    cases hset
  · rw [hset] at hcode
    cases hcode
    obtain ⟨ops, rfl, hops, -⟩ := hconfined
    refine ⟨ops, rfl, ?_⟩
    intro k
    have hcut : ∀ op ∈ ops.take k, ∃ k,
      (k = Matter.nameSector C block ∨ k = Matter.dataSector C block) ∧
        op.InSector flashSectorSize k := fun op hop => hops op (List.mem_of_mem_take hop)
    have hbefore : Refines C flash m := ⟨spaces, h, hrep⟩
    have hmoment : ¬(∃ offset size, FlashOp.erase offset size ∈ ops) →
        Moment C (Matter.nameSector C block) (Matter.dataSector C block) s.log name data
          (flash.applyAll (ops.take k)) := by
      intro hnone
      rcases hblock.bkSetNameData_through hname hdata (nameSectorAddr_eq C block)
          (dataSectorAddr_eq C block) hset with
        ⟨ops', heq, herase⟩ | ⟨ops', heq, hmoments⟩
      · rw [applyAll_inj heq] at hnone
        exact absurd herase hnone
      · rw [applyAll_inj heq]
        exact hmoments k
    constructor
    · intro ns' name' n hns' hname' hne
      rw [h.cut_other hrep hslot hcut hns'.1 hname'.1 hne, hbefore.readData hns'.1 hname'.1]
    · intro hnone name' n hname' hne
      obtain ⟨log', hread, hothers, -⟩ := hmoment hnone
      rw [h.cut_self hrep hslot hcut hread hns.1 hname'.1, hbefore.readData hns.1 hname'.1,
        hothers name' hne, KvMap.get, hrep.found hslot]
      rfl
    · intro hnone n
      obtain ⟨log', hread, -, hkey⟩ := hmoment hnone
      rw [h.cut_self hrep hslot hcut hread hns.1 hname.1, hbefore.readData hns.1 hname.1, KvMap.get,
        hrep.found hslot]
      rcases hkey with hkey | hkey | hkey
      · exact Or.inl (by rw [hkey]; rfl)
      · exact Or.inr (Or.inl (by rw [hkey]; rfl))
      · exact Or.inr (Or.inr (by rw [hkey]; rfl))

/-- Wherever the power fails in a write, the other namespaces read as before; and unless the write
erases a sector, so do the other names of its namespace, while its own key reads as before, as
absent or as what is written. -/
theorem bkWriteData_cut (hreach : KvReach C start flash) {ret : BkRet}
    (hns : NameFits C.sizeofUcNamespace ns)
    (hname : NameFits C.sizeofUcName name) (hdata : data.length + flashSectorSize < 4294967296)
    (hwrite : bkWriteData C .all flash ns name data = some (ret, flash')) :
    ∃ ops, flash' = flash.applyAll ops ∧
      ∀ k, CutReads C flash (flash.applyAll (ops.take k))
        (∃ offset size, FlashOp.erase offset size ∈ ops) ns name data := by
  obtain ⟨m, spaces, hstored, hrep⟩ := Refines.of_reach hreach
  have hrefl : ∀ erases, CutReads C flash flash erases ns name data :=
    fun _ => ⟨fun _ _ _ _ _ _ => rfl, fun _ _ _ _ _ => rfl, fun _ _ => Or.inl rfl⟩
  rw [bkWriteData] at hwrite
  rcases hstored.getNamespaceAddr hns.1 with ⟨hfresh, haddr⟩ | ⟨block, s, hslot, rfl, haddr⟩
  · rw [haddr] at hwrite
    rcases Refines.setNamespace hstored hrep hns hfresh with
      ⟨-, hset⟩ | ⟨m', block, op, hadd, hslot, hset, hstored', hrep', -⟩
    · rw [hset] at hwrite
      cases hwrite
      exact ⟨[], rfl, fun k => by rw [List.take_nil]; exact hrefl _⟩
    · rw [hset] at hwrite
      -- the namespace is added with nothing in it, so that every name reads as before
      have hsame : ∀ ns' name' n, NameFits C.sizeofUcNamespace ns' → NameFits C.sizeofUcName name' →
          bkReadData C .all (flash.apply op) ns' name' n = bkReadData C .all flash ns' name' n := by
        intro ns' name' n hns' hname'
        have hbefore : Refines C flash m := ⟨spaces, hstored, hrep⟩
        have hadded : Refines C (flash.apply op) m' := ⟨_, hstored', hrep'⟩
        rw [hadded.readData hns'.1 hname'.1, hbefore.readData hns'.1 hname'.1,
          KvMap.add_get hadd (hrep.absent hfresh)]
      have hslot' : (spaces.set block (some ⟨ns, []⟩))[block]? = some (some ⟨ns, []⟩) :=
        List.getElem?_set_self (List.getElem?_eq_some_iff.mp hslot).1
      obtain ⟨ops, rfl, hcuts⟩ := hstored'.cutReads hrep' hslot' hns hname hdata hwrite
      refine ⟨op :: ops, rfl, ?_⟩
      intro k
      cases k with
      | zero => exact hrefl _
      | succ k =>
        apply (hcuts k).of_same hsame hns hname
        rintro ⟨offset, size, herase⟩
        exact ⟨offset, size, List.mem_cons_of_mem _ herase⟩
  · rw [haddr] at hwrite
    exact hstored.cutReads hrep hslot hns hname hdata hwrite

/-- A second value beside a long one, cut off anywhere. -/
theorem bkWriteData_cut_used :
    ∃ flash' ops, bkWriteData smallHeader .all usedFlash [1] [3] [4, 5] = some (.kNoErr, flash') ∧
    flash' = usedFlash.applyAll ops ∧
      ∀ k, CutReads smallHeader usedFlash (usedFlash.applyAll (ops.take k))
      (∃ offset size, FlashOp.erase offset size ∈ ops) [1] [3] [4, 5] := by
  have hdone : (bkWriteData smallHeader .all usedFlash [1] [3] [4, 5]).map Prod.fst =
    some .kNoErr := by decide +kernel
  obtain ⟨⟨ret, flash'⟩, hwrite, rfl⟩ := Option.map_eq_some_iff.mp hdone
  obtain ⟨ops, hops, hcuts⟩ :=
    bkWriteData_cut usedFlash_reach (by decide) (by decide) (by simp [flashSectorSize]) hwrite
  exact ⟨flash', ops, hwrite, hops, hcuts⟩

end Store

end Sonoff.Matter
