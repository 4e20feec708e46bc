import Sonoff.Matter.FlashNamespaceRuns

/-! # Names that do not fit their array

A name that leaves no room for its terminator is stored without its end and
looked up with it. The lookup never finds it, so that each write of it takes up
one more record, which no call on its name reads, masks or replaces.
-/
namespace Sonoff.Matter
open Bytes NorFlash MaskedLog Machine

def NameLong (size : ℕ) (name : List UInt8) : Prop := size ≤ name.length ∧ ∀ b ∈ name, b ≠ 0

/-- What is stored of it is stored as a name that fits. -/
theorem storedName_long {size : ℕ} {name : List UInt8} (hsize : 0 < size) (h : NameLong size name) :
    NameFits size (name.take (size - 1)) ∧
      storedName size name = storedName size (name.take (size - 1)) := by
  have hlong := h.1
  have hlen : (name.take (size - 1)).length = size - 1 := by
    rw [List.length_take]
    omega
  have hcut : bkStrnlen name (size - 1) = size - 1 := if_pos (by omega)
  constructor
  · refine ⟨by omega, ?_⟩
    intro b hb
    exact h.2 b (List.mem_of_mem_take hb)
  · have hfits : (name.take (size - 1)).length < size := by omega
    rw [storedName_fits hfits, hlen, storedName, hcut]

variable {C : FlashNamespaceValue} {start flash flash' : MatterFlash} {spaces : List (Option Space)}
  {block count : ℕ} {s : Space} {ns name data : List UInt8}

/-- The namespace of a slot can be written; two of its records may have one name. -/
structure Writable (C : FlashNamespaceValue) (content : ℕ → UInt8) (spaces : List (Option Space))
    (block : ℕ)
  (s : Space) : Prop
    extends Directory C content spaces where
  slot : spaces[block]? = some (some s)
  written : Written C content (nameSector C block) (dataSector C block) s.log
  keys : ∀ e ∈ s.log, NameFits C.sizeofUcName e.key
  slots : s.log.length ≤ C.flashNameMaxArray

theorem Stored.writable (h : Stored C flash.content spaces)
    (hslot : spaces[block]? = some (some s)) : Writable C flash.content spaces block s := by
  have hblock : Block C flash.content (nameSector C block) (dataSector C block) s.log :=
    h.blocks block _ hslot
  exact ⟨h.toDirectory, hslot, hblock.written, hblock.fits, hblock.slots⟩

theorem Writable.getNamespaceAddr (h : Writable C flash.content spaces block s)
    (hns : s.name.length < C.sizeofUcNamespace) :
    getNamespaceAddr C .all flash s.name =
      some (block * nameFlashTotalSize + nameSpaceFlashTotalSize, block) := by
  rcases h.toDirectory.getNamespaceAddr hns with ⟨hfresh, -⟩ | ⟨i, t, ht, heq, haddr⟩
  · exact absurd rfl (hfresh s (List.mem_of_getElem? h.slot))
  · rwa [h.distinct i block t s ht h.slot heq] at haddr

theorem Writable.getNameAddr (h : Writable C flash.content spaces block s)
    (hname : NameLong C.sizeofUcName name) :
    getNameAddr C .all flash name (flashSectorSize * nameSector C block) = none := by
  rw [Matter.getNameAddr, nameDataArr_table h.written.names h.slots]
  exact getNameAddrLoop_long h.keys hname.1 0 0 _

/-- A write of a name that does not fit adds a record or is refused. -/
theorem Writable.bkSetNameData (h : Writable C flash.content spaces block s)
    (hname : NameLong C.sizeofUcName name) (hdata : data.length + flashSectorSize < 4294967296) :
    ∃ ret flash' log, bkSetNameData C .all flash name data
      (block * nameFlashTotalSize + nameSpaceFlashTotalSize) block =
      some (ret, flash') ∧
      Writable C flash'.content (spaces.set block (some { s with log := log })) block
        { s with log := log } ∧
      (pairs log).length = (pairs s.log).length + if ret = .kNoErr then 1 else 0 := by
  obtain ⟨hcut, hstored⟩ := storedName_long C.ucName_pos hname
  have hlt : nameSector C block < dataSector C block := by
    have hblock := h.block_lt h.slot
    simp only [nameSector, dataSector]
    omega
  have hcode : Matter.bkSetNameData C .all flash name data
    (block * nameFlashTotalSize + nameSpaceFlashTotalSize) block =
      some (bkSetNameDataNewAddr C .all flash (flashSectorSize * dataSector C block)
        (flashSectorSize * nameSector C block) data
        ⟨C.flashSpaceUsing, 0, data.length, storedName C.sizeofUcName name⟩) := by
    simp only [Matter.bkSetNameData, nameSectorAddr_eq, dataSectorAddr_eq, h.getNameAddr hname]
  have hset := @Written.setNameDataNewAddr _ _ _ _ _ h.written hlt h.keys _ data hcut h.slots hdata
    ⟨C.flashSpaceUsing, 0, data.length, storedName C.sizeofUcName name⟩ hstored
  generalize bkSetNameDataNewAddr C .all flash (flashSectorSize * dataSector C block)
    (flashSectorSize * nameSector C block) data
    ⟨C.flashSpaceUsing, 0, data.length, storedName C.sizeofUcName name⟩ = result at hcode hset
  obtain ⟨hwritten, hret, hconfined⟩ := hset
  refine ⟨result.1, result.2, _, hcode, ⟨?_, ?_, hwritten, ?_, length_append_snd h.slots⟩, ?_⟩
  · exact (h.toDirectory.congr (hconfined.sector (not_or.mpr (startSector_ne block)))).setLog h.slot
      _
  · exact List.getElem?_set_self (List.getElem?_eq_some_iff.mp h.slot).1
  · intro e he
    rcases mem_append_snd he with he | rfl
    · exact h.keys e he
    · exact hcut
  · rw [append_fst h.slots] at hret
    simp only [pairs_append_snd h.slots]
    by_cases hfit : Fits List.length C.flashNameMaxArray flashSectorSize (pairs s.log) data
    · rw [if_pos hfit, if_pos (hret.mpr hfit), List.length_append, List.length_singleton]
    · rw [if_neg hfit, if_neg (mt hret.mp hfit), Nat.add_zero]

/-- At least so many records are in use in the namespace, or it is not there yet. -/
def Taken (C : FlashNamespaceValue) (flash : MatterFlash) (ns : List UInt8) (count : ℕ) : Prop :=
  (∃ spaces block s, Writable C flash.content spaces block s ∧ s.name = ns ∧
    count ≤ (pairs s.log).length) ∨
    (count = 0 ∧ ∃ spaces, Stored C flash.content spaces ∧ ∀ s, some s ∈ spaces → s.name ≠ ns)

theorem Taken.of_reach (h : KvReach C start flash) (ns : List UInt8) : Taken C flash ns 0 := by
  obtain ⟨m, spaces, hstored, -⟩ := Refines.of_reach h
  by_cases hfound : ∃ s, some s ∈ spaces ∧ s.name = ns
  · obtain ⟨s, hs, hname⟩ := hfound
    obtain ⟨block, hslot⟩ := List.mem_iff_getElem?.mp hs
    exact Or.inl ⟨spaces, block, s, hstored.writable hslot, hname, Nat.zero_le _⟩
  · right
    refine ⟨rfl, spaces, hstored, ?_⟩
    intro s hs hname
    exact hfound ⟨s, hs, hname⟩

theorem Taken.count_le (h : Taken C flash ns count) : count ≤ C.flashNameMaxArray := by
  rcases h with ⟨spaces, block, s, hw, -, hcount⟩ | ⟨rfl, -⟩
  · exact Nat.le_trans hcount (Nat.le_trans (pairs_length_le s.log) hw.slots)
  · exact Nat.zero_le _

/-- No name is found in the namespace that does not fit. -/
theorem Taken.lookups (h : Taken C flash ns count) (hns : NameFits C.sizeofUcNamespace ns)
    (hname : NameLong C.sizeofUcName name) :
    (∀ n, bkReadData C .all flash ns name n = none) ∧
      bkCleanData C .all flash ns name = (.kGeneralErr, flash) ∧
      bkEnsureNameData C .all flash ns name = .kGeneralErr := by
  rcases h with ⟨spaces, block, s, hw, rfl, -⟩ | ⟨-, spaces, hstored, hfresh⟩
  · simp only [bkReadData, bkCleanData, bkEnsureNameData, hw.getNamespaceAddr hns.1,
      nameSectorAddr_eq, hw.getNameAddr hname, implies_true, and_self]
  · rcases hstored.getNamespaceAddr hns.1 with ⟨-, haddr⟩ | ⟨block, s, hslot, hname', -⟩
    · simp only [bkReadData, bkCleanData, bkEnsureNameData, haddr, implies_true, and_self]
    · exact absurd hname' (hfresh s (List.mem_of_getElem? hslot))

theorem Taken.writeData (h : Taken C flash ns count) (hns : NameFits C.sizeofUcNamespace ns)
    (hname : NameLong C.sizeofUcName name)
    (hdata : data.length + flashSectorSize < 4294967296) :
    ∃ ret flash', bkWriteData C .all flash ns name data = some (ret, flash') ∧
      Taken C flash' ns (count + if ret = .kNoErr then 1 else 0) := by
  rw [bkWriteData]
  rcases h with ⟨spaces, block, s, hw, rfl, hcount⟩ | ⟨rfl, spaces, hstored, hfresh⟩
  · obtain ⟨ret, flash', log, hset, hw', hlen⟩ := hw.bkSetNameData hname hdata
    rw [hw.getNamespaceAddr hns.1]
    exact ⟨ret, flash', hset, Or.inl ⟨_, _, _, hw', rfl, by rw [hlen]; omega⟩⟩
  · have haddr : getNamespaceAddr C .all flash ns = none := by
      rcases hstored.getNamespaceAddr hns.1 with ⟨-, haddr⟩ | ⟨block, s, hslot, hname', -⟩
      · exact haddr
      · exact absurd hname' (hfresh s (List.mem_of_getElem? hslot))
    rw [haddr]
    rcases hstored.bkSetNamespace (q := ns) with ⟨-, hfull⟩ | ⟨block, hslot, hadd⟩
    · rw [hfull]
      exact ⟨_, _, rfl, Or.inr ⟨rfl, spaces, hstored, hfresh⟩⟩
    · have hadded := (hstored.setName hslot hns hfresh).1.writable
        (List.getElem?_set_self (List.getElem?_eq_some_iff.mp hslot).1)
      obtain ⟨ret, flash', log, hset, hw', hlen⟩ := hadded.bkSetNameData hname hdata
      rw [hadd]
      exact ⟨ret, flash', hset, Or.inl ⟨_, _, _, hw', rfl, by rw [hlen]; omega⟩⟩

def LongCall (C : FlashNamespaceValue) (ns : List UInt8) : KvCall → Prop
  | .writeData ns' name data =>
    ns' = ns ∧ NameLong C.sizeofUcName name ∧ data.length + flashSectorSize < 4294967296
  | .readData ns' name _ => ns' = ns ∧ NameLong C.sizeofUcName name
  | .cleanData ns' name => ns' = ns ∧ NameLong C.sizeofUcName name
  | .ensureNameData ns' name => ns' = ns ∧ NameLong C.sizeofUcName name
  | _ => False

theorem Taken.call (h : Taken C flash ns count) (hns : NameFits C.sizeofUcNamespace ns)
    {call : KvCall} (hcall : LongCall C ns call) :
    ∃ reply flash', kvCall C .all flash call = some (reply, flash') ∧
      (∀ out, reply ≠ .data (some out)) ∧
      Taken C flash' ns (count + if reply = .ret .kNoErr then 1 else 0) := by
  cases call with
  | writeData ns' name data =>
    obtain ⟨rfl, hname, hdata⟩ := hcall
    obtain ⟨ret, flash', hwrite, h'⟩ := h.writeData hns hname hdata
    refine ⟨.ret ret, flash', by rw [kvCall, hwrite]; rfl, by simp, ?_⟩
    simpa only [KvReply.ret.injEq] using h'
  | readData ns' name n =>
    obtain ⟨rfl, hname⟩ := hcall
    exact ⟨_, _, rfl, by simp [(h.lookups hns hname).1], h⟩
  | cleanData ns' name =>
    obtain ⟨rfl, hname⟩ := hcall
    refine ⟨_, _, rfl, by simp, ?_⟩
    rw [(h.lookups hns hname).2.1]
    exact h
  | ensureNameData ns' name =>
    obtain ⟨rfl, hname⟩ := hcall
    refine ⟨_, _, rfl, by simp, ?_⟩
    rw [(h.lookups hns hname).2.2]
    exact h
  | clearNamespace ns' => cases hcall
  | ensureNamespace ns' => cases hcall
  | eraseAll => cases hcall

theorem Taken.answers {calls : List KvCall} (h : Taken C flash ns count)
    (hns : NameFits C.sizeofUcNamespace ns) (hcalls : ∀ call ∈ calls, LongCall C ns call) :
    let replies := Machine.answers (kvCall C .all) flash calls
    none ∉ replies ∧ (∀ out, some (.data (some out)) ∉ replies) ∧
      count + replies.count (some (.ret .kNoErr)) ≤ C.flashNameMaxArray := by
  induction calls generalizing flash count with
  | nil => simpa [Machine.answers] using h.count_le
  | cons call calls ih =>
    obtain ⟨reply, flash', hcall, hreply, h'⟩ := h.call hns (hcalls call List.mem_cons_self)
    obtain ⟨hnone, hdata, hcount⟩ := ih h' fun c hc => hcalls c (List.mem_cons_of_mem _ hc)
    simp only [Machine.answers, hcall, List.mem_cons, not_or, List.count_cons, beq_iff_eq,
      Option.some.injEq]
    refine ⟨⟨by simp, hnone⟩, fun out => ⟨?_, hdata out⟩, by omega⟩
    exact Ne.symm (hreply out)

/-- Whatever the calls on names of a namespace that do not fit: none of them reads a value or
overruns, and no more of their writes succeed than the name table has records. -/
theorem bkWriteData_long (hreach : KvReach C start flash) (hns : NameFits C.sizeofUcNamespace ns)
    {calls : List KvCall} (hcalls : ∀ call ∈ calls, LongCall C ns call) :
    let replies := answers (kvCall C .all) flash calls
    none ∉ replies ∧ (∀ out, some (.data (some out)) ∉ replies) ∧ replies.count
      (some (.ret .kNoErr)) ≤ C.flashNameMaxArray := by
  intro replies
  obtain ⟨hnone, hdata, hcount⟩ := (Taken.of_reach hreach ns).answers hns hcalls
  exact ⟨hnone, hdata, by simpa using hcount⟩

/-- Three writes of a name of eight bytes fill the table; the fourth is refused. -/
theorem bkWriteData_long_full :
    let name : List UInt8 := [1, 2, 3, 4, 5, 6, 7, 8]
    let calls := List.replicate 4 (KvCall.writeData [1] name [9]) ++ [.readData [1] name 1]
    let replies := answers (kvCall smallHeader .all) (bkEraseAll smallHeader newFlash) calls
    replies.count (some (.ret .kNoErr)) = smallHeader.flashNameMaxArray ∧ none ∉ replies ∧
      ∀ out, some (.data (some out)) ∉ replies := by
  intro name calls replies
  have hreach : KvReach smallHeader newFlash (bkEraseAll smallHeader newFlash) := Reach.init
  have hns : NameFits smallHeader.sizeofUcNamespace [1] := by decide
  have hcalls : ∀ call ∈ calls, LongCall smallHeader [1] call := by
    simp [calls, name, LongCall, NameLong, smallHeader, packedHeader, flashSectorSize]
  obtain ⟨hnone, hdata, -⟩ := bkWriteData_long hreach hns hcalls
  exact ⟨by decide +kernel, hnone, hdata⟩

end Sonoff.Matter
