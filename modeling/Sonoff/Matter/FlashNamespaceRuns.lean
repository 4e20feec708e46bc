import Sonoff.Matter.FlashNamespaceRefine

/-! # Runs of the store

What holds in every state that calls reach from an erased partition: what a write
leaves to be read, when it overruns its buffer, what it has changed when the
power fails on the way, and names that do not fit their array.
-/
namespace Sonoff.Matter
open Bytes NorFlash MaskedLog Machine

/-- One call that gets the memory it asks for. -/
def kvStep (C : FlashNamespaceValue) (flash : MatterFlash) (call : KvCall) : Option MatterFlash :=
  (kvCall C .all flash call).map Prod.snd

/-- The flash after calls that fit, on an erased partition. -/
abbrev KvReach (C : FlashNamespaceValue) (start flash : MatterFlash) : Prop :=
  Reach (kvStep C) (fun _ call => call.Fits C) (bkEraseAll C start) flash

variable {C : FlashNamespaceValue} {start flash flash' : MatterFlash} {ns name data : List UInt8}

theorem kvStep_refines {m : KvMap} {call : KvCall} (h : Refines C flash m) (hcall : call.Fits C)
    (hstep : kvStep C flash call = some flash') :
    (∃ m', Refines C flash' m') ∧ Issued (InPartition C) flash flash' := by
  obtain ⟨⟨reply, flash''⟩, hcode, rfl⟩ := Option.map_eq_some_iff.mp hstep
  rcases h.call hcall with ⟨hnone, -⟩ | ⟨reply', f, m', hsome, -, h', hissued⟩
  · rw [hnone] at hcode
    cases hcode
  · rw [hsome] at hcode
    cases hcode
    exact ⟨⟨m', h'⟩, hissued⟩

theorem Refines.of_reach (h : KvReach C start flash) : ∃ m, Refines C flash m := by
  refine Reach.invariant (P := fun f => ∃ m, Refines C f m) ⟨_, Refines.eraseAll start⟩ ?_ h
  intro s call t hs hcall hstep
  obtain ⟨m, hm⟩ := hs
  exact (kvStep_refines hm hcall hstep).1

/-- Whatever the calls, every write to the flash reads back and no operation leaves the partition.
-/
theorem kv_issued (h : KvReach C start flash) : Issued (InPartition C) start flash := by
  induction h with
  | init => exact bkEraseAll_issued start
  | step hreach hcall hstep ih =>
    obtain ⟨m, hm⟩ := Refines.of_reach hreach
    exact ih.trans (kvStep_refines hm hcall hstep).2

def usedFlash : MatterFlash :=
  ((kvStep smallHeader (bkEraseAll smallHeader newFlash)
    (.writeData [1] [2] (List.replicate 3000 7))).getD newFlash)

theorem usedFlash_reach : KvReach smallHeader newFlash usedFlash := by
  have hsome : (kvStep smallHeader (bkEraseAll smallHeader newFlash)
      (.writeData [1] [2] (List.replicate 3000 7))).isSome := by
    decide +kernel
  obtain ⟨flash, hstep⟩ := Option.isSome_iff_exists.mp hsome
  have hused : usedFlash = flash := by rw [usedFlash, hstep, Option.getD_some]
  have hfits : KvCall.Fits smallHeader (.writeData [1] [2] (List.replicate 3000 7)) := by
    refine ⟨by decide, by decide, ?_⟩
    rw [List.length_replicate]
    decide
  rw [hused]
  exact Reach.init.step hfits hstep

theorem kv_issued_used : Issued (InPartition smallHeader) newFlash usedFlash :=
  kv_issued usedFlash_reach

section Write

theorem mapWrite_get {m m' : KvMap} {ps : Pairs} {ret : BkRet}
    (h : mapWrite C m ns ps name data = some (.ret ret, m')) :
    (ret = .kNoErr → m'.get ns name = some data) ∧ (ret = .kGeneralErr → m'.get ns name = none) ∧
      (∀ name', name' ≠ name → m'.get ns name' = ps.lookup name') ∧ ∀ ns' name', ns' ≠ ns →
          m'.get ns' name' = m.get ns' name' := by
  simp only [mapWrite, setPair] at h
  split at h
  · cases h
  · simp only [Option.map_some, Option.some.injEq, Prod.mk.injEq, KvReply.ret.injEq] at h
    obtain ⟨rfl, rfl⟩ := h
    simp only [KvMap.get, KvMap.set, Function.update_self, Option.bind_some]
    refine ⟨?_, ?_, fun name' hne => lookup_put_other hne, ?_⟩
    · intro hret
      apply lookup_put_self
      cases hput : (put List.length C.flashNameMaxArray flashSectorSize ps name data).1 with
      | true => rfl
      | false => simp [hput, BkRet.ofBool] at hret
    · intro hret
      apply lookup_put_failed
      cases hput : (put List.length C.flashNameMaxArray flashSectorSize ps name data).1 with
      | true => simp [hput, BkRet.ofBool] at hret
      | false => rfl
    · intro ns' name' hne
      rw [Function.update_of_ne hne]

theorem KvMap.add_get {m m' : KvMap} (h : m.add ns = some m') (hfresh : m.spaces ns = none)
    (ns' name' : List UInt8) : m'.get ns' name' = m.get ns' name' := by
  simp only [KvMap.add] at h
  split at h
  · cases h
  · cases h
    simp only [KvMap.get, KvMap.set]
    by_cases hns : ns' = ns
    · subst hns
      rw [Function.update_self, hfresh]
      rfl
    · rw [Function.update_of_ne hns]

/-- A write in the map: the value of its key, and nothing else. -/
theorem mapCall_write_get {m m' : KvMap} {ret : BkRet}
    (h : mapCall C m (.writeData ns name data) = some (.ret ret, m')) :
    (ret = .kNoErr → m'.get ns name = some data) ∧ (ret = .kGeneralErr → m'.get ns name = none) ∧
      ∀ ns' name', ¬(ns' = ns ∧ name' = name) → m'.get ns' name' = m.get ns' name' := by
  simp only [mapCall] at h
  cases hspace : m.spaces ns with
  | some ps =>
    rw [hspace] at h
    obtain ⟨hok, herr, hname, hns⟩ := mapWrite_get h
    refine ⟨hok, herr, ?_⟩
    intro ns' name' hne
    by_cases heq : ns' = ns
    · subst heq
      rw [hname name' fun h => hne ⟨rfl, h⟩, KvMap.get, hspace]
      rfl
    · exact hns ns' name' heq
  | none =>
    rw [hspace] at h
    cases hadd : m.add ns with
    | none =>
      rw [hadd] at h
      simp only [Option.some.injEq, Prod.mk.injEq, KvReply.ret.injEq] at h
      obtain ⟨rfl, rfl⟩ := h
      refine ⟨?_, ?_, fun _ _ _ => rfl⟩
      · intro hret
        cases hret
      · intro _
        rw [KvMap.get, hspace]
        rfl
    | some added =>
      rw [hadd] at h
      obtain ⟨hok, herr, hname, hns⟩ := mapWrite_get h
      refine ⟨hok, herr, ?_⟩
      intro ns' name' hne
      by_cases heq : ns' = ns
      · subst heq
        rw [hname name' fun h => hne ⟨rfl, h⟩, KvMap.get, hspace]
        rfl
      · rw [hns ns' name' heq, KvMap.add_get hadd hspace]

/-- After a write its key reads as what was written, or as absent where the write was refused, even
if it had a value before; every other key reads as before. -/
theorem bkWriteData_read (hreach : KvReach C start flash) {ret : BkRet}
    (hns : NameFits C.sizeofUcNamespace ns)
    (hname : NameFits C.sizeofUcName name) (hdata : data.length + flashSectorSize < 4294967296)
    (hwrite : bkWriteData C .all flash ns name data = some (ret, flash')) :
    (∀ n, bkReadData C .all flash' ns name n = if ret = .kNoErr then some (data.take n) else none) ∧
      ∀ ns' name' n, NameFits C.sizeofUcNamespace ns' → NameFits C.sizeofUcName name' →
        ¬(ns' = ns ∧ name' = name) →
        bkReadData C .all flash' ns' name' n = bkReadData C .all flash ns' name' n := by
  obtain ⟨m, hm⟩ := Refines.of_reach hreach
  rcases hm.writeData hns hname hdata with ⟨-, hnone⟩ | ⟨ret', f, m', hspec, hcode, hm', -⟩
  · rw [hnone] at hwrite
    cases hwrite
  · rw [hcode] at hwrite
    cases hwrite
    obtain ⟨hok, herr, hother⟩ := mapCall_write_get hspec
    constructor
    · intro n
      rw [hm'.readData hns.1 hname.1]
      cases ret with
      | kNoErr => rw [hok rfl]; rfl
      | kGeneralErr => rw [herr rfl]; rfl
    · intro ns' name' n hns' hname' hne
      rw [hm'.readData hns'.1 hname'.1, hm.readData hns'.1 hname'.1, hother ns' name' hne]

/-- A second value beside the long one. -/
theorem bkWriteData_read_used :
    ∃ flash', bkWriteData smallHeader .all usedFlash [1] [3] [4, 5] = some (.kNoErr, flash') ∧
    bkReadData smallHeader .all flash' [1] [3] 9 = some [4, 5] ∧
      bkReadData smallHeader .all flash' [1] [2] 3 = some [7, 7, 7] := by
  have hdone : (bkWriteData smallHeader .all usedFlash [1] [3] [4, 5]).map Prod.fst =
    some .kNoErr := by decide +kernel
  have hold : bkReadData smallHeader .all usedFlash [1] [2] 3 = some [7, 7, 7] := by decide +kernel
  obtain ⟨⟨ret, flash'⟩, hwrite, rfl⟩ := Option.map_eq_some_iff.mp hdone
  obtain ⟨hread, hother⟩ :=
    bkWriteData_read usedFlash_reach (by decide) (by decide) (by simp [flashSectorSize]) hwrite
  refine ⟨flash', hwrite, hread 9, ?_⟩
  rw [hother [1] [2] 3 (by decide) (by decide) (by decide)]
  exact hold

/-- A write overruns `data_buf` exactly where the key has a value of more than 2048 bytes. -/
theorem bkWriteData_overrun (hreach : KvReach C start flash) (hns : NameFits C.sizeofUcNamespace ns)
    (hname : NameFits C.sizeofUcName name) (hdata : data.length + flashSectorSize < 4294967296) :
    bkWriteData C .all flash ns name data = none ↔
      ∃ old, bkReadData C .all flash ns name (dataBufSize + 1) = some old ∧
        dataBufSize < old.length := by
  obtain ⟨m, hm⟩ := Refines.of_reach hreach
  have hread : (∃ old, bkReadData C .all flash ns name (dataBufSize + 1) = some old ∧
    dataBufSize < old.length) ↔ dataBufSize < ((m.get ns name).getD []).length := by
    rw [hm.readData hns.1 hname.1]
    cases m.get ns name with
    | none => simp [dataBufSize]
    | some v =>
      simp only [Option.map_some, Option.some.injEq, exists_eq_left', List.length_take,
        Option.getD_some]
      omega
  have hspec : mapCall C m (.writeData ns name data) = none ↔
      dataBufSize < ((m.get ns name).getD []).length := by
    simp only [mapCall, KvMap.get]
    cases hspace : m.spaces ns with
    | some ps => simp [mapWrite, setPair]
    | none =>
      have hempty : ∀ x, mapWrite C x ns [] name data ≠ none := by
        intro x
        simp [mapWrite, setPair]
      cases hadd : m.add ns with
      | none => simp
      | some added => simp [hempty added]
  rw [hread, ← hspec]
  rcases hm.writeData hns hname hdata with ⟨h, hnone⟩ | ⟨ret', f, m', h, hcode, -, -⟩
  · simp [h, hnone]
  · simp [h, hcode]

/-- Replacing the long value overruns the buffer. -/
theorem bkWriteData_overrun_used : bkWriteData smallHeader .all usedFlash [1] [2] [3] = none := by
  have hlen : (bkReadData smallHeader .all usedFlash [1] [2] (dataBufSize + 1)).map List.length =
    some 2049 := by decide +kernel
  obtain ⟨old, hold, hlong⟩ := Option.map_eq_some_iff.mp hlen
  refine (bkWriteData_overrun usedFlash_reach (by decide) (by decide)
    (by simp [flashSectorSize])).mpr ⟨old, hold, ?_⟩
  rw [hlong]
  decide

end Write

end Sonoff.Matter
