import Mathlib.Logic.Function.Basic
import Sonoff.Base.Machine
import Sonoff.Matter.FlashNamespaceClear

/-! # What the store is for

A bounded map: for each namespace the pairs of its names and values, in a
directory of so many namespaces, with so many pairs and so many bytes in each.
The store on flash answers every sequence of calls as the bounded map does.
-/
namespace Sonoff.Matter
open Bytes NorFlash MaskedLog Machine

inductive KvCall
  | writeData (ucnamespace ucname indata : List UInt8)
  | readData (ucnamespace ucname : List UInt8) (dwReadLen : ℕ)
  | cleanData (ucnamespace ucname : List UInt8)
  | clearNamespace (ucnamespace : List UInt8)
  | ensureNamespace (ucnamespace : List UInt8)
  | ensureNameData (ucnamespace ucname : List UInt8)
  | eraseAll
  deriving DecidableEq, Repr

inductive KvReply
  | ret (ret : BkRet)
  | data (out : Option (List UInt8))
  deriving DecidableEq, Repr

/-- The store on flash; `none` is a call that overruns `data_buf`. -/
def kvCall (C : FlashNamespaceValue) (allocs : Allocs) (flash : MatterFlash) :
    KvCall → Option (KvReply × MatterFlash)
  | .writeData ns name data =>
    (bkWriteData C allocs flash ns name data).map fun r => (.ret r.1, r.2)
  | .readData ns name n => some (.data (bkReadData C allocs flash ns name n), flash)
  | .cleanData ns name =>
    some (.ret (bkCleanData C allocs flash ns name).1, (bkCleanData C allocs flash ns name).2)
  | .clearNamespace ns =>
    some (.ret (bkClearNamespace C allocs flash ns).1, (bkClearNamespace C allocs flash ns).2)
  | .ensureNamespace ns =>
    some (.ret (bkEnsureNamespace C allocs flash ns).1, (bkEnsureNamespace C allocs flash ns).2)
  | .ensureNameData ns name => some (.ret (bkEnsureNameData C allocs flash ns name), flash)
  | .eraseAll => some (.ret .kNoErr, bkEraseAll C flash)

/-- Names that fit their arrays, and data that a 32-bit device can hold. -/
def KvCall.Fits (C : FlashNamespaceValue) : KvCall → Prop
  | .writeData ns name data =>
    NameFits C.sizeofUcNamespace ns ∧ NameFits C.sizeofUcName name ∧
      data.length + flashSectorSize < 4294967296
  | .readData ns name _ => NameFits C.sizeofUcNamespace ns ∧ NameFits C.sizeofUcName name
  | .cleanData ns name => NameFits C.sizeofUcNamespace ns ∧ NameFits C.sizeofUcName name
  | .clearNamespace ns => NameFits C.sizeofUcNamespace ns
  | .ensureNamespace ns => NameFits C.sizeofUcNamespace ns
  | .ensureNameData ns name => NameFits C.sizeofUcNamespace ns ∧ NameFits C.sizeofUcName name
  | .eraseAll => True

abbrev Pairs := List (List UInt8 × List UInt8)

/-- The bounded map, with the number of namespaces that can still be added. -/
structure KvMap where
  spaces : List UInt8 → Option Pairs
  free : ℕ

namespace KvMap

def empty (C : FlashNamespaceValue) : KvMap := ⟨fun _ => none, C.flashNameSpaceMaxArray⟩

def get (m : KvMap) (ns name : List UInt8) : Option (List UInt8) := (m.spaces ns).bind fun ps =>
    ps.lookup name

def set (m : KvMap) (ns : List UInt8) (ps : Option Pairs) :
    KvMap := { m with spaces := Function.update m.spaces ns ps }

def add (m : KvMap) (ns : List UInt8) : Option KvMap :=
  if m.free = 0 then none else some { m.set ns (some []) with free := m.free - 1 }

end KvMap

def BkRet.ofBool : Bool → BkRet
  | true => .kNoErr
  | false => .kGeneralErr

def mapWrite (C : FlashNamespaceValue) (m : KvMap) (ns : List UInt8) (ps : Pairs)
    (name data : List UInt8) : Option (KvReply × KvMap) :=
  (setPair C ps name data).map fun r => (.ret (.ofBool r.1), m.set ns (some r.2))

def mapCall (C : FlashNamespaceValue) (m : KvMap) : KvCall → Option (KvReply × KvMap)
  | .writeData ns name data =>
    match m.spaces ns with
    | some ps => mapWrite C m ns ps name data
    | none =>
      match m.add ns with
      | none => some (.ret .kGeneralErr, m)
      | some m => mapWrite C m ns [] name data
  | .readData ns name n => some (.data ((m.get ns name).map fun v => v.take n), m)
  | .cleanData ns name =>
    match m.spaces ns with
    | none => some (.ret .kGeneralErr, m)
    | some ps =>
      if ps.lookup name = none then some (.ret .kGeneralErr, m)
      else some (.ret .kNoErr, m.set ns (some (ps.filter fun p => p.1 != name)))
  | .clearNamespace ns =>
    if m.spaces ns = none then some (.ret .kGeneralErr, m)
    else some (.ret .kNoErr, { m.set ns none with free := m.free + 1 })
  | .ensureNamespace ns =>
    if m.spaces ns = none then
      match m.add ns with
      | none => some (.ret .kGeneralErr, m)
      | some m => some (.ret .kNoErr, m)
    else some (.ret .kNoErr, m)
  | .ensureNameData ns name =>
    some (.ret (if m.get ns name = none then .kGeneralErr else .kNoErr), m)
  | .eraseAll => some (.ret .kNoErr, .empty C)

structure Represents (spaces : List (Option Space)) (m : KvMap) : Prop where
  pairs : ∀ q ps, m.spaces q = some ps ↔
    ∃ (block : ℕ) (s : Space), spaces[block]? = some (some s) ∧ s.name = q ∧
      MaskedLog.pairs s.log = ps
  free : m.free = spaces.countP Option.isNone

section Represents

variable {C : FlashNamespaceValue} {content : ℕ → UInt8} {spaces : List (Option Space)} {m : KvMap}
  {q : List UInt8}

theorem Represents.found (h : Represents spaces m) {block : ℕ} {s : Space}
    (hslot : spaces[block]? = some (some s)) : m.spaces s.name = some (MaskedLog.pairs s.log) :=
  (h.pairs _ _).mpr ⟨block, s, hslot, rfl, rfl⟩

theorem Represents.absent (h : Represents spaces m) (hq : ∀ s, some s ∈ spaces → s.name ≠ q) :
    m.spaces q = none := by
  rw [Option.eq_none_iff_forall_ne_some]
  intro ps hps
  obtain ⟨block, s, hslot, hname, -⟩ := (h.pairs q ps).mp hps
  exact hq s (List.mem_of_getElem? hslot) hname

theorem Represents.empty (C : FlashNamespaceValue) :
    Represents (List.replicate C.flashNameSpaceMaxArray none) (KvMap.empty C) := by
  constructor
  · intro q ps
    constructor
    · intro h
      cases h
    · rintro ⟨block, s, hslot, -⟩
      simp [List.getElem?_replicate] at hslot
  · simp [KvMap.empty, List.countP_replicate]

/-- One namespace with another log, or a new one, or none in its slot. -/
theorem Represents.update (h : Represents spaces m) {block : ℕ} {slot slot' : Option Space}
    (hslot : spaces[block]? = some slot) (hold : ∀ s, slot = some s → s.name = q)
    (hnew : ∀ s, slot' = some s → s.name = q)
    (hothers : ∀ (i : ℕ) (s : Space), spaces[i]? = some (some s) → s.name = q → i = block)
    {m' : KvMap} (hm :
    m'.spaces = Function.update m.spaces q (slot'.map fun s => MaskedLog.pairs s.log))
    (hfree : m'.free = (spaces.set block slot').countP Option.isNone) :
    Represents (spaces.set block slot') m' := by
  have hlt := (List.getElem?_eq_some_iff.mp hslot).1
  refine ⟨?_, hfree⟩
  intro q' ps
  rw [hm]
  by_cases hq : q' = q
  · subst hq
    rw [Function.update_self, Option.map_eq_some_iff]
    constructor
    · rintro ⟨s, hs, hps⟩
      exact ⟨block, s, by rw [List.getElem?_set_self hlt, hs], hnew s hs, hps⟩
    · rintro ⟨i, s, hi, hname, hps⟩
      rcases getElem?_set_cases hi with ⟨-, hs⟩ | ⟨hne, hi⟩
      · exact ⟨s, hs.symm, hps⟩
      · exact absurd (hothers i s hi hname) hne
  · rw [Function.update_of_ne hq, h.pairs]
    constructor
    · rintro ⟨i, s, hi, hname, hps⟩
      have hne : i ≠ block := by
        rintro rfl
        rw [hslot] at hi
        exact hq (hname ▸ hold s (Option.some.inj hi))
      exact ⟨i, s, by rw [List.getElem?_set_ne hne.symm]; exact hi, hname, hps⟩
    · rintro ⟨i, s, hi, hname, hps⟩
      rcases getElem?_set_cases hi with ⟨-, hs⟩ | ⟨-, hi⟩
      · exact absurd (hname ▸ hnew s hs.symm) hq
      · exact ⟨i, s, hi, hname, hps⟩

theorem countP_set_isNone {block : ℕ} {slot slot' : Option Space} (h : spaces[block]? = some slot) :
    (spaces.set block slot').countP Option.isNone + (if slot.isNone then 1 else 0) =
      spaces.countP Option.isNone + (if slot'.isNone then 1 else 0) := by
  obtain ⟨hlt, rfl⟩ := List.getElem?_eq_some_iff.mp h
  have hpos : (if spaces[block].isNone then 1 else 0) ≤ spaces.countP Option.isNone := by
    split
    case isTrue hnone =>
      exact List.countP_pos_iff.mpr ⟨_, List.getElem_mem hlt, hnone⟩
    case isFalse => exact Nat.zero_le _
  rw [List.countP_set hlt]
  omega

end Represents

end Sonoff.Matter
