import Sonoff.Nvdm.MatterItems

/-! # Decimal items read back

A setter looks at the value of a text only, a getter at its first ten characters. They
agree on every text of at most ten characters, and beyond that on zero alone. (A text
whose length leaves the 16-bit index of the parser is longer than any argument line.)
-/
namespace Sonoff.Nvdm
open Fallible

inductive DecimalItem
  | discriminator
  | iterationCount
  | passcode
  deriving DecidableEq, Repr

def DecimalItem.set : DecimalItem → CString → NvdmM Unit
  | .discriminator => snfMatterDiscriminatorSet
  | .iterationCount => snfMatterIterationCountSet
  | .passcode => snfMatterPasscodeSet

def DecimalItem.get : DecimalItem → NvdmM ℕ
  | .discriminator => snfMatterDiscriminatorGet
  | .iterationCount => snfMatterIterationCountGet
  | .passcode => snfMatterPasscodeGet

def DecimalItem.key : DecimalItem → NvdmItem
  | .discriminator => .discriminator
  | .iterationCount => .iterationCount
  | .passcode => .passcode

def DecimalItem.max : DecimalItem → ℕ
  | .discriminator => nvdmMatterDiscriminatorMax
  | .iterationCount => 4294967295
  | .passcode => 4294967295

variable {items : NvdmItem → Option (List UInt8)} {item : DecimalItem} {value : CString}
  {s t : NvdmState} {n : ℕ}

/-- A setter takes the texts of digits whose value the item can have. -/
theorem DecimalItem.set_reliable : item.set value ⟨items, .reliable⟩ = .ok () t ↔
    (∃ n, parseDecU32 value = some n ∧ n ≤ item.max) ∧
      t = ⟨Function.update items item.key (some value.bytes), .reliable⟩ := by
  have hmax : (∃ n, parseDecU32 value = some n ∧ n ≤ 4294967295) ↔
      (parseDecU32 value).isSome = true := by
    rw [Option.isSome_iff_exists]
    exact exists_congr fun n => and_iff_left_of_imp fun h => (parseDecU32_eq_some.mp h).2.2.2
  cases item with
  | discriminator =>
    simp only [DecimalItem.set, snfMatterDiscriminatorSet, matterTextSet_reliable,
      discriminatorIsValid, Option.any_eq_true, decide_eq_true_eq, DecimalItem.max, DecimalItem.key]
  | iterationCount =>
    simp only [DecimalItem.set, snfMatterIterationCountSet, matterTextSet_reliable, DecimalItem.max,
      hmax, DecimalItem.key]
  | passcode =>
    simp only [DecimalItem.set, snfMatterPasscodeSet, matterTextSet_reliable, DecimalItem.max, hmax,
      DecimalItem.key]

/-- A getter takes the value of the first ten characters of what is stored. -/
theorem DecimalItem.get_reliable (h : items item.key = some value.bytes)
    (hn : parseDecU32 value = some n) (hmax : n ≤ item.max) : item.get ⟨items, .reliable⟩ =
      .ok (decimalValue (value.take nvdmMatterDecU32StrMaxLen).chars) ⟨items, .reliable⟩ := by
  have hfront := parseDecU32_take hn
  cases item with
  | discriminator =>
    obtain ⟨-,-,rfl,-⟩ := parseDecU32_eq_some.mp hn
    have hle := numeralValue_front_le (by decide : 0 < 10) (fun ch => (ch - 48).toNat)
      (value.chars.take nvdmMatterDecU32StrMaxLen) (value.chars.drop nvdmMatterDecU32StrMaxLen)
    rw [List.take_append_drop] at hle
    exact bind_eq_ok.mpr ⟨_, _, matterItemGetDec_reliable h (by decide) hfront,
      bind_eq_ok.mpr ⟨(), _, require_eq_ok.mpr ⟨decide_eq_true (hle.trans hmax), rfl⟩, rfl⟩⟩
  | iterationCount => exact matterItemGetDec_reliable h le_rfl hfront
  | passcode => exact matterItemGetDec_reliable h le_rfl hfront

/-- Behind a setter its getter returns the number the first ten characters denote. -/
theorem DecimalItem.get_front (h : item.set value ⟨items, .reliable⟩ = .ok () t) :
    item.get t = .ok (decimalValue (value.take nvdmMatterDecU32StrMaxLen).chars) t := by
  obtain ⟨⟨n,hn,hmax⟩,rfl⟩ := DecimalItem.set_reliable.mp h
  exact DecimalItem.get_reliable (Function.update_self _ _ _) hn hmax

/-- The matching getter returns the number that was set where the text has at most ten characters
or denotes zero, and only there. -/
theorem decimal_reads_back_iff (item : DecimalItem) (items : NvdmItem → Option (List UInt8))
    (value : CString) (t : NvdmState) (h : item.set value ⟨items, .reliable⟩ = .ok () t) :
    (∃ u, item.get t = .ok (decimalValue value.chars) u) ↔
      value.length ≤ nvdmMatterDecU32StrMaxLen ∨ decimalValue value.chars = 0 := by
  rw [DecimalItem.get_front h, ← decimalValue_take_iff]
  constructor
  · rintro ⟨u,hu⟩
    exact (EStateM.Result.ok.inj hu).1
  · intro he
    exact ⟨t, by rw [he]⟩

/-- A passcode of eight digits. -/
theorem decimal_reads_back_iff_passcode : ∃ t u,
    DecimalItem.passcode.set (decimal 20202021) ⟨fun _ => none, .reliable⟩ = .ok () t ∧
      DecimalItem.passcode.get t = .ok 20202021 u := by
  have hset : DecimalItem.passcode.set (decimal 20202021) ⟨fun _ => none, .reliable⟩ = .ok ()
      ⟨Function.update (fun _ => none) .passcode (some (decimal 20202021).bytes), .reliable⟩ :=
    DecimalItem.set_reliable.mpr ⟨⟨20202021, by decide +kernel, by decide⟩, rfl⟩
  obtain ⟨u,hu⟩ := (decimal_reads_back_iff .passcode _ _ _ hset).mpr (Or.inl (by decide +kernel))
  exact ⟨_, u, hset, by rwa [decimalValue_decimal] at hu⟩

def longOne : CString := ⟨List.replicate 10 48 ++ [49], by decide +kernel⟩

/-- The setter takes it for one, the getter for zero. -/
theorem decimal_not_read_back : ¬ ∀ (item : DecimalItem) (items : NvdmItem → Option (List UInt8))
    (value : CString) (t : NvdmState), item.set value ⟨items, .reliable⟩ = .ok () t →
    ∃ u, item.get t = .ok (decimalValue value.chars) u := by
  intro hall
  have hset : DecimalItem.passcode.set longOne ⟨fun _ => none, .reliable⟩ = .ok ()
      ⟨Function.update (fun _ => none) .passcode (some longOne.bytes), .reliable⟩ :=
    DecimalItem.set_reliable.mpr ⟨⟨1, by decide, by decide⟩, rfl⟩
  obtain ⟨u,hu⟩ := hall .passcode _ _ _ hset
  rw [DecimalItem.get_front hset] at hu
  exact absurd (EStateM.Result.ok.inj hu).1 (by decide)

end Sonoff.Nvdm
