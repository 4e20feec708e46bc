import Mathlib.Tactic.Ring
import Sonoff.Nvdm.Text

/-! # What a numeral denotes

The value of a digit string to any base, and what the two parsers of
`sonoff_nvdm_config.c` accept.
-/
namespace Sonoff.Nvdm

/-- The value of the digits, most significant first. -/
def numeralValue (base : ℕ) (digit : UInt8 → ℕ) (text : List UInt8) : ℕ :=
  text.foldl (fun n ch => n * base + digit ch) 0

theorem foldl_numeral (base : ℕ) (digit : UInt8 → ℕ) (text : List UInt8) (init : ℕ) :
    text.foldl (fun n ch => n * base + digit ch) init = init * base ^ text.length +
      numeralValue base digit text := by
  unfold numeralValue
  induction text generalizing init with
  | nil => simp
  | cons ch text ih =>
    rw [List.foldl_cons, ih, List.foldl_cons, ih (0 * base + digit ch), List.length_cons]
    ring

theorem numeralValue_append (base : ℕ) (digit : UInt8 → ℕ) (xs ys : List UInt8) :
    numeralValue base digit (xs ++ ys) = numeralValue base digit xs * base ^ ys.length +
      numeralValue base digit ys := by
  rw [numeralValue, List.foldl_append, foldl_numeral]
  rfl

/-- The front of a numeral denotes the same only where it denotes nothing, or is the whole. -/
theorem numeralValue_front_iff {base : ℕ} (hbase : 1 < base) (digit : UInt8 → ℕ) (xs : List UInt8)
    {ys : List UInt8} (hys : ys ≠ []) :
    numeralValue base digit xs = numeralValue base digit (xs ++ ys) ↔
      numeralValue base digit (xs ++ ys) = 0 := by
  rw [numeralValue_append]
  have hpow : 1 < base ^ ys.length :=
    Nat.one_lt_pow (fun h => hys (List.length_eq_zero_iff.mp h)) hbase
  have hmul : numeralValue base digit xs * 2 ≤ numeralValue base digit xs * base ^ ys.length :=
    Nat.mul_le_mul_left _ hpow
  constructor
  · intro h
    omega
  · intro h
    omega

theorem numeralValue_front_le {base : ℕ} (hbase : 0 < base) (digit : UInt8 → ℕ)
    (xs ys : List UInt8) : numeralValue base digit xs ≤ numeralValue base digit (xs ++ ys) := by
  rw [numeralValue_append]
  exact (Nat.le_mul_of_pos_right _ (Nat.pow_pos hbase)).trans (Nat.le_add_right _ _)

def decimalValue (text : List UInt8) : ℕ := numeralValue 10 (fun ch => (ch - 48).toNat) text

/-- The loop stops before the value leaves 32 bits. -/
theorem parseDecLoop_eq_some {text : List UInt8} {result n : ℕ} (hresult : result ≤ 4294967295) :
    parseDecLoop text result = some n ↔ (∀ ch ∈ text, 48 ≤ ch ∧ ch ≤ 57) ∧
      n = text.foldl (fun n ch => n * 10 + (ch - 48).toNat) result ∧ n ≤ 4294967295 := by
  induction text generalizing result with
  | nil =>
    simp only [parseDecLoop, Option.some.injEq, List.not_mem_nil, false_implies, implies_true,
      true_and, List.foldl_nil]
    constructor
    · rintro rfl
      exact ⟨rfl, hresult⟩
    · exact fun h => h.1.symm
  | cons ch text ih =>
    have hgrow : ∀ init, init ≤ text.foldl (fun n ch => n * 10 + (ch - 48).toNat) init := by
      intro init
      rw [foldl_numeral]
      exact (Nat.le_mul_of_pos_right _ (Nat.pow_pos (by decide))).trans (Nat.le_add_right _ _)
    rw [parseDecLoop, List.forall_mem_cons, List.foldl_cons]
    split
    case isTrue hch =>
      refine ⟨nofun, fun h => ?_⟩
      rcases hch with hch | hch
      · exact absurd h.1.1.1 (UInt8.not_le.mpr hch)
      · exact absurd h.1.1.2 (UInt8.not_le.mpr hch)
    case isFalse hch =>
      have hch : 48 ≤ ch ∧ ch ≤ 57 := by
        rw [not_or, UInt8.not_lt, gt_iff_lt, UInt8.not_lt] at hch
        exact hch
      have hdigit : (ch - 48).toNat ≤ 9 := by
        have hlow : 48 ≤ ch.toNat := UInt8.le_iff_toNat_le.mp hch.1
        have hhigh : ch.toNat ≤ 57 := UInt8.le_iff_toNat_le.mp hch.2
        rw [UInt8.toNat_sub_of_le _ _ hch.1]
        show ch.toNat - 48 ≤ 9
        omega
      dsimp only
      split
      case isTrue hbig =>
        refine ⟨nofun, fun h => ?_⟩
        have := hgrow (result * 10 + (ch - 48).toNat)
        omega
      case isFalse hsmall =>
        rw [ih (by omega)]
        exact and_congr_left fun _ => (and_iff_right hch).symm

theorem parseDecU32_eq_some {str : CString} {n : ℕ} :
    parseDecU32 str = some n ↔ str.chars ≠ [] ∧ (∀ ch ∈ str.chars, 48 ≤ ch ∧ ch ≤ 57) ∧
      n = decimalValue str.chars ∧ n ≤ 4294967295 := by
  unfold parseDecU32
  split
  case isTrue h =>
    exact ⟨nofun, fun h' => absurd h h'.1⟩
  case isFalse h =>
    rw [parseDecLoop_eq_some (by decide)]
    exact (and_iff_right h).symm

/-- `%u` prints what denotes the number. -/
theorem decimalValue_decimal (n : ℕ) : decimalValue (decimal n).chars = n := by
  have hfold : ∀ (digits : List Char) (init : ℕ), (∀ c ∈ digits, c.isDigit) →
      (digits.map fun c => UInt8.ofNat c.toNat).foldl (fun n ch => n * 10 + (ch - 48).toNat) init =
        Nat.ofDigitChars 10 digits init := by
    intro digits
    induction digits with
    | nil => exact fun _ _ => rfl
    | cons c digits ih =>
      intro init hdigits
      have hc := hdigits c List.mem_cons_self
      simp only [Char.isDigit, Bool.and_eq_true, decide_eq_true_eq] at hc
      have hlow : 48 ≤ c.toNat := UInt32.le_iff_toNat_le.mp hc.1
      have hhigh : c.toNat ≤ 57 := UInt32.le_iff_toNat_le.mp hc.2
      have hbyte : (UInt8.ofNat c.toNat - 48).toNat = c.toNat - 48 := by
        have htoNat : (UInt8.ofNat c.toNat).toNat = c.toNat := by
          rw [UInt8.toNat_ofNat']
          omega
        rw [UInt8.toNat_sub_of_le _ _ (UInt8.le_iff_toNat_le.mpr (by rw [htoNat]; exact hlow)),
          htoNat]
        rfl
      rw [List.map_cons, List.foldl_cons, ih _ fun d hd => hdigits d (List.mem_cons_of_mem _ hd),
        Nat.ofDigitChars_cons, hbyte, Nat.mul_comm]
      rfl
  have hdigits : ∀ c ∈ Nat.toDigits 10 n, c.isDigit := fun c hc =>
    Nat.isDigit_of_mem_toDigits (by decide) (by decide) hc
  exact (hfold _ 0 hdigits).trans Nat.ofDigitChars_ten_toDigits

def nvdmMatterHexIdMaxLen : ℕ := 4

def parseHexLoop : List UInt8 → ℕ → ℕ → Option ℕ
  | [], _, result => some result
  | ch :: rest, i, result =>
    if nvdmMatterHexIdMaxLen ≤ i then none
    else do
      let nibble ← hexNibble ch
      parseHexLoop rest (i + 1) ((result * 16 + nibble.toNat) % 65536)

def parseHexU16 (str : CString) : Option ℕ := if str.chars = [] then none
    else parseHexLoop str.chars 0 0

def hexDigitValue (ch : UInt8) : ℕ := ((hexNibble ch).getD 0).toNat

def hexValue (text : List UInt8) : ℕ := numeralValue 16 hexDigitValue text

def hexUpperDigit (n : ℕ) : UInt8 := if n < 10 then UInt8.ofNat (48 + n) else UInt8.ofNat (55 + n)

def hexUpper4 (n : ℕ) : List UInt8 :=
  [hexUpperDigit (n / 4096 % 16), hexUpperDigit (n / 256 % 16), hexUpperDigit (n / 16 % 16),
    hexUpperDigit (n % 16)]

theorem hexNibble_toNat_lt {ch nibble : UInt8} (h : hexNibble ch = some nibble) :
    nibble.toNat < 16 := by
  have hall : ∀ i : Fin 256, (hexNibble (UInt8.ofNat i)).all (fun nibble => nibble.toNat < 16) := by
    decide +kernel
  have hch := hall ⟨ch.toNat, ch.toNat_lt⟩
  rw [UInt8.ofNat_toNat, h] at hch
  simpa using hch

/-- A text of at most four digits loses nothing in sixteen bits. -/
theorem parseHexLoop_eq {text : List UInt8} {i result : ℕ}
    (hdigits : ∀ ch ∈ text, (hexNibble ch).isSome)
    (hlen : i + text.length ≤ nvdmMatterHexIdMaxLen) (hresult : result < 16 ^ i) :
    parseHexLoop text i result = some (text.foldl (fun n ch => n * 16 + hexDigitValue ch) result) ∧
      text.foldl (fun n ch => n * 16 + hexDigitValue ch) result < 65536 := by
  unfold nvdmMatterHexIdMaxLen at hlen
  induction text generalizing i result with
  | nil =>
    have hpow : 16 ^ i ≤ 16 ^ 4 := Nat.pow_le_pow_right (by decide) (by simpa using hlen)
    exact ⟨rfl, by simp only [List.foldl_nil]; omega⟩
  | cons ch text ih =>
    obtain ⟨nibble,hnibble⟩ := Option.isSome_iff_exists.mp (hdigits ch List.mem_cons_self)
    have hlt := hexNibble_toNat_lt hnibble
    rw [List.length_cons] at hlen
    have hpow : 16 ^ (i + 1) ≤ 16 ^ 4 := Nat.pow_le_pow_right (by decide) (by omega)
    have hvalue : hexDigitValue ch = nibble.toNat := by rw [hexDigitValue, hnibble]; rfl
    have hnext : result * 16 + nibble.toNat < 16 ^ (i + 1) := by
      rw [Nat.pow_succ]
      omega
    rw [parseHexLoop, if_neg (by unfold nvdmMatterHexIdMaxLen; omega), hnibble, List.foldl_cons,
      hvalue]
    rw [Option.bind_eq_bind, Option.bind_some, Nat.mod_eq_of_lt (by omega)]
    exact ih (fun c hc => hdigits c (List.mem_cons_of_mem _ hc)) (by omega) hnext

/-- What the setters of the two ids accept, their getters read. -/
theorem parseHexU16_valid {str : CString}
    (h : hexStringIsValid str 1 nvdmMatterHexIdMaxLen = true) :
    parseHexU16 str = some (hexValue str.chars) ∧ hexValue str.chars < 65536 := by
  simp only [hexStringIsValid, Bool.and_eq_true, decide_eq_true_eq, List.all_eq_true] at h
  obtain ⟨⟨⟨⟨⟨hne,-⟩,-⟩,hlen⟩,hdigits⟩,-⟩ := h
  unfold parseHexU16
  rw [if_neg hne]
  exact parseHexLoop_eq hdigits ((Nat.zero_add _).trans_le hlen) (by decide)

theorem hexDigitValue_hexUpperDigit {n : ℕ} (h : n < 16) : hexDigitValue (hexUpperDigit n) = n := by
  have hall : ∀ i : Fin 16, hexDigitValue (hexUpperDigit i) = i.val := by decide
  exact hall ⟨n, h⟩

/-- `%04X` prints what denotes the number. -/
theorem hexValue_hexUpper4 {n : ℕ} (h : n < 65536) : hexValue (hexUpper4 n) = n := by
  simp only [hexValue, numeralValue, hexUpper4, List.foldl_cons, List.foldl_nil,
    hexDigitValue_hexUpperDigit (Nat.mod_lt _ (by decide : 0 < 16))]
  omega

end Sonoff.Nvdm
