import Mathlib.Tactic.Common

/-! # Base64

Three bytes become four digits of six bits; one or two bytes at the end become two or
three digits and padding.
-/
namespace Sonoff.Utils.Base64

def char (n : ℕ) : UInt8 :=
  if n < 26 then UInt8.ofNat (65 + n)
  else if n < 52 then UInt8.ofNat (71 + n)
  else if n < 62 then UInt8.ofNat (n - 4)
  else if n = 62 then 43
  else 47

def digit (c : UInt8) : Option ℕ :=
  if 65 ≤ c ∧ c ≤ 90 then some (c.toNat - 65)
  else if 97 ≤ c ∧ c ≤ 122 then some (c.toNat - 71)
  else if 48 ≤ c ∧ c ≤ 57 then some (c.toNat + 4)
  else if c = 43 then some 62
  else if c = 47 then some 63
  else none

def pad : UInt8 := 61

def encode : List UInt8 → List UInt8
  | [] => []
  | [a] => [char (a.toNat / 4), char (a.toNat % 4 * 16), pad, pad]
  | [a, b] =>
    [char (a.toNat / 4), char (a.toNat % 4 * 16 + b.toNat / 16), char (b.toNat % 16 * 4), pad]
  | a :: b :: c :: rest =>
    char (a.toNat / 4) :: char (a.toNat % 4 * 16 + b.toNat / 16) ::
      char (b.toNat % 16 * 4 + c.toNat / 64) :: char (c.toNat % 64) :: encode rest

/-- Padding stands in the last group only. -/
def decode : List UInt8 → Option (List UInt8)
  | [] => some []
  | a :: b :: c :: d :: rest => do
    let v₀ ← digit a
    let v₁ ← digit b
    let first := UInt8.ofNat (v₀ * 4 + v₁ / 16)
    if rest = [] ∧ c = pad ∧ d = pad then return [first]
    let v₂ ← digit c
    let second := UInt8.ofNat (v₁ % 16 * 16 + v₂ / 4)
    if rest = [] ∧ d = pad then return [first, second]
    let v₃ ← digit d
    let tail ← decode rest
    return first :: second :: UInt8.ofNat (v₂ % 4 * 64 + v₃) :: tail
  | _ => none

theorem digit_char {n : ℕ} (h : n < 64) : digit (char n) = some n := by
  have hall : ∀ i : Fin 64, digit (char i) = some i.val := by decide
  exact hall ⟨n, h⟩

theorem char_ne_pad {n : ℕ} (h : n < 64) : char n ≠ pad := by
  intro he
  have := digit_char h
  rw [he] at this
  cases this

theorem char_ne_zero {n : ℕ} (h : n < 64) : char n ≠ 0 := by
  intro he
  have := digit_char h
  rw [he] at this
  cases this

theorem ofNat_toNat {c : UInt8} {n : ℕ} (h : n = c.toNat) :
    UInt8.ofNat n = c := by rw [h, UInt8.ofNat_toNat]

theorem decode_encode (data : List UInt8) : decode (encode data) = some data := by
  fun_induction encode data with
  | case1 => rfl
  | case2 a =>
    have ha := a.toNat_lt
    simp only [decode, digit_char (show a.toNat / 4 < 64 by omega),
      digit_char (show a.toNat % 4 * 16 < 64 by omega),
      Option.bind_eq_bind, Option.bind_some, and_self, if_true, Option.pure_def]
    rw [ofNat_toNat (c := a) (by omega)]
  | case3 a b =>
    have ha := a.toNat_lt
    have hb := b.toNat_lt
    have h2 : b.toNat % 16 * 4 < 64 := by omega
    simp only [decode, digit_char (show a.toNat / 4 < 64 by omega),
      digit_char (show a.toNat % 4 * 16 + b.toNat / 16 < 64 by omega), digit_char h2,
        char_ne_pad h2,
      Option.bind_eq_bind, Option.bind_some, true_and, and_true, if_true, if_false, Option.pure_def]
    rw [ofNat_toNat (c := a) (by omega), ofNat_toNat (c := b) (by omega)]
  | case4 a b c rest ih =>
    have ha := a.toNat_lt
    have hb := b.toNat_lt
    have hc := c.toNat_lt
    have h2 : b.toNat % 16 * 4 + c.toNat / 64 < 64 := by omega
    have h3 : c.toNat % 64 < 64 := by omega
    simp only [decode, digit_char (show a.toNat / 4 < 64 by omega),
      digit_char (show a.toNat % 4 * 16 + b.toNat / 16 < 64 by omega), digit_char h2, digit_char h3,
        char_ne_pad h2,
      char_ne_pad h3, ih, Option.bind_eq_bind, Option.bind_some, and_false, if_false,
        Option.pure_def]
    rw [ofNat_toNat (c := a) (by omega), ofNat_toNat (c := b) (by omega),
      ofNat_toNat (c := c) (by omega)]

/-- Only digits and padding decode. -/
theorem decode_chars {text data : List UInt8} (h : decode text = some data) :
    ∀ c ∈ text, (digit c).isSome ∨ c = pad := by
  fun_induction decode text generalizing data with
  | case1 => exact nofun
  | case2 a b c d rest ih =>
    simp only [Option.bind_eq_bind, Option.bind_eq_some_iff] at h
    obtain ⟨v₀,h₀,v₁,h₁,h⟩ := h
    have hfront : ∀ x, x = a ∨ x = b → (digit x).isSome ∨ x = pad := by
      rintro x (rfl | rfl)
      · exact Or.inl (Option.isSome_iff_exists.mpr ⟨v₀, h₀⟩)
      · exact Or.inl (Option.isSome_iff_exists.mpr ⟨v₁, h₁⟩)
    simp only [List.mem_cons]
    split at h
    case isTrue hend =>
      obtain ⟨rfl,rfl,rfl⟩ := hend
      rintro x (hx | hx | hx | hx | hx)
      · exact hfront x (Or.inl hx)
      · exact hfront x (Or.inr hx)
      · exact Or.inr hx
      · exact Or.inr hx
      · cases hx
    case isFalse =>
      simp only [Option.bind_eq_some_iff] at h
      obtain ⟨v₂,h₂,h⟩ := h
      have hthird : (digit c).isSome := Option.isSome_iff_exists.mpr ⟨v₂, h₂⟩
      split at h
      case isTrue hend =>
        obtain ⟨rfl,rfl⟩ := hend
        rintro x (hx | hx | hx | hx | hx)
        · exact hfront x (Or.inl hx)
        · exact hfront x (Or.inr hx)
        · exact Or.inl (hx ▸ hthird)
        · exact Or.inr hx
        · cases hx
      case isFalse =>
        simp only [Option.bind_eq_some_iff] at h
        obtain ⟨v₃,h₃,tail,htail,-⟩ := h
        rintro x (hx | hx | hx | hx | hx)
        · exact hfront x (Or.inl hx)
        · exact hfront x (Or.inr hx)
        · exact Or.inl (hx ▸ hthird)
        · exact Or.inl (hx ▸ Option.isSome_iff_exists.mpr ⟨v₃, h₃⟩)
        · exact ih htail x hx
  | case3 text _ _ => cases h

/-- Four characters give at most three bytes. -/
theorem decode_length {text data : List UInt8} (h : decode text = some data) :
    data.length * 4 ≤ text.length * 3 := by
  fun_induction decode text generalizing data with
  | case1 =>
    cases h
    exact Nat.le_refl _
  | case2 a b c d rest ih =>
    simp only [Option.bind_eq_bind, Option.bind_eq_some_iff] at h
    obtain ⟨v₀,-,v₁,-,h⟩ := h
    simp only [List.length_cons]
    split at h
    · cases h
      simp only [List.length_cons, List.length_nil]
      omega
    · simp only [Option.bind_eq_some_iff] at h
      obtain ⟨v₂,-,h⟩ := h
      split at h
      · cases h
        simp only [List.length_cons, List.length_nil]
        omega
      · simp only [Option.bind_eq_some_iff] at h
        obtain ⟨v₃,-,tail,htail,h⟩ := h
        cases h
        have := ih htail
        simp only [List.length_cons]
        omega
  | case3 text _ _ => cases h

theorem encode_length (data : List UInt8) : (encode data).length = 4 * ((data.length + 2) / 3) := by
  fun_induction encode data with
  | case1 => rfl
  | case2 a => simp
  | case3 a b => simp
  | case4 a b c rest ih =>
    simp only [List.length_cons, ih]
    omega

theorem encode_ne_zero (data : List UInt8) : ∀ c ∈ encode data, c ≠ 0 := by
  fun_induction encode data with
  | case1 => simp
  | case2 a =>
    have ha := a.toNat_lt
    simp only [List.mem_cons, List.not_mem_nil, or_false]
    rintro c (rfl | rfl | rfl | rfl)
    · exact char_ne_zero (by omega)
    · exact char_ne_zero (by omega)
    · decide
    · decide
  | case3 a b =>
    have ha := a.toNat_lt
    have hb := b.toNat_lt
    simp only [List.mem_cons, List.not_mem_nil, or_false]
    rintro c (rfl | rfl | rfl | rfl)
    · exact char_ne_zero (by omega)
    · exact char_ne_zero (by omega)
    · exact char_ne_zero (by omega)
    · decide
  | case4 a b c rest ih =>
    have ha := a.toNat_lt
    have hb := b.toNat_lt
    have hc := c.toNat_lt
    simp only [List.mem_cons]
    rintro d (rfl | rfl | rfl | rfl | hd)
    · exact char_ne_zero (by omega)
    · exact char_ne_zero (by omega)
    · exact char_ne_zero (by omega)
    · exact char_ne_zero (by omega)
    · exact ih d hd

end Sonoff.Utils.Base64
