import Mathlib.Data.List.Forall2
import Sonoff.Nvdm.Numerals
import Sonoff.Ota.HttpScan

/-! # The length an upload announces

A header block announces a length where one line behind the request line is the field and its
value is a decimal number of 32 bits. The scanner finds the length of such a block and
refuses every other.
-/
namespace Sonoff.Ota
open Lines

variable {line value text : List UInt8} {found : Option ℕ} {v : ℕ}

def SameLetter (a b : UInt8) : Prop := a = b ∨ 65 ≤ a ∧ a ≤ 90 ∧ b = a + 32 ∨ 65 ≤ b ∧ b ≤ 90 ∧
    a = b + 32

/-- A line that begins with the name of the field and a colon, with what follows. -/
def FieldLine (line value : List UInt8) : Prop :=
  ∃ name, List.Forall₂ SameLetter name httpContentLength ∧ line = name ++ 58 :: value

/-- The bytes are a number from `1` to `2 ^ 32 - 1` between spaces and tabs. -/
def Announces (value : List UInt8) (v : ℕ) : Prop :=
  ∃ before digits after, value = before ++ digits ++ after ∧
    (∀ byte ∈ before, byte = 32 ∨ byte = 9) ∧
    (∀ byte ∈ after, byte = 32 ∨ byte = 9) ∧ digits ≠ [] ∧
      (∀ byte ∈ digits, 48 ≤ byte ∧ byte ≤ 57) ∧
    v = Nvdm.decimalValue digits ∧ 1 ≤ v ∧ v ≤ 4294967295

def AnnouncedBy (lines : List (List UInt8)) (v : ℕ) : Prop :=
  ∃ before line after value, lines = before ++ line :: after ∧ FieldLine line value ∧
    Announces value v ∧ ∀ other ∈ before ++ after, ∀ rest, ¬FieldLine other rest

theorem asciiLower_toNat (a : UInt8) :
    (asciiLower a).toNat = if 65 ≤ a.toNat ∧ a.toNat ≤ 90 then a.toNat + 32 else a.toNat := by
  unfold asciiLower
  have h65 : (65 : UInt8).toNat = 65 := rfl
  have h90 : (90 : UInt8).toNat = 90 := rfl
  simp only [Bool.and_eq_true, decide_eq_true_eq, UInt8.le_iff_toNat_le, h65, h90]
  split
  case isTrue h =>
    have hlow : 65 ≤ a.toNat := h.1
    have hhigh : a.toNat ≤ 90 := h.2
    have hsub : (a - 65).toNat = a.toNat - 65 :=
      UInt8.toNat_sub_of_le a 65 (UInt8.le_iff_toNat_le.mpr hlow)
    rw [UInt8.toNat_add, hsub]
    show (a.toNat - 65 + 97) % 256 = _
    omega
  case isFalse => rfl

theorem sameLetter_iff (a b : UInt8) : SameLetter a b ↔ asciiLower a = asciiLower b := by
  unfold SameLetter
  simp only [← UInt8.toNat_inj, UInt8.le_iff_toNat_le, asciiLower_toNat, UInt8.toNat_add]
  have ha := a.toNat_lt
  have hb := b.toNat_lt
  have h65 : (65 : UInt8).toNat = 65 := rfl
  have h90 : (90 : UInt8).toNat = 90 := rfl
  have h32 : (32 : UInt8).toNat = 32 := rfl
  rw [h65, h90, h32]
  split <;> split <;> omega

theorem forall₂_sameLetter_iff {name field : List UInt8} :
    List.Forall₂ SameLetter name field ↔ otaHttpAsciiEqual name field = true := by
  unfold otaHttpAsciiEqual
  rw [decide_eq_true_iff]
  induction name generalizing field with
  | nil => cases field <;> simp
  | cons a name ih => cases field <;> simp [sameLetter_iff, ih]

/-- The test of the code finds the field and its value. -/
theorem fieldLine_iff (line value : List UInt8) :
    FieldLine line value ↔ otaHttpIsContentLength line = true ∧
      value = line.drop (httpContentLength.length + 1) := by
  unfold FieldLine otaHttpIsContentLength
  simp only [Bool.and_eq_true, decide_eq_true_eq]
  constructor
  · rintro ⟨name,hname,rfl⟩
    have hlength : name.length = httpContentLength.length := hname.length_eq
    rw [← hlength]
    refine ⟨⟨⟨by simp, ?_⟩, ?_⟩, ?_⟩
    · simp [List.getD_eq_getElem?_getD]
    · rw [List.take_left]
      exact forall₂_sameLetter_iff.mp hname
    · rw [← List.drop_drop, List.drop_left]
      rfl
  · rintro ⟨⟨⟨hlong,hcolon⟩,hname⟩,rfl⟩
    refine ⟨line.take httpContentLength.length, forall₂_sameLetter_iff.mpr hname, ?_⟩
    have hbyte : getElem line httpContentLength.length hlong = 58 := by
      rwa [List.getD_eq_getElem?_getD, List.getElem?_eq_getElem hlong] at hcolon
    rw [← hbyte, ← List.drop_eq_getElem_cons hlong, List.take_append_drop]

theorem isSpace_iff (byte : UInt8) : otaHttpIsSpace byte = true ↔ byte = 32 ∨ byte = 9 := by
  simp [otaHttpIsSpace]

/-- A digit is none of the bytes around the value. -/
theorem isSpace_of_digit {byte : UInt8} (h : 48 ≤ byte ∧ byte ≤ 57) :
    otaHttpIsSpace byte = false := by
  by_contra hspace
  obtain rfl | rfl := (isSpace_iff byte).mp (by simpa using hspace)
  · exact absurd h.1 (by decide)
  · exact absurd h.1 (by decide)

/-- Spaces before a text that does not begin with one are skipped. -/
theorem skipSpaces {spaces : List UInt8} (hspaces : ∀ byte ∈ spaces, byte = 32 ∨ byte = 9)
    (htext : ∀ byte ∈ text.head?, otaHttpIsSpace byte = false) :
    (spaces ++ text).dropWhile otaHttpIsSpace = text := by
  induction spaces with
  | nil =>
    cases text with
    | nil => rfl
    | cons byte text => simp [htext byte rfl]
  | cons space spaces ih =>
    have hspace := (isSpace_iff space).mpr (hspaces space List.mem_cons_self)
    rw [List.cons_append, List.dropWhile_cons_of_pos hspace]
    exact ih fun byte hbyte => hspaces byte (List.mem_cons_of_mem _ hbyte)

theorem otaHttpTrim_digits {before digits after : List UInt8}
    (hbefore : ∀ byte ∈ before, byte = 32 ∨ byte = 9)
    (hafter : ∀ byte ∈ after, byte = 32 ∨ byte = 9) (hempty : digits ≠ [])
    (hdigits : ∀ byte ∈ digits, 48 ≤ byte ∧ byte ≤ 57) :
    otaHttpTrim (before ++ digits ++ after) = digits := by
  have hfront : (before ++ (digits ++ after)).dropWhile otaHttpIsSpace = digits ++ after := by
    refine skipSpaces hbefore fun byte hbyte => isSpace_of_digit (hdigits byte ?_)
    rw [List.head?_append_of_ne_nil _ hempty] at hbyte
    exact List.mem_of_mem_head? hbyte
  have hback : (after.reverse ++ digits.reverse).dropWhile otaHttpIsSpace = digits.reverse := by
    refine skipSpaces (by simpa using hafter) fun byte hbyte => isSpace_of_digit (hdigits byte ?_)
    exact List.mem_reverse.mp (List.mem_of_mem_head? hbyte)
  unfold otaHttpTrim
  rw [List.append_assoc, hfront, List.reverse_append, hback, List.reverse_reverse]

/-- The loop of the other decimal parser. -/
theorem otaHttpParseDigits_eq (number : ℕ) (digits : List UInt8) :
    otaHttpParseDigits number digits = Nvdm.parseDecLoop digits number := by
  induction digits generalizing number with
  | nil => rfl
  | cons byte digits ih =>
    rw [otaHttpParseDigits, Nvdm.parseDecLoop]
    simp only [Bool.or_eq_true, decide_eq_true_eq]
    split
    case isTrue => rfl
    case isFalse hdigit =>
      rw [not_or, UInt8.not_lt, gt_iff_lt, UInt8.not_lt] at hdigit
      have hbyte : (byte - 48).toNat = byte.toNat - 48 := UInt8.toNat_sub_of_le _ _ hdigit.1
      rw [hbyte, ih]

theorem announces_iff (value : List UInt8) (v : ℕ) :
    Announces value v ↔ otaHttpParseUint32 value = some v := by
  unfold otaHttpParseUint32
  constructor
  · rintro ⟨before,digits,after,rfl,hbefore,hafter,hempty,hdigits,rfl,hpos,hle⟩
    have hparse : otaHttpParseDigits 0 digits = some (Nvdm.decimalValue digits) := by
      rw [otaHttpParseDigits_eq]
      exact (Nvdm.parseDecLoop_eq_some (Nat.zero_le _)).mpr ⟨hdigits, rfl, hle⟩
    rw [otaHttpTrim_digits hbefore hafter hempty hdigits, if_neg hempty, hparse]
    exact if_neg (by omega)
  · intro h
    have hsplit := HttpScan.trim_split value
    by_cases hempty : otaHttpTrim value = []
    · rw [if_pos hempty] at h
      cases h
    · rw [if_neg hempty] at h
      cases hparse : otaHttpParseDigits 0 (otaHttpTrim value) with
      | none =>
        rw [hparse] at h
        cases h
      | some number =>
        rw [hparse] at h
        by_cases hzero : number = 0
        · rw [hzero] at h
          cases h
        · obtain rfl : number = v := by simpa [hzero] using h
          rw [otaHttpParseDigits_eq] at hparse
          obtain ⟨hdigits,hvalue,hle⟩ := (Nvdm.parseDecLoop_eq_some (Nat.zero_le _)).mp hparse
          refine ⟨_, _, _, hsplit, fun byte hbyte => ?_, fun byte hbyte => ?_, hempty, hdigits,
            hvalue, by omega, hle⟩
          · exact (isSpace_iff byte).mp (List.mem_takeWhile_imp hbyte)
          · exact (isSpace_iff byte).mp (List.mem_takeWhile_imp (List.mem_reverse.mp hbyte))

/-- Behind a field another is refused. -/
theorem contentLengthOf_some {number : ℕ} {lines : List (List UInt8)} :
    otaHttpContentLengthOf (some number) lines = some v ↔
      v = number ∧ ∀ line ∈ lines, otaHttpIsContentLength line = false := by
  induction lines with
  | nil =>
    rw [otaHttpContentLengthOf, Option.some.injEq]
    constructor
    · rintro rfl
      exact ⟨rfl, fun line hline => absurd hline List.not_mem_nil⟩
    · exact fun h => h.1.symm
  | cons line lines ih =>
    rw [HttpScan.otaHttpContentLengthOf_cons, List.forall_mem_cons]
    unfold HttpScan.lineOutcome
    cases otaHttpIsContentLength line with
    | true => simp
    | false => simp [ih]

/-- The field among the lines, with no other before or behind it. -/
theorem contentLengthOf_none {lines : List (List UInt8)} :
    otaHttpContentLengthOf none lines = some v ↔
      ∃ before line after, lines = before ++ line :: after ∧ otaHttpIsContentLength line = true ∧
        otaHttpParseUint32 (line.drop (httpContentLength.length + 1)) = some v ∧
        ∀ other ∈ before ++ after, otaHttpIsContentLength other = false := by
  induction lines with
  | nil => simp [otaHttpContentLengthOf]
  | cons line lines ih =>
    rw [HttpScan.otaHttpContentLengthOf_cons]
    unfold HttpScan.lineOutcome
    cases hfield : otaHttpIsContentLength line with
    | true =>
      simp only [if_true, Option.isSome_none, Bool.false_eq_true, if_false]
      constructor
      · intro h
        cases hnumber : otaHttpParseUint32 (line.drop (httpContentLength.length + 1)) with
        | none =>
          rw [hnumber] at h
          cases h
        | some number =>
          rw [hnumber] at h
          obtain ⟨rfl,hrest⟩ := contentLengthOf_some.mp h
          exact ⟨[], line, lines, rfl, hfield, hnumber, hrest⟩
      · rintro ⟨before,other,after,heq,hother,hnumber,hrest⟩
        cases before with
        | nil =>
          obtain ⟨rfl,rfl⟩ := List.cons.inj heq
          rw [hnumber]
          exact contentLengthOf_some.mpr ⟨rfl, hrest⟩
        | cons first before =>
          obtain ⟨rfl,_⟩ := List.cons.inj heq
          rw [hrest line List.mem_cons_self] at hfield
          cases hfield
    | false =>
      simp only [Bool.false_eq_true, if_false, Option.bind_some]
      rw [ih]
      constructor
      · rintro ⟨before,other,after,rfl,hother,hnumber,hrest⟩
        refine ⟨line :: before, other, after, rfl, hother, hnumber, ?_⟩
        exact List.forall_mem_cons.mpr ⟨hfield, hrest⟩
      · rintro ⟨before,other,after,heq,hother,hnumber,hrest⟩
        cases before with
        | nil =>
          obtain ⟨rfl,_⟩ := List.cons.inj heq
          rw [hother] at hfield
          cases hfield
        | cons first before =>
          obtain ⟨rfl,rfl⟩ := List.cons.inj heq
          exact ⟨before, other, after, rfl, hother, hnumber, (List.forall_mem_cons.mp hrest).2⟩

theorem announcedBy_iff (lines : List (List UInt8)) (v : ℕ) :
    AnnouncedBy lines v ↔ otaHttpContentLengthOf none lines = some v := by
  rw [contentLengthOf_none]
  have hno : ∀ other, (∀ rest, ¬FieldLine other rest) ↔ otaHttpIsContentLength other = false := by
    intro other
    constructor
    · intro h
      by_contra htrue
      exact h _ ((fieldLine_iff other _).mpr ⟨by simpa using htrue, rfl⟩)
    · intro h rest hfield
      rw [((fieldLine_iff other rest).mp hfield).1] at h
      cases h
  constructor
  · rintro ⟨before,line,after,value,hlines,hfield,hannounces,hothers⟩
    obtain ⟨htest,rfl⟩ := (fieldLine_iff line value).mp hfield
    exact ⟨before, line, after, hlines, htest, (announces_iff _ v).mp hannounces,
      fun other hmem => (hno other).mp (hothers other hmem)⟩
  · rintro ⟨before,line,after,hlines,htest,hnumber,hothers⟩
    exact ⟨before, line, after, _, hlines, (fieldLine_iff line _).mpr ⟨htest, rfl⟩,
      (announces_iff _ v).mpr hnumber, fun other hmem => (hno other).mpr (hothers other hmem)⟩

theorem findHeaderEndFrom_block {index stop : ℕ} (h : otaHttpFindHeaderEndFrom index text = stop)
    (hstop : stop ≠ 0) : ∃ data, text.take (stop - index) = data ++ httpHeaderEnd ∧
    stop = index + (data ++ httpHeaderEnd).length := by
  induction text generalizing index with
  | nil => exact absurd h.symm hstop
  | cons byte text ih =>
    rw [otaHttpFindHeaderEndFrom] at h
    split at h
    case isTrue hmark =>
      subst h
      refine ⟨[], ?_, rfl⟩
      rw [Nat.add_sub_cancel_left]
      exact hmark
    case isFalse =>
      obtain ⟨data,htake,hlength⟩ := ih h
      refine ⟨byte :: data, ?_, ?_⟩
      · have hsub : stop - index = stop - (index + 1) + 1 := by
          rw [List.length_append] at hlength
          have hend : httpHeaderEnd.length = 4 := rfl
          omega
        rw [hsub, List.take_succ_cons, htake]
        rfl
      · rw [hlength, List.cons_append, List.length_cons]
        omega

/-- What stands before the end that is found in a request is a block with its mark. -/
theorem findHeaderEnd_block {request : List UInt8} (h : otaHttpFindHeaderEnd request ≠ 0) :
    ∃ data, request.take (otaHttpFindHeaderEnd request) = data ++ httpHeaderEnd := by
  obtain ⟨data,htake,_⟩ := @findHeaderEndFrom_block request 0 _ rfl h
  exact ⟨data, htake⟩

/-- The scanner reads no byte behind a header block, and it finds a length exactly where the
lines of the block, which are its only ones, announce it. -/
theorem content_length_exact (data : List UInt8) :
    ∃ lines, LinesOf 13 10 data lines ∧ (∀ lines', LinesOf 13 10 data lines' → lines' = lines) ∧
      HttpScan.otaHttpParseContentLength (data ++ httpHeaderEnd) ≠ none ∧
      ∀ v, HttpScan.otaHttpParseContentLength (data ++ httpHeaderEnd) = some (some v) ↔
        AnnouncedBy lines.tail v := by
  refine ⟨otaHttpLines data, HttpScan.otaHttpLines_linesOf data, fun lines' h => ?_, ?_, fun v =>
    ?_⟩
  · exact h.unique (by decide) (HttpScan.otaHttpLines_linesOf data)
  · rw [HttpScan.otaHttpParseContentLength_eq]
    exact Option.some_ne_none _
  · have hlength : (data ++ httpHeaderEnd).length - httpHeaderEnd.length = data.length := by
      rw [List.length_append]
      omega
    rw [HttpScan.otaHttpParseContentLength_eq, announcedBy_iff, Option.some.injEq,
      otaHttpParseContentLength, hlength,
      List.take_left, if_neg (by rw [List.length_append]; omega)]

example : HttpScan.otaHttpParseContentLength
    ([13, 10] ++ httpContentLength ++ [58, 32, 48, 49, 50] ++ httpHeaderEnd) =
    some (some 12) := by
  decide

end Sonoff.Ota
