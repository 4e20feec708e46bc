import Sonoff.Base.Lines
import Sonoff.Ota.HttpRequest

/-! # Scanning the header block

The loops of the header scanner with their indices. Every byte is read from the block, and a
read behind its end is none; the scan never makes one, and finds the length that the lines
of the block give.
-/
namespace Sonoff.Ota.HttpScan
open Lines

/-- The bytes at the index are a line end; the second is read behind a first that matches. -/
def atLineEnd (headers : List UInt8) (index : ℕ) : Option Bool := do
  let first ← headers[index]?
  if first ≠ 13 then some false
  else do
    let second ← headers[index + 1]?
    some (second = 10)

/-- The loop to the end of a line; the bytes left bound its rounds. -/
def lineEndLoop (headers : List UInt8) (headerDataSize : ℕ) : ℕ → ℕ → Option ℕ
  | 0, lineEnd => some lineEnd
  | fuel + 1, lineEnd =>
    if lineEnd + 1 < headerDataSize then do
      let ended ← atLineEnd headers lineEnd
      if ended then some lineEnd else lineEndLoop headers headerDataSize fuel (lineEnd + 1)
    else some lineEnd

def lineEndOf (headers : List UInt8) (headerDataSize lineStart : ℕ) : Option ℕ := do
  let lineEnd ← lineEndLoop headers headerDataSize (headerDataSize - lineStart) lineStart
  if lineEnd + 1 ≥ headerDataSize then some headerDataSize
  else do
    let ended ← atLineEnd headers lineEnd
    some (if ended then lineEnd else headerDataSize)

def otaHttpAsciiEqual (headers : List UInt8) : ℕ → List UInt8 → Option Bool
  | _, [] => some true
  | index, right :: rest => do
    let left ← headers[index]?
    if asciiLower left ≠ asciiLower right then some false
      else otaHttpAsciiEqual headers (index + 1) rest

def startLoop (headers : List UInt8) (value : ℕ) : ℕ → ℕ → ℕ → Option ℕ
  | 0, start, _ => some start
  | fuel + 1, start, stop =>
    if start < stop then do
      let byte ← headers[value + start]?
      if otaHttpIsSpace byte then startLoop headers value fuel (start + 1) stop else some start
    else some start

def endLoop (headers : List UInt8) (value : ℕ) : ℕ → ℕ → ℕ → Option ℕ
  | 0, _, stop => some stop
  | fuel + 1, start, stop =>
    if stop > start then do
      let byte ← headers[value + (stop - 1)]?
      if otaHttpIsSpace byte then endLoop headers value fuel start (stop - 1) else some stop
    else some stop

def digitLoop (headers : List UInt8) (value : ℕ) : ℕ → ℕ → ℕ → ℕ → Option (Option ℕ)
  | 0, _, _, number => some (some number)
  | fuel + 1, index, stop, number =>
    if index < stop then do
      let byte ← headers[value + index]?
      if byte < 48 || byte > 57 then some none
      else
        let digit := byte.toNat - 48
        if number > (4294967295 - digit) / 10 then some none
        else digitLoop headers value fuel (index + 1) stop (number * 10 + digit)
    else some (some number)

def otaHttpParseUint32 (headers : List UInt8) (value valueSize : ℕ) : Option (Option ℕ) := do
  let start ← startLoop headers value valueSize 0 valueSize
  let stop ← endLoop headers value (valueSize - start) start valueSize
  if start = stop then some none
  else do
    let number ← digitLoop headers value (stop - start) start stop 0
    some (number.filter (· ≠ 0))

def isContentLengthLine (headers : List UInt8) (lineStart lineEnd : ℕ) : Option Bool :=
  if lineStart ≠ 0 ∧ lineEnd - lineStart > httpContentLength.length then do
    let colon ← headers[lineStart + httpContentLength.length]?
    if colon ≠ 58 then some false else otaHttpAsciiEqual headers lineStart httpContentLength
  else some false

/-- What one line makes of the length found so far; none inside is the return with an error. -/
def scanLine (headers : List UInt8) (lineStart lineEnd : ℕ) (found : Option ℕ) :
    Option (Option (Option ℕ)) := do
  let isField ← isContentLengthLine headers lineStart lineEnd
  if isField then
    if found.isSome then some none
    else do
      let valueStart := lineStart + (httpContentLength.length + 1)
      let number ← otaHttpParseUint32 headers valueStart (lineEnd - valueStart)
      some (number.map some)
  else some (some found)

/-- The loop over the lines; the bytes left bound its rounds. -/
def lineLoop (headers : List UInt8) (headerDataSize : ℕ) : ℕ → ℕ → Option ℕ → Option (Option ℕ)
  | 0, _, found => some found
  | fuel + 1, lineStart, found =>
    if lineStart < headerDataSize then do
      let lineEnd ← lineEndOf headers headerDataSize lineStart
      let outcome ← scanLine headers lineStart lineEnd found
      match outcome with
      | none => some none
      | some found =>
        if lineEnd = headerDataSize then some found
          else lineLoop headers headerDataSize fuel (lineEnd + 2) found
    else some found

def otaHttpParseContentLength (headers : List UInt8) : Option (Option ℕ) :=
  if headers.length < httpHeaderEnd.length then some none
  else
    let headerDataSize := headers.length - httpHeaderEnd.length
    lineLoop headers headerDataSize headerDataSize 0 none

variable {headers line back value : List UInt8} {i j fuel : ℕ}

theorem atLineEnd_mark (h : StandsAt headers i (13 :: 10 :: back)) :
    atLineEnd headers i = some true := by
  simp [atLineEnd, h.head, h.tail.head]

theorem atLineEnd_other {x y : UInt8} (h : StandsAt headers i (x :: y :: back))
    (hne : ¬(x = 13 ∧ y = 10)) : atLineEnd headers i = some false := by
  by_cases hx : x = 13
  · have hy : y ≠ 10 := fun hy => hne ⟨hx, hy⟩
    simp [atLineEnd, h.head, h.tail.head, hx, hy]
  · simp [atLineEnd, h.head, hx]

/-- The loop runs over a line to its mark. -/
theorem lineEndLoop_mark (hline : Unbroken 13 10 line)
    (h : StandsAt headers i (line ++ 13 :: 10 :: back))
    (hfuel : line.length < fuel) :
    lineEndLoop headers (i + (line ++ 13 :: 10 :: back).length) fuel i =
      some (i + line.length) := by
  induction line generalizing i fuel with
  | nil =>
    obtain ⟨fuel,rfl⟩ := Nat.exists_eq_add_of_lt hfuel
    have hmark := atLineEnd_mark h
    simp [lineEndLoop, hmark]
  | cons x line ih =>
    obtain ⟨fuel,rfl⟩ := Nat.exists_eq_add_of_lt hfuel
    have hhead := hline.head_ne (by decide) (10 :: back)
    have hother : atLineEnd headers i = some false := by
      cases line with
      | nil => exact atLineEnd_other h fun hmark => hhead ⟨hmark.1, congrArg some hmark.2⟩
      | cons y line => exact atLineEnd_other h fun hmark => hhead ⟨hmark.1, congrArg some hmark.2⟩
    have hnext := @ih (i + 1) (line.length + 1 + fuel) hline.tail h.tail (by omega)
    have hsize : i + (x :: line ++ 13 :: 10 :: back).length =
        i + 1 + (line ++ 13 :: 10 :: back).length := by
      simp only [List.cons_append, List.length_cons]
      omega
    have hfuel' : (x :: line).length + fuel + 1 = line.length + 1 + fuel + 1 := by
      rw [List.length_cons]
    rw [hsize, hfuel', lineEndLoop,
      if_pos (by rw [List.length_append, List.length_cons, List.length_cons]; omega), hother]
    simp only [Option.bind_eq_bind, Option.bind_some, Bool.false_eq_true, if_false,
      List.length_cons]
    rw [hnext]
    congr 1
    omega

/-- Over a line without a mark the loop runs to its last byte. -/
theorem lineEndLoop_last (hline : Unbroken 13 10 line) (h : StandsAt headers i line)
    (hfuel : line.length ≤ fuel) :
    ∃ lineEnd, lineEndLoop headers (i + line.length) fuel i = some lineEnd ∧
      i + line.length ≤ lineEnd + 1 := by
  induction line generalizing i fuel with
  | nil =>
    refine ⟨i, ?_, Nat.le_succ i⟩
    cases fuel with
    | zero => rfl
    | succ fuel =>
      rw [lineEndLoop, List.length_nil]
      exact if_neg (by omega)
  | cons x line ih =>
    obtain ⟨fuel,rfl⟩ := Nat.exists_eq_add_of_le' (Nat.lt_of_lt_of_le (Nat.succ_pos _) hfuel)
    cases line with
    | nil =>
      refine ⟨i, ?_, by simp⟩
      simp [lineEndLoop]
    | cons y line =>
      have hother : atLineEnd headers i = some false := atLineEnd_other h fun hmark => by
        apply hline
        rw [hmark.1, hmark.2]
        exact ⟨[], line, rfl⟩
      rw [List.length_cons] at hfuel
      obtain ⟨lineEnd,hloop,hle⟩ := @ih (i + 1) fuel hline.tail h.tail (by omega)
      have hsize : i + (x :: y :: line).length = i + 1 + (y :: line).length := by
        simp only [List.length_cons]
        omega
      refine ⟨lineEnd, ?_, by rwa [hsize]⟩
      rw [hsize, lineEndLoop, if_pos (by simp), hother]
      exact hloop

theorem lineEndOf_mark (hline : Unbroken 13 10 line)
    (h : StandsAt headers i (line ++ 13 :: 10 :: back)) :
    lineEndOf headers (i + (line ++ 13 :: 10 :: back).length) i = some (i + line.length) := by
  have hlength : (line ++ 13 :: 10 :: back).length = line.length + (back.length + 2) := by simp
  have hloop := @lineEndLoop_mark headers line back i (i + (line ++ 13 :: 10 :: back).length - i)
    hline h (by rw [hlength]; omega)
  have hmark := atLineEnd_mark h.right
  unfold lineEndOf
  rw [hloop]
  simp only [Option.bind_eq_bind, Option.bind_some]
  rw [if_neg (by rw [hlength]; omega), hmark]
  rfl

theorem lineEndOf_last (hline : Unbroken 13 10 line) (h : StandsAt headers i line) :
    lineEndOf headers (i + line.length) i = some (i + line.length) := by
  obtain ⟨lineEnd,hloop,hle⟩ :=
    @lineEndLoop_last headers line i (i + line.length - i) hline h (by omega)
  unfold lineEndOf
  rw [hloop]
  simp only [Option.bind_eq_bind, Option.bind_some]
  rw [if_pos hle]

theorem startLoop_eq {start : ℕ} (h : StandsAt headers (i + start) value)
    (hfuel : value.length ≤ fuel) : startLoop headers i fuel start (start + value.length) =
      some (start + (value.takeWhile otaHttpIsSpace).length) := by
  induction value generalizing start fuel with
  | nil =>
    cases fuel with
    | zero => rfl
    | succ fuel => exact if_neg (by simp)
  | cons x value ih =>
    obtain ⟨fuel,rfl⟩ := Nat.exists_eq_add_of_le' (Nat.lt_of_lt_of_le (Nat.succ_pos _) hfuel)
    rw [List.length_cons] at hfuel ⊢
    rw [startLoop, if_pos (by omega), h.head]
    simp only [Option.bind_eq_bind, Option.bind_some]
    cases hx : otaHttpIsSpace x with
    | true =>
      have hnext := @ih fuel (start + 1) h.tail (by omega)
      rw [if_pos rfl, List.takeWhile_cons_of_pos hx, List.length_cons,
        show start + (value.length + 1) = start + 1 + value.length by omega, hnext]
      congr 1
      omega
    | false =>
      rw [if_neg Bool.false_ne_true, List.takeWhile_cons_of_neg (by simp [hx])]
      rfl

theorem endLoop_eq {start : ℕ} (h : StandsAt headers (i + start) value)
    (hfuel : value.length ≤ fuel) : endLoop headers i fuel start (start + value.length) =
      some (start + (value.reverse.dropWhile otaHttpIsSpace).length) := by
  induction value using List.reverseRecOn generalizing fuel with
  | nil =>
    cases fuel with
    | zero => rfl
    | succ fuel => exact if_neg (by simp)
  | append_singleton value x ih =>
    rw [List.length_append, List.length_singleton] at hfuel ⊢
    obtain ⟨fuel,rfl⟩ := Nat.exists_eq_add_of_le' (Nat.lt_of_lt_of_le (Nat.succ_pos _) hfuel)
    have hlast : headers[i + (start + (value.length + 1) - 1)]? = some x := by
      rw [show i + (start + (value.length + 1) - 1) = i + start + value.length by omega]
      exact h.right.head
    rw [endLoop, if_pos (by omega), hlast, List.reverse_append]
    simp only [Option.bind_eq_bind, Option.bind_some, List.reverse_singleton, List.singleton_append]
    cases hx : otaHttpIsSpace x with
    | true =>
      rw [if_pos rfl, List.dropWhile_cons_of_pos hx,
        show start + (value.length + 1) - 1 = start + value.length by omega]
      exact ih h.left (by omega)
    | false =>
      rw [if_neg Bool.false_ne_true, List.dropWhile_cons_of_neg (by simp [hx])]
      simp

theorem digitLoop_eq {index number : ℕ} (h : StandsAt headers (i + index) value)
    (hfuel : value.length ≤ fuel) :
    digitLoop headers i fuel index (index + value.length) number =
      some (otaHttpParseDigits number value) := by
  induction value generalizing index number fuel with
  | nil =>
    cases fuel with
    | zero => rfl
    | succ fuel => exact if_neg (by simp)
  | cons x value ih =>
    obtain ⟨fuel,rfl⟩ := Nat.exists_eq_add_of_le' (Nat.lt_of_lt_of_le (Nat.succ_pos _) hfuel)
    rw [List.length_cons] at hfuel ⊢
    rw [digitLoop, if_pos (by omega), h.head, otaHttpParseDigits]
    simp only [Option.bind_eq_bind, Option.bind_some]
    split
    · rfl
    · split
      · rfl
      · rw [show index + (value.length + 1) = index + 1 + value.length by omega]
        exact ih h.tail (by omega)

/-- The bytes without the spaces around them stand where the two loops stop. -/
theorem trim_split (value : List UInt8) :
    value = value.takeWhile otaHttpIsSpace ++ otaHttpTrim value ++
      ((value.dropWhile otaHttpIsSpace).reverse.takeWhile otaHttpIsSpace).reverse := by
  have hback := List.takeWhile_append_dropWhile (p := otaHttpIsSpace)
    (l := (value.dropWhile otaHttpIsSpace).reverse)
  have hrest := congrArg List.reverse hback
  rw [List.reverse_append, List.reverse_reverse] at hrest
  rw [List.append_assoc, otaHttpTrim, hrest, List.takeWhile_append_dropWhile]

theorem otaHttpParseUint32_eq (h : StandsAt headers i value) :
    otaHttpParseUint32 headers i value.length = some (Ota.otaHttpParseUint32 value) := by
  have hsplit := trim_split value
  have hdrop : value = value.takeWhile otaHttpIsSpace ++ value.dropWhile otaHttpIsSpace :=
    List.takeWhile_append_dropWhile.symm
  have hrest : StandsAt headers (i + (value.takeWhile otaHttpIsSpace).length)
      (value.dropWhile otaHttpIsSpace) := by
    rw [hdrop] at h
    exact h.right
  have htrim : StandsAt headers (i + (value.takeWhile otaHttpIsSpace).length)
      (otaHttpTrim value) := by
    rw [hsplit, List.append_assoc] at h
    exact h.right.left
  have hlength : value.length = (value.takeWhile otaHttpIsSpace).length +
      (value.dropWhile otaHttpIsSpace).length := by
    rw [← List.length_append, ← hdrop]
  have hstart := @startLoop_eq headers value i value.length 0 h (Nat.le_refl _)
  rw [Nat.zero_add, Nat.zero_add] at hstart
  have hstop := @endLoop_eq headers (value.dropWhile otaHttpIsSpace) i
    (value.length - (value.takeWhile otaHttpIsSpace).length) (value.takeWhile otaHttpIsSpace).length
    hrest (by omega)
  rw [← hlength, ← @List.length_reverse _
    ((value.dropWhile otaHttpIsSpace).reverse.dropWhile otaHttpIsSpace)] at hstop
  have hdigits := @digitLoop_eq headers (otaHttpTrim value) i (otaHttpTrim value).length
    (value.takeWhile otaHttpIsSpace).length 0 htrim (Nat.le_refl _)
  unfold otaHttpParseUint32 Ota.otaHttpParseUint32
  rw [hstart]
  simp only [Option.bind_eq_bind, Option.bind_some]
  rw [hstop]
  simp only [Option.bind_some]
  by_cases hempty : otaHttpTrim value = []
  · have hzero : ((value.dropWhile otaHttpIsSpace).reverse.dropWhile otaHttpIsSpace).reverse = [] :=
      hempty
    rw [if_pos hempty, hzero]
    exact if_pos rfl
  · have hpos := List.length_pos_iff.mpr hempty
    have hstopLength :
      ((value.dropWhile otaHttpIsSpace).reverse.dropWhile otaHttpIsSpace).reverse.length =
      (otaHttpTrim value).length := rfl
    rw [if_neg hempty, if_neg (by omega), hstopLength, Nat.add_sub_cancel_left, hdigits]
    cases otaHttpParseDigits 0 (otaHttpTrim value) with
    | none => rfl
    | some number => by_cases hnumber : number = 0 <;> simp [Option.filter, hnumber]

theorem otaHttpLines_cons {x : UInt8} (hx : ¬(x = 13 ∧ line.head? = some 10)) {first : List UInt8}
    {rest : List (List UInt8)} (h : otaHttpLines line = first :: rest) :
    otaHttpLines (x :: line) = (x :: first) :: rest := by
  rw [otaHttpLines.eq_3 x line (by
    rintro back rfl rfl
    exact hx ⟨rfl, rfl⟩), h]

theorem otaHttpLines_unbroken (hline : Unbroken 13 10 line) : otaHttpLines line = [line] := by
  induction line with
  | nil => rfl
  | cons x line ih =>
    refine otaHttpLines_cons (fun h => ?_) (ih hline.tail)
    obtain ⟨rest,rfl⟩ := List.head?_eq_some_iff.mp h.2
    rw [h.1] at hline
    exact hline ⟨[], rest, rfl⟩

theorem otaHttpLines_mark (hline : Unbroken 13 10 line) (back : List UInt8) :
    otaHttpLines (line ++ 13 :: 10 :: back) = line :: otaHttpLines back := by
  induction line with
  | nil => rfl
  | cons x line ih =>
    exact otaHttpLines_cons (hline.head_ne (by decide) (10 :: back)) (ih hline.tail)

/-- The lines of the model are the lines of the text. -/
theorem otaHttpLines_linesOf (text : List UInt8) : LinesOf 13 10 text (otaHttpLines text) := by
  induction hlength : text.length using Nat.strong_induction_on generalizing text with
  | h n ih =>
    obtain hunbroken | ⟨line,back,hline,rfl⟩ := exists_break 13 10 text
    · rw [otaHttpLines_unbroken hunbroken]
      exact .single hunbroken
    · rw [otaHttpLines_mark hline]
      refine .cons hline (ih back.length ?_ back rfl)
      rw [← hlength, List.length_append, List.length_cons, List.length_cons]
      omega

theorem otaHttpAsciiEqual_eq {right : List UInt8} (h : StandsAt headers i line)
    (hle : right.length ≤ line.length) :
    otaHttpAsciiEqual headers i right =
      some (Ota.otaHttpAsciiEqual (line.take right.length) right) := by
  induction right generalizing i line with
  | nil => simp [otaHttpAsciiEqual, Ota.otaHttpAsciiEqual]
  | cons y right ih =>
    cases line with
    | nil => exact absurd hle (by simp)
    | cons x line =>
      rw [List.length_cons, List.length_cons] at hle
      rw [otaHttpAsciiEqual, h.head]
      simp only [Option.bind_eq_bind, Option.bind_some]
      by_cases hxy : asciiLower x = asciiLower y
      · rw [if_neg (not_not.mpr hxy), ih h.tail (by omega)]
        simp [Ota.otaHttpAsciiEqual, hxy]
      · rw [if_pos hxy]
        simp [Ota.otaHttpAsciiEqual, hxy]

theorem isContentLengthLine_eq (h : StandsAt headers i line) (hi : i ≠ 0) :
    isContentLengthLine headers i (i + line.length) = some (otaHttpIsContentLength line) := by
  unfold isContentLengthLine otaHttpIsContentLength
  rw [Nat.add_sub_cancel_left]
  by_cases hlong : httpContentLength.length < line.length
  · have hcolon : headers[i + httpContentLength.length]? =
        some (line.getD httpContentLength.length 0) := by
      have hback : StandsAt headers (i + (line.take httpContentLength.length).length)
          (line.drop httpContentLength.length) := by
        rw [← List.take_append_drop httpContentLength.length line] at h
        exact h.right
      rw [List.length_take, Nat.min_eq_left (Nat.le_of_lt hlong),
        List.drop_eq_getElem_cons hlong] at hback
      rw [hback.head, List.getD_eq_getElem?_getD, List.getElem?_eq_getElem hlong]
      rfl
    rw [if_pos ⟨hi, hlong⟩, hcolon]
    simp only [Option.bind_eq_bind, Option.bind_some]
    rw [otaHttpAsciiEqual_eq h (Nat.le_of_lt hlong)]
    by_cases hbyte : line.getD httpContentLength.length 0 = 58
    · rw [if_neg (not_not.mpr hbyte), decide_eq_true hlong, decide_eq_true hbyte]
      rfl
    · rw [if_pos hbyte, decide_eq_false hbyte, Bool.and_false, Bool.false_and]
  · rw [if_neg fun hand => hlong hand.2]
    simp [hlong]

/-- What a line of the block makes of the length found before it. -/
def lineOutcome (found : Option ℕ) (line : List UInt8) : Option (Option ℕ) :=
  if otaHttpIsContentLength line then
    if found.isSome then none
      else (Ota.otaHttpParseUint32 (line.drop (httpContentLength.length + 1))).map some
  else some found

/-- A line of the block is no request line, so it counts if it is a field. -/
theorem scanLine_eq (h : StandsAt headers i line) (hi : i ≠ 0) (found : Option ℕ) :
    scanLine headers i (i + line.length) found = some (lineOutcome found line) := by
  unfold scanLine lineOutcome
  rw [isContentLengthLine_eq h hi]
  simp only [Option.bind_eq_bind, Option.bind_some]
  cases hfield : otaHttpIsContentLength line with
  | false => rfl
  | true =>
    cases found with
    | some number => rfl
    | none =>
      have hlong : httpContentLength.length < line.length := by
        simp only [otaHttpIsContentLength, Bool.and_eq_true, decide_eq_true_eq] at hfield
        exact hfield.1.1
      have hvalue : StandsAt headers (i + (httpContentLength.length + 1))
          (line.drop (httpContentLength.length + 1)) := by
        rw [← List.take_append_drop (httpContentLength.length + 1) line] at h
        have hright := h.right
        rwa [List.length_take, Nat.min_eq_left hlong] at hright
      have hlength : i + line.length - (i + (httpContentLength.length + 1)) =
          (line.drop (httpContentLength.length + 1)).length := by
        rw [List.length_drop]
        omega
      simp only [Option.isSome_none, Bool.false_eq_true, if_false, if_true]
      rw [hlength, otaHttpParseUint32_eq hvalue]
      rfl

theorem otaHttpContentLengthOf_cons (found : Option ℕ) (line : List UInt8)
    (lines : List (List UInt8)) : otaHttpContentLengthOf found (line :: lines) =
      (lineOutcome found line).bind fun found => otaHttpContentLengthOf found lines := by
  unfold lineOutcome
  cases hfield : otaHttpIsContentLength line with
  | false => simp [otaHttpContentLengthOf, hfield]
  | true =>
    cases found with
    | some number => simp [otaHttpContentLengthOf, hfield]
    | none =>
      cases hnumber : Ota.otaHttpParseUint32 (line.drop (httpContentLength.length + 1)) <;>
        simp [otaHttpContentLengthOf, hfield, hnumber]

/-- The loop finds what the lines from here on give. -/
theorem lineLoop_eq {text : List UInt8} (h : StandsAt headers i text) (hi : i ≠ 0)
    (hfuel : text.length ≤ fuel) (found : Option ℕ) :
    lineLoop headers (i + text.length) fuel i found =
      some (otaHttpContentLengthOf found (otaHttpLines text)) := by
  induction fuel generalizing i text found with
  | zero =>
    obtain rfl := List.length_eq_zero_iff.mp (Nat.le_zero.mp hfuel)
    rfl
  | succ fuel ih =>
    rw [lineLoop]
    by_cases hempty : text = []
    · subst hempty
      exact if_neg (by simp)
    · have hpos := List.length_pos_iff.mpr hempty
      rw [if_pos (by omega)]
      obtain hunbroken | ⟨line,back,hline,rfl⟩ := exists_break 13 10 text
      · rw [lineEndOf_last hunbroken h]
        simp only [Option.bind_eq_bind, Option.bind_some]
        rw [scanLine_eq h hi, otaHttpLines_unbroken hunbroken, otaHttpContentLengthOf_cons]
        cases lineOutcome found text with
        | none => rfl
        | some next => simp [otaHttpContentLengthOf]
      · rw [lineEndOf_mark hline h]
        simp only [Option.bind_eq_bind, Option.bind_some]
        rw [scanLine_eq h.left hi, otaHttpLines_mark hline, otaHttpContentLengthOf_cons]
        have hlength : (line ++ 13 :: 10 :: back).length = line.length + (back.length + 2) := by
          simp
        have hback : StandsAt headers (i + line.length + 2) back := h.right.tail.tail
        have hnext := fun found => @ih (i + line.length + 2) back hback (by omega) (by omega) found
        have hsize : i + (line ++ 13 :: 10 :: back).length = i + line.length + 2 + back.length := by
          omega
        cases lineOutcome found line with
        | none => rfl
        | some next =>
          simp only [Option.bind_some]
          rw [if_neg (by omega), hsize]
          exact hnext next

theorem scanLine_request (headers : List UInt8) (lineEnd : ℕ) (found : Option ℕ) :
    scanLine headers 0 lineEnd found = some (some found) := by
  simp [scanLine, isContentLengthLine]

/-- The scan of a block reads no byte behind it, and finds the length of the model. -/
theorem otaHttpParseContentLength_eq (headers : List UInt8) :
    otaHttpParseContentLength headers = some (Ota.otaHttpParseContentLength headers) := by
  unfold otaHttpParseContentLength Ota.otaHttpParseContentLength
  by_cases hshort : headers.length < httpHeaderEnd.length
  · rw [if_pos hshort, if_pos hshort]
  · rw [if_neg hshort, if_neg hshort]
    dsimp only
    have hlength : (headers.take (headers.length - httpHeaderEnd.length)).length =
        headers.length - httpHeaderEnd.length := by
      rw [List.length_take]
      omega
    have hstands : StandsAt headers 0 (headers.take (headers.length - httpHeaderEnd.length)) :=
      List.take_prefix _ _
    generalize headers.take (headers.length - httpHeaderEnd.length) = text at hlength hstands ⊢
    rw [← hlength]
    cases hsize : text.length with
    | zero =>
      obtain rfl := List.length_eq_zero_iff.mp hsize
      rfl
    | succ size =>
      rw [lineLoop, if_pos (Nat.succ_pos size), ← hsize]
      obtain hunbroken | ⟨line,back,hline,rfl⟩ := exists_break 13 10 text
      · have hend := lineEndOf_last hunbroken hstands
        rw [Nat.zero_add] at hend
        rw [hend, otaHttpLines_unbroken hunbroken]
        simp only [Option.bind_eq_bind, Option.bind_some]
        rw [scanLine_request]
        simp [otaHttpContentLengthOf]
      · have hend := lineEndOf_mark hline hstands
        rw [Nat.zero_add, Nat.zero_add] at hend
        have hlength : (line ++ 13 :: 10 :: back).length = line.length + (back.length + 2) := by
          simp
        have hback : StandsAt headers (line.length + 2) back := by
          have hright := hstands.right.tail.tail
          rwa [Nat.zero_add] at hright
        have hnext := @lineLoop_eq headers (line.length + 2) size back hback (by omega) (by omega)
          none
        have hrest : line.length + 2 + back.length = (line ++ 13 :: 10 :: back).length := by omega
        rw [hrest] at hnext
        rw [hend, otaHttpLines_mark hline]
        simp only [Option.bind_eq_bind, Option.bind_some]
        rw [scanLine_request]
        simp only [Option.bind_some]
        rw [if_neg (by omega), hnext]
        rfl

end Sonoff.Ota.HttpScan
