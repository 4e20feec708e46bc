import Mathlib.Data.List.Basic
import Mathlib.Tactic.Common

/-! # The head of an upload request

Where the head of a request ends, and the length of the body behind it.
-/
namespace Sonoff.Ota

def httpHeaderEnd : List UInt8 := [13, 10, 13, 10]

/-- The offset behind the first end mark at or behind `index`, 0 where there is none. -/
def otaHttpFindHeaderEndFrom (index : ℕ) : List UInt8 → ℕ
  | [] => 0
  | byte :: data =>
    if (byte :: data).take httpHeaderEnd.length = httpHeaderEnd then index + httpHeaderEnd.length
    else otaHttpFindHeaderEndFrom (index + 1) data

def otaHttpFindHeaderEnd (data : List UInt8) : ℕ := otaHttpFindHeaderEndFrom 0 data

def otaHttpIsSpace (value : UInt8) : Bool := value = 32 || value = 9

def asciiLower (value : UInt8) : UInt8 := if 65 ≤ value && value ≤ 90 then value - 65 + 97
    else value

def otaHttpAsciiEqual (left right : List UInt8) : Bool := left.map asciiLower = right.map asciiLower

def otaHttpParseDigits : ℕ → List UInt8 → Option ℕ
  | number, [] => some number
  | number, value :: rest =>
    if value < 48 || value > 57 then none
    else
      let digit := value.toNat - 48
      if number > (4294967295 - digit) / 10 then none
        else otaHttpParseDigits (number * 10 + digit) rest

def otaHttpTrim (value : List UInt8) : List UInt8 :=
  (((value.dropWhile otaHttpIsSpace).reverse).dropWhile otaHttpIsSpace).reverse

def otaHttpParseUint32 (value : List UInt8) : Option ℕ :=
  if otaHttpTrim value = [] then none
  else
    match otaHttpParseDigits 0 (otaHttpTrim value) with
    | some number => if number = 0 then none else some number
    | none => none

def otaHttpLines : List UInt8 → List (List UInt8)
  | [] => [[]]
  | 13 :: 10 :: rest => [] :: otaHttpLines rest
  | byte :: rest =>
    match otaHttpLines rest with
    | [] => [[byte]]
    | line :: lines => (byte :: line) :: lines

def httpContentLength :
    List UInt8 := [67, 111, 110, 116, 101, 110, 116, 45, 76, 101, 110, 103, 116, 104]

def otaHttpIsContentLength (line : List UInt8) : Bool :=
  httpContentLength.length < line.length && line.getD httpContentLength.length 0 = 58
    && otaHttpAsciiEqual (line.take httpContentLength.length) httpContentLength

/-- A second field is refused, and so is one without a number. -/
def otaHttpContentLengthOf : Option ℕ → List (List UInt8) → Option ℕ
  | found, [] => found
  | found, line :: lines =>
    if otaHttpIsContentLength line then
      match found, otaHttpParseUint32 (line.drop (httpContentLength.length + 1)) with
      | none, some number => otaHttpContentLengthOf (some number) lines
      | _, _ => none
    else otaHttpContentLengthOf found lines

/-- The lines behind the request line, without the end mark. -/
def otaHttpParseContentLength (headers : List UInt8) : Option ℕ :=
  if headers.length < httpHeaderEnd.length then none
  else otaHttpContentLengthOf none
    (otaHttpLines (headers.take (headers.length - httpHeaderEnd.length))).tail

end Sonoff.Ota
