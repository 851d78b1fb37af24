import FrameTable.Number.Digits

namespace FrameTable.Number

def clamp (low high value : Int) : Int :=
  max low (min value high)

theorem clamp_eq_self {low high value : Int} (hl : low ≤ value) (hu : value ≤ high) :
    clamp low high value = value := by
  simp only [clamp]; omega

def clamp64 (value : Int) : Int :=
  clamp (-9223372036854775808) 9223372036854775807 value

def narrow (value : Int) : Int :=
  clamp (-2147483648) 2147483647 value

def fits (value : Int) : Bool :=
  narrow value == value

theorem fits_iff {value : Int} : fits value = true ↔ -2147483648 ≤ value ∧ value ≤ 2147483647 := by
  rw [fits, narrow, clamp, beq_iff_eq]
  omega

/-- A magnitude as it is read digit by digit. It stays within 63 bits; a digit that takes it beyond is left out, and
it is remembered for good that there was one. -/
structure Magnitude where
  value : Nat := 0
  exceeded : Bool := false
  value_le : value ≤ 9223372036854775807 := by decide

namespace Magnitude

def push (radix : Nat) (m : Magnitude) (c : Char) : Magnitude :=
  if h : m.value * radix + digitValue c ≤ 9223372036854775807 then
    { m with value := m.value * radix + digitValue c, value_le := h }
  else { m with exceeded := true }

def ofDigits (radix : Nat) (digits : List Char) : Magnitude :=
  digits.foldl (push radix) {}

def toInt (negative : Bool) (m : Magnitude) : Int :=
  if m.exceeded then if negative then -9223372036854775808 else 9223372036854775807
  else signed negative m.value

end Magnitude

def splitRadix : List Char → Nat × List Char
  | '0' :: x :: d :: rest =>
    if (x = 'x' ∨ x = 'X') ∧ isDigit 16 d then (16, d :: rest) else (8, '0' :: x :: d :: rest)
  | '0' :: rest => (8, '0' :: rest)
  | rest => (10, rest)

def scanInteger (text : List Char) : Int × List Char :=
  let (negative, body) := splitSign (text.dropWhile isBlank)
  let (radix, digits) := splitRadix body
  let run := digits.takeWhile (isDigit radix)
  if run.isEmpty then (0, text)
  else ((Magnitude.ofDigits radix run).toInt negative, digits.dropWhile (isDigit radix))

def readInteger (text : String) : Int × String :=
  let (value, rest) := scanInteger text.toList
  (value, String.ofList rest)

def wholeInteger? (text : String) : Option Int :=
  let (value, rest) := scanInteger text.toList
  if rest.isEmpty then some value else none

def isReference (text : String) : Bool :=
  (wholeInteger? text).isNone

end FrameTable.Number
