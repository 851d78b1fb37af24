import FrameTable.Number.Digits

namespace FrameTable.Number

structure Decimal where
  negative : Bool
  whole : List Char
  fraction : List Char
  exponent : Int
deriving DecidableEq, Repr

namespace Decimal

def isDecimalDigit : Char → Bool := isDigit 10

theorem isDecimalDigit_iff {c : Char} : isDecimalDigit c ↔ '0' ≤ c ∧ c ≤ '9' := by
  have hnine : c ≤ '9' ↔ c.toNat ≤ 57 := Iff.rfl
  rw [isDecimalDigit, isDigit, decide_eq_true_iff, digitValue]
  split
  · next hdigit =>
    have hle : c.toNat ≤ 57 := hnine.mp hdigit.2
    refine iff_of_true ?_ hdigit
    rw [show '0'.toNat = 48 from rfl]
    omega
  · next hother =>
    refine iff_of_false ?_ hother
    split
    · omega
    · split <;> omega

def isExponentMark (c : Char) : Bool :=
  c = 'e' || c = 'E'

def splitOffSign : List Char → List Char × List Char
  | '-' :: rest => (['-'], rest)
  | '+' :: rest => (['+'], rest)
  | rest => ([], rest)

def splitOffMantissa (text : List Char) : List Char × List Char :=
  let whole := text.takeWhile isDecimalDigit
  match text.dropWhile isDecimalDigit with
  | '.' :: rest =>
    let fraction := rest.takeWhile isDecimalDigit
    if whole.isEmpty && fraction.isEmpty then ([], text)
    else (whole ++ '.' :: fraction, rest.dropWhile isDecimalDigit)
  | rest => (whole, rest)

def splitOffExponent : List Char → List Char × List Char
  | mark :: rest =>
    let (sign, body) := splitOffSign rest
    let digits := body.takeWhile isDecimalDigit
    if isExponentMark mark && !digits.isEmpty then
      (mark :: (sign ++ digits), body.dropWhile isDecimalDigit)
    else ([], mark :: rest)
  | [] => ([], [])

def scan (text : List Char) : Option (List Char × List Char) :=
  let (sign, body) := splitOffSign (text.dropWhile isBlank)
  let (mantissa, tail) := splitOffMantissa body
  if mantissa.isEmpty then none
  else
    let (exponent, rest) := splitOffExponent tail
    some (sign ++ (mantissa ++ exponent), rest)

def exponent? : List Char → Option Int
  | [] => some 0
  | _ :: written =>
    let (negative, digits) := splitSign written
    if !digits.isEmpty && digits.all isDecimalDigit then some (signed negative (digitsValue 10 digits)) else none

def ofText? (text : List Char) : Option Decimal :=
  let (negative, body) := splitSign text
  let mantissa := body.takeWhile fun c => !isExponentMark c
  let whole := mantissa.takeWhile (· != '.')
  let fraction := (mantissa.dropWhile (· != '.')).drop 1
  if (whole ++ fraction).isEmpty || !(whole ++ fraction).all isDecimalDigit then none
  else (exponent? (body.dropWhile fun c => !isExponentMark c)).map fun exponent =>
    { negative, whole, fraction, exponent }

def mantissa (d : Decimal) : Nat :=
  digitsValue 10 (d.whole ++ d.fraction)

def scale (d : Decimal) : Int :=
  d.exponent - d.fraction.length

/-- The double nearest to `mantissa * 10 ^ scale`. Numbers of 310 digits and more before the point are
infinite, and those that start more than 330 places after it are zero. -/
def magnitude (mantissa : Nat) (scale : Int) : Float :=
  let top := (Nat.toDigits 10 mantissa).length + scale
  if mantissa = 0 ∨ top < -330 then 0
  else if 310 < top then 1 / 0
  else Float.ofScientific mantissa (scale < 0) scale.natAbs

def toFloat (d : Decimal) : Float :=
  let value := magnitude d.mantissa d.scale
  if d.negative then -value else value

end Decimal

def readDecimal (text : String) : Float × String :=
  match Decimal.scan text.toList with
  | none => (0, text)
  | some (number, rest) => (((Decimal.ofText? number).map (·.toFloat)).getD 0, String.ofList rest)

end FrameTable.Number
