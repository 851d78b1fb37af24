/-!
The shortest decimal text of a double. A double stands for all reals that round to it; of the decimals with
the fewest digits in that interval the nearest one is written, the larger of two equally near ones, and
always in positional notation.
-/

namespace FrameTable.Number

structure Binary where
  mantissa : Nat
  exponent : Int
  narrowBelow : Bool

namespace Binary

def fractions : Nat := 1 <<< 52

def exponents : Nat := 1 <<< 11

def tenTo (k : Nat) : Nat := Nat.pow 10 k

def ofFloat (value : Float) : Binary :=
  let bits := value.toBits.toNat
  let fraction : Nat := bits % fractions
  let biased : Nat := bits / fractions % exponents
  if biased = 0 then { mantissa := fraction, exponent := -1074, narrowBelow := false }
  else
    { mantissa := fractions + fraction, exponent := biased - 1075,
      narrowBelow := fraction = 0 && 1 < biased }

def denominator (b : Binary) : Nat :=
  1 <<< (2 - b.exponent).toNat

def numerator (b : Binary) (quarters : Nat) : Nat :=
  quarters <<< (b.exponent - 2).toNat

def value (b : Binary) : Nat :=
  b.numerator (4 * b.mantissa)

/-- Whether `digits * 10 ^ place` rounds to the value; the ends of the interval do when the mantissa is even. -/
def accepts (b : Binary) (place : Int) (digits : Nat) : Bool :=
  let low := b.numerator (4 * b.mantissa - if b.narrowBelow then 1 else 2) * tenTo (-place).toNat
  let high := b.numerator (4 * b.mantissa + 2) * tenTo (-place).toNat
  let decimal := digits * b.denominator * tenTo place.toNat
  if b.mantissa % 2 = 0 then low ≤ decimal && decimal ≤ high else low < decimal && decimal < high

def topPlace (b : Binary) : Int :=
  (Nat.toDigits 10 (b.value * tenTo 400 / b.denominator)).length - 401

def onGrid (b : Binary) (place : Int) : Option Nat :=
  let scaled := b.value * tenTo (-place).toNat
  let step := b.denominator * tenTo place.toNat
  let below := scaled / step
  match b.accepts place below, b.accepts place (below + 1) with
  | true, true => some (if 2 * (scaled % step) < step then below else below + 1)
  | true, false => some below
  | false, true => some (below + 1)
  | false, false => none

def shortest (b : Binary) : Nat × Int :=
  let grids := (List.range 17).map fun (k : Nat) => b.topPlace - k
  (grids.findSome? fun place => (b.onGrid place).map (·, place)).getD (0, 0)

end Binary

def positional (digits : Nat) (place : Int) : List Char :=
  let written := Nat.toDigits 10 digits
  if 0 ≤ place then written ++ List.replicate place.toNat '0'
  else
    let places := place.natAbs
    let padded := List.replicate (places + 1 - written.length) '0' ++ written
    padded.take (padded.length - places) ++ '.' :: padded.drop (padded.length - places)

def shortestText (value : Float) : String :=
  if value == 0 then "0"
  else
    let (digits, place) := (Binary.ofFloat value).shortest
    String.ofList ((if value < 0 then ['-'] else []) ++ positional digits place)

end FrameTable.Number
