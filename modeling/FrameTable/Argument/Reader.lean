import FrameTable.Argument.Basic
import FrameTable.Flag.Reading
import FrameTable.Number.Decimal
import FrameTable.Number.Integer

namespace FrameTable

structure Lookup where
  named? : String → Option Nat
  numbered? : Int → Option Nat

structure Resolver where
  things : Lookup
  frames : Lookup
  sounds : Lookup
  strings : Lookup
  codePointer? : String → Option Nat
  unknownThing : Nat
  nullFrame : Nat

/-- A whole number is a legacy id, any other text is a name. -/
inductive Operand where
  | name (text : String)
  | number (value : Int)
deriving DecidableEq, Repr

def Operand.ofText (text : String) : Operand :=
  match Number.wholeInteger? text with
  | some value => .number (Number.narrow value)
  | none => .name text

def Lookup.find? (l : Lookup) (text : String) : Option Nat :=
  match Operand.ofText text with
  | .name name => l.named? name
  | .number number => l.numbered? number

def handle (slot : Nat) : Int :=
  if Number.fits slot then slot else -1

def handleOf (slot : Option Nat) : Int :=
  (slot.map handle).getD (-1)

def ofHandle? (handle : Int) : Option Nat :=
  if handle < 0 then none else some handle.toNat

structure Reader (α : Type) where
  evaluate : String → Evaluation
  answer? : Evaluation → Option α

namespace Reader

def int : Reader Int where
  evaluate text := .int (Number.narrow (Number.readInteger text).1)
  answer? | .int value => some value | _ => none

def fixed : Reader Number.FixedPoint where
  evaluate text := .fixed (.ofFloat (Number.readDecimal text).1)
  answer? | .fixed value => some value | _ => none

def double : Reader Float where
  evaluate text := .double (Number.readDecimal text).1
  answer? | .double value => some value | _ => none

def angle : Reader Number.Angle where
  evaluate text := .angle (.ofDegrees (Number.readDecimal text).1)
  answer? | .angle value => some value | _ => none

def thing (r : Resolver) : Reader Nat where
  evaluate text := .thing (handle ((r.things.find? text).getD r.unknownThing))
  answer? | .thing h => some ((ofHandle? h).getD r.unknownThing) | _ => none

def positiveThing (r : Resolver) : Reader (Option Nat) where
  evaluate text := .thing <| handleOf <|
    match Operand.ofText text with
    | .name name => r.things.named? name
    | .number number => if 0 < number then r.things.numbered? number else none
  answer? | .thing h => some (ofHandle? h) | _ => none

def frame (r : Resolver) : Reader Nat where
  evaluate text := .frame (handle ((r.frames.find? text).getD r.nullFrame))
  answer? | .frame h => some ((ofHandle? h).getD r.nullFrame) | _ => none

def knownFrame (r : Resolver) : Reader (Option Nat) where
  evaluate text := .frame (handleOf (r.frames.find? text))
  answer? | .frame h => some (ofHandle? h) | _ => none

def frameOrOffset (r : Resolver) : Reader Int where
  evaluate text := .frame <|
    match Operand.ofText text with
    | .name name => handleOf (r.frames.named? name)
    | .number number => if 0 ≤ number then handleOf (r.frames.numbered? number) else number
  answer? | .frame h => some h | _ => none

def thingFlags : Reader FlagSet where
  evaluate text := .flags (Flag.readSet text)
  answer? | .flags value => some value | _ => none

def flagsOf (table : List Flag.Definition) : Reader UInt32 where
  evaluate text := .flags { flags := Flag.readTable table text }
  answer? | .flags value => some value.flags | _ => none

def sound (r : Resolver) : Reader (Option Nat) where
  evaluate text := .sound (r.sounds.find? text)
  answer? | .sound slot => some slot | _ => none

def codePointer (r : Resolver) : Reader (Option Nat) where
  evaluate text := .codePointer (r.codePointer? text)
  answer? | .codePointer position => some position | _ => none

def string (r : Resolver) : Reader (Option Nat) where
  evaluate text := .text (r.strings.find? text)
  answer? | .text slot => some slot | _ => none

def keyword (keywords : List String) (default : Int) : Reader Int where
  evaluate text := .keyword <|
    match Operand.ofText text with
    | .name name => ((Text.keyword? keywords name).map handle).getD default
    | .number number => number
  answer? | .keyword value => some value | _ => none

end Reader

def Cell.read {α : Type} (r : Reader α) (c : Cell) : Option α × Cell × Bool :=
  match c.cached.bind r.answer? with
  | some value => (some value, c, false)
  | none =>
    let evaluation := r.evaluate c.text
    (r.answer? evaluation, { c with cached := some evaluation }, true)

def ArgumentList.read {α : Type} (l : ArgumentList) (r : Reader α) (position : Nat) (default : α) :
    α × ArgumentList :=
  match l.cells[position]? with
  | none => (default, l)
  | some cell =>
    let (value, cell, evaluated) := cell.read r
    (value.getD default,
      { l with
        cells := l.cells.set position cell
        evaluations := if evaluated then l.evaluations + 1 else l.evaluations
        length_le := by simpa using l.length_le })

end FrameTable
