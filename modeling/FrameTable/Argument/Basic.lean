import FrameTable.Flag.Word
import FrameTable.Number.Angle
import FrameTable.Number.FixedPoint

/-!
Argument lists. A frame holds at most sixteen textual arguments. Each cell keeps its last evaluation, and
the list counts how many evaluations were made.
-/

namespace FrameTable

def maxArguments : Nat := 16

inductive Evaluation where
  | int (value : Int)
  | fixed (value : Number.FixedPoint)
  | double (value : Float)
  | angle (value : Number.Angle)
  | thing (handle : Int)
  | frame (handle : Int)
  | flags (value : FlagSet)
  | sound (slot : Option Nat)
  | codePointer (position : Option Nat)
  | text (slot : Option Nat)
  | keyword (value : Int)

structure Cell where
  text : String := ""
  cached : Option Evaluation := none

namespace Cell

def blank : Cell := {}

def forget (c : Cell) : Cell := { c with cached := none }

end Cell

inductive ArgumentError where
  | outOfCapacity (position : Nat)
  | unknownFrame (slot : Nat)
deriving DecidableEq, Repr

def ArgumentError.message : ArgumentError → String
  | .outOfCapacity position => s!"argument index {position} exceeds capacity {maxArguments}"
  | .unknownFrame slot => s!"no state at index {slot}"

structure ArgumentList where
  cells : List Cell
  evaluations : Nat := 0
  length_le : cells.length ≤ maxArguments

namespace ArgumentList

def empty : ArgumentList where
  cells := []
  length_le := Nat.zero_le _

instance : Inhabited ArgumentList := ⟨empty⟩

def size (l : ArgumentList) : Nat := l.cells.length

def texts (l : ArgumentList) : List String := l.cells.map (·.text)

def text? (l : ArgumentList) (position : Nat) : Option String :=
  l.cells[position]?.map (·.text)

def cached? (l : ArgumentList) (position : Nat) : Option (Option Evaluation) :=
  l.cells[position]?.map (·.cached)

instance : BEq ArgumentList where
  beq a b := a.texts == b.texts

def push (l : ArgumentList) (text : String) : Bool × ArgumentList :=
  if h : l.size < maxArguments then
    (true, { l with
      cells := l.cells ++ [{ text }]
      length_le := by simp only [size] at h; simp; omega })
  else (false, l)

def replace (l : ArgumentList) (texts : List String) : ArgumentList where
  cells := (texts.take maxArguments).map fun text => { text }
  evaluations := l.evaluations
  length_le := by rw [List.length_map]; exact List.length_take_le _ _

def ofTexts (texts : List String) : ArgumentList := empty.replace texts

def clear (l : ArgumentList) : ArgumentList := l.replace []

def overflow (texts : List String) : Nat := texts.length - maxArguments

def set (l : ArgumentList) (position : Nat) (text : String) : Except ArgumentError ArgumentList :=
  if h : position < maxArguments then
    let cells := l.cells ++ List.replicate (position + 1 - l.cells.length) Cell.blank
    .ok { l with
      cells := cells.set position { text }
      length_le := by have := l.length_le; simp [cells]; omega }
  else .error (.outOfCapacity position)

def setInt (l : ArgumentList) (position : Nat) (value : Int) : Except ArgumentError ArgumentList :=
  l.set position (toString value)

def forget (l : ArgumentList) (position : Nat) : ArgumentList :=
  { l with cells := l.cells.modify position Cell.forget, length_le := by simpa using l.length_le }

def forgetAll (l : ArgumentList) : ArgumentList :=
  { l with cells := l.cells.map Cell.forget, length_le := by simpa using l.length_le }

end ArgumentList

end FrameTable
