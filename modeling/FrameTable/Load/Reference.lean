import FrameTable.Load.MiscValue
import FrameTable.Number.Integer

namespace FrameTable

def spriteFrame? (text : String) : Option Int :=
  match text.toList with
  | [c] =>
    if 'A' ≤ c ∧ c ≤ ']' then some (c.toNat - 'A'.toNat)
    else (Number.wholeInteger? text).map Number.narrow
  | _ => (Number.wholeInteger? text).map Number.narrow

inductive Successor where
  | next
  | previous
  | this
  | null
deriving DecidableEq, Repr

def Successor.named : List (String × Successor) :=
  [("next", .next), ("prev", .previous), ("this", .this), ("null", .null)]

def Successor.ofName? (name : String) : Option Successor :=
  (named.find? fun entry => Text.same entry.1 name).map (·.2)

def Successor.slot? (t : Tables) (slot : Nat) : Successor → Option Nat
  | .next => if slot < t.frames.size - 1 then some (slot + 1) else none
  | .previous => if 0 < slot then some (slot - 1) else none
  | .this => some slot
  | .null => some t.nullFrame

def actionOf (frame name : String) : Except LoadError (Option Nat) :=
  match CodePointer.find? name with
  | none => .error (.badAction frame name)
  | some position => .ok (if position = CodePointer.null then none else some position)

def particleEventOf (frame name : String) : Except LoadError ParticleEvent :=
  match ParticleEvent.named? name with
  | none => .error (.badParticleEvent frame name)
  | some event => .ok event

def spriteFrameOf (frame value : String) : Except LoadError Int :=
  match spriteFrame? value with
  | none => .error (.badSpriteFrame frame value)
  | some number => .ok number

namespace Load

def spriteNamed (frame name : String) : Update Nat := do
  if Text.same name Sprites.blankName then return Sprites.blank
  let t ← tables
  match t.sprites.define name with
  | (some slot, sprites) =>
    setTables { t with sprites }
    return slot
  | (none, _) =>
    warn (.undefinableSprite frame name)
    return Sprites.blank

def addFrame (frame name : String) : Load Nat := do
  let t ← tables
  let placeholder : Frame := { index := t.frames.size, name, legacyId := -1, next := t.nullFrame }
  let (slot, frames) ← ofCatalog (t.frames.define placeholder)
  setTables { t with frames }
  warn (.implicitFrame frame name)
  return slot

/-- The frame that follows the one in `slot`: a relative name after `@`, a name, or a legacy id. A name that
is unknown and not a number is added. -/
def nextFrame (slot : Nat) (frame target : String) : Load Nat := do
  let t ← tables
  match target.toList with
  | '@' :: special =>
    match (Successor.ofName? (String.ofList special)).bind (·.slot? t slot) with
    | some next => return next
    | none => raise (.badNextFrame frame target)
  | _ =>
    match t.frames.slotNamed? target with
    | some next => return next
    | none =>
      match Number.wholeInteger? target with
      | none => addFrame frame target
      | some number =>
        match t.frames.slotNumbered? (Number.narrow number) with
        | some next => return next
        | none => raise (.badNextFrame frame target)

end Load

end FrameTable
