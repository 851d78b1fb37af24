import FrameTable.Load.Reference
import FrameTable.Packed.Call
import FrameTable.Packed.Frame

namespace FrameTable

inductive Writing where
  | definition
  | delta
deriving DecidableEq, Repr

def Writing.writes (w : Writing) (s : Section) (key : String) : Bool :=
  match w with
  | .definition => true
  | .delta => s.has key

namespace Load

def given {α : Type} (text : Option String) (default : α) (value : String → Load α) : Load α :=
  match text with
  | some text => value text
  | none => return default

def writeArguments (slot : Nat) (frame : String) (values : List String) (dropped : Nat) : Update Unit := do
  edit slot fun f => { f with args := some ((f.args.getD .empty).replace values) }
  let dropped := dropped + ArgumentList.overflow values
  if 0 < dropped then warn (.droppedArguments frame dropped)

def writeSprite (w : Writing) (slot : Nat) (frame : String) (s : Section) : Update Unit := do
  if w.writes s "sprite" then
    let sprite ← spriteNamed frame ((s.text? "sprite").getD Sprites.blankName)
    edit slot fun f => { f with sprite }

def spriteFrameValue (frame : String) : Option FieldValue → Except LoadError Int
  | none => .ok 0
  | some (.int value) => .ok (Number.narrow value)
  | some (.list _) => .error (.badSpriteFrame frame "")
  | some value => spriteFrameOf frame (value.toText?.getD "")

def writeSpriteFrame (w : Writing) (slot : Nat) (frame : String) (s : Section) : Load Unit := do
  if w.writes s "spriteframe" then
    let number ← spriteFrameValue frame (s.value? "spriteframe")
    edit slot fun f => { f with image := .ofInt number }

def writeFullbright (slot : Nat) (s : Section) : Update Unit := do
  if s.bool? "fullbright" = some true then
    edit slot fun f => { f with image := f.image.brighten }

def writeTics (w : Writing) (slot : Nat) (s : Section) : Update Unit := do
  if w.writes s "tics" then
    edit slot fun f => { f with tics := (s.number? "tics").getD 1 }

def writeAction (w : Writing) (slot : Nat) (frame : String) (s : Section) : Load (Option (List String)) := do
  if w.writes s "action" then
    let call := Packed.Call.parse ((s.text? "action").getD "NULL")
    let action ← actionOf frame call.name
    edit slot fun f => { f with action }
    return call.args
  else return none

def writeNext (w : Writing) (slot : Nat) (frame : String) (s : Section) : Load Unit := do
  if w.writes s "nextframe" then
    let next ← nextFrame slot frame ((s.text? "nextframe").getD Frame.nullName)
    edit slot fun f => { f with next }

def writeMisc1 (w : Writing) (slot : Nat) (s : Section) : Update Unit := do
  if w.writes s "misc1" then
    let misc1 ← miscValue ((s.text? "misc1").getD "")
    edit slot fun f => { f with misc1 }

def writeMisc2 (w : Writing) (slot : Nat) (s : Section) : Update Unit := do
  if w.writes s "misc2" then
    let misc2 ← miscValue ((s.text? "misc2").getD "")
    edit slot fun f => { f with misc2 }

def writeParticleEvent (w : Writing) (slot : Nat) (frame : String) (s : Section) : Load Unit := do
  if w.writes s "particle_event" then
    let particleEvent ← given (s.text? "particle_event") .none fun name => particleEventOf frame name
    edit slot fun f => { f with particleEvent }

def writeMisc (w : Writing) (slot : Nat) (frame : String) (s : Section) : Load Unit := do
  writeMisc1 w slot s
  writeMisc2 w slot s
  writeParticleEvent w slot frame s

def writtenArguments (w : Writing) (s : Section) (inline : Option (List String)) : Option (List String) :=
  match w with
  | .definition => some (((s.list? "args").or inline).getD [])
  | .delta => (s.list? "args").or inline

def setFlags (s : Section) (flags : FrameFlags) : FrameFlags :=
  { flags with
    skill5Fast := (s.bool? "SKILL5FAST").getD flags.skill5Fast
    interpolate := (s.bool? "INTERPOLATE").getD flags.interpolate }

def writeRest (w : Writing) (slot : Nat) (frame : String) (s : Section) (inline : Option (List String)) :
    Load Unit := do
  if let some values := writtenArguments w s inline then
    writeArguments slot frame (values.map Text.dropLabel) 0
  edit slot fun f => { f with flags := setFlags s f.flags }
  writeMisc w slot frame s

def writeFields (w : Writing) (slot : Nat) (frame : String) (s : Section) : Load Unit := do
  writeSprite w slot frame s
  writeSpriteFrame w slot frame s
  edit slot Frame.clearBlank
  writeFullbright slot s
  writeTics w slot s
  let inline ← writeAction w slot frame s
  writeNext w slot frame s
  writeRest w slot frame s inline

def isBright (value : String) : Bool :=
  value.toList.head?.any fun c => c = 't' || c = 'T'

def packedImage (p : PackedFrame) (sprite : Nat) (number : Int) : Image :=
  let image := Image.ofInt (if sprite = Sprites.blank then 0 else number)
  if p.fullbright.any isBright then image.brighten else image

def packedBody (slot : Nat) (frame : String) (p : PackedFrame) : Load FrameBody := do
  let sprite ← given p.sprite Sprites.blank fun name => spriteNamed frame name
  let number ← given p.frame 0 fun value => spriteFrameOf frame value
  let action ← given p.action none fun name => actionOf frame name
  let next ← given p.nextframe (← tables).nullFrame (nextFrame slot frame)
  let particleEvent ← given p.particleEvent .none fun name => particleEventOf frame name
  let misc1 ← given p.misc1 0 fun token => miscValue token
  let misc2 ← given p.misc2 0 fun token => miscValue token
  return {
    sprite, action, next, particleEvent, misc1, misc2
    image := packedImage p sprite number
    tics := (p.tics.map fun value => Number.narrow (Number.readInteger value).1).getD 1 }

def writePacked (slot : Nat) (frame text : String) : Load Unit := do
  let p := PackedFrame.parse text
  let body ← packedBody slot frame p
  edit slot (·.withBody body)
  writeArguments slot frame p.args p.dropped
  if 0 < p.extra then warn (.extraFields frame p.extra)

def define (slot : Nat) (s : Section) : Load Unit := do
  let frame ← nameOf slot
  let decorate := s.bool? "decorate" = some true
  edit slot fun f => { f with flags.decorate := decorate }
  if decorate then writeMisc .definition slot frame s
  else
    match s.text? "cmp" with
    | some text =>
      writePacked slot frame text
      writeRest .delta slot frame s none
    | none => writeFields .definition slot frame s

def amend (slot : Nat) (s : Section) : Load Unit := do
  writeFields .delta slot (← nameOf slot) s

end Load

end FrameTable
