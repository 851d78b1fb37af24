import FrameTable.Load.Basic
import FrameTable.Text.Label

namespace FrameTable

inductive MiscLabel where
  | frame
  | thing
  | sound
  | flags (word : Flag.Word)
  | codePointer
  | string
deriving DecidableEq, Repr

def MiscLabel.named : List (String × MiscLabel) :=
  [("frame", .frame), ("thing", .thing), ("sound", .sound), ("flags", .flags .flags),
    ("flags2", .flags .flags2), ("flags3", .flags .flags3), ("flags4", .flags .flags4),
    ("bexptr", .codePointer), ("string", .string)]

def MiscLabel.ofName? (name : String) : Option MiscLabel :=
  (named.find? fun entry => Text.same entry.1 name).map (·.2)

def miscNumber? (token : String) : Option Int :=
  if token.toList.contains '.' then
    let (value, rest) := Number.readDecimal token
    if rest.isEmpty then some (Number.FixedPoint.ofFloat value).raw.toInt else none
  else (Number.wholeInteger? token).map Number.narrow

def slotValue (slot : Nat) : Int := min slot maxLegacyId

def bitsValue (bits : UInt32) : Int := bits.toInt32.toInt

namespace Load

def claimId {ε : Type} [Record ε] (kind : Kind) (get : Tables → Catalog ε)
    (put : Tables → Catalog ε → Tables) (fallback : Tables → Int) (slot : Nat) : Update Int := do
  let t ← tables
  let (result, catalog) := (get t).claimId slot
  setTables (put t catalog)
  match result with
  | .ok number => return number
  | .error _ =>
    warn (.poolExhausted kind ((((get t).get? slot).map Record.name).getD ""))
    return fallback t

def frameValue (slot : Nat) : Update Int :=
  claimId .frame (·.frames) (fun t frames => { t with frames }) (fun t => slotValue t.nullFrame) slot

def thingValue (slot : Nat) : Update Int :=
  claimId .thing (·.things) (fun t things => { t with things }) (fun _ => slotValue Thing.unknownSlot) slot

def soundValue (slot : Nat) : Update Int :=
  claimId .sound (·.sounds) (fun t sounds => { t with sounds }) (fun _ => 0) slot

def unresolved (kind : Kind) (name : String) : Update Unit :=
  warn (.unresolvedReference kind name)

def stringValue (name : String) : Update Int := do
  let t ← tables
  let number := (((t.strings.slotNamed? name).bind t.strings.get?).map (·.number)).getD (-1)
  if number < 0 then
    unresolved .string name
    return 0
  return number

def labelledValue (label : MiscLabel) (name : String) : Update Int := do
  let t ← tables
  match label with
  | .frame =>
    match t.frames.slotNamed? name with
    | some slot => frameValue slot
    | none =>
      unresolved .frame name
      return slotValue t.nullFrame
  | .thing =>
    match t.things.slotNamed? name with
    | some slot => thingValue slot
    | none =>
      unresolved .thing name
      return slotValue Thing.unknownSlot
  | .sound =>
    match t.sounds.slotNamed? name with
    | some slot => soundValue slot
    | none =>
      unresolved .sound name
      soundValue Sound.nullSlot
  | .flags word => return bitsValue (Flag.readWord word name)
  | .codePointer =>
    match CodePointer.find? name with
    | some position => return slotValue position
    | none =>
      unresolved .codePointer name
      return slotValue CodePointer.null
  | .string => stringValue name

/-- A bare name is looked up among things, frames, sounds, strings and code pointers, in this order. -/
def bareValue (name : String) : Update Int := do
  let t ← tables
  if let some slot := t.things.slotNamed? name then thingValue slot
  else if let some slot := t.frames.slotNamed? name then frameValue slot
  else if let some slot := t.sounds.slotNamed? name then soundValue slot
  else if (t.strings.slotNamed? name).isSome then stringValue name
  else if let some position := CodePointer.find? name then return slotValue position
  else
    warn (.unresolvedMisc name)
    return 0

def miscValue (token : String) : Update Int := do
  match Text.splitLabel? token with
  | some (_, "") =>
    warn (.emptyMiscValue token)
    return 0
  | some (label, name) =>
    match MiscLabel.ofName? label with
    | some label => labelledValue label name
    | none =>
      warn (.unknownMiscLabel label)
      return 0
  | none =>
    match miscNumber? token with
    | some number => return number
    | none => bareValue token

end Load

end FrameTable
