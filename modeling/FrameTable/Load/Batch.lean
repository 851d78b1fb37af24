import FrameTable.Load.Frame

/-!
Loading a batch. Sprites, things, sounds and strings come first, so that frames can refer to them. Then every
new frame name gets a slot, in order of first appearance, so that frames can refer to each other in any
order; then the frames are filled, and at last the deltas are applied.
-/

namespace FrameTable.Load

def addSprite (name : String) : Update Unit := do
  let t ← tables
  match t.sprites.define name with
  | (some _, sprites) => setTables { t with sprites }
  | (none, _) => warn (.invalidSpriteName name)

def addThing (s : Section) : Load Unit := do
  let t ← tables
  let (_, things) ← ofCatalog (t.things.define (.ofSection s))
  setTables { t with things }

def addSound (s : Section) : Load Unit := do
  let t ← tables
  let (_, sounds) ← ofCatalog (t.sounds.define (.ofSection s))
  setTables { t with sounds }

def addString (s : Section) : Load Unit := do
  let t ← tables
  let (_, strings) ← ofCatalog (t.strings.define (.ofSection s))
  setTables { t with strings }

def firstOfEachTitle : List Section → List Section
  | [] => []
  | s :: sections => s :: (firstOfEachTitle sections).filter fun later => !Text.same s.title later.title

def newFrames (frames : Catalog Frame) (sections : List Section) : List Section :=
  firstOfEachTitle (sections.filter fun s => (frames.slotNamed? s.title).isNone)

def frameId (s : Section) : Int := s.legacyId "dehackednum"

def emptyFrame (slot : Nat) (s : Section) : Frame :=
  { index := slot, name := s.title, legacyId := frameId s }

/-- Enlists a frame under the title of each section, or brings its legacy id up to date if it is enlisted.
New titles take the reserved slots from `first` on in turn. -/
def enlistFrames (frames : Catalog Frame) (first : Nat) : List Section → Except CatalogError (Catalog Frame)
  | [] => .ok frames
  | s :: sections => do
    match frames.slotNamed? s.title with
    | some slot =>
      if (frames.get? slot).map (·.legacyId) = some (frameId s) then enlistFrames frames first sections
      else enlistFrames (← frames.setId slot (frameId s)) first sections
    | none => enlistFrames (← frames.enlist first) (first + 1) sections

def titleWidth : Nat := 24

def placeFrames (frames : Catalog Frame) (sections : List Section) : Except CatalogError (Catalog Frame) :=
  let fresh := newFrames frames sections
  if Store.maxBytes < fresh.length * titleWidth then .error (.store (.outOfMemory fresh.length.toUInt64))
  else do
    let init (slot : Nat) : Frame :=
      emptyFrame slot (fresh[slot - frames.size]?.getD { title := "" })
    let ((first, _), reserved) ← frames.reserve fresh.length.toUInt64 init
    enlistFrames reserved first sections

def allotFrames (sections : List Section) (first : Bool) : Load Unit := do
  let t ← tables
  let frames ← ofCatalog (placeFrames t.frames sections)
  setTables { t with frames }
  if first then
    if frames.size = 0 then raise .noFrames
    match frames.slotNamed? Frame.nullName with
    | some nullFrame => setTables { t with frames, nullFrame }
    | none => raise .missingNullFrame

def defineAll : List Section → Load Unit
  | [] => return
  | s :: sections => do
    if let some slot := (← tables).frames.slotNamed? s.title then define slot s
    defineAll sections

def amendAll (position : Nat) : List Section → Load Unit
  | [] => return
  | s :: sections => do
    match s.text? "name" with
    | none => raise (.deltaWithoutName position)
    | some name =>
      match (← tables).frames.slotNamed? name with
      | none => raise (.unknownDeltaTarget name)
      | some slot => amend slot s
    amendAll (position + 1) sections

def gather (b : Batch) (first : Bool) : Load Unit := do
  (b.sprites.forM addSprite : Update Unit)
  b.things.forM addThing
  b.sounds.forM addSound
  b.strings.forM addString
  allotFrames b.frames first

def fill (b : Batch) : Load Unit := do
  defineAll b.frames
  amendAll 0 b.deltas

end FrameTable.Load
