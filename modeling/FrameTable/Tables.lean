import FrameTable.Argument.Reader
import FrameTable.Catalog.CodePointer
import FrameTable.Catalog.Record
import FrameTable.Catalog.Sprite
import FrameTable.Frame.Basic
import FrameTable.IndexSizes

namespace FrameTable

structure Tables where
  frames : Catalog Frame
  things : Catalog Thing
  sounds : Catalog Sound
  strings : Catalog Message
  sprites : Sprites
  nullFrame : Nat := 0

namespace Tables

def initial (sizes : IndexSizes) : Tables where
  frames := .empty sizes.frames
  things := .singleton sizes.things Thing.unknown
  sounds := .singleton sizes.sounds Sound.null
  strings := .empty sizes.strings
  sprites := .initial sizes.sprites

def lookup {ε : Type} [Record ε] (c : Catalog ε) : Lookup where
  named? := c.slotNamed?
  numbered? := c.slotNumbered?

def resolver (t : Tables) : Resolver where
  things := lookup t.things
  frames := lookup t.frames
  sounds := lookup t.sounds
  strings := lookup t.strings
  codePointer? := CodePointer.find?
  unknownThing := Thing.unknownSlot
  nullFrame := t.nullFrame

def thingNamed (t : Tables) (name : String) : Nat :=
  (t.things.slotNamed? name).getD Thing.unknownSlot

def thingNumbered (t : Tables) (number : Int) : Nat :=
  (t.things.slotNumbered? number).getD Thing.unknownSlot

end Tables

end FrameTable
