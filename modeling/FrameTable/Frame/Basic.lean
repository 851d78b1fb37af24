import FrameTable.Argument.Basic
import FrameTable.Catalog.Basic
import FrameTable.Catalog.Sprite

namespace FrameTable

/-- The number of a sprite's frame in the low fifteen bits of a word, and a fullbright bit above them. -/
structure Image where
  word : BitVec 32
deriving DecidableEq, Repr

namespace Image

def fullbrightBit : BitVec 32 := 0x8000

def ofInt (n : Int) : Image := ⟨BitVec.ofInt 32 n⟩

def toInt (i : Image) : Int := i.word.toInt

def number (i : Image) : Nat := (i.word &&& 0x7fff).toNat

def isFullbright (i : Image) : Bool := i.word &&& fullbrightBit != 0

def brighten (i : Image) : Image := ⟨i.word ||| fullbrightBit⟩

end Image

inductive ParticleEvent where
  | none
  | rocketExplosion
  | bfgExplosion
deriving DecidableEq, Repr

namespace ParticleEvent

def all : List ParticleEvent := [.none, .rocketExplosion, .bfgExplosion]

def name : ParticleEvent → String
  | .none => "pevt_none"
  | .rocketExplosion => "pevt_rexpl"
  | .bfgExplosion => "pevt_bfgexpl"

def named? (name : String) : Option ParticleEvent :=
  all.find? fun event => Text.same event.name name

end ParticleEvent

structure FrameFlags where
  decorate : Bool := false
  skill5Fast : Bool := false
  interpolate : Bool := false
deriving DecidableEq, Repr

def FrameFlags.bits (f : FrameFlags) : UInt32 :=
  (if f.decorate then 1 else 0) ||| (if f.skill5Fast then 2 else 0) ||| (if f.interpolate then 8 else 0)

structure Frame where
  index : Nat
  name : String
  legacyId : Int
  sprite : Nat := 0
  image : Image := .ofInt 0
  tics : Int := 1
  action : Option Nat := none
  next : Nat := 0
  particleEvent : ParticleEvent := .none
  misc1 : Int := 0
  misc2 : Int := 0
  flags : FrameFlags := {}
  args : Option ArgumentList := none

structure FrameBody where
  sprite : Nat
  image : Image
  tics : Int
  action : Option Nat
  next : Nat
  particleEvent : ParticleEvent
  misc1 : Int
  misc2 : Int

namespace Frame

def withBody (f : Frame) (b : FrameBody) : Frame :=
  { f with
    sprite := b.sprite, image := b.image, tics := b.tics, action := b.action, next := b.next
    particleEvent := b.particleEvent, misc1 := b.misc1, misc2 := b.misc2 }

def clearBlank (f : Frame) : Frame :=
  if f.sprite = Sprites.blank then { f with image := .ofInt 0 } else f

def nullName : String := "S_NULL"

instance : Record Frame where
  name := name
  number := legacyId
  withNumber f n := { f with legacyId := n }
  width := 128
  width_pos := by decide
  name_withNumber _ _ := rfl
  number_withNumber _ _ := rfl
  withNumber_number _ := rfl

def argumentCount (f : Frame) : Nat :=
  (f.args.map ArgumentList.size).getD 0

def evaluations (f : Frame) : Nat :=
  (f.args.map (·.evaluations)).getD 0

end Frame

end FrameTable
