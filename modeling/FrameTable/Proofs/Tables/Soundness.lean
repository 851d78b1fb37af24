import FrameTable.Tables
import FrameTable.Proofs.Catalog.Integrity
import FrameTable.Proofs.Catalog.Sprite

namespace FrameTable

structure Frame.RefersWithin (frames sprites : Nat) (f : Frame) : Prop where
  next_lt : f.next < frames
  sprite_lt : f.sprite < sprites
  action : ∀ {position}, f.action = some position →
    position < CodePointer.mnemonics.length ∧ position ≠ CodePointer.null

theorem Frame.RefersWithin.mono {f : Frame} {frames frames' sprites sprites' : Nat}
    (h : f.RefersWithin frames sprites) (hframes : frames ≤ frames') (hsprites : sprites ≤ sprites') :
    f.RefersWithin frames' sprites' where
  next_lt := Nat.lt_of_lt_of_le h.next_lt hframes
  sprite_lt := Nat.lt_of_lt_of_le h.sprite_lt hsprites
  action := h.action

namespace Tables

variable {t : Tables} {slot : Nat}

def Refers (t : Tables) (f : Frame) : Prop :=
  f.RefersWithin t.frames.size t.sprites.names.size

structure Sound (t : Tables) : Prop where
  frames : t.frames.Consistent
  things : t.things.Consistent
  sounds : t.sounds.Consistent
  strings : t.strings.Consistent
  sprites : t.sprites.Sound
  index_eq : ∀ {slot f}, t.frames.get? slot = some f → f.index = slot
  refers : ∀ {slot f}, t.frames.get? slot = some f → t.Refers f
  unknownThing : t.things.slotNamed? Thing.unknown.name = some Thing.unknownSlot
  nullSound : t.sounds.slotNamed? Sound.null.mnemonic = some Sound.nullSlot

structure Ready (t : Tables) : Prop extends Sound t where
  nullFrame : t.frames.slotNamed? Frame.nullName = some t.nullFrame

theorem Ready.nullFrame_lt (h : t.Ready) : t.nullFrame < t.frames.size :=
  h.frames.lt_of_slotNamed? h.nullFrame

theorem sound_initial (sizes : IndexSizes) : (initial sizes).Sound where
  frames := Catalog.consistent_empty _
  things := Catalog.consistent_singleton _ _
  sounds := Catalog.consistent_singleton _ _
  strings := Catalog.consistent_empty _
  sprites := Sprites.sound_initial _
  index_eq h := by cases h
  refers h := by cases h
  unknownThing := (Catalog.consistent_singleton _ Thing.unknown).slotNamed?_name rfl
  nullSound := (Catalog.consistent_singleton _ Sound.null).slotNamed?_name rfl

end Tables

end FrameTable
