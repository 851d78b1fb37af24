import FrameTable.Proofs.Catalog.Moves
import FrameTable.Proofs.Tables.Soundness

namespace FrameTable.Tables

variable {t t' : Tables}

inductive Move : Tables → Tables → Prop
  | frames {t : Tables} {frames : Catalog Frame} (h : t.frames.Move frames) : Move t { t with frames }
  | things {t : Tables} {things : Catalog Thing} (h : t.things.Move things) : Move t { t with things }
  | sounds {t : Tables} {sounds : Catalog FrameTable.Sound} (h : t.sounds.Move sounds) : Move t { t with sounds }
  | strings {t : Tables} {strings : Catalog Message} (h : t.strings.Move strings) : Move t { t with strings }
  | sprite {t : Tables} (hfree : t.sprites.index.contains t.sprites.names.size = false) (name : String) :
      Move t { t with
        sprites.names := t.sprites.names.push name
        sprites.index := t.sprites.index.push t.sprites.names.size ⟨name⟩ }
  | nullFrame (t : Tables) (nullFrame : Nat) : Move t { t with nullFrame }

structure InRange (t : Tables) : Prop where
  frames : t.frames.InRange
  things : t.things.InRange
  sounds : t.sounds.InRange
  strings : t.strings.InRange
  sprites : t.sprites.index.InRange
  sprite_lt : ∀ {slot}, t.sprites.index.contains slot = true → slot < t.sprites.names.size

structure LinkedOnce (t : Tables) : Prop where
  frames : t.frames.LinkedOnce
  things : t.things.LinkedOnce
  sounds : t.sounds.LinkedOnce
  strings : t.strings.LinkedOnce

structure Linked (t : Tables) : Prop where
  frames : t.frames.Linked
  things : t.things.Linked
  sounds : t.sounds.Linked
  strings : t.strings.Linked
  sprites : t.sprites.Sound

theorem Linked.inRange (h : t.Linked) : t.InRange where
  frames := h.frames.inRange
  things := h.things.inRange
  sounds := h.sounds.inRange
  strings := h.strings.inRange
  sprites := h.sprites.linked.inRange
  sprite_lt := h.sprites.lt_of_contains

theorem Linked.move (h : t.Linked) (hmove : Move t t') : t'.Linked := by
  cases hmove with
  | frames hmove => exact { h with frames := h.frames.move hmove }
  | things hmove => exact { h with things := h.things.move hmove }
  | sounds hmove => exact { h with sounds := h.sounds.move hmove }
  | strings hmove => exact { h with strings := h.strings.move hmove }
  | sprite _ name => exact { h with sprites := h.sprites.push name }
  | nullFrame => exact { h with }

theorem Sound.linked (h : t.Sound) : t.Linked where
  frames := h.frames.linked
  things := h.things.linked
  sounds := h.sounds.linked
  strings := h.strings.linked
  sprites := h.sprites

theorem Sound.linkedOnce (h : t.Sound) : t.LinkedOnce where
  frames := h.frames.linkedOnce
  things := h.things.linkedOnce
  sounds := h.sounds.linkedOnce
  strings := h.strings.linkedOnce

abbrev Moves : Tables → Tables → Prop :=
  Relation.ReflTransGen Move

abbrev MovesInRange : Tables → Tables → Prop :=
  Relation.ReflTransGen fun t t' => t.Move t' ∧ t.InRange ∧ t'.InRange

theorem Moves.inRange (h : Moves t t') (hlinked : t.Linked) : MovesInRange t t' ∧ t'.Linked := by
  induction h with
  | refl => exact ⟨.refl, hlinked⟩
  | tail _ hmove ih =>
    obtain ⟨hmoves, hlast⟩ := ih
    have hnext := hlast.move hmove
    exact ⟨hmoves.tail ⟨hmove, hlast.inRange, hnext.inRange⟩, hnext⟩

namespace Moves

theorem frames {frames : Catalog Frame} (h : t.frames.Moves frames) : Moves t { t with frames } :=
  h.lift (fun frames => { t with frames }) fun frames _ hmove => .frames (t := { t with frames }) hmove

theorem things {things : Catalog Thing} (h : t.things.Moves things) : Moves t { t with things } :=
  h.lift (fun things => { t with things }) fun things _ hmove => .things (t := { t with things }) hmove

theorem sounds {sounds : Catalog FrameTable.Sound} (h : t.sounds.Moves sounds) : Moves t { t with sounds } :=
  h.lift (fun sounds => { t with sounds }) fun sounds _ hmove => .sounds (t := { t with sounds }) hmove

theorem strings {strings : Catalog Message} (h : t.strings.Moves strings) : Moves t { t with strings } :=
  h.lift (fun strings => { t with strings }) fun strings _ hmove => .strings (t := { t with strings }) hmove

theorem sprites (h : t.sprites.Sound) (name : String) : Moves t { t with sprites := (t.sprites.define name).2 } := by
  simp only [Sprites.define]
  split
  · exact .refl
  · split
    · exact .refl
    · rw [HashIndex.insert, h.contains_size, if_neg Bool.false_ne_true]
      exact .single (.sprite h.contains_size name)

end Moves

end FrameTable.Tables
