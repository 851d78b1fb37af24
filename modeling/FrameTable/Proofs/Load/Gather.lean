import FrameTable.Proofs.Load.Follows
import FrameTable.Proofs.Tables.Evolution

namespace FrameTable.Load

open Tables (Redefines)

variable {first : Bool} {b : Batch} {t : Tables} {s : Section}

theorem addSprite_follows {name : String} (h : t.Sound) :
    Update.Follows (Redefines first b) t (addSprite name) fun _ t' => t'.Sound := by
  refine .tables_bind ?_
  split
  · next slot sprites hdefine =>
    obtain rfl : (t.sprites.define name).2 = sprites := by rw [hdefine]
    exact .setTables (h.redefines_sprite name) (h.withSprite name)
  · exact .warn h

theorem addThing_follows (h : t.Sound) (hmem : s ∈ b.things) :
    Follows (Redefines first b) t (addThing s) fun _ t' => t'.Sound := by
  refine .tables_bind (.ofCatalog_bind fun result hdefine => .lift ?_)
  have hredefines : Redefines first b t { t with things := result.2 } := h.redefines_thing hmem hdefine
  exact .setTables hredefines (hredefines.sound h)

theorem addSound_follows (h : t.Sound) (hmem : s ∈ b.sounds) :
    Follows (Redefines first b) t (addSound s) fun _ t' => t'.Sound := by
  refine .tables_bind (.ofCatalog_bind fun result hdefine => .lift ?_)
  have hredefines : Redefines first b t { t with sounds := result.2 } := h.redefines_sound hmem hdefine
  exact .setTables hredefines (hredefines.sound h)

theorem addString_follows (h : t.Sound) (hmem : s ∈ b.strings) :
    Follows (Redefines first b) t (addString s) fun _ t' => t'.Sound := by
  refine .tables_bind (.ofCatalog_bind fun result hdefine => .lift ?_)
  have hredefines : Redefines first b t { t with strings := result.2 } := h.redefines_string hmem hdefine
  exact .setTables hredefines (hredefines.sound h)

theorem allotFrames_follows (h : t.Sound) :
    Follows (Redefines first b) t (allotFrames b.frames first) fun _ t' =>
      t'.Sound ∧ (first = true → t'.frames.slotNamed? Frame.nullName = some t'.nullFrame) := by
  refine .tables_bind (.ofCatalog_bind fun frames hplace => ?_)
  have hredefines : Redefines first b t { t with frames } := h.redefines_place hplace
  have hsound := hredefines.sound h
  refine .setTables_bind hredefines ?_
  cases first with
  | false => exact .pure ⟨hsound, nofun⟩
  | true =>
    simp only [if_true]
    by_cases hempty : frames.size = 0
    · simp only [if_pos hempty]
      exact .raise_bind
    · simp only [if_neg hempty]
      split
      · next nullFrame hnull =>
        have hplaced := hsound.redefines_nullFrame (b := b) nullFrame
        exact .lift (.setTables hplaced ⟨hplaced.sound hsound, fun _ => hnull⟩)
      · exact .raise

theorem gather_follows (first : Bool) (b : Batch) (h : t.Sound) :
    Follows (Redefines first b) t (gather b first) fun _ t' =>
      t'.Sound ∧ (first = true → t'.frames.slotNamed? Frame.nullName = some t'.nullFrame) := by
  refine .bind (.lift (.forM (fun name _ t h => addSprite_follows h) h)) fun _ t _ h => ?_
  refine .bind (.forM (fun s hs t h => addThing_follows h hs) h) fun _ t _ h => ?_
  refine .bind (.forM (fun s hs t h => addSound_follows h hs) h) fun _ t _ h => ?_
  refine .bind (.forM (fun s hs t h => addString_follows h hs) h) fun _ t _ h => ?_
  exact allotFrames_follows h

end FrameTable.Load
