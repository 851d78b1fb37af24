import FrameTable.Proofs.Load.Collecting
import FrameTable.Proofs.Load.Gathering
import FrameTable.Proofs.Load.Stable
import FrameTable.Proofs.Tables.Evolution
import FrameTable.Proofs.Tables.Moves

namespace FrameTable

variable {P : LoadState → Prop} {σ : LoadState} {α : Type}

theorem Update.Stays.forM {f : α → Update Unit} {items : List α} (h : P σ) (hf : ∀ a σ, P σ → Stays P σ (f a)) :
    Stays P σ (items.forM f) := by
  induction items generalizing σ with
  | nil => exact h
  | cons a items ih => exact .bind (hf a σ h) fun _ σ h => ih h

namespace Load

open Tables (Moves)

theorem Stays.forM {f : α → Load Unit} {items : List α} (h : P σ) (hf : ∀ a ∈ items, ∀ σ, P σ → Stays P σ (f a)) :
    Stays P σ (items.forM f) := by
  induction items generalizing σ with
  | nil => exact .pure h ()
  | cons a items ih =>
    rw [List.forall_mem_cons] at hf
    exact .bind (hf.1 σ h) fun _ σ h => ih h hf.2

theorem Stays.of_afterDefine {ε : Type} [Record ε] {x : Load Unit} {put : Catalog ε → LoadState} {c : Catalog ε}
    {entry : ε} (hrun : x.run.run σ = afterDefine σ put (c.define entry)) (hc : c.Consistent) (hfits : c.Fits) (h : P σ)
    (hdefine : ∀ {slot c'}, c.define entry = .ok (slot, c') → P (put c')) : Stays P σ x := by
  unfold Stays
  rw [hrun]
  cases hresult : c.define entry with
  | error error =>
    obtain rfl := hc.define_eq_error hfits hresult
    exact ⟨h, fun _ heq => Except.error.inj heq ▸ ⟨nofun, nofun, nofun⟩⟩
  | ok result => exact ⟨hdefine hresult, nofun⟩

section Placing

variable {c c' : Catalog Frame} {sections : List Section} {first : Nat}

theorem moves_enlistFrames (h : Reserved c first sections) (hok : enlistFrames c first sections = .ok c') :
    c.Moves c' := by
  induction sections generalizing c first with
  | nil =>
    obtain rfl : c = c' := Except.ok.inj hok
    exact .refl
  | cons s sections ih =>
    have hids := h.enlisted.ids_linked
    cases hname : c.slotNamed? s.title with
    | some slot =>
      by_cases hid : (c.get? slot).map (·.legacyId) = some (frameId s)
      · simp only [enlistFrames, hname, if_pos hid] at hok
        have hrest : Reserved c first sections :=
          ⟨h.enlisted, by rw [← newFrames_cons_of_known hname]; exact h.fresh⟩
        exact ih hrest hok
      · obtain ⟨c₁, hset, hreserved, -⟩ := h.setId hname (frameId s)
        simp only [enlistFrames, hname, if_neg hid, hset, bind, Except.bind] at hok
        have hslot : slot < c.size := by
          have := (h.enlisted.slotNamed?_iff_lt.mp hname).1
          omega
        exact (Catalog.moves_setId hids hslot hset).trans (ih hreserved hok)
    | none =>
      obtain ⟨c₁, henlist, hreserved, -⟩ := h.enlist hname
      simp only [enlistFrames, hname, henlist, bind, Except.bind] at hok
      have hfree : c.directory.names.contains first = false := by
        refine Bool.eq_false_iff.mpr fun hcontains => ?_
        have := h.enlisted.lt_of_contains hcontains
        omega
      exact (Catalog.moves_enlist hids hfree henlist).trans (ih hreserved hok)

theorem moves_placeFrames (h : c.Consistent) (hplace : placeFrames c sections = .ok c') : c.Moves c' := by
  obtain ⟨⟨store, directory⟩, hreserved, henlist, rfl, hsize, hkept, -⟩ := exists_reserved_of_placeFrames h hplace
  have happend : c.Move { c with store } := .append hsize hkept fun _ => h.free_of_size_le
  exact .head happend (moves_enlistFrames hreserved henlist)

end Placing

variable {t : Tables} {b : Batch} {first : Bool}

structure Gathering (t : Tables) (σ : LoadState) : Prop where
  sound : σ.tables.Sound
  fits : σ.tables.Fits
  moves : t.Moves σ.tables

theorem allotFrames_stays (h : Gathering t σ) : Stays (Gathering t) σ (allotFrames b.frames first) := by
  unfold Stays
  rw [run_allotFrames]
  cases hplace : placeFrames σ.tables.frames b.frames with
  | error error =>
    obtain ⟨⟨requested, rfl⟩, -⟩ := placeFrames_eq_error h.sound.frames h.fits.frames hplace
    exact ⟨h, fun _ heq => Except.error.inj heq ▸ ⟨nofun, nofun, nofun⟩⟩
  | ok frames =>
    have hredefines : Tables.Redefines true b σ.tables { σ.tables with frames } := h.sound.redefines_place hplace
    have hplaced : Gathering t { σ with tables.frames := frames } :=
      { sound := hredefines.sound h.sound
        fits := { h.fits with frames := (room_placeFrames h.fits.frames hplace).2 }
        moves := h.moves.trans (Moves.frames (moves_placeFrames h.sound.frames hplace)) }
    simp only
    split
    · cases hcheck : checkNullFrame frames with
      | ok nullFrame =>
        have hset : Gathering t { σ with tables.frames := frames, tables.nullFrame := nullFrame } :=
          { sound := { hplaced.sound with }
            fits := { hplaced.fits with }
            moves := hplaced.moves.tail (.nullFrame _ nullFrame) }
        exact ⟨hset, nofun⟩
      | error error =>
        refine ⟨hplaced, fun _ heq => Except.error.inj heq ▸ ?_⟩
        unfold checkNullFrame at hcheck
        split at hcheck
        · exact Except.error.inj hcheck ▸ ⟨nofun, nofun, nofun⟩
        · split at hcheck
          · cases hcheck
          · exact Except.error.inj hcheck ▸ ⟨nofun, nofun, nofun⟩
    · exact ⟨hplaced, nofun⟩

theorem gather_stays (h : σ.tables.Sound) (hfits : σ.tables.Fits) (b : Batch) (first : Bool) :
    Stays (Gathering σ.tables) σ (gather b first) := by
  have hstart : Gathering σ.tables σ := ⟨h, hfits, .refl⟩
  refine .bind (.lift (.forM hstart fun name σ₁ h₁ => ?_)) fun _ σ₁ h₁ => ?_
  · unfold Update.Stays
    rw [run_addSprite]
    split
    · exact ⟨h₁.sound.withSprite name, { h₁.fits with }, h₁.moves.trans (Moves.sprites h₁.sound.sprites name)⟩
    · exact { h₁ with }
  refine .bind (.forM h₁ fun s hs σ₂ h₂ => ?_) fun _ σ₂ h₂ => ?_
  · refine .of_afterDefine (run_addThing s σ₂) h₂.sound.things h₂.fits.things h₂ fun hdefine => ?_
    have hredefines : Tables.Redefines true b σ₂.tables _ := h₂.sound.redefines_thing hs hdefine
    exact ⟨hredefines.sound h₂.sound, { h₂.fits with things := h₂.fits.things.define hdefine },
      h₂.moves.trans (Moves.things (Catalog.moves_define h₂.sound.things hdefine))⟩
  refine .bind (.forM h₂ fun s hs σ₃ h₃ => ?_) fun _ σ₃ h₃ => ?_
  · refine .of_afterDefine (run_addSound s σ₃) h₃.sound.sounds h₃.fits.sounds h₃ fun hdefine => ?_
    have hredefines : Tables.Redefines true b σ₃.tables _ := h₃.sound.redefines_sound hs hdefine
    exact ⟨hredefines.sound h₃.sound, { h₃.fits with sounds := h₃.fits.sounds.define hdefine },
      h₃.moves.trans (Moves.sounds (Catalog.moves_define h₃.sound.sounds hdefine))⟩
  refine .bind (.forM h₃ fun s hs σ₄ h₄ => ?_) fun _ σ₄ h₄ => allotFrames_stays h₄
  · refine .of_afterDefine (run_addString s σ₄) h₄.sound.strings h₄.fits.strings h₄ fun hdefine => ?_
    have hredefines : Tables.Redefines true b σ₄.tables _ := h₄.sound.redefines_string hs hdefine
    exact ⟨hredefines.sound h₄.sound, { h₄.fits with strings := h₄.fits.strings.define hdefine },
      h₄.moves.trans (Moves.strings (Catalog.moves_define h₄.sound.strings hdefine))⟩

structure Moving (t : Tables) (σ : LoadState) : Prop where
  fillable : σ.tables.Fillable
  strings : σ.tables.strings.Consistent
  sprites : σ.tables.sprites.Sound
  moves : t.Moves σ.tables

theorem stable_moving (asked : String → Prop) : Stable asked (Moving t) where
  indexed h := h.fillable.indexed
  fits h := h.fillable.fits.frames
  warn h _ _ := { h with }
  edit h _ hslot g hg :=
    { h with
      fillable := (stable_fillable asked).edit h.fillable hslot hg
      moves := h.moves.trans (Moves.frames (.single (.write hslot g))) }
  sprite h name :=
    { h with
      fillable := (stable_fillable asked).sprite h.fillable name
      sprites := (h.sprites.define name).1
      moves := h.moves.trans (Moves.sprites h.sprites name) }
  frameId h _ _ hname :=
    { h with
      fillable := (stable_fillable asked).frameId h.fillable hname
      moves := h.moves.trans (Moves.frames (Catalog.moves_claimId h.fillable.indexed.frames.ids_linked
        (h.fillable.indexed.frames.lt_of_slotNamed? hname))) }
  thingId h _ _ hname :=
    { h with
      fillable := (stable_fillable asked).thingId h.fillable hname
      moves := h.moves.trans (Moves.things (Catalog.moves_claimId h.fillable.indexed.things.ids_linked
        (h.fillable.indexed.things.lt_of_slotNamed? hname))) }
  soundId h _ _ hname :=
    { h with
      fillable := (stable_fillable asked).soundId h.fillable hname
      moves := h.moves.trans (Moves.sounds (Catalog.moves_claimId h.fillable.indexed.sounds.ids_linked
        (h.fillable.indexed.sounds.lt_of_slotNamed? hname))) }
  addFrame h _ _ _ _ hasked hbyName hnew hdefine :=
    { h with
      fillable := (stable_fillable asked).addFrame h.fillable hasked hbyName hnew hdefine
      moves := h.moves.trans (Moves.frames (Catalog.moves_define h.fillable.indexed.frames hdefine)) }

end Load

end FrameTable
