import FrameTable.Proofs.Load.Fill
import FrameTable.Proofs.Load.Given

namespace FrameTable

theorem Section.legacyId_le (s : Section) (key : String) : s.legacyId key ≤ maxLegacyId := by
  rw [legacyId]
  cases hfits : (s.int? key).filter Number.fits with
  | none => decide
  | some value =>
    have hvalue : Number.fits value = true := Option.filter_eq_some_iff.mp hfits |>.2
    exact (Number.fits_iff.mp hvalue).2

namespace Catalog

variable {ε : Type} [Record ε] {c c' : Catalog ε} {titles : List String} {slot : Nat}

structure Bounded (c : Catalog ε) : Prop where
  cursor_le : c.cursor ≤ maxLegacyId
  number_le : ∀ {slot e}, c.get? slot = some e → Record.number e ≤ maxLegacyId

theorem bounded_empty (buckets : Nat) : (empty buckets : Catalog ε).Bounded where
  cursor_le := Int.le_refl _
  number_le := nofun

theorem bounded_singleton (buckets : Nat) {entry : ε} (h : Record.number entry ≤ maxLegacyId) :
    (singleton buckets entry).Bounded where
  cursor_le := Int.le_refl _
  number_le {slot e} he := by
    obtain rfl : entry = e := by
      cases slot with
      | zero => exact Option.some.inj he
      | succ slot => cases he
    exact h

namespace Bounded

theorem cursor_le_of_pool_eq (h : c.Bounded) (hpool : c'.directory.pool = c.directory.pool) :
    c'.cursor ≤ maxLegacyId := by
  rw [cursor, hpool]
  exact h.cursor_le

theorem of_identity (h : c.Bounded) (hpool : c'.directory.pool = c.directory.pool)
    (hidentity : ∀ i, (c'.get? i).map identity = (c.get? i).map identity) : c'.Bounded where
  cursor_le := h.cursor_le_of_pool_eq hpool
  number_le {i e'} he' := by
    obtain ⟨e, he, -, hnumber⟩ := get?_of_map_identity (hidentity i).symm he'
    exact hnumber ▸ h.number_le he

theorem define (h : c.Bounded) (hc : c.Consistent) {entry : ε} (hentry : Record.number entry ≤ maxLegacyId)
    (hdefine : c.define entry = .ok (slot, c')) : c'.Bounded := by
  obtain ⟨-, -, hpool, hget, -⟩ := hc.define hdefine
  refine ⟨h.cursor_le_of_pool_eq hpool, fun {i e'} he' => ?_⟩
  rw [hget] at he'
  split at he'
  · exact Option.some.inj he' ▸ hentry
  · exact h.number_le he'

theorem amends (h : c.Bounded) (hamends : Amends titles c c') : c'.Bounded where
  cursor_le := Int.le_trans hamends.cursor_le h.cursor_le
  number_le {i e'} he' := by
    rcases Int.lt_or_le (Record.number e') 0 with hneg | hnonneg
    · exact Int.le_trans (Int.le_of_lt hneg) (by decide)
    · rcases hamends.holder he' hnonneg with hle | ⟨e, he, hnumber⟩
      · exact Int.le_trans hle h.cursor_le
      · exact hnumber ▸ h.number_le he

theorem numbers (h : c.Bounded) (hnumbers : Numbers c c') : c'.Bounded where
  cursor_le := Int.le_trans hnumbers.cursor_le h.cursor_le
  number_le {i e'} he' := by
    rcases Int.lt_or_le (Record.number e') 0 with hneg | hnonneg
    · exact Int.le_trans (Int.le_of_lt hneg) (by decide)
    · rcases hnumbers.origin he' hnonneg with ⟨e, he, hnumber⟩ | ⟨-, hle, -⟩
      · exact hnumber ▸ h.number_le he
      · exact Int.le_trans hle h.cursor_le

end Bounded

end Catalog

theorem Load.bounded_placeFrames {c c' : Catalog Frame} {sections : List Section} (h : c.Bounded) (hc : c.Consistent)
    (hplace : placeFrames c sections = .ok c') : c'.Bounded := by
  obtain ⟨-, -, hredefines, -⟩ := placeFrames_eq_ok hc hplace
  refine ⟨h.cursor_le_of_pool_eq hredefines.pool, fun {i f} hf => ?_⟩
  rcases givenBy_placeFrames hc hplace i f hf with ⟨s, -, -, hgiven⟩ | ⟨hold, -⟩
  · exact hgiven ▸ s.legacyId_le "dehackednum"
  · exact h.number_le hold

namespace Tables

variable {t t' : Tables} {titles : List String}

structure Bounded (t : Tables) : Prop where
  frames : t.frames.Bounded
  things : t.things.Bounded
  sounds : t.sounds.Bounded
  strings : t.strings.Bounded

theorem bounded_initial (sizes : IndexSizes) : (Tables.initial sizes).Bounded where
  frames := Catalog.bounded_empty _
  things := Catalog.bounded_singleton _ (by decide)
  sounds := Catalog.bounded_singleton _ (by decide)
  strings := Catalog.bounded_empty _

theorem Bounded.amends (h : t.Bounded) (hamends : Amends titles t t') : t'.Bounded where
  frames := h.frames.amends hamends.frames
  things := h.things.amends hamends.things
  sounds := h.sounds.amends hamends.sounds
  strings := hamends.strings ▸ h.strings

def Keeps (P : Tables → Prop) (t t' : Tables) : Prop :=
  P t → P t'

instance (P : Tables → Prop) : Std.Refl (Keeps P) := ⟨fun _ h => h⟩

instance (P : Tables → Prop) : IsTrans Tables (Keeps P) := ⟨fun _ _ _ h h' hP => h' (h hP)⟩

end Tables

namespace Load

open Tables (Keeps)

variable {P : Tables → Prop} {b : Batch} {t : Tables}

theorem gather_keeps (first : Bool)
    (hsprite : ∀ t name, P t → P { t with sprites := (t.sprites.define name).2 })
    (hthing : ∀ t s slot things, s ∈ b.things → P t → t.things.define (.ofSection s) = .ok (slot, things) →
      P { t with things })
    (hsound : ∀ t s slot sounds, s ∈ b.sounds → P t → t.sounds.define (.ofSection s) = .ok (slot, sounds) →
      P { t with sounds })
    (hstring : ∀ t s slot strings, s ∈ b.strings → P t → t.strings.define (.ofSection s) = .ok (slot, strings) →
      P { t with strings })
    (hframes : ∀ t frames, P t → placeFrames t.frames b.frames = .ok frames → P { t with frames })
    (hnull : ∀ t nullFrame, P t → P { t with nullFrame }) (h : P t) :
    Follows (Keeps P) t (gather b first) fun _ t' => P t' := by
  refine .bind (.lift (.forM (fun name _ t h => ?_) h)) fun _ t _ h => ?_
  · refine .tables_bind ?_
    split
    · next slot sprites hdefine =>
      obtain rfl : (t.sprites.define name).2 = sprites := by rw [hdefine]
      exact .setTables (hsprite t name) (hsprite t name h)
    · exact .warn h
  refine .bind (.forM (fun s hs t h => ?_) h) fun _ t _ h => ?_
  · exact .tables_bind (.ofCatalog_bind fun _ hdefine =>
      .lift (.setTables (fun h => hthing t s _ _ hs h hdefine) (hthing t s _ _ hs h hdefine)))
  refine .bind (.forM (fun s hs t h => ?_) h) fun _ t _ h => ?_
  · exact .tables_bind (.ofCatalog_bind fun _ hdefine =>
      .lift (.setTables (fun h => hsound t s _ _ hs h hdefine) (hsound t s _ _ hs h hdefine)))
  refine .bind (.forM (fun s hs t h => ?_) h) fun _ t _ h => ?_
  · exact .tables_bind (.ofCatalog_bind fun _ hdefine =>
      .lift (.setTables (fun h => hstring t s _ _ hs h hdefine) (hstring t s _ _ hs h hdefine)))
  refine .tables_bind (.ofCatalog_bind fun frames hplace => ?_)
  have hplaced := hframes t frames h hplace
  refine .setTables_bind (fun _ => hplaced) ?_
  cases first with
  | false => exact .pure hplaced
  | true =>
    simp only [if_true]
    by_cases hempty : frames.size = 0
    · simp only [if_pos hempty]
      exact .raise_bind
    · simp only [if_neg hempty]
      split
      · next nullFrame _ => exact .lift (.setTables (hnull _ nullFrame) (hnull _ nullFrame hplaced))
      · exact .raise

theorem bounded_gather (h : t.Sound) (hbounded : t.Bounded) (b : Batch) (first : Bool) (warnings : Array Warning) :
    ((gather b first).run.run ⟨t, warnings⟩).2.tables.Bounded := by
  have hkeeps : Follows (Keeps fun t => t.Sound ∧ t.Bounded) t (gather b first) fun _ t' => t'.Sound ∧ t'.Bounded := by
    refine gather_keeps first ?_ ?_ ?_ ?_ ?_ ?_ ⟨h, hbounded⟩
    · exact fun t name ⟨h, hbounded⟩ => ⟨h.withSprite name, { hbounded with }⟩
    · intro t s slot things hs ⟨h, hbounded⟩ hdefine
      have hredefines : Tables.Redefines true b t { t with things } := h.redefines_thing hs hdefine
      exact ⟨hredefines.sound h, { hbounded with things := hbounded.things.define h.things (s.legacyId_le _) hdefine }⟩
    · intro t s slot sounds hs ⟨h, hbounded⟩ hdefine
      have hredefines : Tables.Redefines true b t { t with sounds } := h.redefines_sound hs hdefine
      exact ⟨hredefines.sound h, { hbounded with sounds := hbounded.sounds.define h.sounds (s.legacyId_le _) hdefine }⟩
    · intro t s slot strings hs ⟨h, hbounded⟩ hdefine
      have hredefines : Tables.Redefines true b t { t with strings } := h.redefines_string hs hdefine
      exact ⟨hredefines.sound h,
        { hbounded with strings := hbounded.strings.define h.strings (s.legacyId_le _) hdefine }⟩
    · intro t frames ⟨h, hbounded⟩ hplace
      have hredefines : Tables.Redefines true b t { t with frames } := h.redefines_place hplace
      exact ⟨hredefines.sound h, { hbounded with frames := bounded_placeFrames hbounded.frames h.frames hplace }⟩
    · exact fun t nullFrame ⟨h, hbounded⟩ => ⟨{ h with }, { hbounded with }⟩
  obtain ⟨result, t', added, hrun, hR, -⟩ := hkeeps
  have htables : ((gather b first).run.run ⟨t, warnings⟩).2.tables = t' :=
    congrArg (fun outcome => outcome.2.tables) (hrun warnings)
  exact htables ▸ (hR ⟨h, hbounded⟩).2

end Load

end FrameTable
