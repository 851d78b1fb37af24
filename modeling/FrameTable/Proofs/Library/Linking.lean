import FrameTable.Proofs.Library.Room

/-!
No load finds an index in disorder. From the tables it starts with to those it stops with it makes moves that stay in
range, and the failures that it can end with have nothing to do with indexes.
-/

namespace FrameTable.Library

variable {sizes : IndexSizes} {l : Library} {b : Batch}

def stopped (l : Library) (b : Batch) : LoadState :=
  ((do Load.gather b (!l.initialized); Load.fill b : Load Unit).run.run l.state).2

structure LoadsInRange (l : Library) (b : Batch) : Prop where
  ordinary : ∀ error, (l.load b).1 = .error error → error.Ordinary
  start : l.tables.InRange
  moves : l.tables.MovesInRange (l.stopped b).tables
  linkedOnce : (l.stopped b).tables.LinkedOnce
  left : (l.load b).2.tables = (l.stopped b).tables ∨ l.initialized = false ∧
    (∃ error, (l.load b).1 = .error error) ∧ (l.load b).2.tables = .initial l.sizes

theorem stopped_of_error {error : LoadError}
    (h : (Load.gather b (!l.initialized)).run.run l.state = (.error error, l.gathered b)) :
    l.stopped b = l.gathered b := by
  rw [stopped, ExceptT.run_bind, StateT.run_bind, h]
  rfl

theorem stopped_of_ok (h : (Load.gather b (!l.initialized)).run.run l.state = (.ok (), l.gathered b)) :
    l.stopped b = ((Load.fill b).run.run (l.gathered b)).2 := by
  rw [stopped, ExceptT.run_bind, StateT.run_bind, h]
  rfl

theorem Intact.inRange_load (h : l.Intact) (hfits : l.tables.Fits) (b : Batch) : l.LoadsInRange b := by
  have hlinked := h.sound.linked
  obtain ⟨hgathering, hordinary⟩ := h.gather_stays hfits b
  change Load.Gathering l.tables (l.gathered b) at hgathering
  rcases l.load_cases b with ⟨error, hgather, hload⟩ | ⟨result, σ, phase, hgather, hfill, hload⟩
  · rw [hgather] at hordinary
    have hstopped := stopped_of_error hgather
    refine
      { ordinary := fun error' herror => hordinary error' (by rw [← herror, hload])
        start := hlinked.inRange
        moves := hstopped ▸ (hgathering.moves.inRange hlinked).1
        linkedOnce := hstopped ▸ hgathering.sound.linkedOnce
        left := ?_ }
    rw [hload, hstopped, abandon]
    cases hinit : l.initialized with
    | true => exact .inl rfl
    | false => exact .inr ⟨rfl, ⟨error, rfl⟩, rfl⟩
  · have hready := h.ready_gathered b hgather
    have hstart : Load.Moving l.tables (l.gathered b) :=
      { fillable := ⟨hready.indexed, hgathering.fits⟩
        strings := hready.strings
        sprites := hready.sprites
        moves := hgathering.moves }
    obtain ⟨hstop, hordinary'⟩ := Load.fill_stays (Load.stable_moving (Load.Asked b)) hstart
    have hstopped : l.stopped b = σ := by rw [stopped_of_ok hgather, hfill]
    rw [hfill] at hstop hordinary'
    exact
      { ordinary := fun error' herror => hordinary' error' (by rw [← herror, hload])
        start := hlinked.inRange
        moves := hstopped ▸ (hstop.moves.inRange hlinked).1
        linkedOnce := hstopped ▸ ⟨hstop.fillable.indexed.frames.linkedOnce, hstop.fillable.indexed.things.linkedOnce,
          hstop.fillable.indexed.sounds.linkedOnce, hstop.strings.linkedOnce⟩
        left := .inl (by rw [hload, hstopped]; rfl) }

/-- No load of a library that has been reached finds an index in disorder, or leaves one so. -/
theorem Reachable.loadsInRange (h : Reachable sizes l) (b : Batch) : l.LoadsInRange b :=
  h.intact.inRange_load h.fits b

def halting : Batch where
  things := [{ title := "Imp", fields := .ofList [("dehackednum", .int 12)] }]
  frames := [{ title := "S_IMP", fields := .ofList [("cmp", .text "*|*|*|*|*|S_GONE|*|thing:unknown")] }]
  deltas := [{ title := "" }]

theorem loadsInRange_halting :
    Reachable ⟨1, 1, 1, 1, 1⟩ respelledLibrary ∧ respelledLibrary.LoadsInRange halting ∧
      (respelledLibrary.load halting).1 = .error (.deltaWithoutName 0) ∧
      (respelledLibrary.stopped halting).tables.frames.directory.names.buckets = #[[2, 1, 0]] ∧
      (respelledLibrary.stopped halting).tables.things.directory.ids.buckets = #[[0, 1]] :=
  ⟨reachable_respelledLibrary, reachable_respelledLibrary.loadsInRange halting, by decide +kernel, by decide +kernel,
    by decide +kernel⟩

end FrameTable.Library
