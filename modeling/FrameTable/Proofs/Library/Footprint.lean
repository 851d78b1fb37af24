import FrameTable.Proofs.Library.Integrity

/-!
What a load leaves alone. Resolving the references of one frame can number records of every kind and add
sprites and frames, but nothing that the batch does not name is changed otherwise, however the load ends.
-/

namespace FrameTable

structure Tables.Preserves (b : Batch) (t t' : Tables) : Prop where
  frames : t.frames.Preserves b.frameTitles t'.frames
  things : t.things.Preserves (b.things.map (·.title)) t'.things
  sounds : t.sounds.Preserves (b.sounds.map (·.title)) t'.sounds
  stringNames : t.strings.KeepsNames t'.strings
  string : ∀ {slot e}, t.strings.get? slot = some e → ¬Mentions (b.strings.map (·.title)) e.mnemonic →
    t'.strings.get? slot = some e
  sprites : t.sprites.KeepsNames t'.sprites
  nullFrame : t'.nullFrame = t.nullFrame

theorem Tables.Redefines.preserves {b : Batch} {t t' t'' : Tables} (h : Redefines false b t t')
    (h' : Amends b.frameTitles t' t'') : Preserves b t t'' where
  frames := (h.frames.mono (List.subset_append_left _ _)).preserves h'.frames
  things := h.things.preserves (h'.things.mono (List.nil_subset _))
  sounds := h.sounds.preserves (h'.sounds.mono (List.nil_subset _))
  stringNames hname := h'.strings ▸ h.strings.names hname
  string he hnot := h'.strings ▸ h.strings.record he hnot
  sprites hname := h'.sprites (h.sprites hname)
  nullFrame := h'.nullFrame.trans (h.nullFrame rfl)

namespace Library

variable {sizes : IndexSizes} {l : Library}

theorem Reachable.preserves_load (h : Reachable sizes l) (hinit : l.initialized = true) (b : Batch) :
    l.tables.Preserves b (l.load b).2.tables ∧ (l.load b).2.nullFrame? = l.nullFrame? ∧
      ∃ added, (l.load b).2.warnings = l.warnings ++ added := by
  obtain ⟨result, t, initialized, houtcome, -, htables, hinit', -, hwarnings⟩ := exists_outcome h.intact b
  have hpreserves : l.tables.Preserves b t ∧ initialized = true := by
    cases houtcome with
    | undone error hnew => cases hinit.symm.trans hnew
    | gathered error hinit hgather => exact ⟨hgather.preserves (Std.Refl.refl _), rfl⟩
    | filled result hgather hready hfill =>
      rw [hinit] at hgather
      exact ⟨hgather.preserves hfill, rfl⟩
  refine ⟨htables ▸ hpreserves.1, ?_, hwarnings⟩
  rw [nullFrame?, nullFrame?, hinit', hpreserves.2, hinit, htables, hpreserves.1.nullFrame]

def walking : Batch where
  frames := [{ title := "S_NULL", fields := .ofList [("decorate", .bool true)] },
    { title := "S_WALK", fields := .ofList [("decorate", .bool true)] }]

def following : Batch where
  frames := [{ title := "S_RUN", fields := .ofList [("decorate", .bool true), ("misc1", .text "frame:S_WALK")] }]
  deltas := [{ title := "" }]

def walkingLibrary : Library :=
  ((new ⟨1, 1, 1, 1, 1⟩).load walking).2

theorem preserves_load_following :
    (walkingLibrary.load following).1 = .error (.deltaWithoutName 0) ∧
      ((walkingLibrary.load following).2.frame? 1).map (·.legacyId) = some maxLegacyId ∧
      walkingLibrary.tables.Preserves following (walkingLibrary.load following).2.tables ∧
      (walkingLibrary.load following).2.nullFrame? = walkingLibrary.nullFrame? ∧
      ∃ added, (walkingLibrary.load following).2.warnings = walkingLibrary.warnings ++ added :=
  ⟨by decide +kernel, by decide +kernel,
    Reachable.preserves_load (.single (.load (new ⟨1, 1, 1, 1, 1⟩) walking)) (by decide +kernel) following⟩

end Library

end FrameTable
