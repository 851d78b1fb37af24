import Mathlib.Data.Prod.Basic
import FrameTable.Library
import FrameTable.Proofs.Load.Defining

namespace FrameTable

theorem getD_eq_getD_iff {α : Type} (o : Option α) (a b : α) : o.getD a = o.getD b ↔ o.isSome = true ∨ a = b := by
  cases o <;> simp

/-- The frames differ at most in what was evaluated of their arguments, in the flags with keys of their own,
and in what identifies them. -/
structure Frame.SameDefinition (f g : Frame) : Prop where
  sprite : f.sprite = g.sprite
  image : f.image = g.image
  tics : f.tics = g.tics
  action : f.action = g.action
  next : f.next = g.next
  particleEvent : f.particleEvent = g.particleEvent
  misc1 : f.misc1 = g.misc1
  misc2 : f.misc2 = g.misc2
  decorate : f.flags.decorate = g.flags.decorate
  texts : f.args.map (·.texts) = g.args.map (·.texts)

theorem Contents.Forgets.sameDefinition {act : Contents → Contents} (h : Forgets act) {c c' : Contents}
    (hflags : (act c).flags.decorate = (act c').flags.decorate) (f : Frame) :
    (f.withContents (act c)).SameDefinition (f.withContents (act c')) where
  sprite := congrArg FrameBody.sprite (h.body c c')
  image := congrArg FrameBody.image (h.body c c')
  tics := congrArg FrameBody.tics (h.body c c')
  action := congrArg FrameBody.action (h.body c c')
  next := congrArg FrameBody.next (h.body c c')
  particleEvent := congrArg FrameBody.particleEvent (h.body c c')
  misc1 := congrArg FrameBody.misc1 (h.body c c')
  misc2 := congrArg FrameBody.misc2 (h.body c c')
  decorate := hflags
  texts := h.texts c c'

namespace Load

variable {t : Tables} {slot : Nat} {f : Frame} {s : Section}

theorem define_withContents {c c' : Contents} {warnings warnings' : Array Warning} {state state' : LoadState}
    {result result' : Except LoadError Unit} (hf : t.frames.get? slot = some f)
    (hdecorate : s.bool? "decorate" ≠ some true)
    (hrun : (define slot s).run.run ⟨t.withContents slot c, warnings⟩ = (result, state))
    (hrun' : (define slot s).run.run ⟨t.withContents slot c', warnings'⟩ = (result', state')) :
    result' = result ∧ (result = .ok () → ∃ g g', state.tables.frames.get? slot = some g ∧
      state'.tables.frames.get? slot = some g' ∧ state'.tables = state.tables.withContents slot g'.contents ∧
      g.SameDefinition g' ∧
      (g.flags.skill5Fast = g'.flags.skill5Fast ↔
        (s.bool? "SKILL5FAST").isSome = true ∨ c.flags.skill5Fast = c'.flags.skill5Fast) ∧
      (g.flags.interpolate = g'.flags.interpolate ↔
        (s.bool? "INTERPOLATE").isSome = true ∨ c.flags.interpolate = c'.flags.interpolate)) := by
  obtain ⟨outcome, t', added, act, hacts, hR, hQ⟩ := define_acts (Catalog.lt_size_of_get? hf) hdecorate
  -- Both runs are instances of the one from all contents: the outcome and the tables `t'` are shared.
  obtain ⟨rfl, rfl⟩ := Prod.mk.inj ((hacts c warnings).symm.trans hrun)
  obtain ⟨rfl, rfl⟩ := Prod.mk.inj ((hacts c' warnings').symm.trans hrun')
  refine ⟨rfl, fun hok => ?_⟩
  obtain ⟨hforgets, hflags⟩ := hQ () hok
  obtain ⟨id, hf', -⟩ := hR.record hf
  have hskill : ∀ c, (act c).flags.skill5Fast = (s.bool? "SKILL5FAST").getD c.flags.skill5Fast :=
    fun c => congrArg FrameFlags.skill5Fast (hflags c)
  have hinterpolate : ∀ c, (act c).flags.interpolate = (s.bool? "INTERPOLATE").getD c.flags.interpolate :=
    fun c => congrArg FrameFlags.interpolate (hflags c)
  refine ⟨_, _, Tables.get?_withContents hf' (act c), Tables.get?_withContents hf' (act c'),
    (Tables.withContents_withContents _ _ _ _).symm, hforgets.sameDefinition ?_ _, ?_, ?_⟩
  · rw [hflags, hflags]
    rfl
  · change (act c).flags.skill5Fast = (act c').flags.skill5Fast ↔ _
    rw [hskill, hskill, getD_eq_getD_iff]
  · change (act c).flags.interpolate = (act c').flags.interpolate ↔ _
    rw [hinterpolate, hinterpolate, getD_eq_getD_iff]

def hasty : Batch where
  frames := [{ title := "S_NULL", fields := .ofList [("decorate", .bool true)] },
    { title := "S_DASH", fields := .ofList [("cmp", .text "PLAY|A|*|4|Light0|S_NULL"), ("SKILL5FAST", .bool true)] }]

def hastyTables : Tables :=
  ((Library.new ⟨1, 1, 1, 1, 1⟩).load hasty).2.tables

def steady : Section where
  title := "S_DASH"
  fields := .ofList [("sprite", .text "PLAY"), ("tics", .int 6), ("action", .text "Light0(1)"),
    ("nextframe", .text "S_NULL"), ("INTERPOLATE", .bool false)]

def plainContents : Contents :=
  (emptyFrame 1 steady).contents

def fastContents : Contents :=
  { plainContents with flags := { skill5Fast := true, interpolate := true }, tics := 2, next := 1 }

theorem define_withContents_steady : ∃ g g',
    ((define 1 steady).run.run ⟨hastyTables.withContents 1 plainContents, #[]⟩).2.tables.frames.get? 1 = some g ∧
    ((define 1 steady).run.run ⟨hastyTables.withContents 1 fastContents, #[]⟩).2.tables.frames.get? 1 = some g' ∧
    g.SameDefinition g' ∧ g.flags.interpolate = g'.flags.interpolate ∧ g.flags.skill5Fast ≠ g'.flags.skill5Fast := by
  have hsome : (hastyTables.frames.get? 1).isSome = true := by decide +kernel
  obtain ⟨f, hf⟩ := Option.isSome_iff_exists.mp hsome
  have hdecorate : steady.bool? "decorate" ≠ some true := by decide +kernel
  have hok : ((define 1 steady).run.run ⟨hastyTables.withContents 1 plainContents, #[]⟩).1 = .ok () := by
    decide +kernel
  have hok' : ((define 1 steady).run.run ⟨hastyTables.withContents 1 fastContents, #[]⟩).1 = .ok () := by
    decide +kernel
  obtain ⟨-, hsame⟩ := define_withContents hf hdecorate (Prod.fst_eq_iff.mp hok) (Prod.fst_eq_iff.mp hok')
  obtain ⟨g, g', hg, hg', -, hdefinition, hskill, hinterpolate⟩ := hsame rfl
  refine ⟨g, g', hg, hg', hdefinition, hinterpolate.mpr (.inl (by decide +kernel)), fun h => ?_⟩
  exact absurd (hskill.mp h) (by decide +kernel)

theorem define_steady_keeps_skill5Fast :
    ((define 1 steady).run.run ⟨hastyTables.withContents 1 plainContents, #[]⟩).1 = .ok () ∧
      ((define 1 steady).run.run ⟨hastyTables.withContents 1 fastContents, #[]⟩).1 = .ok () ∧
      (((define 1 steady).run.run ⟨hastyTables.withContents 1 plainContents, #[]⟩).2.tables.frames.get? 1).map
        (·.flags) = some {} ∧
      (((define 1 steady).run.run ⟨hastyTables.withContents 1 fastContents, #[]⟩).2.tables.frames.get? 1).map
        (·.flags) = some { skill5Fast := true } := by
  decide +kernel

end Load

end FrameTable
