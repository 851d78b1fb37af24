import FrameTable.Library
import FrameTable.Proofs.Load.Fill
import FrameTable.Proofs.Load.Gather

namespace FrameTable.Library

open Tables (Redefines Amends)

variable {l l' : Library} {b : Batch}

structure Intact (l : Library) : Prop where
  initial : l.initialized = false → l.tables = .initial l.sizes
  ready : l.initialized = true → l.tables.Ready

theorem intact_new (sizes : IndexSizes) : (new sizes).Intact where
  initial _ := rfl
  ready := nofun

theorem Intact.sound (h : l.Intact) : l.tables.Sound := by
  cases hinit : l.initialized with
  | false => exact h.initial hinit ▸ Tables.sound_initial _
  | true => exact (h.ready hinit).toSound

inductive Outcome (l : Library) (b : Batch) : Except LoadError Unit → Tables → Bool → Prop
  | undone (error : LoadError) (hinit : l.initialized = false) :
      Outcome l b (.error error) (.initial l.sizes) false
  | gathered (error : LoadError) {t : Tables} (hinit : l.initialized = true)
      (hgather : Redefines false b l.tables t) : Outcome l b (.error error) t true
  | filled (result : Except LoadError Unit) {t t' : Tables} (hgather : Redefines (!l.initialized) b l.tables t)
      (hready : t.Ready) (hfill : Amends b.frameTitles t t') : Outcome l b result t' true

theorem Intact.ready_of_gather (h : l.Intact) {t : Tables} (hgather : Redefines (!l.initialized) b l.tables t)
    (hnull : (!l.initialized) = true → t.frames.slotNamed? Frame.nullName = some t.nullFrame) : t.Ready where
  toSound := hgather.sound h.sound
  nullFrame := by
    cases hinit : l.initialized with
    | false => exact hnull (by rw [hinit]; rfl)
    | true =>
      rw [hgather.nullFrame (by rw [hinit]; rfl)]
      exact hgather.frames.names (h.ready hinit).nullFrame

theorem exists_load_eq (h : l.Intact) (b : Batch) : ∃ result t phase initialized added,
    Outcome l b result t initialized ∧ ∀ warnings before,
      (Library.mk l.sizes ⟨l.tables, warnings⟩ before l.initialized).load b =
        (result, ⟨l.sizes, ⟨t, warnings ++ added⟩, phase, initialized⟩) := by
  obtain ⟨gathered, t₁, added₁, hrun₁, hgather, hQ⟩ := Load.gather_follows (!l.initialized) b h.sound
  cases gathered with
  | error error =>
    cases hinit : l.initialized with
    | false =>
      rw [hinit] at hrun₁
      refine ⟨_, _, .idle, _, added₁, .undone error hinit, fun warnings before => ?_⟩
      simp only [load, hrun₁, abandon, Bool.false_eq_true, if_false]
    | true =>
      rw [hinit] at hrun₁ hgather
      refine ⟨_, _, .idle, _, added₁, .gathered error hinit hgather, fun warnings before => ?_⟩
      simp only [load, hrun₁, abandon, if_true]
  | ok value =>
    -- From here on the load is not undone, whether filling the frames fails or not.
    have hready := h.ready_of_gather hgather (hQ value rfl).2
    obtain ⟨result, t₂, added₂, hrun₂, hfill, -⟩ := Load.fill_follows hready b
    have houtcome : Outcome l b result t₂ true := .filled result hgather hready hfill
    cases result with
    | error error =>
      refine ⟨_, _, .idle, _, added₁ ++ added₂, houtcome, fun warnings before => ?_⟩
      simp only [load, hrun₁, hrun₂, Array.append_assoc]
    | ok value' =>
      refine ⟨_, _, .applied, _, added₁ ++ added₂, houtcome, fun warnings before => ?_⟩
      simp only [load, hrun₁, hrun₂, Array.append_assoc]

theorem exists_outcome (h : l.Intact) (b : Batch) : ∃ result t initialized, Outcome l b result t initialized ∧
    (l.load b).1 = result ∧ (l.load b).2.tables = t ∧ (l.load b).2.initialized = initialized ∧
      (l.load b).2.sizes = l.sizes ∧ ∃ added, (l.load b).2.warnings = l.warnings ++ added := by
  obtain ⟨result, t, phase, initialized, added, houtcome, hload⟩ := exists_load_eq h b
  have hl : l.load b = (result, ⟨l.sizes, ⟨t, l.warnings ++ added⟩, phase, initialized⟩) := hload _ _
  refine ⟨result, t, initialized, houtcome, ?_⟩
  rw [hl]
  exact ⟨rfl, rfl, rfl, rfl, added, rfl⟩

theorem sizes_load (h : l.Intact) (b : Batch) : (l.load b).2.sizes = l.sizes := by
  obtain ⟨-, -, -, -, -, -, -, hsizes, -⟩ := exists_outcome h b
  exact hsizes

theorem Intact.load (h : l.Intact) (b : Batch) : (l.load b).2.Intact := by
  obtain ⟨result, t, initialized, houtcome, -, htables, hinit', hsizes, -⟩ := exists_outcome h b
  constructor
  · intro hnew
    rw [hinit'] at hnew
    cases houtcome with
    | undone error hinit => rw [htables, hsizes]
    | gathered | filled => cases hnew
  · intro hnew
    rw [hinit'] at hnew
    rw [htables]
    cases houtcome with
    | undone error hinit => cases hnew
    | gathered error hinit hgather =>
      refine h.ready_of_gather (b := b) ?_ ?_
      · rw [hinit]
        exact hgather
      · rw [hinit]
        exact nofun
    | filled result hgather hready hfill => exact hfill.ready hready

theorem load_congr (h : l.Intact) (hsizes : l'.sizes = l.sizes) (htables : l'.tables = l.tables)
    (hinit : l'.initialized = l.initialized) (b : Batch) :
    (l'.load b).1 = (l.load b).1 ∧ (l'.load b).2.tables = (l.load b).2.tables ∧
      (l'.load b).2.phase = (l.load b).2.phase ∧ (l'.load b).2.initialized = (l.load b).2.initialized := by
  obtain ⟨result, t, phase, initialized, added, -, hload⟩ := exists_load_eq h b
  have hl : l.load b = (result, ⟨l.sizes, ⟨t, l.warnings ++ added⟩, phase, initialized⟩) := hload _ _
  have hl' : l'.load b = (result, ⟨l.sizes, ⟨t, l'.warnings ++ added⟩, phase, initialized⟩) := by
    rw [← hload l'.warnings l'.phase, ← hsizes, ← htables, ← hinit]
    rfl
  rw [hl, hl']
  exact ⟨rfl, rfl, rfl, rfl⟩

end FrameTable.Library
