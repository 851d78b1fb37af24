import FrameTable.Proofs.Library.Load

/-!
Loads that fail before any has succeeded. One that fails while the batch is gathered is undone. As soon as the
frames of a batch have their slots the library counts as initialized, so a later failure of the same load
leaves its frames behind.
-/

namespace FrameTable.Library

variable {sizes : IndexSizes} {batches : List Batch} {l : Library} {b : Batch}

inductive FailedLoads (sizes : IndexSizes) : List Batch → Library → Prop
  | none : FailedLoads sizes [] (new sizes)
  | load {batches : List Batch} {l : Library} {b : Batch} {error : LoadError} :
      FailedLoads sizes batches l → (l.load b).1 = .error error → FailedLoads sizes (batches ++ [b]) (l.load b).2

def GatherFails (sizes : IndexSizes) (b : Batch) : Prop :=
  ∃ error, ((Load.gather b true).run.run { tables := .initial sizes }).1 = .error error

theorem Intact.initialized_load_iff (h : l.Intact) (hinit : l.initialized = false) (b : Batch) :
    (l.load b).2.initialized = false ↔ GatherFails l.sizes b := by
  obtain ⟨gathered, t, added, hrun, -⟩ := Load.gather_follows true b (Tables.sound_initial l.sizes)
  have hl : (Load.gather b (!l.initialized)).run.run l.state = (gathered, ⟨t, l.warnings ++ added⟩) := by
    rw [hinit, ← hrun, ← h.initial hinit]
    rfl
  have hgather : GatherFails l.sizes b ↔ ∃ error, gathered = .error error := by
    rw [GatherFails, show (Load.gather b true).run.run { tables := .initial l.sizes } = _ from hrun #[]]
  rw [hgather, Library.load, hl]
  cases gathered with
  | error error => exact ⟨fun _ => ⟨error, rfl⟩, fun _ => hinit⟩
  | ok value =>
    simp only [reduceCtorEq, exists_false, iff_false, Bool.not_eq_false]
    split <;> rfl

namespace FailedLoads

theorem intact (h : FailedLoads sizes batches l) : l.Intact ∧ l.sizes = sizes := by
  induction h with
  | none => exact ⟨intact_new sizes, rfl⟩
  | load _ _ ih => exact ⟨ih.1.load _, (sizes_load ih.1 _).trans ih.2⟩

theorem initialized_iff (h : FailedLoads sizes batches l) :
    l.initialized = false ↔ ∀ b ∈ batches, GatherFails sizes b := by
  induction h with
  | none => exact iff_of_true rfl nofun
  | @load batches l b error hprev herror ih =>
    obtain ⟨hintact, rfl⟩ := hprev.intact
    rw [List.forall_mem_append, List.forall_mem_singleton, ← ih]
    cases hinit : l.initialized with
    | false => rw [hintact.initialized_load_iff hinit, eq_self, true_and]
    | true =>
      -- A load never makes an initialized library forget that it is.
      obtain ⟨result, t, initialized, houtcome, -, -, hinit', -⟩ := exists_outcome hintact b
      rw [hinit']
      cases houtcome with
      | undone error hnew => cases hinit.symm.trans hnew
      | gathered | filled => simp

theorem frameCount_eq_zero_iff (h : FailedLoads sizes batches l) :
    l.frameCount = 0 ↔ l.initialized = false := by
  refine ⟨fun hcount => ?_, fun hinit => ?_⟩
  · cases hinit : l.initialized with
    | false => rfl
    | true =>
      have hlt := (h.intact.1.ready hinit).nullFrame_lt
      rw [show l.tables.frames.size = 0 from hcount] at hlt
      cases hlt
  · rw [frameCount, h.intact.1.initial hinit]
    rfl

theorem tables_eq_initial_iff (h : FailedLoads sizes batches l) :
    l.tables = .initial sizes ↔ l.initialized = false := by
  refine ⟨fun htables => h.frameCount_eq_zero_iff.mp ?_, fun hinit => h.intact.2 ▸ h.intact.1.initial hinit⟩
  rw [frameCount, htables]
  rfl

/-- Failed loads leave nothing behind exactly when each of them failed while its batch was gathered. The next
load then gives what it would have given at first. -/
theorem leave_nothing_iff (h : FailedLoads sizes batches l) :
    (l.tables = .initial sizes ↔ ∀ b ∈ batches, GatherFails sizes b) ∧
    (l.frameCount = 0 ↔ ∀ b ∈ batches, GatherFails sizes b) ∧
    (l.nullFrame? = .none ↔ ∀ b ∈ batches, GatherFails sizes b) ∧
    (∀ id, l.slotNumbered? id = .none ↔ ∀ b ∈ batches, GatherFails sizes b) ∧
    ((∀ b ∈ batches, GatherFails sizes b) → ∀ b, (l.load b).1 = ((new sizes).load b).1 ∧
      (l.load b).2.tables = ((new sizes).load b).2.tables) := by
  rw [← h.initialized_iff]
  have hnull : l.nullFrame? = .none ↔ l.initialized = false := by
    rw [nullFrame?]
    cases l.initialized <;> simp
  refine ⟨h.tables_eq_initial_iff, h.frameCount_eq_zero_iff, hnull, fun id => ?_, fun hinit b => ?_⟩
  · rw [slotNumbered?, Option.map_eq_none_iff, hnull]
  · have htables := h.tables_eq_initial_iff.mpr hinit
    obtain ⟨hresult, hload, -⟩ := load_congr (intact_new sizes) h.intact.2 htables hinit b
    exact ⟨hresult, hload⟩

end FailedLoads

def withoutNullFrame : Batch where
  sprites := ["PLAY"]
  things := [{ title := "Imp", fields := .ofList [("dehackednum", .int 12)] }]
  frames := [{ title := "S_RUN", fields := .ofList [("cmp", .text "PLAY|A|*|4|*|S_WALK")] }, { title := "S_WALK" }]

def haltedTables : Tables :=
  ((Load.gather withoutNullFrame true).run.run { tables := .initial ⟨1, 1, 1, 1, 1⟩ }).2.tables

theorem leave_nothing_withoutNullFrame :
    ((new ⟨1, 1, 1, 1, 1⟩).load withoutNullFrame).1 = .error .missingNullFrame ∧
      haltedTables.frames.size = 2 ∧ haltedTables.things.slotNamed? "Imp" = some 1 ∧
      haltedTables.sprites.names.size = 2 ∧
      ((new ⟨1, 1, 1, 1, 1⟩).load withoutNullFrame).2.tables = .initial ⟨1, 1, 1, 1, 1⟩ ∧
      ∀ b, (((new ⟨1, 1, 1, 1, 1⟩).load withoutNullFrame).2.load b).1 = ((new ⟨1, 1, 1, 1, 1⟩).load b).1 := by
  have herror : ((new ⟨1, 1, 1, 1, 1⟩).load withoutNullFrame).1 = .error .missingNullFrame := by decide +kernel
  have hgather : ∀ b ∈ [withoutNullFrame], GatherFails ⟨1, 1, 1, 1, 1⟩ b :=
    List.forall_mem_singleton.mpr ⟨.missingNullFrame, by decide +kernel⟩
  have h := (FailedLoads.load .none herror).leave_nothing_iff
  exact ⟨herror, by decide +kernel, by decide +kernel, by decide +kernel, h.1.mpr hgather,
    fun b => (h.2.2.2.2 hgather b).1⟩

def nullFrameOnly : Batch where
  frames := [{ title := "S_NULL", fields := .ofList [("decorate", .bool true)] }]
  deltas := [{ title := "" }]

theorem nullFrameOnly_left_behind :
    FailedLoads ⟨1, 1, 1, 1, 1⟩ [nullFrameOnly] ((new ⟨1, 1, 1, 1, 1⟩).load nullFrameOnly).2 ∧
      ((new ⟨1, 1, 1, 1, 1⟩).load nullFrameOnly).2.frameCount = 1 ∧
      ((new ⟨1, 1, 1, 1, 1⟩).load nullFrameOnly).2.nullFrame? = some 0 ∧
      ((new ⟨1, 1, 1, 1, 1⟩).load nullFrameOnly).2.tables ≠ .initial ⟨1, 1, 1, 1, 1⟩ := by
  have herror : ((new ⟨1, 1, 1, 1, 1⟩).load nullFrameOnly).1 = .error (.deltaWithoutName 0) := by decide +kernel
  have hcount : ((new ⟨1, 1, 1, 1, 1⟩).load nullFrameOnly).2.frameCount = 1 := by decide +kernel
  refine ⟨.load .none herror, hcount, by decide +kernel, fun htables => ?_⟩
  rw [frameCount, htables] at hcount
  cases hcount

end FrameTable.Library
