import FrameTable.Proofs.Argument.Numbered
import FrameTable.Proofs.Library.Caches
import FrameTable.Proofs.Library.Handles

namespace FrameTable

namespace Load

open LoadState (Fills)

variable {text : String} {value : Int} {σ σ₀ : LoadState} {b : Batch}

theorem run_nextFrame_of_numeral (slot : Nat) (frame : String) (hnumeral : Number.Numeral text.toList value)
    (hname : σ.tables.frames.slotNamed? text = none) : (nextFrame slot frame text).run.run σ =
      match σ.tables.frames.slotNumbered? (Number.narrow value) with
      | some next => (.ok next, σ)
      | none => (.error (.badNextFrame frame text), σ) := by
  have hwhole := Number.wholeInteger?_eq_some_iff.mpr ⟨value, hnumeral, rfl⟩
  rw [nextFrame, run_tables_bind]
  split
  · next special heq =>
    have hscan := Number.scanInteger_of_numeral hnumeral
    rw [heq] at hscan
    have hrest : '@' :: special = [] := congrArg Prod.snd hscan
    cases hrest
  · simp only [hname, hwhole, Number.narrow_clamp64]
    cases σ.tables.frames.slotNumbered? (Number.narrow value) <;> rfl

theorem resolves_nextFrame (h : σ.tables.frames.Consistent) (slot : Nat) (frame : String)
    (hnumeral : Number.Numeral text.toList value) (hname : σ.tables.frames.slotNamed? text = none) :
    Reference.frame.Resolves σ.tables (min value maxLegacyId) (fun next => (.ok next, σ))
      (.error (.badNextFrame frame text), σ) ((nextFrame slot frame text).run.run σ) := by
  rw [run_nextFrame_of_numeral slot frame hnumeral hname]
  rcases h.slotNumbered?_cases (Number.narrow value) with ⟨next, hnext, hholds⟩ | ⟨hnone, hnot⟩
  · rw [hnext]
    exact .inl ⟨next, Reference.holds_narrow_iff.mp hholds, rfl⟩
  · rw [hnone]
    exact .inr ⟨fun next hholds => hnot next (Reference.holds_narrow_iff.mpr hholds), rfl⟩

end Load

namespace Library

open LoadState (Fills)

variable {sizes : IndexSizes} {l l' : Library} {text : String} {value : Int}

theorem Intact.bounded_gathered (h : l.Intact) (hbounded : l.tables.Bounded) (b : Batch) :
    (l.gathered b).tables.Bounded :=
  Load.bounded_gather h.sound hbounded b (!l.initialized) l.warnings

theorem Intact.bounded_load (h : l.Intact) (hbounded : l.tables.Bounded) (b : Batch) :
    (l.load b).2.tables.Bounded := by
  have hgathered := h.bounded_gathered hbounded b
  rcases l.load_cases b with ⟨error, -, hload⟩ | ⟨result, σ, phase, hgather, hfill, hload⟩
  · rw [hload, tables, abandon]
    split
    · exact hgathered
    · exact Tables.bounded_initial l.sizes
  · obtain ⟨result', t, added, hrun, hamends, -⟩ := Load.fill_follows (h.ready_gathered b hgather) b
    obtain ⟨-, rfl⟩ := Prod.mk.inj ((hrun (l.gathered b).warnings).symm.trans hfill)
    rw [hload]
    exact hgathered.amends hamends

theorem Intact.bounded_step (h : l.Intact) (hbounded : l.tables.Bounded) (hstep : Step l l') : l'.tables.Bounded := by
  have hset : ∀ slot args, (l.setArguments slot args).tables.Bounded := fun slot args =>
    { hbounded with frames := hbounded.frames.of_identity rfl fun i =>
        l.tables.frames.map_identity_modify slot (f := fun f => { f with args := some args }) (fun _ => rfl) i }
  cases hstep with
  | load _ b => exact h.bounded_load hbounded b
  | setArgument _ slot position text =>
    unfold Library.setArgument
    split
    · exact hbounded
    · simp only
      split <;> exact hset slot _
  | readArgument _ r slot position default =>
    unfold Library.readArgument
    split
    · exact hbounded
    · exact hset slot _
  | forgetEvaluations =>
    refine { hbounded with frames := hbounded.frames.of_identity rfl fun i => ?_ }
    rw [show l.forgetEvaluations.tables.frames.get? i = (l.tables.frames.get? i).map _ from Store.get?_map _ _ _,
      Option.map_map]
    rfl
  | clearWarnings => exact hbounded

theorem Reachable.bounded (h : Reachable sizes l) : l.tables.Bounded := by
  induction h with
  | refl => exact Tables.bounded_initial sizes
  | tail hreachable hstep ih => exact Reachable.intact hreachable |>.bounded_step ih hstep

theorem resolves_value (h : l.tables.Sound) {k : Reference} {slot position : Nat} {default : k.accessor.Value}
    {c : Cell} (hnumeral : Number.Numeral c.text.toList value) (hc : l.cell? slot position = some c)
    (hstale : ¬l.Stale k.accessor slot position default)
    (hreaches : ∀ i, k.Holds l.tables i (min value maxLegacyId) → k.Reaches i) :
    k.Resolves l.tables (min value maxLegacyId) k.found (k.fallback l.tables.resolver)
      (l.value k.accessor slot position default) := by
  obtain ⟨x, hanswer, hresolves⟩ := Reference.exists_resolves h k hnumeral hreaches
  rw [Stale, not_not, value_forgetEvaluations, hc, Option.bind_some, hanswer] at hstale
  exact hstale ▸ hresolves

/-- A numeral for a frame that follows another, or in an argument, leads to a record with the id, and nowhere if there
is none. But one that is too great stands for the greatest id, so that this only holds if no record has that. -/
theorem Reachable.resolves_numeral (h : Reachable sizes l) (hnumeral : Number.Numeral text.toList value) :
    (∀ b σ slot frame, (Load.gather b (!l.initialized)).run.run l.state = (.ok (), l.gathered b) →
      Fills True (fun _ _ => True) (l.gathered b) σ → σ.tables.frames.slotNamed? text = none →
      Reference.frame.Resolves σ.tables (min value maxLegacyId) (fun next => (.ok next, σ))
        (.error (.badNextFrame frame text), σ) ((Load.nextFrame slot frame text).run.run σ) ∧
      (value ≤ maxLegacyId ∨ (∀ i, ¬Reference.frame.Holds σ.tables i maxLegacyId) →
        Reference.frame.Resolves σ.tables value (fun next => (.ok next, σ))
          (.error (.badNextFrame frame text), σ) ((Load.nextFrame slot frame text).run.run σ))) ∧
    (∀ (k : Reference) slot position default c, l.cell? slot position = some c → c.text = text →
      ¬l.Stale k.accessor slot position default →
      (∀ i, k.Holds l.tables i (min value maxLegacyId) → k.Reaches i) →
      k.Resolves l.tables (min value maxLegacyId) k.found (k.fallback l.tables.resolver)
        (l.value k.accessor slot position default) ∧
      (value ≤ maxLegacyId ∨ (∀ i, ¬k.Holds l.tables i maxLegacyId) →
        k.Resolves l.tables value k.found (k.fallback l.tables.resolver)
          (l.value k.accessor slot position default))) := by
  constructor
  · intro b σ slot frame hgather hfills hname
    have hindexed := hfills.indexed (h.intact.ready_gathered b hgather).indexed
    have hbounded := (h.intact.bounded_gathered h.bounded b).frames.numbers hfills.frames
    have hresolves := Load.resolves_nextFrame hindexed.frames slot frame hnumeral hname
    refine ⟨hresolves, hresolves.of_min fun i id ⟨_, hid⟩ => ?_⟩
    obtain ⟨f, hf, rfl⟩ := Option.map_eq_some_iff.mp hid
    exact hbounded.number_le hf
  · rintro k slot position default c hc rfl hstale hreaches
    have hresolves := resolves_value h.intact.sound hnumeral hc hstale hreaches
    exact ⟨hresolves, hresolves.of_min fun i id hholds => hholds.le h.bounded⟩

theorem not_holds_of_forall {id : Int} (h : ∀ f ∈ l.tables.frames.store.items.toList, f.legacyId ≠ id) (i : Nat) :
    ¬Reference.frame.Holds l.tables i id := by
  rintro ⟨-, hid⟩
  obtain ⟨f, hf, hnumber⟩ := Option.map_eq_some_iff.mp hid
  exact h f (Array.mem_toList_iff.mpr (Array.mem_of_getElem? hf)) hnumber

theorem gather_eq_ok {b : Batch} (h : ((Load.gather b (!l.initialized)).run.run l.state).1 = .ok ()) :
    (Load.gather b (!l.initialized)).run.run l.state = (.ok (), l.gathered b) :=
  Prod.ext h rfl

def jumping : Batch where
  frames := [decorated "S_NULL", walkTo "frame:S_RUN", decorated "S_RUN",
    { title := "S_JUMP", fields := .ofList [("nextframe", .text "2147483648"), ("action", .text "Light0"),
      ("args", .list ["2147483648", " 0x10"])] }]

def jumpingLibrary : Library :=
  ((new ⟨1, 1, 1, 1, 1⟩).load jumping).2

theorem reachable_jumpingLibrary : Reachable ⟨1, 1, 1, 1, 1⟩ jumpingLibrary :=
  .single (.load _ jumping)

theorem numeral_jumping : Number.Numeral "2147483648".toList 2147483648 ∧ Number.Numeral " 0x10".toList 16 :=
  ⟨Number.numeral_of_wholeInteger? (by decide +kernel) (by decide) (by decide),
    Number.numeral_of_wholeInteger? (by decide +kernel) (by decide) (by decide)⟩

instance : DecidableEq (Accessor.Value .frame) :=
  inferInstanceAs (DecidableEq Nat)

theorem resolves_numeral_jumping :
    (∃ σ, σ.tables.frames.slotNamed? " 0x10" = none ∧
      Reference.frame.Resolves σ.tables 16 (fun next => (.ok next, σ)) (.error (.badNextFrame "S_JUMP" " 0x10"), σ)
        ((Load.nextFrame 3 "S_JUMP" " 0x10").run.run σ)) ∧
    Reference.frame.Resolves jumpingLibrary.tables 16 Reference.frame.found
      (Reference.frame.fallback jumpingLibrary.tables.resolver) (jumpingLibrary.value .frame 3 1 (0 : Nat)) := by
  obtain ⟨hnext, hvalue⟩ := reachable_jumpingLibrary.resolves_numeral numeral_jumping.2
  have hgather : ((Load.gather {} (!jumpingLibrary.initialized)).run.run jumpingLibrary.state).1 = .ok () := by
    decide +kernel
  have hname : (jumpingLibrary.gathered {}).tables.frames.slotNamed? " 0x10" = none := by decide +kernel
  have htext : (jumpingLibrary.cell? 3 1).map (·.text) = some " 0x10" := by decide +kernel
  obtain ⟨c, hc, htext⟩ := Option.map_eq_some_iff.mp htext
  have hread : jumpingLibrary.value .frame 3 1 (0 : Nat) =
      jumpingLibrary.forgetEvaluations.value .frame 3 1 (0 : Nat) := by
    decide +kernel
  have hnone : ∀ f ∈ jumpingLibrary.tables.frames.store.items.toList, f.legacyId ≠ 16 := by decide +kernel
  have hfills : Fills True (fun _ _ => True) (jumpingLibrary.gathered {}) (jumpingLibrary.gathered {}) := .refl _
  refine ⟨⟨_, hname, (hnext {} _ 3 "S_JUMP" (gather_eq_ok hgather) hfills hname).2 (.inl (by decide))⟩, ?_⟩
  have hmin : min (16 : Int) maxLegacyId = 16 := Int.min_eq_left (by decide)
  refine (hvalue .frame 3 1 (0 : Nat) c hc htext (not_not.mpr hread) fun i hholds => ?_).2 (.inl (by decide))
  exact absurd (hmin ▸ hholds) (not_holds_of_forall hnone i)

theorem jumping_greater : Reachable ⟨1, 1, 1, 1, 1⟩ jumpingLibrary ∧ Number.Numeral "2147483648".toList 2147483648 ∧
    (∀ slot, ¬Reference.frame.Holds jumpingLibrary.tables slot 2147483648) ∧
    ((new ⟨1, 1, 1, 1, 1⟩).load jumping).1 = .ok () ∧ (jumpingLibrary.frame? 3).map (·.next) = some 2 ∧
    (jumpingLibrary.cell? 3 0).map (·.text) = some "2147483648" ∧ jumpingLibrary.nullFrame? = some 0 ∧
    (jumpingLibrary.readArgument (.frame jumpingLibrary.tables.resolver) 3 0 0).1 = 2 := by
  have hbounded := reachable_jumpingLibrary.bounded
  exact ⟨reachable_jumpingLibrary, numeral_jumping.1, fun slot hholds => absurd (hholds.le hbounded) (by decide),
    by decide +kernel, by decide +kernel, by decide +kernel, by decide +kernel, by decide +kernel⟩

end Library

end FrameTable
