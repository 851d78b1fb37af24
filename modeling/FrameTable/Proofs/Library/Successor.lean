import Mathlib.Data.List.Induction
import FrameTable.Proofs.Library.Passes

namespace FrameTable.Library

open LoadState (NextIsNull)

variable {sizes : IndexSizes} {batches : List Batch} {l : Library} {b : Batch} {name : String} {i : Nat} {f f' : Frame}

theorem nullFrame?_of_nextIsNull (h : l.Completes b) (hnull : NextIsNull (l.load b).2.state i)
    (hf : (l.load b).2.frame? i = some f) : (l.load b).2.nullFrame? = some f.next := by
  rw [nullFrame?, if_pos h.initialized]
  exact congrArg some (hnull f hf).symm

section Load

variable (h : l.Completes b) (hname : (l.load b).2.slotNamed? name = some i) (hf' : (l.load b).2.frame? i = some f')
include h hname hf'

theorem next_of_added (hnot : ¬b.HasTurn name (·.WritesNext))
    (hnew : (l.gathered b).tables.frames.slotNamed? name = none) : (l.load b).2.nullFrame? = some f'.next := by
  have habsent : NextIsNull (l.gathered b) i := by
    intro f hf
    cases hnew.symm.trans (h.fills.slotNamed?_of_lt h.gathered (Catalog.lt_size_of_get? hf) hname)
  have hnull := h.turns.nextIsNull h.gathered (mt (Batch.hasTurn_iff h.indexed hname).mpr hnot) habsent
  exact nullFrame?_of_nextIsNull h hnull hf'

theorem next_of_givesBody (hnot : ¬b.HasTurn name (·.WritesNext)) (hbody : b.HasTurn name (·.GivesBody)) :
    (l.load b).2.nullFrame? = some f'.next := by
  cases hgathered : (l.gathered b).tables.frames.slotNamed? name with
  | none => exact next_of_added h hname hf' hnot hgathered
  | some j =>
    obtain rfl := Option.some.inj ((h.fills.frames.names hgathered).symm.trans hname)
    have hlt := h.gathered.frames.lt_of_slotNamed? hgathered
    have hnull := h.turns.nextIsNull_of_givesBody h.gathered hlt ((Batch.hasTurn_iff h.indexed hname).mp hbody)
      (mt (Batch.hasTurn_iff h.indexed hname).mpr hnot)
    exact nullFrame?_of_nextIsNull h hnull hf'

theorem next_of_gathered (hnot : ¬b.HasTurn name (·.WritesNext)) (hbody : ¬b.HasTurn name (·.GivesBody))
    (hf : (l.gathered b).tables.frames.get? i = some f) : f'.next = f.next := by
  obtain ⟨f₁, hf₁, hkeeps⟩ := h.fills.kept hf
  obtain rfl := Option.some.inj (hf₁.symm.trans hf')
  refine hkeeps.agrees .next fun ⟨turn, hmem, target, htarget, hslot, htouches⟩ => ?_
  rcases htouches with hgives | hwrites
  · exact hbody ((Batch.hasTurn_iff h.indexed hname).mpr ⟨turn, hmem, target, htarget, hslot, hgives⟩)
  · exact hnot ((Batch.hasTurn_iff h.indexed hname).mpr ⟨turn, hmem, target, htarget, hslot, hwrites⟩)

end Load

theorem slotNamed?_gathered (h : l.Intact) (b : Batch) (hname : l.slotNamed? name = some i) :
    (l.gathered b).tables.frames.slotNamed? name = some i :=
  (h.gathered b).2.1.frames.names hname

theorem next_gathered (h : l.Intact) (b : Batch) (hname : (l.gathered b).tables.frames.slotNamed? name = some i)
    (hf : (l.gathered b).tables.frames.get? i = some f) :
    (∃ f₀, l.slotNamed? name = some i ∧ l.frame? i = some f₀ ∧ f.next = f₀.next) ∨
      l.slotNamed? name = none ∧ f.next = 0 := by
  obtain ⟨f₁, hf₁, hsame⟩ := (h.sound_gathered b).frames.slotNamed?_eq_some_iff.mp hname
  obtain rfl := Option.some.inj (hf.symm.trans hf₁)
  rcases (h.gathered b).1.origin hf with ⟨f₀, id, hf₀, rfl⟩ | ⟨hle, s, id, rfl⟩
  · exact .inl ⟨f₀, h.sound.frames.slotNamed?_eq_some_iff.mpr ⟨f₀, hf₀, hsame⟩, hf₀, rfl⟩
  · refine .inr ⟨?_, rfl⟩
    cases hold : l.slotNamed? name with
    | none => rfl
    | some j =>
      obtain rfl := Option.some.inj ((slotNamed?_gathered h b hold).symm.trans hname)
      exact absurd (h.sound.frames.lt_of_slotNamed? hold) (Nat.not_lt.mpr hle)

theorem nullFrame?_load (h : l.Intact) (hload : l.Completes b) (hnull : l.nullFrame? = some i) :
    (l.load b).2.nullFrame? = some i := by
  have hinit : l.initialized = true := by
    cases hinit : l.initialized with
    | false =>
      rw [nullFrame?, hinit] at hnull
      cases hnull
    | true => rfl
  have hgathered := (h.gathered b).2.1.nullFrame (by rw [hinit]; rfl)
  rw [nullFrame?, if_pos hinit] at hnull
  rw [nullFrame?, if_pos hload.initialized]
  exact (congrArg some (hload.fills.nullFrame.trans hgathered)).trans hnull

def loadAll (sizes : IndexSizes) (batches : List Batch) : Library :=
  batches.foldl (fun l b => (l.load b).2) (new sizes)

def AllLoad (sizes : IndexSizes) (batches : List Batch) : Prop :=
  ∀ earlier b later, batches = earlier ++ b :: later → ((loadAll sizes earlier).load b).1 = .ok ()

/-- The frame was gathered with one of the batches, and neither that batch nor a later one gives it a body. -/
def LeftOpen (sizes : IndexSizes) (batches : List Batch) (name : String) : Prop :=
  ∃ earlier b later, batches = earlier ++ b :: later ∧ (loadAll sizes earlier).slotNamed? name = none ∧
    ((loadAll sizes earlier).gathered b).tables.frames.slotNamed? name ≠ none ∧
      ∀ other ∈ b :: later, ¬other.HasTurn name (·.GivesBody)

theorem loadAll_concat (sizes : IndexSizes) (batches : List Batch) (b : Batch) :
    loadAll sizes (batches ++ [b]) = ((loadAll sizes batches).load b).2 := by
  rw [loadAll, List.foldl_append]
  rfl

theorem intact_loadAll (sizes : IndexSizes) (batches : List Batch) : (loadAll sizes batches).Intact := by
  induction batches using List.reverseRecOn with
  | nil => exact intact_new sizes
  | append_singleton batches b ih =>
    rw [loadAll_concat]
    exact ih.load b

theorem split_concat {earlier later : List Batch} {b' : Batch} (h : batches ++ [b] = earlier ++ b' :: later) :
    earlier = batches ∧ b' = b ∧ later = [] ∨ ∃ rest, later = rest ++ [b] ∧ batches = earlier ++ b' :: rest := by
  rcases later.eq_nil_or_concat with rfl | ⟨rest, last, rfl⟩
  · obtain ⟨rfl, hlast⟩ := List.append_inj' h rfl
    exact .inl ⟨rfl, (List.singleton_inj.mp hlast).symm, rfl⟩
  · rw [List.concat_eq_append, ← List.cons_append, ← List.append_assoc] at h
    obtain ⟨rfl, hlast⟩ := List.append_inj' h rfl
    exact .inr ⟨rest, by rw [List.concat_eq_append, List.singleton_inj.mp hlast], rfl⟩

theorem allLoad_nil (sizes : IndexSizes) : AllLoad sizes [] := by
  rintro earlier b later hsplit
  simp at hsplit

theorem allLoad_concat_iff : AllLoad sizes (batches ++ [b]) ↔
    AllLoad sizes batches ∧ ((loadAll sizes batches).load b).1 = .ok () := by
  constructor
  · refine fun h => ⟨fun earlier b' later hsplit => ?_, h batches b [] rfl⟩
    exact h earlier b' (later ++ [b]) (by rw [hsplit, List.append_assoc, List.cons_append])
  · rintro ⟨hbefore, hlast⟩ earlier b' later hsplit
    rcases split_concat hsplit with ⟨rfl, rfl, -⟩ | ⟨rest, -, hsplit⟩
    · exact hlast
    · exact hbefore earlier b' rest hsplit

theorem AllLoad.of_append {more : List Batch} (h : AllLoad sizes (batches ++ more)) : AllLoad sizes batches := by
  rintro earlier b later rfl
  exact h earlier b (later ++ more) (by rw [List.append_assoc, List.cons_append])

theorem leftOpen_concat_iff : LeftOpen sizes (batches ++ [b]) name ↔ ¬b.HasTurn name (·.GivesBody) ∧
    (LeftOpen sizes batches name ∨ (loadAll sizes batches).slotNamed? name = none ∧
      ((loadAll sizes batches).gathered b).tables.frames.slotNamed? name ≠ none) := by
  constructor
  · rintro ⟨earlier, b', later, hsplit, hnone, hsome, hopen⟩
    rcases split_concat hsplit with ⟨rfl, rfl, rfl⟩ | ⟨rest, rfl, hbefore⟩
    · exact ⟨hopen b' List.mem_cons_self, .inr ⟨hnone, hsome⟩⟩
    · rw [← List.cons_append, List.forall_mem_append, List.forall_mem_singleton] at hopen
      exact ⟨hopen.2, .inl ⟨earlier, b', rest, hbefore, hnone, hsome, hopen.1⟩⟩
  · rintro ⟨hlast, ⟨earlier, b', later, rfl, hnone, hsome, hopen⟩ | ⟨hnone, hsome⟩⟩
    · refine ⟨earlier, b', later ++ [b], by rw [List.append_assoc, List.cons_append], hnone, hsome, ?_⟩
      rw [← List.cons_append, List.forall_mem_append, List.forall_mem_singleton]
      exact ⟨hopen, hlast⟩
    · exact ⟨batches, b, [], rfl, hnone, hsome, List.forall_mem_singleton.mpr hlast⟩

theorem slotNamed?_of_leftOpen (h : AllLoad sizes batches) (hopen : LeftOpen sizes batches name) :
    (loadAll sizes batches).slotNamed? name ≠ none := by
  induction batches using List.reverseRecOn with
  | nil =>
    obtain ⟨earlier, b, later, hsplit, -⟩ := hopen
    simp at hsplit
  | append_singleton batches b ih =>
    obtain ⟨hbefore, hok⟩ := allLoad_concat_iff.mp h
    have hintact := intact_loadAll sizes batches
    have hgathered : ((loadAll sizes batches).gathered b).tables.frames.slotNamed? name ≠ none := by
      rcases (leftOpen_concat_iff.mp hopen).2 with hopen | ⟨-, hsome⟩
      · obtain ⟨i, hi⟩ := Option.ne_none_iff_exists'.mp (ih hbefore hopen)
        rw [slotNamed?_gathered hintact b hi]
        exact Option.some_ne_none i
      · exact hsome
    obtain ⟨i, hi⟩ := Option.ne_none_iff_exists'.mp hgathered
    have hname : ((loadAll sizes batches).load b).2.slotNamed? name = some i :=
      (hintact.completes b hok).fills.frames.names hi
    rw [loadAll_concat, hname]
    exact Option.some_ne_none i

theorem next_of_slotNamed? (h : AllLoad sizes batches) (hname : (loadAll sizes batches).slotNamed? name = some i)
    (hf : (loadAll sizes batches).frame? i = some f) (hnot : ∀ b ∈ batches, ¬b.HasTurn name (·.WritesNext)) :
    (LeftOpen sizes batches name → f.next = 0) ∧
      (¬LeftOpen sizes batches name → (loadAll sizes batches).nullFrame? = some f.next) := by
  induction batches using List.reverseRecOn generalizing f with
  | nil => cases hf
  | append_singleton batches b ih =>
    obtain ⟨hbefore, hok⟩ := allLoad_concat_iff.mp h
    have hintact := intact_loadAll sizes batches
    have hload := hintact.completes b hok
    rw [List.forall_mem_append, List.forall_mem_singleton] at hnot
    obtain ⟨hnot_before, hnot_last⟩ := hnot
    rw [loadAll_concat] at hname hf ⊢
    rw [leftOpen_concat_iff]
    by_cases hbody : b.HasTurn name (·.GivesBody)
    · exact ⟨fun hopen => absurd hbody hopen.1,
        fun _ => next_of_givesBody hload hname hf hnot_last hbody⟩
    cases hgathered : ((loadAll sizes batches).gathered b).tables.frames.slotNamed? name with
    | none =>
      refine ⟨fun ⟨_, hopen⟩ => ?_, fun _ => next_of_added hload hname hf hnot_last hgathered⟩
      rcases hopen with hopen | ⟨-, hsome⟩
      · obtain ⟨j, hj⟩ := Option.ne_none_iff_exists'.mp (slotNamed?_of_leftOpen hbefore hopen)
        cases hgathered.symm.trans (slotNamed?_gathered hintact b hj)
      · exact absurd rfl hsome
    | some j =>
      obtain rfl := Option.some.inj ((hload.fills.frames.names hgathered).symm.trans hname)
      obtain ⟨fg, hfg, -⟩ := (hintact.sound_gathered b).frames.slotNamed?_eq_some_iff.mp hgathered
      have hnext := next_of_gathered hload hname hf hnot_last hbody hfg
      rcases next_gathered hintact b hgathered hfg with ⟨f₀, hold, hf₀, hkept⟩ | ⟨hold, hzero⟩
      · obtain ⟨hopen, hfilled⟩ := ih hbefore hold hf₀ hnot_before
        rw [hnext, hkept, hold]
        refine ⟨fun ⟨_, h⟩ => hopen (h.resolve_right nofun), fun h => ?_⟩
        exact nullFrame?_load hintact hload (hfilled fun hopen => h ⟨hbody, .inl hopen⟩)
      · rw [hnext, hzero]
        exact ⟨fun _ => rfl, fun h => absurd ⟨hbody, .inr ⟨hold, Option.some_ne_none _⟩⟩ h⟩

/-- Where no section of a run of loads says what follows a frame, the null frame does, except that slot 0 follows a
frame that is left open. -/
theorem next_eq (h : AllLoad sizes batches) (hf : (loadAll sizes batches).frame? i = some f)
    (hnot : ∀ b ∈ batches, ¬b.HasTurn f.name (·.WritesNext)) :
    (LeftOpen sizes batches f.name → f.next = 0) ∧
      (¬LeftOpen sizes batches f.name → (loadAll sizes batches).nullFrame? = some f.next) :=
  next_of_slotNamed? h ((intact_loadAll sizes batches).sound.frames.slotNamed?_name hf) hf hnot

def openFirst : Batch where
  frames := [{ title := "S_A", fields := .ofList [("decorate", .bool true)] },
    { title := "S_NULL", fields := .ofList [("decorate", .bool true)] }]

def closing : Batch where
  frames := [{ title := "S_A", fields := .ofList [("cmp", .text "PLAY|A|*|4|Light0|*")] }]

theorem allLoad_openFirst : AllLoad ⟨1, 1, 1, 1, 1⟩ [openFirst] ∧ AllLoad ⟨1, 1, 1, 1, 1⟩ [openFirst, closing] := by
  have hfirst : AllLoad ⟨1, 1, 1, 1, 1⟩ ([] ++ [openFirst]) :=
    allLoad_concat_iff.mpr ⟨allLoad_nil _, by decide +kernel⟩
  have hboth : AllLoad ⟨1, 1, 1, 1, 1⟩ ([openFirst] ++ [closing]) := allLoad_concat_iff.mpr ⟨hfirst, by decide +kernel⟩
  exact ⟨hfirst, hboth⟩

theorem not_writesNext_openFirst (name : String) : ∀ b ∈ [openFirst, closing], ¬b.HasTurn name (·.WritesNext) := by
  have hturns : ∀ b ∈ [openFirst, closing], ∀ turn ∈ b.turns, ¬turn.WritesNext := by decide +kernel
  exact fun b hb ⟨turn, hturn, _, _, _, hwrites⟩ => hturns b hb turn hturn hwrites

theorem next_eq_closing : ∃ f, (loadAll ⟨1, 1, 1, 1, 1⟩ [openFirst, closing]).frame? 0 = some f ∧ f.name = "S_A" ∧
    f.next = 1 ∧ (loadAll ⟨1, 1, 1, 1, 1⟩ [openFirst, closing]).nullFrame? = some f.next := by
  have hsome : ((loadAll ⟨1, 1, 1, 1, 1⟩ [openFirst, closing]).frame? 0).map (fun f => (f.name, f.next)) =
      some ("S_A", 1) := by decide +kernel
  obtain ⟨f, hf, heq⟩ := Option.map_eq_some_iff.mp hsome
  obtain ⟨hname, hnext⟩ := Prod.mk.inj heq
  have hbody : closing.HasTurn f.name (·.GivesBody) :=
    ⟨⟨.definition, _⟩, List.mem_cons_self, "S_A", rfl, by rw [hname, Text.same_refl], by decide +kernel⟩
  have hclosed : ¬LeftOpen ⟨1, 1, 1, 1, 1⟩ ([openFirst] ++ [closing]) f.name :=
    mt leftOpen_concat_iff.mp fun hopen => hopen.1 hbody
  exact ⟨f, hf, hname, hnext, (next_eq allLoad_openFirst.2 hf (not_writesNext_openFirst f.name)).2 hclosed⟩

theorem openFirst_next : AllLoad ⟨1, 1, 1, 1, 1⟩ [openFirst] ∧
    (∀ b ∈ [openFirst], ∀ name, ¬b.HasTurn name (·.WritesNext)) ∧
    ((loadAll ⟨1, 1, 1, 1, 1⟩ [openFirst]).frame? 0).map (·.next) = some 0 ∧
    (loadAll ⟨1, 1, 1, 1, 1⟩ [openFirst]).nullFrame? = some 1 := by
  refine ⟨allLoad_openFirst.1, fun b hb name => ?_, by decide +kernel, by decide +kernel⟩
  exact not_writesNext_openFirst name b (List.mem_cons.mpr (.inl (List.mem_singleton.mp hb)))

end FrameTable.Library
