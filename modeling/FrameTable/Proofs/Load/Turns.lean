import FrameTable.Proofs.Load.Turn

/-!
Filling a batch, turn by turn. The turns of a fill that goes through have all gone through, and each of them
touches only the frame that it names. The successor of a frame that nothing says anything about is the null
frame from the first turn on that gives the frame a body.
-/

namespace FrameTable

open LoadState (Fills NextIsNull)

inductive Turns : List Turn → LoadState → LoadState → Prop
  | nil (σ : LoadState) : Turns [] σ σ
  | skip {turn : Turn} {turns : List Turn} {target : String} {σ σ' : LoadState} (htarget : turn.target? = some target)
      (hnone : σ.tables.frames.slotNamed? target = none) (hrest : Turns turns σ σ') : Turns (turn :: turns) σ σ'
  | take {turn : Turn} {turns : List Turn} {target : String} {slot : Nat} {σ σ₁ σ' : LoadState}
      (htarget : turn.target? = some target) (hslot : σ.tables.frames.slotNamed? target = some slot)
      (hrun : (turn.run slot).run.run σ = (.ok (), σ₁)) (hrest : Turns turns σ₁ σ') : Turns (turn :: turns) σ σ'

namespace Turns

variable {turns turns' : List Turn} {turn : Turn} {σ σ₁ σ' σ'' : LoadState} {i : Nat} {f : Frame}

theorem append (h : Turns turns σ σ') (h' : Turns turns' σ' σ'') : Turns (turns ++ turns') σ σ'' := by
  induction h with
  | nil => exact h'
  | skip htarget hnone _ ih => exact .skip htarget hnone (ih h')
  | take htarget hslot hrun _ ih => exact .take htarget hslot hrun (ih h')

theorem exists_of_append (h : Turns (turns ++ turns') σ σ'') : ∃ σ', Turns turns σ σ' ∧ Turns turns' σ' σ'' := by
  induction turns generalizing σ with
  | nil => exact ⟨σ, .nil σ, h⟩
  | cons turn turns ih =>
    cases h with
    | skip htarget hnone hrest =>
      obtain ⟨σ', hfirst, hlast⟩ := ih hrest
      exact ⟨σ', .skip htarget hnone hfirst, hlast⟩
    | take htarget hslot hrun hrest =>
      obtain ⟨σ', hfirst, hlast⟩ := ih hrest
      exact ⟨σ', .take htarget hslot hrun hfirst, hlast⟩

theorem deterministic (h : Turns turns σ σ') (h' : Turns turns σ σ'') : σ' = σ'' := by
  induction h with
  | nil =>
    cases h'
    rfl
  | skip htarget hnone _ ih =>
    cases h' with
    | skip _ _ hrest => exact ih hrest
    | take htarget' hslot' =>
      obtain rfl := Option.some.inj (htarget.symm.trans htarget')
      cases hnone.symm.trans hslot'
  | take htarget hslot hrun _ ih =>
    cases h' with
    | skip htarget' hnone' =>
      obtain rfl := Option.some.inj (htarget.symm.trans htarget')
      cases hslot.symm.trans hnone'
    | take htarget' hslot' hrun' hrest =>
      obtain rfl := Option.some.inj (htarget.symm.trans htarget')
      obtain rfl := Option.some.inj (hslot.symm.trans hslot')
      obtain ⟨-, rfl⟩ := Prod.mk.inj (hrun.symm.trans hrun')
      exact ih hrest

end Turns

inductive Taken : List Turn → LoadState → LoadState → Prop
  | nil (σ : LoadState) : Taken [] σ σ
  | cons {turn : Turn} {turns : List Turn} {target : String} {slot : Nat} {σ σ₁ σ' : LoadState}
      (htarget : turn.target? = some target) (hslot : σ.tables.frames.slotNamed? target = some slot)
      (hrun : (turn.run slot).run.run σ = (.ok (), σ₁)) (hrest : Taken turns σ₁ σ') : Taken (turn :: turns) σ σ'

namespace Taken

variable {first second : List Turn} {σ σ' σ'' : LoadState}

theorem turns (h : Taken first σ σ') : Turns first σ σ' := by
  induction h with
  | nil => exact .nil _
  | cons htarget hslot hrun _ ih => exact .take htarget hslot hrun ih

theorem append (h : Taken first σ σ') (h' : Taken second σ' σ'') : Taken (first ++ second) σ σ'' := by
  induction h with
  | nil => exact h'
  | cons htarget hslot hrun _ ih => exact .cons htarget hslot hrun (ih h')

theorem exists_of_append (h : Taken (first ++ second) σ σ'') : ∃ σ', Taken first σ σ' ∧ Taken second σ' σ'' := by
  induction first generalizing σ with
  | nil => exact ⟨σ, .nil σ, h⟩
  | cons turn turns ih =>
    cases h with
    | cons htarget hslot hrun hrest =>
      obtain ⟨σ', hfirst, hlast⟩ := ih hrest
      exact ⟨σ', .cons htarget hslot hrun hfirst, hlast⟩

end Taken

namespace Load

variable {α β : Type} {σ σ' : LoadState}

theorem run_bind_eq_ok {x : Load α} {f : α → Load β} {b : β} (h : (x >>= f).run.run σ = (.ok b, σ')) :
    ∃ a σ₁, x.run.run σ = (.ok a, σ₁) ∧ (f a).run.run σ₁ = (.ok b, σ') := by
  rw [ExceptT.run_bind, StateT.run_bind] at h
  cases hx : x.run.run σ with
  | mk result σ₁ =>
    rw [hx] at h
    cases result with
    | error error => cases h
    | ok a => exact ⟨a, σ₁, rfl, h⟩

theorem turns_of_defineAll {sections : List Section} (h : (defineAll sections).run.run σ = (.ok (), σ')) :
    Turns (sections.map (Turn.mk .definition)) σ σ' := by
  induction sections generalizing σ with
  | nil =>
    obtain rfl : σ = σ' := (Prod.mk.inj h).2
    exact .nil _
  | cons s sections ih =>
    rw [defineAll, run_tables_bind] at h
    split at h
    · next slot hslot =>
      obtain ⟨_, σ₁, hrun, hrest⟩ := run_bind_eq_ok h
      exact .take rfl hslot hrun (ih hrest)
    · next hnone =>
      have hnone : σ.tables.frames.slotNamed? s.title = none := by
        cases hname : σ.tables.frames.slotNamed? s.title with
        | none => rfl
        | some slot => exact absurd hname (hnone slot)
      exact .skip rfl hnone (ih h)

theorem taken_of_amendAll {deltas : List Section} {position : Nat}
    (h : (amendAll position deltas).run.run σ = (.ok (), σ')) : Taken (deltas.map (Turn.mk .delta)) σ σ' := by
  induction deltas generalizing σ position with
  | nil =>
    obtain rfl : σ = σ' := (Prod.mk.inj h).2
    exact .nil _
  | cons s deltas ih =>
    rw [amendAll] at h
    split at h
    · cases h
    · next name hname =>
      rw [run_tables_bind] at h
      split at h
      · cases h
      · next slot hslot =>
        obtain ⟨_, σ₁, hrun, hrest⟩ := run_bind_eq_ok h
        exact .cons hname hslot hrun (ih hrest)

theorem turns_of_fill {b : Batch} (h : (fill b).run.run σ = (.ok (), σ')) : Turns b.turns σ σ' := by
  obtain ⟨_, σ₁, hdefine, hamend⟩ := run_bind_eq_ok h
  exact (turns_of_defineAll hdefine).append (taken_of_amendAll hamend).turns

theorem turn_runs (h : σ.tables.Indexed) {slot : Nat} (hslot : slot < σ.tables.frames.size) (turn : Turn) :
    Runs (Fills True fun _ _ => True) σ (turn.run slot) fun _ _ => True :=
  (turn.runs h hslot).imp (fun _ hfills => hfills.mono id fun _ _ _ => trivial) fun _ _ _ _ => trivial

theorem defineAll_runs (h : σ.tables.Indexed) (sections : List Section) :
    Runs (Fills True fun _ _ => True) σ (defineAll sections) fun _ _ => True := by
  induction sections generalizing σ with
  | nil => exact .pure trivial
  | cons s sections ih =>
    rw [defineAll]
    refine .tables_bind ?_
    split
    · next slot hslot =>
      have hturn := turn_runs h (h.frames.lt_of_slotNamed? hslot) ⟨.definition, s⟩
      exact .bind hturn fun _ _ hfills _ => ih (hfills.indexed h)
    · exact ih h

theorem amendAll_runs (h : σ.tables.Indexed) (position : Nat) (deltas : List Section) :
    Runs (Fills True fun _ _ => True) σ (amendAll position deltas) fun _ _ => True := by
  induction deltas generalizing σ position with
  | nil => exact .pure trivial
  | cons s deltas ih =>
    rw [amendAll]
    split
    · exact .raise_bind
    · refine .tables_bind ?_
      split
      · exact .raise_bind
      · next slot hslot =>
        have hturn := turn_runs h (h.frames.lt_of_slotNamed? hslot) ⟨.delta, s⟩
        exact .bind hturn fun _ _ hfills _ => ih (hfills.indexed h) (position + 1)

theorem fill_runs (h : σ.tables.Indexed) (b : Batch) :
    Runs (Fills True fun _ _ => True) σ (fill b) fun _ _ => True :=
  .bind (defineAll_runs h b.frames) fun _ _ hfills _ => amendAll_runs (hfills.indexed h) 0 b.deltas

end Load

def SomeTurn (turns : List Turn) (σ : LoadState) (i : Nat) (p : Turn → Prop) : Prop :=
  ∃ turn ∈ turns, ∃ target, turn.target? = some target ∧ σ.tables.frames.slotNamed? target = some i ∧ p turn

theorem SomeTurn.cons {turn : Turn} {turns : List Turn} {σ : LoadState} {i : Nat} {p : Turn → Prop}
    (h : SomeTurn turns σ i p) : SomeTurn (turn :: turns) σ i p := by
  obtain ⟨other, hmem, hother⟩ := h
  exact ⟨other, List.mem_cons_of_mem _ hmem, hother⟩

def Batch.HasTurn (b : Batch) (name : String) (p : Turn → Prop) : Prop :=
  ∃ turn ∈ b.turns, ∃ target, turn.target? = some target ∧ Text.same target name = true ∧ p turn

theorem Batch.hasTurn_iff {b : Batch} {σ : LoadState} {name : String} {i : Nat} {p : Turn → Prop}
    (h : σ.tables.Indexed) (hname : σ.tables.frames.slotNamed? name = some i) :
    b.HasTurn name p ↔ SomeTurn b.turns σ i p := by
  simp only [HasTurn, SomeTurn, h.frames.slotNamed?_iff_same hname]

theorem LoadState.Fills.slotNamed?_of_lt {adds : Prop} {may : Nat → Frame.Field → Prop} {σ σ' : LoadState}
    {name : String} {i : Nat} (hfills : Fills adds may σ σ') (h : σ.tables.Indexed) (hi : i < σ.tables.frames.size)
    (hname : σ'.tables.frames.slotNamed? name = some i) : σ.tables.frames.slotNamed? name = some i := by
  obtain ⟨f, hf⟩ := Store.exists_get? hi
  obtain ⟨f', hf', hsame⟩ := (hfills.indexed h).frames.slotNamed?_eq_some_iff.mp hname
  obtain ⟨f₁, hf₁, hkept, -⟩ := hfills.frames.kept hf
  obtain rfl := Option.some.inj (hf'.symm.trans hf₁)
  exact h.frames.slotNamed?_eq_some_iff.mpr ⟨f, hf, hkept ▸ hsame⟩

namespace Turns

variable {turns turns' : List Turn} {turn : Turn} {σ σ₁ σ' σ'' : LoadState} {i : Nat} {f : Frame}

theorem fills (h : σ.tables.Indexed) (hturns : Turns turns σ σ') :
    Fills True (fun i field => SomeTurn turns σ' i (·.Touches field)) σ σ' := by
  induction hturns with
  | nil => exact .refl _
  | skip _ _ _ ih =>
    exact (ih h).mono id fun i field => SomeTurn.cons
  | take htarget hslot hrun _ ih =>
    obtain ⟨hfirst, -⟩ := (Turn.runs h (h.frames.lt_of_slotNamed? hslot) _).ok hrun
    have hrest := ih (hfirst.indexed h)
    refine (hfirst.mono id ?_).trans (hrest.mono id fun i field => ?_)
    · rintro i field ⟨rfl, htouches⟩
      exact ⟨_, List.mem_cons_self, _, htarget, hrest.frames.names (hfirst.frames.names hslot), htouches⟩
    · exact SomeTurn.cons

theorem nextIsNull (h : σ.tables.Indexed) (hturns : Turns turns σ σ')
    (hnot : ¬SomeTurn turns σ' i (·.WritesNext)) (hnull : NextIsNull σ i) : NextIsNull σ' i := by
  induction hturns with
  | nil => exact hnull
  | skip _ _ _ ih => exact ih h (fun hsome => hnot hsome.cons) hnull
  | @take turn turns target slot σ σ₁ σ' htarget hslot hrun hrest ih =>
    obtain ⟨hfills, hdone⟩ := (Turn.runs h (h.frames.lt_of_slotNamed? hslot) turn).ok hrun
    refine ih (hfills.indexed h) (fun hsome => hnot hsome.cons) ?_
    have hkeeps : slot = i → ¬turn.WritesNext := by
      rintro rfl hwrites
      have hslot' := (hrest.fills (hfills.indexed h)).frames.names (hfills.frames.names hslot)
      exact hnot ⟨turn, List.mem_cons_self, target, htarget, hslot', hwrites⟩
    by_cases hbody : slot = i ∧ turn.GivesBody
    · obtain ⟨rfl, hbody⟩ := hbody
      exact hdone.1 hbody (hkeeps rfl)
    · refine hnull.after hfills fun ⟨hi, htouches⟩ => ?_
      exact htouches.elim (fun hgives => hbody ⟨hi.symm, hgives⟩) (hkeeps hi.symm)

theorem nextIsNull_of_givesBody (h : σ.tables.Indexed) (hturns : Turns turns σ σ')
    (hi : i < σ.tables.frames.size) (hbody : SomeTurn turns σ' i (·.GivesBody))
    (hnot : ¬SomeTurn turns σ' i (·.WritesNext)) : NextIsNull σ' i := by
  induction hturns with
  | nil =>
    obtain ⟨turn, hmem, -⟩ := hbody
    cases hmem
  | @skip turn turns target σ σ' htarget hnone hrest ih =>
    refine ih h hi ?_ fun hsome => hnot hsome.cons
    obtain ⟨other, hmem, target', htarget', hslot', hgives⟩ := hbody
    rcases List.mem_cons.mp hmem with rfl | hmem
    · obtain rfl := Option.some.inj (htarget.symm.trans htarget')
      cases hnone.symm.trans ((hrest.fills h).slotNamed?_of_lt h hi hslot')
    · exact ⟨other, hmem, target', htarget', hslot', hgives⟩
  | @take turn turns target slot σ σ₁ σ' htarget hslot hrun hrest ih =>
    obtain ⟨hfills, hdone⟩ := (Turn.runs h (h.frames.lt_of_slotNamed? hslot) turn).ok hrun
    have h₁ := hfills.indexed h
    obtain ⟨other, hmem, target', htarget', hslot', hgives⟩ := hbody
    rcases List.mem_cons.mp hmem with rfl | hmem
    · obtain rfl := Option.some.inj (htarget.symm.trans htarget')
      obtain rfl := Option.some.inj
        (((hrest.fills h₁).frames.names (hfills.frames.names hslot)).symm.trans hslot')
      have hkeeps : ¬other.WritesNext := fun hwrites =>
        hnot ⟨other, List.mem_cons_self, target, htarget, hslot', hwrites⟩
      exact hrest.nextIsNull h₁ (fun hsome => hnot hsome.cons) (hdone.1 hgives hkeeps)
    · have hsome : SomeTurn turns σ' i (·.GivesBody) := ⟨other, hmem, target', htarget', hslot', hgives⟩
      exact ih h₁ (hfills.lt_size hi) hsome fun hsome => hnot hsome.cons

end Turns

namespace Load

variable {σ σ' : LoadState}

theorem taken_of_defineAll {sections : List Section} (h : σ.tables.Indexed)
    (htitles : ∀ s ∈ sections, σ.tables.frames.slotNamed? s.title ≠ none)
    (hok : (defineAll sections).run.run σ = (.ok (), σ')) :
    Taken (sections.map (Turn.mk .definition)) σ σ' := by
  induction sections generalizing σ with
  | nil =>
    obtain rfl : σ = σ' := (Prod.mk.inj hok).2
    exact .nil _
  | cons s sections ih =>
    rw [List.forall_mem_cons] at htitles
    obtain ⟨slot, hslot⟩ := Option.ne_none_iff_exists'.mp htitles.1
    rw [defineAll, run_tables_bind, hslot] at hok
    obtain ⟨_, σ₁, hrun, hrest⟩ := run_bind_eq_ok hok
    obtain ⟨hfills, -⟩ := (turn_runs h (h.frames.lt_of_slotNamed? hslot) ⟨.definition, s⟩).ok hrun
    have hnext : ∀ s' ∈ sections, σ₁.tables.frames.slotNamed? s'.title ≠ none := by
      intro s' hs'
      obtain ⟨slot', hslot'⟩ := Option.ne_none_iff_exists'.mp (htitles.2 s' hs')
      rw [hfills.frames.names hslot']
      exact Option.some_ne_none slot'
    exact .cons rfl hslot hrun (ih (hfills.indexed h) hnext hrest)

theorem taken_of_fill {b : Batch} (h : σ.tables.Indexed)
    (htitles : ∀ s ∈ b.frames, σ.tables.frames.slotNamed? s.title ≠ none)
    (hok : (fill b).run.run σ = (.ok (), σ')) : Taken b.turns σ σ' := by
  obtain ⟨_, σ₁, hdefine, hamend⟩ := run_bind_eq_ok hok
  exact (taken_of_defineAll h htitles hdefine).append (taken_of_amendAll hamend)

end Load

end FrameTable
