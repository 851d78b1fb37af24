import FrameTable.Proofs.Library.Integrity
import FrameTable.Proofs.Library.Passes

namespace FrameTable

namespace Turns

variable {turns : List Turn} {turn : Turn} {target token : String} {slot : Nat} {m : MiscField} {σ σ' : LoadState}

theorem miscSet_last (h : σ.tables.Indexed) (hturns : Turns (turns ++ [turn]) σ σ')
    (htarget : turn.target? = some target) (hslot : σ'.tables.frames.slotNamed? target = some slot)
    (htoken : turn.token? m = some token) :
    LoadState.MiscSet σ σ' slot m token := by
  obtain ⟨σ₁, hbefore, hlast⟩ := hturns.exists_of_append
  have hfills := hbefore.fills h
  have h₁ := hfills.indexed h
  cases hlast with
  | skip htarget' hnone hrest =>
    obtain rfl := Option.some.inj (htarget.symm.trans htarget')
    cases hrest
    cases hnone.symm.trans hslot
  | take htarget' hslot' hrun hrest =>
    obtain rfl := Option.some.inj (htarget.symm.trans htarget')
    cases hrest
    obtain ⟨htaken, hdone⟩ := (Turn.runs h₁ (h₁.frames.lt_of_slotNamed? hslot') turn).ok hrun
    obtain rfl := Option.some.inj ((htaken.frames.names hslot').symm.trans hslot)
    exact (hdone.2 m token htoken).before hfills

end Turns

namespace Library

open LoadState (Logged)

variable {sizes : IndexSizes} {l : Library} {b : Batch} {slot i : Nat} {m : MiscField} {token name : String}
  {k : Referable} {σ : LoadState}

def LastSet (l : Library) (b : Batch) (slot : Nat) (m : MiscField) (token : String) (σ : LoadState) : Prop :=
  ∃ before turn after target, b.turns = before ++ turn :: after ∧ Turns (before ++ [turn]) (l.gathered b) σ ∧
    turn.target? = some target ∧ σ.tables.frames.slotNamed? target = some slot ∧ turn.token? m = some token ∧
      ¬SomeTurn after (l.load b).2.state slot (·.Touches (.misc m))

theorem LastSet.settles (h : l.Intact) (hok : (l.load b).1 = .ok ()) (hset : LastSet l b slot m token σ)
    (hrefers : Refers token k name) (hname : k.slotNamed? σ.tables name = some i) :
    ∃ f, (l.load b).2.frame? slot = some f ∧ LoadState.Settles l.state (l.load b).2.state k i (f.misc m) := by
  have hload := h.completes b hok
  obtain ⟨before, turn, after, target, hsplit, htaken, htarget, hslot, htoken, hlast⟩ := hset
  have hindexed := (htaken.fills hload.gathered).indexed hload.gathered
  -- The rest of the turns starts from `σ`.
  have hafter : Turns after σ (l.load b).2.state := by
    have hturns := hload.turns
    rw [hsplit, ← List.singleton_append, ← List.append_assoc] at hturns
    obtain ⟨σ₁, hbefore, hafter⟩ := hturns.exists_of_append
    exact htaken.deterministic hbefore ▸ hafter
  have hrest := hafter.fills hindexed
  obtain ⟨f₁, hf₁, -⟩ := hindexed.frames.slotNamed?_eq_some_iff.mp hslot
  obtain ⟨f, hf, hkeeps⟩ := hrest.kept hf₁
  have hmisc : f.misc m = f₁.misc m := hkeeps.agrees (.misc m) hlast
  have hmeans := htaken.miscSet_last hload.gathered htarget hslot htoken f₁ hf₁ k name i hrefers hname
  obtain ⟨e, he, hvalue⟩ := hmeans.after hrest
  refine ⟨f, hf, e, he, hmisc ▸ hvalue.imp_right fun hlogged => ?_⟩
  exact hlogged.before (h.gathered b).2.2

/-- A misc field that was last set from a token with a label holds in the end the id of the record that the token
named, unless the pool was dry; and a record without an id at first is the only one with its id. -/
theorem Reachable.misc_eq (h : Reachable sizes l) (hok : (l.load b).1 = .ok ()) (hset : LastSet l b slot m token σ)
    (hrefers : Refers token k name) (hname : k.slotNamed? σ.tables name = some i)
    (hlogged : ∀ e, k.identity? (l.load b).2.tables i = some e →
      ¬Logged l.state (l.load b).2.state (.poolExhausted k.kind e.1)) :
    ∃ f e, (l.load b).2.frame? slot = some f ∧ k.identity? (l.load b).2.tables i = some e ∧
      0 ≤ f.misc m ∧ e.2 = f.misc m ∧
      ((∀ e₀, k.identity? (l.gathered b).tables i = some e₀ → e₀.2 < 0) →
        k.slotNumbered? (l.load b).2.tables (f.misc m) = some i ∧
        ∀ j e', k.identity? (l.load b).2.tables j = some e' → e'.2 = f.misc m → j = i) := by
  have hload := h.intact.completes b hok
  obtain ⟨f, hf, e, he, hvalue⟩ := hset.settles h.intact hok hrefers hname
  obtain ⟨hnonneg, hid⟩ : 0 ≤ f.misc m ∧ e.2 = f.misc m := hvalue.resolve_right (hlogged e he)
  refine ⟨f, e, hf, he, hnonneg, hid, fun hneg => ?_⟩
  rw [← hid]
  exact hload.fills.sole hload.indexed hneg he (hid ▸ hnonneg)

def decorated (title : String) : Section where
  title := title
  fields := .ofList [("decorate", .bool true)]

def walkTo (token : String) : Section where
  title := "S_WALK"
  fields := .ofList [("decorate", .bool true), ("misc1", .text token)]

def referring : Batch where
  frames := [decorated "S_NULL", walkTo "frame:S_RUN", decorated "S_RUN"]

theorem misc_eq_referring : ((new ⟨1, 1, 1, 1, 1⟩).load referring).1 = .ok () ∧ ∃ f,
    ((new ⟨1, 1, 1, 1, 1⟩).load referring).2.frame? 1 = some f ∧ f.misc1 = maxLegacyId ∧
      ((new ⟨1, 1, 1, 1, 1⟩).load referring).2.tables.frames.slotNumbered? f.misc1 = some 2 := by
  have hok : ((new ⟨1, 1, 1, 1, 1⟩).load referring).1 = .ok () := by decide +kernel
  have hload := (intact_new ⟨1, 1, 1, 1, 1⟩).completes referring hok
  have hsplit : referring.turns = [⟨.definition, decorated "S_NULL"⟩, ⟨.definition, walkTo "frame:S_RUN"⟩] ++
      [⟨.definition, decorated "S_RUN"⟩] := rfl
  have hturns := hload.turns
  rw [hsplit] at hturns
  obtain ⟨σ, htaken, -⟩ := hturns.exists_of_append
  have hnumbers := (htaken.fills hload.gathered).frames
  have hset : LastSet (new ⟨1, 1, 1, 1, 1⟩) referring 1 .misc1 "frame:S_RUN" σ := by
    refine ⟨[_], ⟨.definition, walkTo "frame:S_RUN"⟩, [_], "S_WALK", hsplit, htaken, rfl,
      hnumbers.names (by decide +kernel), by decide +kernel, ?_⟩
    rintro ⟨turn, hturn, target, htarget, hslot, -⟩
    obtain rfl := List.mem_singleton.mp hturn
    obtain rfl := Option.some.inj htarget
    have hrun : ((new ⟨1, 1, 1, 1, 1⟩).load referring).2.state.tables.frames.slotNamed? "S_RUN" = some 2 := by
      decide +kernel
    cases hrun.symm.trans hslot
  have hrefers : Refers "frame:S_RUN" .frame "S_RUN" := ⟨"frame", by decide +kernel, by decide, by decide +kernel⟩
  have hlogged : ∀ warning,
      ¬Logged (new ⟨1, 1, 1, 1, 1⟩).state ((new ⟨1, 1, 1, 1, 1⟩).load referring).2.state warning := by
    rintro warning ⟨added, hadded, hmem⟩
    have hnone : ((new ⟨1, 1, 1, 1, 1⟩).load referring).2.state.warnings = #[] := by decide +kernel
    obtain rfl : added = #[] := Array.empty_append.symm.trans (hadded.symm.trans hnone)
    exact Array.not_mem_empty warning hmem
  have hreachable : Reachable ⟨1, 1, 1, 1, 1⟩ (new ⟨1, 1, 1, 1, 1⟩) := .refl
  have hname : Referable.frame.slotNamed? σ.tables "S_RUN" = some 2 := hnumbers.names (by decide +kernel)
  obtain ⟨f, e, hf, he, -, -, hsole⟩ := hreachable.misc_eq hok hset hrefers hname fun e _ => hlogged _
  refine ⟨hok, f, hf, ?_, (hsole fun e₀ he₀ => ?_).1⟩
  · have hlast : (((new ⟨1, 1, 1, 1, 1⟩).load referring).2.frame? 1).map (·.misc1) = some maxLegacyId := by
      decide +kernel
    rw [hf] at hlast
    exact Option.some.inj hlast
  · have hfirst : Referable.frame.identity? ((new ⟨1, 1, 1, 1, 1⟩).gathered referring).tables 2 =
        some ("S_RUN", -1) := by
      decide +kernel
    obtain rfl := Option.some.inj (hfirst.symm.trans he₀)
    decide

def unnamed : Batch where
  frames := [decorated "S_NULL", decorated "", walkTo "frame:"]

def early : Batch where
  frames := [decorated "S_NULL", walkTo "frame:S_RUN",
    { title := "S_STAND", fields := .ofList [("cmp", .text "PLAY|A|*|4|Light0|S_RUN")] }]

theorem misc_unnamed :
    ((new ⟨1, 1, 1, 1, 1⟩).load unnamed).1 = .ok () ∧
      ((new ⟨1, 1, 1, 1, 1⟩).load unnamed).2.slotNamed? "" = some 1 ∧
      (((new ⟨1, 1, 1, 1, 1⟩).load unnamed).2.frame? 1).map (·.legacyId) = some (-1) ∧
      (((new ⟨1, 1, 1, 1, 1⟩).load unnamed).2.frame? 2).map (·.misc1) = some 0 ∧
      ((new ⟨1, 1, 1, 1, 1⟩).load unnamed).2.warnings = #[.emptyMiscValue "frame:"] ∧
    ((new ⟨1, 1, 1, 1, 1⟩).load early).1 = .ok () ∧
      ((new ⟨1, 1, 1, 1, 1⟩).load early).2.slotNamed? "S_RUN" = some 3 ∧
      (((new ⟨1, 1, 1, 1, 1⟩).load early).2.frame? 3).map (·.legacyId) = some (-1) ∧
      (((new ⟨1, 1, 1, 1, 1⟩).load early).2.frame? 1).map (·.misc1) = some 0 ∧
      ((new ⟨1, 1, 1, 1, 1⟩).load early).2.warnings =
        #[.unresolvedReference .frame "S_RUN", .implicitFrame "S_STAND" "S_RUN"] := by
  decide +kernel

end Library

end FrameTable
