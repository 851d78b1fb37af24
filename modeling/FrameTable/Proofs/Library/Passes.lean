import FrameTable.Proofs.Library.Load
import FrameTable.Proofs.Load.Places
import FrameTable.Proofs.Load.Turns

namespace FrameTable.Library

open LoadState (Fills)
open Tables (Redefines)

variable {l : Library} {b : Batch}

def gathered (l : Library) (b : Batch) : LoadState :=
  ((Load.gather b (!l.initialized)).run.run l.state).2

theorem load_cases (l : Library) (b : Batch) :
    (∃ error, (Load.gather b (!l.initialized)).run.run l.state = (.error error, l.gathered b) ∧
      l.load b = (.error error, l.abandon (l.gathered b))) ∨
    ∃ result σ phase, (Load.gather b (!l.initialized)).run.run l.state = (.ok (), l.gathered b) ∧
      (Load.fill b).run.run (l.gathered b) = (result, σ) ∧
      l.load b = (result, { l with state := σ, phase, initialized := true }) := by
  cases hgather : (Load.gather b (!l.initialized)).run.run l.state with
  | mk gathered σ =>
    obtain rfl : l.gathered b = σ := by rw [Library.gathered, hgather]
    cases gathered with
    | error error => exact .inl ⟨error, rfl, by simp only [load, hgather]⟩
    | ok value =>
      cases hfill : (Load.fill b).run.run (l.gathered b) with
      | mk result σ' =>
        cases result with
        | error error => exact .inr ⟨_, σ', .idle, rfl, rfl, by simp only [load, hgather, hfill]⟩
        | ok value => exact .inr ⟨_, σ', .applied, rfl, rfl, by simp only [load, hgather, hfill]⟩

structure Completes (l : Library) (b : Batch) : Prop where
  gathered : (l.gathered b).tables.Indexed
  turns : Turns b.turns (l.gathered b) (l.load b).2.state
  fills : Fills True (fun i field => SomeTurn b.turns (l.load b).2.state i (·.Touches field)) (l.gathered b)
    (l.load b).2.state
  indexed : (l.load b).2.tables.Indexed
  initialized : (l.load b).2.initialized = true

namespace Intact

variable (h : l.Intact) (b)
include h

theorem gathered : l.tables.Places (l.gathered b).tables ∧
    Redefines (!l.initialized) b l.tables (l.gathered b).tables ∧
    ∃ added, (l.gathered b).warnings = l.warnings ++ added := by
  obtain ⟨result, t, added, hrun, hredefines, -⟩ := Load.gather_follows (!l.initialized) b h.sound
  obtain ⟨result', t', added', hrun', hplaces, -⟩ := Load.gather_places (!l.initialized) b h.sound.frames
  have hσ : l.gathered b = ⟨t, l.warnings ++ added⟩ := congrArg Prod.snd (hrun l.warnings)
  have hσ' : l.gathered b = ⟨t', l.warnings ++ added'⟩ := congrArg Prod.snd (hrun' l.warnings)
  exact ⟨hσ' ▸ hplaces, hσ ▸ hredefines, added, hσ ▸ rfl⟩

theorem sound_gathered : (l.gathered b).tables.Sound :=
  (h.gathered b).2.1.sound h.sound

theorem ready_gathered (hok : (Load.gather b (!l.initialized)).run.run l.state = (.ok (), l.gathered b)) :
    (l.gathered b).tables.Ready := by
  obtain ⟨result, t, added, hrun, hredefines, hnull⟩ := Load.gather_follows (!l.initialized) b h.sound
  obtain ⟨hresult, hσ⟩ := Prod.mk.inj ((hrun l.warnings).symm.trans hok)
  exact hσ ▸ h.ready_of_gather hredefines (hnull () hresult).2

theorem completes (hok : (l.load b).1 = .ok ()) : l.Completes b := by
  rcases l.load_cases b with ⟨error, -, hload⟩ | ⟨result, σ, phase, hgather, hfill, hload⟩
  · rw [hload] at hok
    cases hok
  · have hready := (h.ready_gathered b hgather).indexed
    rw [hload] at hok
    obtain rfl : result = .ok () := hok
    have hstate : (l.load b).2.state = σ := by rw [hload]
    have hturns : Turns b.turns (l.gathered b) (l.load b).2.state := hstate ▸ Load.turns_of_fill hfill
    exact
      { gathered := hready
        turns := hturns
        fills := hturns.fills hready
        indexed := (hturns.fills hready).indexed hready
        initialized := by rw [hload] }

end Intact

end FrameTable.Library
