import FrameTable.Section.Basic

namespace FrameTable.Fields

variable {entries : List (String × Option FieldValue)} {key : String} {value : Option FieldValue}

def present (entries : List (String × Option FieldValue)) (sorted : (entries.map (·.1)).Pairwise (· < ·)) : Fields where
  entries := entries.filterMap fun e => e.2.map (e.1, ·)
  sorted := by
    refine List.Pairwise.filterMap _ (fun a b hab => ?_) (List.pairwise_map.mp sorted)
    intro c hc d hd
    obtain ⟨_, -, rfl⟩ := Option.map_eq_some_iff.mp hc
    obtain ⟨_, -, rfl⟩ := Option.map_eq_some_iff.mp hd
    exact hab

theorem find?_present_cons {e : String × Option FieldValue} {sorted : ((e :: entries).map (·.1)).Pairwise (· < ·)}
    (hother : Text.same e.1 key = false) :
    (present (e :: entries) sorted).find? key = (present entries sorted.of_cons).find? key := by
  have hne : (e.1 == key) = false := by
    refine Bool.eq_false_iff.mpr fun heq => ?_
    rw [eq_of_beq heq, Text.same_refl] at hother
    cases hother
  obtain ⟨other, value⟩ := e
  cases value with
  | none => rfl
  | some value => simp only [find?, present, List.filterMap_cons, Option.map_some, List.find?_cons, hne, hother]

theorem find?_present_of_absent (sorted : (entries.map (·.1)).Pairwise (· < ·))
    (h : ∀ other ∈ entries.map (·.1), Text.same other key = false) : (present entries sorted).find? key = none := by
  induction entries with
  | nil => rfl
  | cons e entries ih =>
    obtain ⟨hother, hothers⟩ := List.forall_mem_cons.mp h
    rw [find?_present_cons hother]
    exact ih sorted.of_cons hothers

theorem find?_present (sorted : (entries.map (·.1)).Pairwise (· < ·))
    (hdistinct : (entries.map (·.1)).Pairwise fun a b => Text.same a b = false) (hmem : (key, value) ∈ entries) :
    (present entries sorted).find? key = value := by
  induction entries with
  | nil => cases hmem
  | cons e entries ih =>
    obtain ⟨hothers, hdistinct⟩ := List.pairwise_cons.mp hdistinct
    rcases List.mem_cons.mp hmem with rfl | hmem
    · cases value with
      | none =>
        refine find?_present_of_absent sorted.of_cons fun other hother => ?_
        rw [Text.same_comm]
        exact hothers other hother
      | some value => simp [find?, present]
    · rw [find?_present_cons (hothers key (List.mem_map_of_mem hmem))]
      exact ih sorted.of_cons hdistinct hmem

end FrameTable.Fields
