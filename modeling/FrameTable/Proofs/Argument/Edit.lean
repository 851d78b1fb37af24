import Mathlib.Data.List.Basic
import FrameTable.Proofs.Argument.Ledger

namespace FrameTable

structure ArgumentList.Written (old : ArgumentList) (position : Nat) (text : String) (new : ArgumentList) : Prop where
  size_eq : new.size = max old.size (position + 1)
  cell : new.cells[position]? = some { text }
  other : ∀ i < new.size, i ≠ position → new.cells[i]? = some (old.cells[i]?.getD .blank)
  evaluations : new.evaluations = old.evaluations

namespace ArgumentList

variable {l : ArgumentList} {position : Nat} {text : String}

theorem cells_push (text : String) (h : l.size < maxArguments) :
    (l.push text).2.cells = l.cells ++ [({ text } : Cell)] := by
  rw [push, dif_pos h]

theorem push_of_le (text : String) (h : maxArguments ≤ l.size) : l.push text = (false, l) :=
  dif_neg (Nat.not_lt_of_le h)

theorem getElem?_pad (cells : List Cell) {size i : Nat} (h : i < max cells.length size) :
    (cells ++ List.replicate (size - cells.length) Cell.blank)[i]? = some (cells[i]?.getD .blank) := by
  by_cases hi : i < cells.length
  · rw [List.getElem?_append_left hi, List.getElem?_eq_getElem hi, Option.getD_some]
  · rw [List.getElem?_append_right (Nat.le_of_not_lt hi), List.getElem?_eq_none (Nat.le_of_not_lt hi),
      List.getElem?_replicate, if_pos (by omega), Option.getD_none]

theorem exists_set (l : ArgumentList) (text : String) (h : position < maxArguments) :
    ∃ new, l.set position text = .ok new ∧ l.Written position text new := by
  let padded := l.cells ++ List.replicate (position + 1 - l.cells.length) Cell.blank
  have hlength : padded.length = max l.size (position + 1) := by
    simp only [padded, List.length_append, List.length_replicate, size]
    omega
  refine ⟨_, dif_pos h, ?_, ?_, fun i hi hne => ?_, rfl⟩
  · exact (List.length_set ..).trans hlength
  · refine (List.getElem?_set_self ?_).trans rfl
    change position < padded.length
    omega
  · refine (List.getElem?_set_ne (Ne.symm hne)).trans (getElem?_pad l.cells ?_)
    exact ((List.length_set ..).trans hlength) ▸ hi

theorem set_eq_error (l : ArgumentList) (text : String) (h : maxArguments ≤ position) :
    l.set position text = .error (.outOfCapacity position) :=
  dif_neg (Nat.not_lt_of_le h)

end ArgumentList

end FrameTable
