import Mathlib.Data.List.Induction
import FrameTable.Number.Integer

namespace FrameTable.Number

namespace Magnitude

variable {radix : Nat} {digits : List Char}

theorem ofDigits_append_singleton (radix : Nat) (digits : List Char) (c : Char) :
    ofDigits radix (digits ++ [c]) = (ofDigits radix digits).push radix c := by
  simp [ofDigits, List.foldl_append]

def Stands (m : Magnitude) (value : Nat) : Prop :=
  if m.exceeded then 9223372036854775807 < value else m.value = value

theorem Stands.push {m : Magnitude} {value : Nat} (h : m.Stands value) (hradix : 0 < radix) (c : Char) :
    (m.push radix c).Stands (value * radix + digitValue c) := by
  have hgrows : value ≤ value * radix := Nat.le_mul_of_pos_right value hradix
  simp only [Stands] at h
  unfold Magnitude.push
  split
  case isTrue hfits =>
    cases hm : m.exceeded with
    | true =>
      rw [hm, if_pos rfl] at h
      exact (if_pos rfl).mpr (by omega)
    | false =>
      rw [hm, if_neg Bool.false_ne_true] at h
      exact (if_neg Bool.false_ne_true).mpr (congrArg (· * radix + digitValue c) h)
  case isFalse hover =>
    refine (if_pos rfl).mpr ?_
    cases hm : m.exceeded with
    | true =>
      rw [hm, if_pos rfl] at h
      omega
    | false =>
      rw [hm, if_neg Bool.false_ne_true] at h
      rw [← h]
      omega

theorem stands_ofDigits (hradix : 0 < radix) (digits : List Char) :
    (ofDigits radix digits).Stands (digitsValue radix digits) := by
  induction digits using List.reverseRecOn with
  | nil => exact (if_neg Bool.false_ne_true).mpr rfl
  | append_singleton digits c ih =>
    rw [ofDigits_append_singleton, digitsValue_append_singleton]
    exact ih.push hradix c

theorem Stands.toInt_eq {m : Magnitude} {value : Nat} (h : m.Stands value) (negative : Bool) :
    m.toInt negative = clamp64 (signed negative value) := by
  have hle := m.value_le
  unfold Stands at h
  unfold toInt
  split at h
  · next hm => cases negative <;> simp [signed, clamp64, clamp, hm] <;> omega
  · next hm => cases negative <;> simp [signed, clamp64, clamp, hm] <;> omega

theorem toInt_ofDigits (hradix : 0 < radix) (negative : Bool) (digits : List Char) :
    (ofDigits radix digits).toInt negative = clamp64 (signed negative (digitsValue radix digits)) :=
  (stands_ofDigits hradix digits).toInt_eq negative

end Magnitude

end FrameTable.Number
