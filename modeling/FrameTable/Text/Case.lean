namespace FrameTable.Text

def foldCase (text : String) : List Char :=
  text.toList.map Char.toUpper

def same (a b : String) : Bool :=
  foldCase a == foldCase b

theorem same_iff {a b : String} : same a b = true ↔ foldCase a = foldCase b := by
  simp [same]

@[simp] theorem same_refl (a : String) : same a a = true := by
  simp [same]

theorem same_comm (a b : String) : same a b = same b a := by
  simp only [same, Bool.beq_comm]

theorem same_trans {a b c : String} (hab : same a b = true) (hbc : same b c = true) :
    same a c = true :=
  same_iff.mpr ((same_iff.mp hab).trans (same_iff.mp hbc))

theorem same_congr {a b : String} (h : same a b = true) (c : String) : same a c = same b c := by
  simp only [same, same_iff.mp h]

theorem same_congr_right {a b : String} (h : same a b = true) (c : String) : same c a = same c b := by
  simp only [same, same_iff.mp h]

def keyword? (keywords : List String) (name : String) : Option Nat :=
  keywords.findIdx? (same · name)

end FrameTable.Text
