import FrameTable.Catalog.Basic
import FrameTable.Section.Number

namespace FrameTable

structure Thing where
  name : String
  legacyId : Int
deriving DecidableEq, Repr

namespace Thing

instance : Record Thing where
  name := name
  number := legacyId
  withNumber t n := { t with legacyId := n }
  width := 32
  width_pos := by decide
  name_withNumber _ _ := rfl
  number_withNumber _ _ := rfl
  withNumber_number _ := rfl

def unknown : Thing := ⟨"Unknown", -1⟩

def unknownSlot : Nat := 0

def ofSection (s : Section) : Thing := ⟨s.title, s.legacyId "dehackednum"⟩

end Thing

structure Sound where
  mnemonic : String
  legacyId : Int
deriving DecidableEq, Repr

namespace Sound

instance : Record Sound where
  name := mnemonic
  number := legacyId
  withNumber s n := { s with legacyId := n }
  width := 32
  width_pos := by decide
  name_withNumber _ _ := rfl
  number_withNumber _ _ := rfl
  withNumber_number _ := rfl

def null : Sound := ⟨"none", 0⟩

def nullSlot : Nat := 0

def ofSection (s : Section) : Sound := ⟨s.title, s.legacyId "dehackednum"⟩

end Sound

structure Message where
  mnemonic : String
  number : Int
  value : String
deriving DecidableEq, Repr

namespace Message

instance : Record Message where
  name := mnemonic
  number := number
  withNumber m n := { m with number := n }
  width := 56
  width_pos := by decide
  name_withNumber _ _ := rfl
  number_withNumber _ _ := rfl
  withNumber_number _ := rfl

def ofSection (s : Section) : Message :=
  ⟨s.title, s.legacyId "num", (s.text? "val").getD ""⟩

end Message

end FrameTable
