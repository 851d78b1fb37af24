import FrameTable.Number.Integer
import FrameTable.Section.Basic

namespace FrameTable.Section

def legacyId (s : Section) (key : String) : Int :=
  ((s.int? key).filter Number.fits).getD (-1)

def number? (s : Section) (key : String) : Option Int :=
  match s.value? key with
  | some (.int value) => some (Number.narrow value)
  | some (.bool value) => some (if value then 1 else 0)
  | some (.text value) => some (Number.narrow (Number.readInteger value).1)
  | some (.list _) | none => none

end FrameTable.Section
