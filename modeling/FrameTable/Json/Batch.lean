import FrameTable.Json.Value
import FrameTable.Number.Integer
import FrameTable.Section.Basic

namespace FrameTable

namespace FieldValue

def ofJson? : Json → Option FieldValue
  | .int value => if Number.clamp64 value = value then some (.int value) else none
  | .bool value => some (.bool value)
  | .str value => some (.text value)
  | .arr items => (Json.list? Json.str? (.arr items)).map .list
  | _ => none

def toJson : FieldValue → Json
  | .int value => .int value
  | .bool value => .bool value
  | .text value => .str value
  | .list items => .arr (items.map .str)

theorem ofJson?_toJson_int {value : Int} (h : Number.clamp64 value = value) :
    ofJson? (toJson (.int value)) = some (.int value) := by
  simp only [toJson, ofJson?, if_pos h]

end FieldValue

namespace Fields

def ofJson? : Json → Option Fields
  | .obj members => do
    let entries ← members.mapM fun (key, value) => do return (key, ← FieldValue.ofJson? value)
    return ofList entries
  | _ => none

def toJson (f : Fields) : Json :=
  .obj (f.entries.map fun (key, value) => (key, value.toJson))

end Fields

namespace Section

def ofJson? (j : Json) : Option Section := do
  let members ← j.record? ["title", "fields"]
  let title ← Json.member? members "title" Json.str? none
  let fields ← Json.member? members "fields" Fields.ofJson? (some .empty)
  return { title, fields }

def toJson (s : Section) : Json :=
  .obj [("fields", s.fields.toJson), ("title", .str s.title)]

end Section

namespace Batch

def ofJson? (j : Json) : Option Batch := do
  let members ← j.record? ["sprites", "thingtypes", "sounds", "strings", "frames", "framedeltas"]
  let sections key := Json.member? members key (Json.list? Section.ofJson?) (some [])
  return {
    sprites := ← Json.member? members "sprites" (Json.list? Json.str?) (some [])
    things := ← sections "thingtypes"
    sounds := ← sections "sounds"
    strings := ← sections "strings"
    frames := ← sections "frames"
    deltas := ← sections "framedeltas" }

def toJson (b : Batch) : Json :=
  let sections (list : List Section) := Json.arr (list.map (·.toJson))
  .obj [("framedeltas", sections b.deltas), ("frames", sections b.frames), ("sounds", sections b.sounds),
    ("sprites", .arr (b.sprites.map .str)), ("strings", sections b.strings),
    ("thingtypes", sections b.things)]

end Batch

end FrameTable
