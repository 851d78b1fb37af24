import FrameTable.Text.Case

namespace FrameTable

inductive FieldValue where
  | int (value : Int)
  | bool (value : Bool)
  | text (value : String)
  | list (items : List String)
deriving DecidableEq, Repr

namespace FieldValue

def toText? : FieldValue → Option String
  | .int value => some (toString value)
  | .bool value => some (if value then "true" else "false")
  | .text value => some value
  | .list _ => none

def string? : FieldValue → Option String
  | .text value => some value
  | _ => none

def int? : FieldValue → Option Int
  | .int value => some value
  | .bool value => some (if value then 1 else 0)
  | _ => none

def isTrueText (text : String) : Bool :=
  (Text.foldCase text).head?.any (fun c => c = 'T' || c = 'Y') || Text.same text "on"

def bool? : FieldValue → Option Bool
  | .bool value => some value
  | .int value => some (value != 0)
  | .text value => some (isTrueText value)
  | .list _ => none

def toList : FieldValue → List String
  | .list items => items
  | value => value.toText?.toList

end FieldValue

structure Fields where
  entries : List (String × FieldValue)
  sorted : entries.Pairwise fun a b => a.1 < b.1

namespace Fields

def empty : Fields := ⟨[], .nil⟩

def insert (f : Fields) (key : String) (value : FieldValue) : Fields where
  entries := f.entries.filter (·.1 < key) ++ (key, value) :: f.entries.filter (key < ·.1)
  sorted := by
    refine List.pairwise_append.mpr ⟨f.sorted.filter _, List.pairwise_cons.mpr ⟨?_, f.sorted.filter _⟩, ?_⟩
    · intro b hb
      simpa using (List.mem_filter.mp hb).2
    · intro a ha b hb
      have hlt : a.1 < key := by simpa using (List.mem_filter.mp ha).2
      rcases List.mem_cons.mp hb with rfl | hb
      · exact hlt
      · exact String.lt_trans hlt (by simpa using (List.mem_filter.mp hb).2)

def erase (f : Fields) (key : String) : Fields where
  entries := f.entries.filter fun e => !Text.same e.1 key
  sorted := f.sorted.filter _

def set (f : Fields) (key : String) (value : FieldValue) : Fields :=
  (f.erase key).insert key value

def find? (f : Fields) (key : String) : Option FieldValue :=
  (f.entries.find? (·.1 == key) <|> f.entries.find? (Text.same ·.1 key)).map (·.2)

def ofList (entries : List (String × FieldValue)) : Fields :=
  entries.foldl (fun f (key, value) => f.insert key value) empty

end Fields

end FrameTable
