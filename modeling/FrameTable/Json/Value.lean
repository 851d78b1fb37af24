namespace FrameTable

inductive Json where
  | null
  | bool (value : Bool)
  | int (value : Int)
  | real (literal : String)
  | str (value : String)
  | arr (items : List Json)
  | obj (members : List (String × Json))

namespace Json

def str? : Json → Option String
  | .str value => some value
  | _ => none

def list? {α : Type} (item? : Json → Option α) : Json → Option (List α)
  | .arr items => items.mapM item?
  | _ => none

def member? {α : Type} (members : List (String × Json)) (key : String) (read? : Json → Option α)
    (default : Option α) : Option α :=
  match members.lookup key with
  | none => default
  | some value => read? value

/-- The members of a record. It may also be written as an array of its leading fields in order. -/
def record? (fields : List String) : Json → Option (List (String × Json))
  | .obj members => some members
  | .arr items => if items.length ≤ fields.length then some (fields.zip items) else none
  | _ => none

end Json

end FrameTable
