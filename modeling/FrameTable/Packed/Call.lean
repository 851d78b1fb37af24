import FrameTable.Packed.Token

namespace FrameTable.Packed

structure Call where
  name : String
  args : Option (List String)
deriving DecidableEq, Repr

def Call.parse (text : String) : Call :=
  match (Cursor.start text).next? true with
  | none => { name := "", args := none }
  | some (token, s) =>
    { name := token.text
      args := if s.opened then some (s.callArguments.1.map (·.text)) else none }

end FrameTable.Packed
