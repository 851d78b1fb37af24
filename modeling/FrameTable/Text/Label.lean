namespace FrameTable.Text

def splitLabel? (text : String) : Option (String × String) :=
  let chars := text.toList
  match chars.dropWhile (· != ':') with
  | _ :: rest => some (String.ofList (chars.takeWhile (· != ':')), String.ofList rest)
  | [] => none

def dropLabel (text : String) : String :=
  match splitLabel? text with
  | some (_, rest) => rest
  | none => text

end FrameTable.Text
