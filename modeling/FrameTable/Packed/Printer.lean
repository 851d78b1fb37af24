import FrameTable.Packed.Frame

namespace FrameTable

namespace Packed

def quoteChar (c : Char) : List Char :=
  if c = '"' then ['"', '\'', '"', '\'', '"'] else [c]

def quote (text : String) : List Char :=
  '"' :: text.toList.flatMap quoteChar ++ ['"']

def writeValue : Option String → List Char
  | none => ['*']
  | some text => quote text

def writeArgument (text : String) : List Char :=
  ':' :: quote text

def separate (separator : Char) (fields : List (List Char)) : List Char :=
  [separator].intercalate fields

end Packed

namespace PackedFrame

open Packed

def leading (p : PackedFrame) : List (List Char) :=
  [p.sprite, p.frame, p.fullbright, p.tics].map writeValue

def following (p : PackedFrame) : List (List Char) :=
  [p.nextframe, p.particleEvent, p.misc1, p.misc2].map writeValue

def print (p : PackedFrame) : String :=
  let call := writeValue p.action ++ '(' :: separate ',' (p.args.map writeArgument) ++ [')']
  String.ofList (separate '|' (p.leading ++ call :: p.following))

def printTrailing (p : PackedFrame) : String :=
  String.ofList
    (separate '|' (p.leading ++ writeValue p.action :: p.following ++ p.args.map writeArgument))

end PackedFrame

end FrameTable
