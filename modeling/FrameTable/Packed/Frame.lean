import FrameTable.Argument.Basic
import FrameTable.Packed.Token
import FrameTable.Text.Label

namespace FrameTable

structure PackedFrame where
  sprite : Option String := none
  frame : Option String := none
  fullbright : Option String := none
  tics : Option String := none
  action : Option String := none
  nextframe : Option String := none
  particleEvent : Option String := none
  misc1 : Option String := none
  misc2 : Option String := none
  args : List String := []
  dropped : Nat := 0
  extra : Nat := 0
deriving DecidableEq, Repr

namespace Packed

def trailingArguments : Nat := 5

def argument (t : Token) : String :=
  if t.isDefault then "" else Text.dropLabel t.text

def next (call : Bool) : StateM Cursor (Option Token) := fun s =>
  match s.next? call with
  | none => (none, s)
  | some (token, t) => (some token, t)

def value (call : Bool) : StateM Cursor (Option String) := do
  let token ← next call
  return (token.filter (!·.isDefault)).map (·.text)

def upTo : Nat → StateM Cursor (List Token)
  | 0 => return []
  | n + 1 => do
    match ← next false with
    | none => return []
    | some token => return token :: (← upTo n)

end Packed

open Packed in
def PackedFrame.read : StateM Cursor PackedFrame := do
  let sprite ← value false
  let frame ← value false
  let fullbright ← value false
  let tics ← value false
  let action ← value true
  let inParentheses := (← get).opened
  let called ← if inParentheses then modifyGet (·.callArguments) else pure []
  let nextframe ← value false
  let particleEvent ← value false
  let misc1 ← value false
  let misc2 ← value false
  let arguments ← if inParentheses then pure called else upTo trailingArguments
  let args := arguments.map argument
  let extra := ((← get).fields (fun _ => false) 0).length
  return { sprite, frame, fullbright, tics, action, nextframe, particleEvent, misc1, misc2, extra
           args := args.take maxArguments, dropped := args.length - maxArguments }

def PackedFrame.parse (text : String) : PackedFrame :=
  (PackedFrame.read.run (.start text)).1

end FrameTable
