import FrameTable.Json.Value

namespace FrameTable

structure IndexSizes where
  frames : Nat := 2003
  things : Nat := 307
  sounds : Nat := 257
  strings : Nat := 67
  sprites : Nat := 257
deriving DecidableEq, Repr

namespace IndexSizes

def count? : Json → Option Nat
  | .int value => if 0 ≤ value ∧ value ≤ 18446744073709551615 then some value.toNat else none
  | _ => none

def ofJson? (j : Json) : Option IndexSizes := do
  let members ← j.record? ["state_chains", "thing_chains", "sound_chains", "string_chains", "sprite_chains"]
  let count (key : String) (default : Nat) := Json.member? members key count? (some default)
  let standard : IndexSizes := {}
  return {
    frames := ← count "state_chains" standard.frames
    things := ← count "thing_chains" standard.things
    sounds := ← count "sound_chains" standard.sounds
    strings := ← count "string_chains" standard.strings
    sprites := ← count "sprite_chains" standard.sprites }

def toJson (sizes : IndexSizes) : Json :=
  .obj [("sound_chains", .int sizes.sounds), ("sprite_chains", .int sizes.sprites),
    ("state_chains", .int sizes.frames), ("string_chains", .int sizes.strings),
    ("thing_chains", .int sizes.things)]

end IndexSizes

end FrameTable
