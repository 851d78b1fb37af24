namespace FrameTable.Number

structure Angle where
  raw : UInt32
deriving DecidableEq, Repr

namespace Angle

def pastWholeTurns (turns : Float) : Float :=
  let part := turns - (if turns < 0 then turns.ceil else turns.floor)
  if part < 0 then part + 1 else part

def ofDegrees (degrees : Float) : Angle :=
  ⟨(pastWholeTurns (degrees / 360) * 4294967296).toUInt64.toUInt32⟩

def toDegrees (a : Angle) : Float :=
  a.raw.toFloat / 4294967296 * 360

end Angle

end FrameTable.Number
