import FrameTable.Number.Shortest

namespace FrameTable.Number

structure FixedPoint where
  raw : Int32
deriving DecidableEq, Repr

namespace FixedPoint

def ofFloat (value : Float) : FixedPoint :=
  ⟨(value * 65536).toInt32⟩

def toFloat (x : FixedPoint) : Float :=
  Float.ofInt x.raw.toInt / 65536

instance : ToString FixedPoint where
  toString x := shortestText x.toFloat

end FixedPoint

end FrameTable.Number
