import FrameTable.Index.Basic

namespace FrameTable

structure Sprites where
  names : Array String
  index : HashIndex Name

namespace Sprites

def blankName : String := "BLANK"

def blank : Nat := 0

def nameLength : Nat := 4

def initial (buckets : Nat) : Sprites where
  names := #[blankName]
  index := (HashIndex.empty buckets).push blank ⟨blankName⟩

def slotNamed? (s : Sprites) (name : String) : Option Nat :=
  s.index.find? ⟨name⟩

def name? (s : Sprites) (slot : Nat) : Option String :=
  s.names[slot]?

def define (s : Sprites) (name : String) : Option Nat × Sprites :=
  match s.slotNamed? name with
  | some slot => (some slot, s)
  | none =>
    if name.length ≠ nameLength then (none, s)
    else
      match s.index.insert s.names.size ⟨name⟩ with
      | .error _ => (none, s)
      | .ok index => (some s.names.size, { names := s.names.push name, index })

end Sprites

end FrameTable
