import FrameTable.Section.Field

namespace FrameTable

structure Section where
  title : String
  fields : Fields := .empty

namespace Section

def set (s : Section) (key : String) (value : FieldValue) : Section :=
  { s with fields := s.fields.set key value }

def value? (s : Section) (key : String) : Option FieldValue := s.fields.find? key

def has (s : Section) (key : String) : Bool := (s.value? key).isSome

def text? (s : Section) (key : String) : Option String := (s.value? key).bind (·.toText?)

def int? (s : Section) (key : String) : Option Int := (s.value? key).bind (·.int?)

def bool? (s : Section) (key : String) : Option Bool := (s.value? key).bind (·.bool?)

def list? (s : Section) (key : String) : Option (List String) := (s.value? key).map (·.toList)

end Section

structure Batch where
  sprites : List String := []
  things : List Section := []
  sounds : List Section := []
  strings : List Section := []
  frames : List Section := []
  deltas : List Section := []

end FrameTable
