import FrameTable.Load.Outcome
import FrameTable.Tables

namespace FrameTable

structure LoadState where
  tables : Tables
  warnings : Array Warning := #[]

abbrev Update := StateM LoadState

abbrev Load := ExceptT LoadError Update

namespace Load

def tables : Update Tables := return (← get).tables

def setTables (tables : Tables) : Update Unit :=
  modify fun s => { s with tables }

def warn (warning : Warning) : Update Unit :=
  modify fun s => { s with warnings := s.warnings.push warning }

def raise {α : Type} (error : LoadError) : Load α := throw error

def ofCatalog {α : Type} (result : Except CatalogError α) : Load α :=
  match result with
  | .ok value => return value
  | .error error => raise (.catalog error)

def edit (slot : Nat) (f : Frame → Frame) : Update Unit := do
  let t ← tables
  setTables { t with frames := t.frames.modify slot f }

def nameOf (slot : Nat) : Update String := do
  return (((← tables).frames.get? slot).map (·.name)).getD ""

end Load

end FrameTable
