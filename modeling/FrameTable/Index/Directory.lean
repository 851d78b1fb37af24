import FrameTable.Index.Basic
import FrameTable.Index.IdPool

namespace FrameTable

inductive NumberingError where
  | pool (error : PoolError)
  | index (error : IndexError)
deriving DecidableEq, Repr

def NumberingError.message : NumberingError → String
  | .pool error => error.message
  | .index error => error.message

structure Directory where
  names : HashIndex Name
  ids : HashIndex LegacyId
  pool : IdPool := {}

namespace Directory

def empty (buckets : Nat) : Directory where
  names := .empty buckets
  ids := .empty buckets

def addName (d : Directory) (slot : Nat) (name : String) : Except IndexError Directory := do
  let names ← d.names.insert slot ⟨name⟩
  return { d with names }

def slotNamed? (d : Directory) (name : String) : Option Nat :=
  d.names.find? ⟨name⟩

def slotNumbered? (d : Directory) (number : Int) : Option Nat :=
  if number < 0 then none else d.ids.find? ⟨number⟩

def nameOf? (d : Directory) (slot : Nat) : Option String :=
  (d.names.key? slot).map (·.text)

def idOf? (d : Directory) (slot : Nat) : Option Int :=
  (d.ids.key? slot).map (·.value)

def setId (d : Directory) (slot : Nat) (number : Int) : Except IndexError Directory := do
  let (_, free) := d.ids.erase slot
  let ids ← if number < 0 then pure free else free.insert slot ⟨number⟩
  return { d with ids }

def claimId (d : Directory) (slot : Nat) : Except NumberingError Int × Directory :=
  match d.idOf? slot with
  | some number => (.ok number, d)
  | none =>
    match d.pool.allocate fun id => (d.ids.find? ⟨id⟩).isSome with
    | (.error error, pool) => (.error (.pool error), { d with pool })
    | (.ok number, pool) =>
      match d.ids.insert slot ⟨number⟩ with
      | .error error => (.error (.index error), { d with pool })
      | .ok ids => (.ok number, { d with ids, pool })

end Directory

end FrameTable
