import FrameTable.Catalog.Store
import FrameTable.Index.Directory

namespace FrameTable

/-- A record with a name and a legacy id, negative for none, of `width` bytes. -/
class Record (ε : Type) where
  name : ε → String
  number : ε → Int
  withNumber : ε → Int → ε
  width : UInt64
  width_pos : 0 < width.toNat
  name_withNumber : ∀ e n, name (withNumber e n) = name e
  number_withNumber : ∀ e n, number (withNumber e n) = n
  withNumber_number : ∀ e, withNumber e (number e) = e

inductive CatalogError where
  | store (error : StoreError)
  | index (error : IndexError)
deriving DecidableEq, Repr

def CatalogError.message : CatalogError → String
  | .store error => "table allocation failed: " ++ error.message
  | .index error => "index corrupted: " ++ error.message

structure Catalog (ε : Type) [Record ε] where
  store : Store ε (Record.width ε)
  directory : Directory

namespace Catalog

variable {ε : Type} [Record ε]

def empty (buckets : Nat) : Catalog ε where
  store := .empty
  directory := .empty buckets

def size (c : Catalog ε) : Nat := c.store.size

def get? (c : Catalog ε) (slot : Nat) : Option ε := c.store.get? slot

def slotNamed? (c : Catalog ε) (name : String) : Option Nat := c.directory.slotNamed? name

def slotNumbered? (c : Catalog ε) (number : Int) : Option Nat := c.directory.slotNumbered? number

def modify (c : Catalog ε) (slot : Nat) (f : ε → ε) : Catalog ε :=
  { c with store := c.store.modify slot f }

def map (c : Catalog ε) (f : ε → ε) : Catalog ε :=
  { c with store := c.store.map f }

theorem map_empty (buckets : Nat) (f : ε → ε) : (empty buckets).map f = empty buckets := by
  simp [map, empty, Store.map, Store.empty]

def withPool (c : Catalog ε) (pool : IdPool) : Catalog ε :=
  { c with directory := { c.directory with pool } }

def reserve (c : Catalog ε) (count : UInt64) (init : Nat → ε) :
    Except CatalogError ((Nat × Nat) × Catalog ε) := do
  let (range, store) ← (c.store.reserve count init).mapError .store
  return (range, { c with store })

def enlist (c : Catalog ε) (slot : Nat) : Except CatalogError (Catalog ε) := do
  match c.get? slot with
  | none => return c
  | some entry =>
    let named ← (c.directory.addName slot (Record.name entry)).mapError .index
    let directory ← (named.setId slot (Record.number entry)).mapError .index
    return { c with directory }

def setId (c : Catalog ε) (slot : Nat) (number : Int) : Except CatalogError (Catalog ε) := do
  let directory ← (c.directory.setId slot number).mapError .index
  return { store := c.store.modify slot (Record.withNumber · number), directory }

def define (c : Catalog ε) (entry : ε) : Except CatalogError (Nat × Catalog ε) := do
  match c.slotNamed? (Record.name entry) with
  | some slot =>
    let c ← (c.modify slot fun _ => entry).setId slot (Record.number entry)
    return (slot, c)
  | none =>
    let (slot, store) ← (c.store.push entry).mapError .store
    let c ← { c with store }.enlist slot
    return (slot, c)

def claimId (c : Catalog ε) (slot : Nat) : Except NumberingError Int × Catalog ε :=
  match c.directory.claimId slot with
  | (.error error, directory) => (.error error, { c with directory })
  | (.ok number, directory) =>
    (.ok number, { store := c.store.modify slot (Record.withNumber · number), directory })

def singleton (buckets : Nat) (entry : ε) : Catalog ε where
  store := .singleton entry
  directory :=
    let ids := .empty buckets
    { names := (HashIndex.empty buckets).push 0 ⟨Record.name entry⟩
      ids := if Record.number entry < 0 then ids else ids.push 0 ⟨Record.number entry⟩ }

end Catalog

end FrameTable
