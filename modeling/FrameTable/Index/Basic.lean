import FrameTable.Index.Hash

/-!
A hashed index from keys to the slots of a store. A slot owns at most one link, which holds its key and the
slot that follows it in its chain. The slots whose keys have the same place form one chain; a new slot is put
at its head, so that of several slots with the same key the newest is found.
-/

namespace FrameTable

inductive IndexError where
  | alreadyLinked (slot : Nat)
deriving DecidableEq, Repr

def IndexError.message : IndexError → String
  | .alreadyLinked slot => s!"slot {slot} is already linked into the index"

structure Link (κ : Type) where
  key : κ
  next : Option Nat

structure HashIndex (κ : Type) where
  heads : Array (Option Nat)
  links : Array (Option (Link κ))
  size : Nat
  heads_pos : 0 < heads.size

namespace HashIndex

variable {κ : Type}

def empty (count : Nat) : HashIndex κ where
  heads := Array.replicate (max count 1) none
  links := #[]
  size := 0
  heads_pos := by rw [Array.size_replicate]; omega

def link? (index : HashIndex κ) (slot : Nat) : Option (Link κ) :=
  index.links[slot]?.join

def key? (index : HashIndex κ) (slot : Nat) : Option κ :=
  (index.link? slot).map (·.key)

def next? (index : HashIndex κ) (slot : Nat) : Option Nat :=
  (index.link? slot).bind (·.next)

def contains (index : HashIndex κ) (slot : Nat) : Bool :=
  (index.link? slot).isSome

def keys (index : HashIndex κ) : Array (Option κ) :=
  index.links.map (Option.map Link.key)

def head? (index : HashIndex κ) (place : Nat) : Option Nat :=
  index.heads[place]?.join

theorem isSome_key? (index : HashIndex κ) (slot : Nat) : (index.key? slot).isSome = index.contains slot := by
  rw [key?, contains, Option.isSome_map]

theorem lt_of_link? {index : HashIndex κ} {slot : Nat} {link : Link κ} (h : index.link? slot = some link) :
    slot < index.links.size := by
  rcases Nat.lt_or_ge slot index.links.size with hlt | hge
  · exact hlt
  · rw [link?, Array.getElem?_eq_none hge] at h
    cases h

/-- The slots along the links from `cursor` on, at most `fuel` of them. No chain is longer than the array of
links, so with its size for `fuel` the whole chain is walked. -/
def follow (index : HashIndex κ) : Nat → Option Nat → List Nat
  | fuel + 1, some slot => slot :: index.follow fuel (index.next? slot)
  | _, _ => []

def buckets (index : HashIndex κ) : Array (List Nat) :=
  index.heads.map (index.follow index.links.size)

/-- Walks the links from `cursor` to `slot` and returns the slot passed last, if any; `previous` is the one
before `cursor`. There is no result if the chain ends first. -/
def seek (index : HashIndex κ) (slot : Nat) : Nat → Option Nat → Option Nat → Option (Option Nat)
  | fuel + 1, previous, some current =>
    if current = slot then some previous else index.seek slot fuel (some current) (index.next? current)
  | _, _, _ => none

variable [IndexKey κ]

def place (index : HashIndex κ) (key : κ) : Nat :=
  (IndexKey.hash key).toNat % index.heads.size

theorem place_lt (index : HashIndex κ) (key : κ) : index.place key < index.heads.size :=
  Nat.mod_lt _ index.heads_pos

theorem place_eq_of_same (index : HashIndex κ) {a b : κ} (h : IndexKey.same a b = true) :
    index.place a = index.place b := by
  rw [place, place, IndexKey.hash_eq h]

def bucket (index : HashIndex κ) (key : κ) : List Nat :=
  index.follow index.links.size (index.head? (index.place key))

def push (index : HashIndex κ) (slot : Nat) (key : κ) : HashIndex κ where
  heads := index.heads.setIfInBounds (index.place key) (some slot)
  links := (index.links ++ Array.replicate (slot + 1 - index.links.size) none).setIfInBounds slot
    (some ⟨key, index.head? (index.place key)⟩)
  size := index.size + 1
  heads_pos := by simpa using index.heads_pos

theorem link?_push (index : HashIndex κ) (slot other : Nat) (key : κ) :
    (index.push slot key).link? other =
      if other = slot then some ⟨key, index.head? (index.place key)⟩ else index.link? other := by
  have hs : slot < (index.links ++ Array.replicate (slot + 1 - index.links.size) none).size := by
    simp only [Array.size_append, Array.size_replicate]; omega
  by_cases h : other = slot
  · subst h
    simp only [link?, push, if_true, Array.getElem?_setIfInBounds_self_of_lt hs, Option.join_some]
  · rw [if_neg h, link?, push, Array.getElem?_setIfInBounds_ne (Ne.symm h), Array.getElem?_append, link?]
    split
    · rfl
    · next hlt =>
      rw [Array.getElem?_eq_none (Nat.le_of_not_lt hlt), Array.getElem?_replicate]
      split <;> rfl

theorem head?_push (index : HashIndex κ) (slot : Nat) (key : κ) (place : Nat) :
    (index.push slot key).head? place =
      if place = index.place key then some slot else index.head? place := by
  by_cases h : place = index.place key
  · subst h
    rw [if_pos rfl, head?, push, Array.getElem?_setIfInBounds_self_of_lt (index.place_lt key), Option.join_some]
  · rw [if_neg h, head?, push, Array.getElem?_setIfInBounds_ne (Ne.symm h), head?]

theorem key?_push (index : HashIndex κ) (slot other : Nat) (key : κ) :
    (index.push slot key).key? other = if other = slot then some key else index.key? other := by
  rw [key?, link?_push]
  split <;> rfl

def insert (index : HashIndex κ) (slot : Nat) (key : κ) : Except IndexError (HashIndex κ) :=
  if index.contains slot then .error (.alreadyLinked slot) else .ok (index.push slot key)

def unlink (index : HashIndex κ) (slot : Nat) (link : Link κ) (previous : Option Nat) : HashIndex κ where
  heads :=
    match previous with
    | none => index.heads.setIfInBounds (index.place link.key) link.next
    | some _ => index.heads
  links :=
    match previous with
    | none => index.links.setIfInBounds slot none
    | some before =>
      (index.links.modify before (Option.map fun l => { l with next := link.next })).setIfInBounds slot none
  size := index.size - 1
  heads_pos := by cases previous <;> simpa using index.heads_pos

def erase (index : HashIndex κ) (slot : Nat) : Option κ × HashIndex κ :=
  match index.link? slot with
  | none => (none, index)
  | some link =>
    match index.seek slot index.links.size none (index.head? (index.place link.key)) with
    | none => (none, index)
    | some previous => (some link.key, index.unlink slot link previous)

def holds (index : HashIndex κ) (slot : Nat) (query : κ) : Bool :=
  (index.key? slot).any (IndexKey.same · query)

def slots (index : HashIndex κ) (query : κ) : List Nat :=
  (index.bucket query).filter (index.holds · query)

def find? (index : HashIndex κ) (query : κ) : Option Nat :=
  (index.bucket query).find? (index.holds · query)

theorem find?_eq_head? (index : HashIndex κ) (query : κ) :
    index.find? query = (index.slots query).head? := by
  rw [find?, slots, List.head?_filter]

end HashIndex

end FrameTable
