/-!
A growing store of records addressed by slot. Room is planned in machine words, and no sum may leave them: the
first request takes exactly what it asks for, a small one that does not fit adds twice its size and a margin, a large
one adds its size. No room exceeds 2 ^ 63 - 1 bytes.
-/

namespace FrameTable

inductive StoreError where
  | outOfMemory (requested : UInt64)
  -- A number of slots is not a word: nothing goes on after that.
  | overflow
deriving DecidableEq, Repr

def StoreError.message : StoreError → String
  | .outOfMemory requested => s!"out of memory growing entity table by {requested} slots"
  | .overflow => "arithmetic overflow growing entity table"

/-- Records of `width` bytes each; `allocated` slots fit without growing. -/
structure Store (α : Type) (width : UInt64) where
  items : Array α
  allocated : UInt64

namespace Store

variable {α : Type} {width : UInt64}

def smallRequest : UInt64 := 50

def margin : UInt64 := 32

def maxBytes : Nat := 9223372036854775807

def empty : Store α width := ⟨#[], 0⟩

def singleton (item : α) : Store α width := ⟨#[item], 1⟩

def size (s : Store α width) : Nat := s.items.size

def get? (s : Store α width) (slot : Nat) : Option α := s.items[slot]?

def modify (s : Store α width) (slot : Nat) (f : α → α) : Store α width :=
  { s with items := s.items.modify slot f }

def map (s : Store α width) (f : α → α) : Store α width :=
  { s with items := s.items.map f }

theorem get?_eq_none_iff (s : Store α width) (slot : Nat) : s.get? slot = none ↔ s.size ≤ slot :=
  Array.getElem?_eq_none_iff

theorem lt_of_get? {s : Store α width} {slot : Nat} {item : α} (h : s.get? slot = some item) : slot < s.size := by
  rcases Nat.lt_or_ge slot s.size with hlt | hge
  · exact hlt
  · rw [(s.get?_eq_none_iff slot).mpr hge] at h
    cases h

theorem exists_get? {s : Store α width} {slot : Nat} (h : slot < s.size) : ∃ item, s.get? slot = some item :=
  ⟨s.items[slot], Array.getElem?_eq_getElem h⟩

@[simp] theorem size_modify (s : Store α width) (slot : Nat) (f : α → α) :
    (s.modify slot f).size = s.size := by
  simp [modify, size]

@[simp] theorem get?_modify (s : Store α width) (slot i : Nat) (f : α → α) :
    (s.modify slot f).get? i = if slot = i then (s.get? i).map f else s.get? i := by
  simp [modify, get?, Array.getElem?_modify]

theorem modify_eq_self {s : Store α width} {slot : Nat} {f : α → α}
    (h : ∀ item, s.get? slot = some item → f item = item) : s.modify slot f = s := by
  have hitems : s.items.modify slot f = s.items := by
    apply Array.ext_getElem?
    intro i
    rw [Array.getElem?_modify]
    split
    · next hi =>
      subst hi
      cases hs : s.items[slot]? with
      | none => rfl
      | some item => exact congrArg some (h item hs)
    · rfl
  cases s
  simp only [modify, Store.mk.injEq, and_true]
  exact hitems

@[simp] theorem size_map (s : Store α width) (f : α → α) : (s.map f).size = s.size := by
  simp [map, size]

@[simp] theorem get?_map (s : Store α width) (i : Nat) (f : α → α) : (s.map f).get? i = (s.get? i).map f := by
  simp [map, get?]

def checked (n : Nat) : Except StoreError UInt64 :=
  if n < UInt64.size then .ok n.toUInt64 else .error .overflow

def enlarged (allocated count : UInt64) : Except StoreError UInt64 :=
  if allocated = 0 then .ok count
  else if count ≤ smallRequest then do
    let doubled ← checked (count.toNat * 2)
    let room ← checked (allocated.toNat + doubled.toNat)
    checked (room.toNat + margin.toNat)
  else checked (allocated.toNat + count.toNat)

def enlarge (s : Store α width) (count : UInt64) : Except StoreError UInt64 := do
  let allocated ← enlarged s.allocated count
  if allocated.toNat < s.size then .error .overflow
  else
    let additional := allocated.toNat - s.size
    if maxBytes < (s.size + additional) * width.toNat then .error (.outOfMemory count) else .ok allocated

def grow (s : Store α width) (count : UInt64) : Except StoreError UInt64 := do
  let needed ← checked (s.size + count.toNat)
  if s.allocated ≠ 0 ∧ needed ≤ s.allocated then .ok s.allocated else s.enlarge count

def reserve (s : Store α width) (count : UInt64) (init : Nat → α) :
    Except StoreError ((Nat × Nat) × Store α width) := do
  let first := s.size
  if count = 0 then return ((first, first), s)
  let allocated ← s.grow count
  let fresh := (List.range' first count.toNat).map init
  return ((first, first + count.toNat), { items := s.items ++ fresh.toArray, allocated })

def push (s : Store α width) (item : α) : Except StoreError (Nat × Store α width) := do
  let allocated ← s.grow 1
  return (s.size, { items := s.items.push item, allocated })

theorem get?_of_reserve {s s' : Store α width} {count : UInt64} {init : Nat → α} {first last : Nat}
    (h : s.reserve count init = .ok ((first, last), s')) :
    first = s.size ∧ last = s.size + count.toNat ∧ s'.size = s.size + count.toNat ∧
      ∀ i, s'.get? i =
        if i < s.size then s.get? i else if i < s.size + count.toNat then some (init i) else none := by
  simp only [reserve, bind, Except.bind, pure, Except.pure] at h
  split at h
  · next hcount =>
    cases h
    subst hcount
    refine ⟨rfl, rfl, rfl, fun i => ?_⟩
    by_cases hi : i < s.size
    · rw [if_pos hi]
    · rw [if_neg hi, UInt64.toNat_zero, Nat.add_zero, if_neg hi, get?_eq_none_iff]
      exact Nat.le_of_not_lt hi
  · split at h
    · cases h
    · cases h
      refine ⟨rfl, rfl, by simp [size], fun i => ?_⟩
      rw [get?, get?, Array.getElem?_append]
      by_cases hi : i < s.size
      · rw [if_pos hi, if_pos (show i < s.items.size from hi)]
      · rw [if_neg hi, if_neg (show ¬i < s.items.size from hi), List.getElem?_toArray, List.getElem?_map]
        by_cases hlast : i < s.size + count.toNat
        · rw [if_pos hlast, List.getElem?_range' (show i - s.items.size < _ by simp only [size] at *; omega)]
          simp only [size] at *
          exact congrArg (some ∘ init) (by omega)
        · rw [if_neg hlast, List.getElem?_eq_none]
          · rfl
          · simp only [List.length_range', size] at *
            omega

theorem get?_of_push {s s' : Store α width} {item : α} {slot : Nat} (h : s.push item = .ok (slot, s')) :
    slot = s.size ∧ s'.size = s.size + 1 ∧ ∀ i, s'.get? i = if i = s.size then some item else s.get? i := by
  simp only [push, bind, Except.bind, pure, Except.pure] at h
  split at h
  · cases h
  · cases h
    refine ⟨rfl, by simp [size], fun i => ?_⟩
    rw [get?, Array.getElem?_push]
    rfl

end Store

end FrameTable
