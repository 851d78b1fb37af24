import FrameTable.Proofs.Index.Lookup

namespace FrameTable.HashIndex

variable {κ : Type} [IndexKey κ] {index : HashIndex κ} {slot : Nat}

structure InRange (index : HashIndex κ) : Prop where
  place_lt : ∀ key, index.place key < index.heads.size
  head_lt : ∀ {place slot}, index.head? place = some slot → slot < index.links.size
  next_lt : ∀ {slot next}, index.next? slot = some next → next < index.links.size

omit [IndexKey κ] in
theorem Segment.lt_of_first {first : Nat} {slots : List Nat} (h : Segment index (some first) slots none) :
    first < index.links.size := by
  cases h with
  | cons hlink _ => exact lt_of_link? hlink

namespace WellLinked

theorem inRange (h : index.WellLinked) : index.InRange where
  place_lt := index.place_lt
  head_lt {place slot} hhead := by
    obtain ⟨pairs, hpairs⟩ := h
    have hplace : place < index.heads.size := by
      rcases Nat.lt_or_ge place index.heads.size with hlt | hge
      · exact hlt
      · rw [head?, Array.getElem?_eq_none hge] at hhead
        cases hhead
    have hchain := hpairs.chain place hplace
    rw [hhead] at hchain
    exact hchain.lt_of_first
  next_lt {slot next} hnext := by
    obtain ⟨pairs, hpairs⟩ := h
    obtain ⟨link, hlink, hnext⟩ := Option.bind_eq_some_iff.mp hnext
    -- The rest of the chain in which the slot is found starts with the next one.
    obtain ⟨before, after, hsplit, -⟩ := hpairs.exists_seek_eq hlink
    have hchain := hpairs.chain _ (index.place_lt link.key)
    rw [hsplit] at hchain
    obtain ⟨cursor, -, hrest⟩ := hchain.split
    cases hrest with
    | cons hlink' hafter =>
      obtain rfl := Option.some.inj (hlink.symm.trans hlink')
      rw [hnext] at hafter
      exact hafter.lt_of_first

theorem contains_erase (h : index.WellLinked) (slot other : Nat) :
    (index.erase slot).2.contains other = if other = slot then false else index.contains other := by
  rw [← isSome_key?, h.key?_erase, ← isSome_key?]
  split <;> rfl

theorem count_buckets (h : index.WellLinked) (slot : Nat) :
    index.buckets.toList.flatten.count slot = if index.contains slot then 1 else 0 := by
  obtain ⟨pairs, hpairs⟩ := h
  have hmem : slot ∈ index.buckets.toList.flatten ↔ index.contains slot = true := by
    rw [← isSome_key?, Option.isSome_iff_exists, hpairs.buckets_eq, List.mem_flatten]
    simp only [List.mem_map, List.mem_range]
    constructor
    · rintro ⟨_, ⟨place, -, rfl⟩, hslot⟩
      obtain ⟨key, hpair, -⟩ := Represents.mem_slotsAt.mp hslot
      exact ⟨key, hpairs.key?_iff.mpr hpair⟩
    · rintro ⟨key, hkey⟩
      exact ⟨_, ⟨index.place key, index.place_lt key, rfl⟩,
        Represents.mem_slotsAt.mpr ⟨key, hpairs.key?_iff.mp hkey, rfl⟩⟩
  split
  · next hcontains => exact List.count_eq_one_of_mem hpairs.nodup_buckets (hmem.mpr hcontains)
  · next hcontains => exact List.count_eq_zero_of_not_mem (mt hmem.mp hcontains)

end WellLinked

end FrameTable.HashIndex
