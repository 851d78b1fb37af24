import FrameTable.Proofs.Catalog.Modify
import FrameTable.Proofs.Catalog.Integrity

namespace FrameTable.Catalog

variable {ε : Type} [Record ε] {c c' : Catalog ε} {slot : Nat} {name : String}

def names (c : Catalog ε) : List String :=
  c.store.items.toList.map Record.name

theorem getElem?_names (c : Catalog ε) (i : Nat) : c.names[i]? = (c.get? i).map Record.name := by
  simp [names, get?, Store.get?]

theorem length_names (c : Catalog ε) : c.names.length = c.size := by
  simp [names, size, Store.size]

theorem names_eq_of_identity (h : ∀ i, (c'.get? i).map identity = (c.get? i).map identity) : c'.names = c.names := by
  apply List.ext_getElem?
  intro i
  have hname := congrArg (Option.map Prod.fst) (h i)
  rw [Option.map_map, Option.map_map] at hname
  rw [getElem?_names, getElem?_names]
  exact hname

theorem names_modify {g : ε → ε} (hg : ∀ e, identity (g e) = identity e) : (c.modify slot g).names = c.names := by
  apply names_eq_of_identity
  intro i
  rw [show (c.modify slot g).get? i = _ from Store.get?_modify _ _ _ _]
  split
  · rw [Option.map_map]
    exact congrArg (Option.map · (c.get? i)) (funext hg)
  · rfl

theorem names_claimId (c : Catalog ε) (slot : Nat) : (c.claimId slot).2.names = c.names := by
  apply List.ext_getElem?
  intro i
  rw [getElem?_names, getElem?_names]
  cases he : c.get? i with
  | none =>
    have hnone : (c.claimId slot).2.get? i = none := by
      rw [get?, Store.get?_eq_none_iff] at he ⊢
      exact Nat.le_trans (Nat.le_of_eq (c.size_claimId slot)) he
    rw [hnone]
  | some e =>
    obtain ⟨n, hn⟩ := c.get?_claimId slot he
    rw [hn, Option.map_some, Option.map_some, Record.name_withNumber]

theorem names_define {entry : ε} (hnew : c.slotNamed? (Record.name entry) = none)
    (hdefine : c.define entry = .ok (slot, c')) : c'.names = c.names ++ [Record.name entry] := by
  obtain ⟨hsize, hget⟩ := get?_of_define hnew hdefine
  apply List.ext_getElem?
  intro i
  rw [getElem?_names, hget, List.getElem?_append, length_names]
  split
  · next hi => simp [hi]
  · next hi =>
    rw [getElem?_names]
    split
    · rfl
    · next hlt =>
      have hlarge : (c.get? i) = none := (Store.get?_eq_none_iff _ _).mpr (Nat.le_of_not_lt hlt)
      have hne : i - c.size ≠ 0 := by omega
      simp [hlarge, hne]

namespace EnlistedTo

variable (h : c.Consistent)
include h

theorem slotNamed?_iff_getElem?_names :
    c.slotNamed? name = some slot ↔ ∃ other, c.names[slot]? = some other ∧ Text.same other name = true := by
  simp only [h.slotNamed?_eq_some_iff, getElem?_names, Option.map_eq_some_iff]
  constructor
  · rintro ⟨e, he, hsame⟩
    exact ⟨_, ⟨e, he, rfl⟩, hsame⟩
  · rintro ⟨_, ⟨e, he, rfl⟩, hsame⟩
    exact ⟨e, he, hsame⟩

theorem slotNamed?_ne_none_iff : c.slotNamed? name ≠ none ↔ ∃ other ∈ c.names, Text.same other name = true := by
  rw [Option.ne_none_iff_exists']
  constructor
  · rintro ⟨slot, hslot⟩
    obtain ⟨other, hother, hsame⟩ := h.slotNamed?_iff_getElem?_names.mp hslot
    exact ⟨other, List.mem_of_getElem? hother, hsame⟩
  · rintro ⟨other, hother, hsame⟩
    obtain ⟨slot, hslot⟩ := List.mem_iff_getElem?.mp hother
    exact ⟨slot, h.slotNamed?_iff_getElem?_names.mpr ⟨other, hslot, hsame⟩⟩

theorem pairwise_names : c.names.Pairwise fun a b => Text.same a b = false := by
  rw [List.pairwise_iff_getElem]
  intro i j hi hj hij
  refine Bool.eq_false_iff.mpr fun hsame => ?_
  have hleft := h.slotNamed?_iff_getElem?_names.mpr ⟨_, List.getElem?_eq_getElem hi, hsame⟩
  have hright := h.slotNamed?_iff_getElem?_names.mpr ⟨_, List.getElem?_eq_getElem hj, Text.same_refl _⟩
  exact Nat.ne_of_lt hij (Option.some.inj (hleft.symm.trans hright))

end EnlistedTo

end FrameTable.Catalog
