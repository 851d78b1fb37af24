import Mathlib.Data.List.Basic
import FrameTable.Proofs.Index.Lookup

namespace FrameTable

namespace HashIndex.WellLinked

variable {κ : Type} [IndexKey κ] {index : HashIndex κ} {slot : Nat}

theorem slots_push (h : index.WellLinked) (hfree : index.contains slot = false) (key query : κ) :
    (index.push slot key).slots query =
      if IndexKey.same key query then slot :: index.slots query else index.slots query := by
  obtain ⟨pairs, hpairs⟩ := h
  rw [(hpairs.push hfree key).slots_eq, hpairs.slots_eq, Association.slots, Association.slots, List.filter_cons]
  split <;> rfl

theorem slots_erase (h : index.WellLinked) (slot : Nat) (query : κ) :
    (index.erase slot).2.slots query = (index.slots query).filter (· ≠ slot) := by
  obtain ⟨pairs, hpairs⟩ := h
  rw [(hpairs.erase slot).2.slots_eq, hpairs.slots_eq, Association.slots, Association.slots, Association.erase,
    List.filter_map, List.filter_filter, List.filter_filter]
  refine congrArg _ (List.filter_congr fun pair _ => ?_)
  simp only [Function.comp_apply, Bool.and_comm]

end HashIndex.WellLinked

def promote (slots : List Nat) (slot : Nat) (given : Prop) [Decidable given] : List Nat :=
  if given then slot :: slots.filter (· ≠ slot) else slots.filter (· ≠ slot)

namespace Directory

variable {d d' : Directory} {slot : Nat} {number : Int}

def owners (d : Directory) (id : Int) : List Nat :=
  d.ids.slots ⟨id⟩

theorem slotNumbered?_eq_head? (d : Directory) {id : Int} (hid : 0 ≤ id) :
    d.slotNumbered? id = (d.owners id).head? := by
  rw [slotNumbered?, if_neg (Int.not_lt.mpr hid), HashIndex.find?_eq_head?, owners]

theorem owners_setId (h : d.ids.WellLinked) (hset : d.setId slot number = .ok d') (id : Int) :
    d'.owners id = promote (d.owners id) slot (0 ≤ number ∧ number = id) := by
  by_cases hneg : number < 0
  · have hnot : ¬(0 ≤ number ∧ number = id) := fun hid => absurd hneg (Int.not_lt.mpr hid.1)
    rw [setId] at hset
    simp only [hneg, if_true, bind, Except.bind, pure, Except.pure, Except.ok.injEq] at hset
    rw [← hset, promote, if_neg hnot]
    exact h.slots_erase slot ⟨id⟩
  · have hfree : (d.ids.erase slot).2.contains slot = false := by
      rw [← HashIndex.isSome_key?, h.key?_erase, if_pos rfl, Option.isSome_none]
    rw [setId] at hset
    simp only [hneg, if_false, bind, Except.bind, pure, Except.pure, HashIndex.insert, hfree, Bool.false_eq_true,
      Except.ok.injEq] at hset
    have hsame : (IndexKey.same (⟨number⟩ : LegacyId) ⟨id⟩ = true) = (0 ≤ number ∧ number = id) := by
      refine propext ⟨fun h => ⟨by omega, congrArg LegacyId.value (eq_of_beq h)⟩, fun h => ?_⟩
      rw [h.2]
      exact IndexKey.same_refl _
    rw [← hset, owners, (h.erase slot).slots_push hfree, h.slots_erase slot, promote]
    simp only [hsame]
    rfl

theorem mem_owners_iff (h : d.ids.WellLinked) {id : Int} : slot ∈ d.owners id ↔ d.idOf? slot = some id := by
  rw [owners, h.mem_slots_iff, idOf?, Option.map_eq_some_iff]
  refine exists_congr fun key => and_congr_right fun _ => ?_
  exact ⟨fun hsame => congrArg LegacyId.value (eq_of_beq hsame), fun hid => hid ▸ IndexKey.same_refl key⟩

theorem owners_eq_nil (h : d.ids.WellLinked) (hunused : ∀ other, d.idOf? other ≠ some number) :
    d.owners number = [] :=
  List.eq_nil_iff_forall_not_mem.mpr fun other hmem => hunused other ((mem_owners_iff h).mp hmem)

theorem owners_push (h : d.ids.WellLinked) (hnone : d.idOf? slot = none)
    (hunused : ∀ other, d.idOf? other ≠ some number) (hids : d'.ids = d.ids.push slot ⟨number⟩) (id : Int) :
    d'.owners id = if number = id then [slot] else d.owners id := by
  rw [owners, hids, h.slots_push (contains_ids_of_unnumbered hnone)]
  by_cases hid : number = id
  · subst hid
    rw [if_pos (IndexKey.same_refl _), if_pos rfl]
    exact congrArg (slot :: ·) (owners_eq_nil h hunused)
  · have hsame : ¬IndexKey.same (⟨number⟩ : LegacyId) ⟨id⟩ = true := fun hsame =>
      hid (congrArg LegacyId.value (eq_of_beq hsame))
    rw [if_neg hsame, if_neg hid]
    rfl

theorem owners_claimId (h : d.ids.WellLinked) (slot : Nat) (id : Int) :
    (d.claimId slot).2.owners id = d.owners id ∨ d.owners id = [] ∧ (d.claimId slot).2.owners id = [slot] := by
  rcases Directory.claimId_cases h slot with ⟨number, -, hclaim⟩ | ⟨error, pool, -, hclaim, -⟩ |
    ⟨number, pool, hnone, hclaim, -, -, -, -, hunused⟩
  · exact .inl (by rw [hclaim])
  · exact .inl (by rw [hclaim]; rfl)
  · have hids : (d.claimId slot).2.ids = d.ids.push slot ⟨number⟩ := by rw [hclaim]
    have howners := owners_push h hnone hunused hids id
    by_cases hid : number = id
    · subst hid
      exact .inr ⟨owners_eq_nil h hunused, howners.trans (if_pos rfl)⟩
    · exact .inl (howners.trans (if_neg hid))

end Directory

end FrameTable
