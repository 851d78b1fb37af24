import FrameTable.Index.Directory
import FrameTable.Proofs.Index.Association
import FrameTable.Proofs.Index.Pool

namespace FrameTable

namespace HashIndex

variable {κ : Type} [IndexKey κ] {index : HashIndex κ} {slot : Nat} {key query : κ}

def WellLinked (index : HashIndex κ) : Prop :=
  ∃ pairs, index.Represents pairs

theorem wellLinked_empty (count : Nat) : (empty count : HashIndex κ).WellLinked :=
  ⟨[], represents_empty count⟩

theorem exists_key?_of_find? (h : index.find? query = some slot) :
    ∃ key, index.key? slot = some key ∧ IndexKey.same key query = true := by
  have hholds := List.find?_some h
  simpa only [holds, Option.any_eq_true] using hholds

theorem contains_push {other : Nat} (h : (index.push slot key).contains other = true) :
    other = slot ∨ index.contains other = true := by
  rw [← isSome_key?, key?_push] at h
  by_cases ho : other = slot
  · exact .inl ho
  · rw [if_neg ho, isSome_key?] at h
    exact .inr h

namespace WellLinked

theorem push (h : index.WellLinked) (hfree : index.contains slot = false) (key : κ) :
    (index.push slot key).WellLinked := by
  obtain ⟨pairs, hpairs⟩ := h
  exact ⟨_, hpairs.push hfree key⟩

theorem find?_push (h : index.WellLinked) (hfree : index.contains slot = false) (key query : κ) :
    (index.push slot key).find? query =
      if IndexKey.same key query then some slot else index.find? query := by
  obtain ⟨pairs, hpairs⟩ := h
  rw [(hpairs.push hfree key).find?_eq, hpairs.find?_eq, Association.slots, Association.slots,
    List.filter_cons]
  split <;> rfl

theorem erase (h : index.WellLinked) (slot : Nat) : (index.erase slot).2.WellLinked := by
  obtain ⟨pairs, hpairs⟩ := h
  exact ⟨_, (hpairs.erase slot).2⟩

theorem key?_erase (h : index.WellLinked) (slot other : Nat) :
    (index.erase slot).2.key? other = if other = slot then none else index.key? other := by
  obtain ⟨pairs, hpairs⟩ := h
  apply Option.ext
  intro key
  rw [(hpairs.erase slot).2.key?_iff, Association.erase, List.mem_filter, ← hpairs.key?_iff]
  by_cases ho : other = slot <;> simp [ho]

theorem mem_slots_iff (h : index.WellLinked) :
    slot ∈ index.slots query ↔ ∃ key, index.key? slot = some key ∧ IndexKey.same key query = true := by
  obtain ⟨pairs, hpairs⟩ := h
  rw [hpairs.slots_eq, Association.slots, List.mem_map]
  constructor
  · rintro ⟨⟨_, key⟩, hmem, rfl⟩
    obtain ⟨hpair, hsame⟩ := List.mem_filter.mp hmem
    exact ⟨key, hpairs.key?_iff.mpr hpair, hsame⟩
  · rintro ⟨key, hkey, hsame⟩
    exact ⟨(slot, key), List.mem_filter.mpr ⟨hpairs.key?_iff.mp hkey, hsame⟩, rfl⟩

theorem exists_find? (h : index.WellLinked) (hkey : index.key? slot = some key)
    (hsame : IndexKey.same key query = true) : ∃ found, index.find? query = some found := by
  have hmem : slot ∈ index.slots query := h.mem_slots_iff.mpr ⟨key, hkey, hsame⟩
  rw [find?_eq_head?]
  cases hs : index.slots query with
  | nil => rw [hs] at hmem; cases hmem
  | cons first rest => exact ⟨first, rfl⟩

end WellLinked

end HashIndex

namespace Directory

variable {d : Directory}

theorem addName_eq_ok {slot : Nat} (hfree : d.names.contains slot = false) (name : String) :
    d.addName slot name = .ok { d with names := d.names.push slot ⟨name⟩ } := by
  simp [addName, HashIndex.insert, hfree, bind, Except.bind, pure, Except.pure]

theorem exists_names_of_addName {d' : Directory} {slot : Nat} {name : String} (h : d.addName slot name = .ok d') :
    ∃ names, d' = { d with names } := by
  simp only [addName, bind, Except.bind, pure, Except.pure] at h
  split at h
  · cases h
  · exact ⟨_, (Except.ok.inj h).symm⟩

theorem idOf?_of_push {d' : Directory} {slot : Nat} {number : Int} (h : d'.ids = d.ids.push slot ⟨number⟩)
    (other : Nat) : d'.idOf? other = if other = slot then some number else d.idOf? other := by
  rw [idOf?, h, HashIndex.key?_push]
  split <;> rfl

theorem contains_ids_of_unnumbered {slot : Nat} (hnone : d.idOf? slot = none) : d.ids.contains slot = false := by
  rw [← HashIndex.isSome_key?]
  simpa [idOf?] using hnone

theorem exists_setId_eq_ok (h : d.ids.WellLinked) (slot : Nat) (number : Int) :
    ∃ d', d.setId slot number = .ok d' ∧ d'.names = d.names ∧ d'.pool = d.pool ∧ d'.ids.WellLinked ∧
      ∀ other, d'.idOf? other =
        if other = slot then (if number < 0 then none else some number) else d.idOf? other := by
  have hkey := h.key?_erase slot
  have herase : ∀ other, ({ d with ids := (d.ids.erase slot).2 } : Directory).idOf? other =
      if other = slot then none else d.idOf? other := by
    intro other
    rw [idOf?, hkey]
    split <;> rfl
  by_cases hn : number < 0
  · refine ⟨{ d with ids := (d.ids.erase slot).2 }, ?_, rfl, rfl, h.erase slot, ?_⟩
    · simp [setId, hn, bind, Except.bind, pure, Except.pure]
    · simpa only [hn, if_true] using herase
  · have hfree : (d.ids.erase slot).2.contains slot = false := by
      rw [← HashIndex.isSome_key?, hkey, if_pos rfl, Option.isSome_none]
    refine ⟨{ d with ids := (d.ids.erase slot).2.push slot ⟨number⟩ }, ?_, rfl, rfl,
      (h.erase slot).push hfree _, ?_⟩
    · simp [setId, hn, HashIndex.insert, hfree, bind, Except.bind, pure, Except.pure]
    · intro other
      rw [idOf?_of_push (d := { d with ids := (d.ids.erase slot).2 }) rfl, herase, if_neg hn]
      split <;> rfl

theorem claimId_cases (h : d.ids.WellLinked) (slot : Nat) :
    (∃ number, d.idOf? slot = some number ∧ d.claimId slot = (.ok number, d)) ∨
    (∃ error pool, d.idOf? slot = none ∧ d.claimId slot = (.error error, { d with pool }) ∧
      pool.cursor ≤ d.pool.cursor) ∨
    (∃ number pool, d.idOf? slot = none ∧
      d.claimId slot = (.ok number, { d with ids := d.ids.push slot ⟨number⟩, pool }) ∧
      (d.ids.push slot ⟨number⟩).WellLinked ∧ 0 ≤ number ∧ number ≤ d.pool.cursor ∧ pool.cursor < number ∧
      ∀ other, d.idOf? other ≠ some number) := by
  cases hid : d.idOf? slot with
  | some number => exact .inl ⟨number, rfl, by simp [claimId, hid]⟩
  | none =>
    refine .inr ?_
    have hfree := contains_ids_of_unnumbered hid
    rcases d.pool.allocate_cases fun id => (d.ids.find? ⟨id⟩).isSome with
      ⟨number, hallocate, hnonneg, hle, hunused, -⟩ | ⟨pool, hallocate, -, hle, -⟩
    · have hbelow : number - 1 < number := Int.sub_lt_self _ (by decide)
      refine .inr ⟨number, { cursor := number - 1 }, rfl, ?_, h.push hfree _, hnonneg, hle, hbelow, ?_⟩
      · simp [claimId, hid, hallocate, HashIndex.insert, hfree]
      · intro other ho
        obtain ⟨key, hkey, rfl⟩ := Option.map_eq_some_iff.mp ho
        obtain ⟨found, hfound⟩ := h.exists_find? hkey (IndexKey.same_refl key)
        rw [show (⟨key.value⟩ : LegacyId) = key from rfl, hfound] at hunused
        cases hunused
    · exact .inl ⟨.pool .exhausted, pool, rfl, by simp [claimId, hid, hallocate], hle⟩

end Directory

end FrameTable
