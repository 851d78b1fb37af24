import Mathlib.Data.List.Basic
import FrameTable.Proofs.Catalog.Numbering
import FrameTable.Proofs.Index.Owners

namespace FrameTable

namespace Catalog

variable {ε : Type} [Record ε] {c c' : Catalog ε} {slot : Nat} {number id : Int}

def owners (c : Catalog ε) (id : Int) : List Nat :=
  c.directory.owners id

theorem slotNumbered?_eq_head? (c : Catalog ε) (hid : 0 ≤ id) : c.slotNumbered? id = (c.owners id).head? :=
  c.directory.slotNumbered?_eq_head? hid

theorem owners_setId (h : c.directory.ids.WellLinked) (hset : c.setId slot number = .ok c') (id : Int) :
    c'.owners id = promote (c.owners id) slot (0 ≤ number ∧ number = id) := by
  simp only [setId, bind, Except.bind, pure, Except.pure] at hset
  cases hdirectory : c.directory.setId slot number with
  | error error => simp [hdirectory, Except.mapError] at hset
  | ok directory =>
    simp only [hdirectory, Except.mapError, Except.ok.injEq] at hset
    rw [← hset]
    exact Directory.owners_setId h hdirectory id

theorem owners_enlist (h : c.directory.ids.WellLinked) {e : ε} (he : c.get? slot = some e)
    (henlist : c.enlist slot = .ok c') (id : Int) :
    c'.owners id = promote (c.owners id) slot (0 ≤ Record.number e ∧ Record.number e = id) := by
  simp only [enlist, he, bind, Except.bind, pure, Except.pure] at henlist
  cases hadd : c.directory.addName slot (Record.name e) with
  | error error => simp [hadd, Except.mapError] at henlist
  | ok named =>
    have hids : named.ids = c.directory.ids := by
      obtain ⟨names, rfl⟩ := Directory.exists_names_of_addName hadd
      rfl
    cases hset : named.setId slot (Record.number e) with
    | error error => simp [hadd, hset, Except.mapError] at henlist
    | ok directory =>
      simp only [hadd, hset, Except.mapError, Except.ok.injEq] at henlist
      have howners := Directory.owners_setId (hids ▸ h) hset id
      rw [← henlist, owners, owners, howners, Directory.owners, Directory.owners, hids]

namespace EnlistedTo

theorem mem_owners_iff (h : c.Consistent) :
    slot ∈ c.owners id ↔ 0 ≤ id ∧ ∃ e, c.get? slot = some e ∧ Record.number e = id :=
  h.mem_slots_ids_iff

theorem slotNumbered?_eq_none (h : c.Consistent) (hnone : ∀ {i e}, c.get? i = some e → Record.number e ≠ id) :
    c.slotNumbered? id = none := by
  by_cases hid : id < 0
  · exact if_pos hid
  · rw [c.slotNumbered?_eq_head? (Int.not_lt.mp hid), List.head?_eq_none_iff]
    refine List.eq_nil_iff_forall_not_mem.mpr fun slot hmem => ?_
    obtain ⟨-, e, he, hnumber⟩ := h.mem_owners_iff.mp hmem
    exact hnone he hnumber

theorem owners_define (h : c.Consistent) {entry : ε} (hdefine : c.define entry = .ok (slot, c')) (id : Int) :
    c'.owners id = promote (c.owners id) slot (0 ≤ Record.number entry ∧ Record.number entry = id) := by
  simp only [Catalog.define, bind, Except.bind, pure, Except.pure] at hdefine
  cases hname : c.slotNamed? (Record.name entry) with
  | some known =>
    simp only [hname] at hdefine
    cases hset : (c.modify known fun _ => entry).setId known (Record.number entry) with
    | error error => simp [hset] at hdefine
    | ok defined =>
      simp only [hset, Except.ok.injEq, Prod.mk.injEq] at hdefine
      obtain ⟨rfl, rfl⟩ := hdefine
      exact owners_setId (c := c.modify known fun _ => entry) h.ids_linked hset id
  | none =>
    simp only [hname] at hdefine
    cases hpush : c.store.push entry with
    | error error => simp [hpush, Except.mapError] at hdefine
    | ok pushed =>
      obtain ⟨new, store⟩ := pushed
      obtain ⟨rfl, -, hget⟩ := Store.get?_of_push hpush
      cases henlist : ({ c with store } : Catalog ε).enlist c.store.size with
      | error error => simp [hpush, henlist, Except.mapError] at hdefine
      | ok enlisted =>
        simp only [hpush, henlist, Except.mapError, Except.ok.injEq, Prod.mk.injEq] at hdefine
        obtain ⟨rfl, rfl⟩ := hdefine
        exact owners_enlist (c := { c with store }) h.ids_linked ((hget _).trans (if_pos rfl)) henlist id

theorem slotNumbered?_define (h : c.Consistent) {entry : ε} (hdefine : c.define entry = .ok (slot, c'))
    (hnonneg : 0 ≤ Record.number entry) : c'.slotNumbered? (Record.number entry) = some slot := by
  rw [c'.slotNumbered?_eq_head? hnonneg, h.owners_define hdefine, promote, if_pos ⟨hnonneg, rfl⟩, List.head?_cons]

end EnlistedTo

theorem owners_claimId (h : c.directory.ids.WellLinked) (slot : Nat) (id : Int) :
    (c.claimId slot).2.owners id = c.owners id ∨ c.owners id = [] ∧ (c.claimId slot).2.owners id = [slot] := by
  rw [owners, directory_claimId]
  exact Directory.owners_claimId h slot id

structure KeepsOwners (c c' : Catalog ε) : Prop where
  owners : ∀ id, c'.owners id = c.owners id ∨ c.owners id = [] ∧ (c'.owners id).length ≤ 1
  slotNamed?_iff : ∀ {id slot}, slot ∈ c.owners id → ∀ name,
    c'.slotNamed? name = some slot ↔ c.slotNamed? name = some slot

namespace KeepsOwners

variable {c'' : Catalog ε}

theorem of_directory_eq (h : c'.directory = c.directory) : c.KeepsOwners c' where
  owners id := .inl (congrArg (·.owners id) h)
  slotNamed?_iff _ name := by rw [slotNamed?, slotNamed?, h]

theorem trans (h : c.KeepsOwners c') (h' : c'.KeepsOwners c'') : c.KeepsOwners c'' where
  owners id := by
    rcases h.owners id with hsame | ⟨hnil, hlength⟩
    · rw [← hsame]
      exact h'.owners id
    · rcases h'.owners id with hsame | ⟨-, hlength'⟩
      · exact .inr ⟨hnil, hsame ▸ hlength⟩
      · exact .inr ⟨hnil, hlength'⟩
  slotNamed?_iff {id slot} hmem name := by
    have hmem' : slot ∈ c'.owners id := by
      rcases h.owners id with hsame | ⟨hnil, -⟩
      · rwa [hsame]
      · rw [hnil] at hmem
        cases hmem
    rw [h'.slotNamed?_iff hmem', h.slotNamed?_iff hmem]

end KeepsOwners

theorem EnlistedTo.keepsOwners_claimId (h : c.Consistent) (slot : Nat) : c.KeepsOwners (c.claimId slot).2 where
  owners id := (owners_claimId h.ids_linked slot id).imp_right fun ⟨hnil, hsole⟩ =>
    ⟨hnil, Nat.le_of_eq (congrArg List.length hsole)⟩
  slotNamed?_iff _ name := by rw [slotNamed?_claimId]

theorem EnlistedTo.keepsOwners_define (h : c.Consistent) {entry : ε}
    (hnew : c.slotNamed? (Record.name entry) = none) (hneg : Record.number entry < 0)
    (hdefine : c.define entry = .ok (slot, c')) : c.KeepsOwners c' := by
  obtain ⟨rfl, hc', -, -, hget⟩ := h.define_of_new hnew hdefine
  have hne : ∀ {id other}, other ∈ c.owners id → other ≠ c.size := fun hmem => by
    obtain ⟨-, e, he, -⟩ := h.mem_owners_iff.mp hmem
    exact Nat.ne_of_lt (lt_size_of_get? he)
  refine ⟨fun id => .inl ?_, fun hmem name => ?_⟩
  · rw [h.owners_define hdefine, promote, if_neg fun hid => absurd hneg (Int.not_lt.mpr hid.1)]
    exact List.filter_eq_self.mpr fun other hmem => decide_eq_true (hne hmem)
  · rw [h.slotNamed?_eq_some_iff, hc'.slotNamed?_eq_some_iff, hget, if_neg (hne hmem)]

end Catalog

end FrameTable
