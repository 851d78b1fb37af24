import FrameTable.Proofs.Catalog.Numbering
import FrameTable.Proofs.Index.Numbering

namespace FrameTable

namespace Catalog

variable {ε : Type} [Record ε] {c c' : Catalog ε} {slot : Nat} {e : ε} {result : Except NumberingError Int}

def issue (c : Catalog ε) (slot : Nat) (id : Int) : Catalog ε where
  store := c.store.modify slot (Record.withNumber · id)
  directory := { c.directory with ids := c.directory.ids.push slot ⟨id⟩, pool := { cursor := id - 1 } }

inductive Demand (c : Catalog ε) (slot : Nat) (e : ε) : Except NumberingError Int → Catalog ε → Prop
  | keep (hnonneg : 0 ≤ Record.number e) : Demand c slot e (.ok (Record.number e)) c
  | issue {id : Int} (hneg : Record.number e < 0) (hfree : c.directory.NextFree id)
      (hunused : ∀ {i e'}, c.get? i = some e' → Record.number e' ≠ id) : Demand c slot e (.ok id) (c.issue slot id)
  | refuse {pool : IdPool} (hneg : Record.number e < 0) (hspent : c.directory.Spent) (hdry : pool.cursor < 0)
      (hle : pool.cursor ≤ c.cursor) : Demand c slot e (.error (.pool .exhausted)) (c.withPool pool)

namespace EnlistedTo

variable (h : c.Consistent) (he : c.get? slot = some e)
include h he

theorem idOf?_eq_none (hneg : Record.number e < 0) : c.directory.idOf? slot = none := by
  refine Option.eq_none_iff_forall_ne_some.mpr fun id hid => ?_
  obtain ⟨hnonneg, e', he', rfl⟩ := h.idOf?_eq_some_iff.mp hid
  obtain rfl := Option.some.inj (he.symm.trans he')
  omega

theorem claimId_of_nonneg (hnonneg : 0 ≤ Record.number e) : c.claimId slot = (.ok (Record.number e), c) :=
  claimId_of_kept he (Directory.claimId_of_numbered (h.idOf?_eq_some_iff.mpr ⟨hnonneg, e, he, rfl⟩))

theorem demand_claimId : c.Demand slot e (c.claimId slot).1 (c.claimId slot).2 := by
  rcases Int.lt_or_le (Record.number e) 0 with hneg | hnonneg
  · rcases Directory.claimId_of_unnumbered h.ids_linked (h.idOf?_eq_none he hneg) with ⟨id, hfree, hclaim⟩ |
      ⟨pool, hspent, hdry, hle, hclaim⟩
    · rw [claimId, hclaim]
      refine .issue hneg hfree fun {i e'} he' hnumber => hfree.not_held ⟨i, ?_⟩
      exact h.idOf?_eq_some_iff.mpr ⟨hfree.nonneg, e', he', hnumber⟩
    · rw [claimId, hclaim]
      exact .refuse hneg hspent hdry hle
  · rw [h.claimId_of_nonneg he hnonneg]
    exact .keep hnonneg

end EnlistedTo

theorem get?_issue (he : c.get? slot = some e) (id : Int) :
    (c.issue slot id).get? slot = some (Record.withNumber e id) :=
  (get?_modify_withNumber he slot).trans (if_pos rfl)

namespace Demand

variable (h : c.Demand slot e result c') (he : c.get? slot = some e)
include h he

theorem exists_get? : ∃ e', c'.get? slot = some e' ∧ Record.name e' = Record.name e ∧
    ∀ id, result = .ok id → 0 ≤ id ∧ Record.number e' = id := by
  cases h with
  | keep hnonneg =>
    refine ⟨e, he, rfl, fun id hid => ?_⟩
    obtain rfl := Except.ok.inj hid
    exact ⟨hnonneg, rfl⟩
  | @issue issued _ hfree =>
    refine ⟨_, get?_issue he issued, Record.name_withNumber e issued, fun id hid => ?_⟩
    obtain rfl := Except.ok.inj hid
    exact ⟨hfree.nonneg, Record.number_withNumber e issued⟩
  | refuse => exact ⟨e, he, rfl, nofun⟩

theorem again (hc : c.Consistent) : c'.claimId slot = (result, c') := by
  cases h with
  | keep hnonneg => exact hc.claimId_of_nonneg he hnonneg
  | @issue id =>
    have hnumber := Record.number_withNumber e id
    have hid : (c.issue slot id).directory.idOf? slot = some id := (Directory.idOf?_of_push rfl slot).trans (if_pos rfl)
    have hkept := claimId_of_kept (get?_issue he id) (hnumber.symm ▸ Directory.claimId_of_numbered hid)
    rwa [hnumber] at hkept
  | @refuse pool hneg _ hdry =>
    have hrefused : (c.withPool pool).directory.claimId slot = (_, (c.withPool pool).directory) :=
      Directory.claimId_of_dry hdry (hc.idOf?_eq_none he hneg)
    rw [claimId, hrefused]

end Demand

end Catalog

end FrameTable
