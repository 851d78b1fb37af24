import Mathlib.Data.List.Basic
import FrameTable.Catalog.Basic

namespace FrameTable

namespace Store

variable {α : Type} {width : UInt64}

theorem ext_get? {s s' : Store α width} (hallocated : s.allocated = s'.allocated)
    (hget : ∀ i, s.get? i = s'.get? i) : s = s' := by
  obtain ⟨items, allocated⟩ := s
  obtain ⟨items', allocated'⟩ := s'
  obtain rfl : items = items' := Array.ext_getElem? hget
  obtain rfl : allocated = allocated' := hallocated
  rfl

theorem modify_modify (s : Store α width) (slot : Nat) (f g : α → α) :
    (s.modify slot f).modify slot g = s.modify slot (g ∘ f) := by
  refine ext_get? rfl fun i => ?_
  simp only [get?_modify]
  split
  · rw [Option.map_map]
  · rfl

theorem modify_comm (s : Store α width) (i j : Nat) {f g : α → α} (h : ∀ item, f (g item) = g (f item)) :
    (s.modify i f).modify j g = (s.modify j g).modify i f := by
  refine ext_get? rfl fun k => ?_
  simp only [get?_modify]
  split <;> split <;> simp [Function.comp_def, h]

theorem grow_modify (s : Store α width) (slot : Nat) (f : α → α) (count : UInt64) :
    (s.modify slot f).grow count = s.grow count := by
  have hallocated : (s.modify slot f).allocated = s.allocated := rfl
  simp only [grow, enlarge, size_modify, hallocated]

theorem push_modify (s : Store α width) {slot : Nat} (hslot : slot < s.size) (f : α → α) (item : α) :
    (s.modify slot f).push item = (s.push item).map fun result => (result.1, result.2.modify slot f) := by
  simp only [push, grow_modify, bind, Except.bind, pure, Except.pure]
  cases s.grow 1 with
  | error error => rfl
  | ok allocated =>
    refine congrArg Except.ok (Prod.ext (size_modify s slot f) (ext_get? rfl fun i => ?_))
    change ((s.items.modify slot f).push item)[i]? = ((s.items.push item).modify slot f)[i]?
    rw [Array.getElem?_push, Array.getElem?_modify, Array.getElem?_modify, Array.getElem?_push, Array.size_modify]
    by_cases hi : i = s.items.size
    · rw [if_pos hi, if_neg (show slot ≠ i from hi ▸ Nat.ne_of_lt hslot), if_pos hi]
    · rw [if_neg hi, if_neg hi]

end Store

namespace Catalog

variable {ε : Type} [Record ε]

theorem claimId_modify (c : Catalog ε) (i j : Nat) {f : ε → ε}
    (hf : ∀ e n, f (Record.withNumber e n) = Record.withNumber (f e) n) :
    (c.modify i f).claimId j = ((c.claimId j).1, (c.claimId j).2.modify i f) := by
  have hdirectory : (c.modify i f).directory = c.directory := rfl
  unfold claimId
  rw [hdirectory]
  split
  · rfl
  · next number directory hclaim =>
    simp only [modify, c.store.modify_comm i j (g := (Record.withNumber · number)) (hf · number)]

theorem enlist_modify (c : Catalog ε) {i j : Nat} (hne : i ≠ j) (f : ε → ε) :
    (c.modify i f).enlist j = (c.enlist j).map (·.modify i f) := by
  have hget : (c.modify i f).get? j = c.get? j := (Store.get?_modify _ _ _ _).trans (if_neg hne)
  have hdirectory : (c.modify i f).directory = c.directory := rfl
  unfold enlist
  rw [hget, hdirectory]
  cases c.get? j with
  | none => rfl
  | some entry =>
    cases hadd : c.directory.addName j (Record.name entry) with
    | error error => simp [hadd, Except.mapError, bind, Except.bind, Except.map]
    | ok named =>
      cases hset : named.setId j (Record.number entry) with
      | error error => simp [hadd, hset, Except.mapError, bind, Except.bind, Except.map]
      | ok directory => simp [hadd, hset, Except.mapError, bind, Except.bind, Except.map, pure, Except.pure, modify]

theorem define_modify (c : Catalog ε) {i : Nat} (hi : i < c.size) (f : ε → ε) {entry : ε}
    (hnew : c.slotNamed? (Record.name entry) = none) :
    (c.modify i f).define entry = (c.define entry).map fun result => (result.1, result.2.modify i f) := by
  have hnew' : (c.modify i f).slotNamed? (Record.name entry) = none := hnew
  have hpush := c.store.push_modify hi f entry
  simp only [define, hnew, hnew', bind, Except.bind]
  rw [show (c.modify i f).store.push entry = _ from hpush]
  cases hstore : c.store.push entry with
  | error error => simp [Except.map, Except.mapError]
  | ok result =>
    obtain ⟨slot, store⟩ := result
    have hne : i ≠ slot := by
      obtain ⟨rfl, -⟩ := Store.get?_of_push hstore
      exact Nat.ne_of_lt hi
    have henlist := enlist_modify { c with store } hne f
    simp only [Except.map, Except.mapError]
    rw [show ({ c.modify i f with store := store.modify i f } : Catalog ε).enlist slot = _ from henlist]
    cases hdone : ({ c with store } : Catalog ε).enlist slot with
    | error error => simp [Except.map]
    | ok c' => simp [Except.map, pure, Except.pure]

theorem directory_claimId (c : Catalog ε) (i : Nat) : (c.claimId i).2.directory = (c.directory.claimId i).2 := by
  unfold claimId
  split <;> simp [*]

theorem size_claimId (c : Catalog ε) (i : Nat) : (c.claimId i).2.size = c.size := by
  unfold claimId
  split
  · rfl
  · exact Store.size_modify _ _ _

theorem get?_claimId_of_ne (c : Catalog ε) {i j : Nat} (hne : i ≠ j) : (c.claimId i).2.get? j = c.get? j := by
  unfold claimId
  split
  · rfl
  · exact (Store.get?_modify _ _ _ _).trans (if_neg hne)

theorem get?_claimId (c : Catalog ε) (i : Nat) {j : Nat} {e : ε} (he : c.get? j = some e) :
    ∃ n, (c.claimId i).2.get? j = some (Record.withNumber e n) := by
  have hself : c.get? j = some (Record.withNumber e (Record.number e)) := by rw [he, Record.withNumber_number]
  by_cases hi : i = j
  · subst hi
    unfold claimId
    split
    · exact ⟨_, hself⟩
    · next number directory hclaim =>
      have hget := Store.get?_modify c.store i i (Record.withNumber · number)
      rw [if_pos rfl, show c.store.get? i = some e from he] at hget
      exact ⟨number, hget⟩
  · exact ⟨_, (c.get?_claimId_of_ne hi).trans hself⟩

theorem store_enlist {c c' : Catalog ε} {slot : Nat} (h : c.enlist slot = .ok c') : c'.store = c.store := by
  unfold enlist at h
  split at h
  · exact (Except.ok.inj h) ▸ rfl
  · next entry _ =>
    cases hadd : c.directory.addName slot (Record.name entry) with
    | error error => simp [hadd, Except.mapError, bind, Except.bind] at h
    | ok named =>
      cases hset : named.setId slot (Record.number entry) with
      | error error => simp [hadd, hset, Except.mapError, bind, Except.bind] at h
      | ok directory =>
        simp only [hadd, hset, Except.mapError, bind, Except.bind, pure, Except.pure, Except.ok.injEq] at h
        exact h ▸ rfl

theorem get?_of_define {c c' : Catalog ε} {entry : ε} {slot : Nat} (hnew : c.slotNamed? (Record.name entry) = none)
    (h : c.define entry = .ok (slot, c')) :
    c'.size = c.size + 1 ∧ ∀ i, c'.get? i = if i = c.size then some entry else c.get? i := by
  simp only [define, hnew, bind, Except.bind, Except.mapError] at h
  cases hpush : c.store.push entry with
  | error error => simp [hpush] at h
  | ok result =>
    obtain ⟨new, store⟩ := result
    obtain ⟨-, hsize, hget⟩ := Store.get?_of_push hpush
    cases henlist : ({ c with store } : Catalog ε).enlist new with
    | error error => simp [hpush, henlist] at h
    | ok done =>
      simp only [hpush, henlist, pure, Except.pure, Except.ok.injEq, Prod.mk.injEq] at h
      obtain ⟨-, rfl⟩ := h
      have hstore : done.store = store := store_enlist henlist
      exact ⟨(congrArg Store.size hstore).trans hsize, fun i => (congrArg (Store.get? · i) hstore).trans (hget i)⟩

end Catalog

end FrameTable
