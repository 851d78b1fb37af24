import FrameTable.Proofs.Catalog.Room

/-!
How a store grows. As long as the room that is planned for a request is a word, so is every sum on the way to it, and
the request is met exactly, or refused for want of memory.
-/

namespace FrameTable

namespace Store

variable {α : Type} {width count : UInt64} {s s' : Store α width}

inductive Grown : Store α width → Prop
  | empty : Grown empty
  | reserve {s s' : Store α width} {count : UInt64} {init : Nat → α} {range : Nat × Nat} (h : Grown s)
      (hok : s.reserve count init = .ok (range, s')) : Grown s'
  | push {s s' : Store α width} {item : α} {slot : Nat} (h : Grown s) (hok : s.push item = .ok (slot, s')) : Grown s'

/-- If the room planned for `count` slots takes no more than 2 ^ 63 - 1 bytes, the answer is `slots`, and the store then
holds `items` in that room; otherwise the request is refused. -/
def MeetsOrRefuses {β : Type} (s : Store α width) (count : UInt64) (answer : Except StoreError (β × Store α width))
    (slots : β) (items : Array α) : Prop :=
  if s.planned count.toNat * width.toNat ≤ 9223372036854775807 then
    ∃ s', answer = .ok (slots, s') ∧ s'.items = items ∧ s'.allocated.toNat = s.planned count.toNat
  else answer = .error (.outOfMemory count)

theorem Grown.fits (h : s.Grown) : s.Fits := by
  induction h with
  | empty => exact fits_empty
  | reserve _ hok ih => exact ih.reserve hok
  | push _ hok ih => exact ih.push hok

theorem reserve_eq (hcount : count ≠ 0) (init : Nat → α) :
    s.reserve count init = (s.grow count).map fun allocated =>
      ((s.size, s.size + count.toNat),
        { items := s.items ++ ((List.range' s.size count.toNat).map init).toArray, allocated }) := by
  simp only [reserve, if_neg hcount, bind, Except.bind, pure, Except.pure]
  cases s.grow count <;> rfl

theorem push_eq (item : α) :
    s.push item = (s.grow 1).map fun allocated => (s.size, { items := s.items.push item, allocated }) := by
  simp only [push, bind, Except.bind, pure, Except.pure]
  cases s.grow 1 <;> rfl

namespace Fits

variable (h : s.Fits)
include h

theorem meetsOrRefuses_grow (hcount : count ≠ 0) (hword : s.planned count.toNat < UInt64.size) {β : Type} (slots : β)
    (items : Array α) :
    s.MeetsOrRefuses count ((s.grow count).map fun allocated => (slots, { items, allocated })) slots items := by
  have hroom : (s.planned count.toNat).toUInt64.toNat = s.planned count.toNat := UInt64.toNat_ofNat_of_lt' hword
  simp only [MeetsOrRefuses, h.grow_eq hcount, checked_of_lt hword, Except.bind, hroom]
  split
  · next hbytes =>
    rw [if_neg (show ¬maxBytes < _ from Nat.not_lt.mpr hbytes)]
    exact ⟨_, rfl, rfl, hroom⟩
  · next hbytes =>
    rw [if_pos (show maxBytes < _ from Nat.lt_of_not_le hbytes)]
    rfl

theorem grow_of_le (hcount : count ≠ 0) (hword : UInt64.size ≤ s.planned count.toNat) :
    s.grow count = .error .overflow := by
  rw [h.grow_eq hcount, checked_of_le hword]
  rfl

theorem planned_zero : s.planned (0 : UInt64).toNat = s.allocated.toNat :=
  if_pos h.size_le

theorem reserve_meets (hword : s.planned count.toNat < UInt64.size) (init : Nat → α) :
    s.MeetsOrRefuses count (s.reserve count init) (s.size, s.size + count.toNat)
      (s.items ++ ((List.range' s.size count.toNat).map init).toArray) := by
  by_cases hcount : count = 0
  · subst hcount
    have hbytes : s.allocated.toNat * width.toNat ≤ 9223372036854775807 := h.bytes_le
    rw [MeetsOrRefuses, h.planned_zero, if_pos hbytes]
    exact ⟨s, by simp [Store.reserve, pure, Except.pure], by simp, rfl⟩
  · rw [reserve_eq hcount]
    exact h.meetsOrRefuses_grow hcount hword _ _

theorem reserve_of_le (hword : UInt64.size ≤ s.planned count.toNat) (init : Nat → α) :
    s.reserve count init = .error .overflow := by
  have hcount : count ≠ 0 := by
    rintro rfl
    rw [h.planned_zero] at hword
    exact absurd s.allocated.toNat_lt (Nat.not_lt.mpr hword)
  rw [reserve_eq hcount, h.grow_of_le hcount hword, Except.map]

theorem push_meets (hword : s.planned 1 < UInt64.size) (item : α) :
    s.MeetsOrRefuses 1 (s.push item) s.size (s.items.push item) := by
  have hone : (1 : UInt64) ≠ 0 := by decide
  rw [push_eq]
  exact h.meetsOrRefuses_grow hone hword _ _

theorem push_of_le (hword : UInt64.size ≤ s.planned 1) (item : α) : s.push item = .error .overflow := by
  have hone : (1 : UInt64) ≠ 0 := by decide
  rw [push_eq, h.grow_of_le hone hword, Except.map]

end Fits

/-- Whatever a store has come through, a request for `count` slots is met exactly or refused if the room planned for it
is a word, and stops the program if not; for one record that takes space it always is one. -/
theorem Grown.meetsOrRefuses (h : s.Grown) :
    s.size ≤ s.allocated.toNat ∧
    (∀ (count : UInt64) (init : Nat → α), s.planned count.toNat < UInt64.size →
      s.MeetsOrRefuses count (s.reserve count init) (s.size, s.size + count.toNat)
        (s.items ++ ((List.range' s.size count.toNat).map init).toArray)) ∧
    (∀ (count : UInt64) (init : Nat → α), UInt64.size ≤ s.planned count.toNat →
      s.reserve count init = .error .overflow) ∧
    (∀ item : α, s.planned 1 < UInt64.size → s.MeetsOrRefuses 1 (s.push item) s.size (s.items.push item)) ∧
    (∀ item : α, UInt64.size ≤ s.planned 1 → s.push item = .error .overflow) ∧
    (0 < width.toNat → s.planned 1 < UInt64.size ∧ ∀ count : UInt64,
      s.planned count.toNat < UInt64.size ↔ s.allocated.toNat + count.toNat < UInt64.size) := by
  have hfits := h.fits
  exact ⟨hfits.size_le, fun count init hword => hfits.reserve_meets hword init,
    fun count init hword => hfits.reserve_of_le hword init, fun item hword => hfits.push_meets hword item,
    fun item hword => hfits.push_of_le hword item,
    fun hwidth => ⟨hfits.planned_one_lt hwidth, fun count => hfits.planned_lt_iff hwidth⟩⟩

def tenNumbers : Store Nat 8 := ⟨#[0, 1, 2, 3, 4, 5, 6, 7, 8, 9], 10⟩

theorem grown_tenNumbers : tenNumbers.Grown :=
  have hok : (empty : Store Nat 8).reserve 10 id = .ok ((0, 10), tenNumbers) := rfl
  Grown.empty.reserve hok

theorem meetsOrRefuses_tenNumbers :
    tenNumbers.Grown ∧ tenNumbers.planned 4 = 50 ∧
      (∃ s', tenNumbers.reserve 4 id = .ok ((10, 14), s') ∧
        s'.items = #[0, 1, 2, 3, 4, 5, 6, 7, 8, 9, 10, 11, 12, 13] ∧ s'.allocated.toNat = 50) ∧
      tenNumbers.reserve 18446744073709551614 id = .error .overflow := by
  obtain ⟨-, hmeets, hoverflow, -⟩ := Grown.meetsOrRefuses grown_tenNumbers
  have hfour := hmeets 4 id (by decide)
  rw [MeetsOrRefuses, if_pos (by decide)] at hfour
  exact ⟨grown_tenNumbers, by decide, hfour, hoverflow 18446744073709551614 id (by decide)⟩

theorem singleton_neither_meets_nor_refuses :
    (singleton 0 : Store Nat 8).Grown ∧
      (singleton 0 : Store Nat 8).reserve 18446744073709551615 id = .error .overflow ∧
      ¬(singleton 0 : Store Nat 8).MeetsOrRefuses 18446744073709551615
        ((singleton 0 : Store Nat 8).reserve 18446744073709551615 id) (1, 18446744073709551616)
        (#[0] ++ ((List.range' 1 18446744073709551615).map id).toArray) := by
  have hpush : (empty : Store Nat 8).push 0 = .ok (0, singleton 0) := rfl
  have hgrown := Grown.empty.push hpush
  have hreserve : (singleton 0 : Store Nat 8).reserve 18446744073709551615 id = .error .overflow :=
    hgrown.fits.reserve_of_le (by decide) id
  refine ⟨hgrown, hreserve, fun hmeets => ?_⟩
  rw [MeetsOrRefuses, if_neg (by decide), hreserve] at hmeets
  cases hmeets

end Store

end FrameTable
