import FrameTable.Proofs.Catalog.Integrity
import FrameTable.Proofs.Catalog.Modify

namespace FrameTable

namespace Store

variable {α : Type} {width count : UInt64} {s s' : Store α width} {init : Nat → α} {first last : Nat}

structure Fits (s : Store α width) : Prop where
  size_le : s.size ≤ s.allocated.toNat
  bytes_le : s.allocated.toNat * width.toNat ≤ maxBytes

/-- The room after a request, in numbers without bound. -/
def planned (s : Store α width) (count : Nat) : Nat :=
  if s.size + count ≤ s.allocated.toNat then s.allocated.toNat
  else if s.allocated = 0 then count
  else if count ≤ 50 then s.allocated.toNat + (2 * count + 32)
  else s.allocated.toNat + count

theorem checked_of_lt {n : Nat} (h : n < UInt64.size) : checked n = .ok n.toUInt64 :=
  if_pos h

theorem checked_of_le {n : Nat} (h : UInt64.size ≤ n) : checked n = .error .overflow :=
  if_neg (Nat.not_lt.mpr h)

theorem checked_toNat (n : UInt64) : checked n.toNat = .ok n := by
  rw [checked_of_lt n.toNat_lt, Nat.toUInt64, UInt64.ofNat_toNat]

theorem planned_le (s : Store α width) (count : Nat) :
    s.planned count ≤ s.allocated.toNat + 2 * count + margin.toNat := by
  rw [planned, show margin.toNat = 32 from rfl]
  split
  · omega
  · split
    · omega
    · split <;> omega

theorem enlarged_eq (h : s.allocated.toNat < s.size + count.toNat) :
    enlarged s.allocated count = checked (s.planned count.toNat) := by
  rw [planned, if_neg (Nat.not_le.mpr h), enlarged]
  have hsmall : count ≤ smallRequest ↔ count.toNat ≤ 50 := UInt64.le_iff_toNat_le
  simp only [hsmall]
  split
  · exact (checked_toNat count).symm
  split
  · next hcount =>
    have hdoubled : count.toNat * 2 < UInt64.size := by
      rw [UInt64.size]
      omega
    have htwice : (count.toNat * 2).toUInt64.toNat = count.toNat * 2 := UInt64.toNat_ofNat_of_lt' hdoubled
    simp only [checked_of_lt hdoubled, bind, Except.bind, htwice]
    -- The margin does not bring a sum back that has left the words.
    rcases Nat.lt_or_ge (s.allocated.toNat + count.toNat * 2) UInt64.size with hsum | hsum
    · have hroom : (s.allocated.toNat + count.toNat * 2).toUInt64.toNat = s.allocated.toNat + count.toNat * 2 :=
        UInt64.toNat_ofNat_of_lt' hsum
      simp only [checked_of_lt hsum, hroom, show margin.toNat = 32 from rfl]
      congr 1
      omega
    · rw [checked_of_le hsum, checked_of_le]
      omega
  · rfl

namespace Fits

theorem add_le_planned (h : s.Fits) (count : Nat) : s.size + count ≤ s.planned count := by
  have hle := h.size_le
  unfold planned
  split
  · assumption
  · split
    · next hzero =>
      rw [hzero, UInt64.toNat_zero] at hle
      omega
    · split <;> omega

theorem allocated_le (h : s.Fits) (hwidth : 0 < width.toNat) : s.allocated.toNat ≤ maxBytes :=
  Nat.le_trans (Nat.le_mul_of_pos_right _ hwidth) h.bytes_le

theorem planned_lt_iff (h : s.Fits) (hwidth : 0 < width.toNat) :
    s.planned count.toNat < UInt64.size ↔ s.allocated.toNat + count.toNat < UInt64.size := by
  have hle := h.size_le
  have hallocated := h.allocated_le hwidth
  have hcount := count.toNat_lt
  rw [planned, UInt64.size]
  unfold maxBytes at hallocated
  split
  · omega
  · split
    · next hzero =>
      have hnone : s.allocated.toNat = 0 := by rw [hzero, UInt64.toNat_zero]
      omega
    · split <;> omega

theorem planned_one_lt (h : s.Fits) (hwidth : 0 < width.toNat) : s.planned (1 : UInt64).toNat < UInt64.size := by
  have hallocated := h.allocated_le hwidth
  rw [h.planned_lt_iff hwidth, show (1 : UInt64).toNat = 1 from rfl, UInt64.size]
  unfold maxBytes at hallocated
  omega

theorem grow_eq (h : s.Fits) (hcount : count ≠ 0) :
    s.grow count = (checked (s.planned count.toNat)).bind fun allocated =>
      if maxBytes < allocated.toNat * width.toNat then .error (.outOfMemory count) else .ok allocated := by
  have hplanned := h.add_le_planned count.toNat
  rcases Nat.lt_or_ge s.allocated.toNat (s.size + count.toNat) with hgrows | hroom
  · rcases Nat.lt_or_ge (s.size + count.toNat) UInt64.size with hneeded | hneeded
    · have hsum : (s.size + count.toNat).toUInt64.toNat = s.size + count.toNat := UInt64.toNat_ofNat_of_lt' hneeded
      have hnone : ¬(s.allocated ≠ 0 ∧ (s.size + count.toNat).toUInt64 ≤ s.allocated) := by
        rw [UInt64.le_iff_toNat_le, hsum]
        exact fun hsome => Nat.not_le.mpr hgrows hsome.2
      simp only [grow, checked_of_lt hneeded, bind, Except.bind, if_neg hnone, enlarge, enlarged_eq hgrows]
      rcases Nat.lt_or_ge (s.planned count.toNat) UInt64.size with hword | hword
      · have hallocated : (s.planned count.toNat).toUInt64.toNat = s.planned count.toNat :=
          UInt64.toNat_ofNat_of_lt' hword
        have hsize : s.size ≤ s.planned count.toNat := Nat.le_of_add_right_le hplanned
        simp only [checked_of_lt hword, hallocated, if_neg (Nat.not_lt.mpr hsize), Nat.add_sub_cancel' hsize]
      · simp only [checked_of_le hword]
    · simp only [grow, checked_of_le hneeded, checked_of_le (Nat.le_trans hneeded hplanned), bind, Except.bind]
  · have hneeded : s.size + count.toNat < UInt64.size := Nat.lt_of_le_of_lt hroom s.allocated.toNat_lt
    have hsum : (s.size + count.toNat).toUInt64 ≤ s.allocated := by
      rw [UInt64.le_iff_toNat_le, Nat.toUInt64, UInt64.toNat_ofNat_of_lt' hneeded]
      exact hroom
    have hallocated : s.allocated ≠ 0 := by
      rintro hzero
      rw [hzero, UInt64.toNat_zero] at hroom
      exact hcount (UInt64.toNat_inj.mp (by rw [UInt64.toNat_zero]; omega))
    rw [planned, if_pos hroom]
    simp only [grow, checked_of_lt hneeded, checked_toNat, bind, Except.bind, if_pos (And.intro hallocated hsum),
      if_neg (Nat.not_lt.mpr h.bytes_le)]

theorem grow_eq_ok (h : s.Fits) (hcount : count ≠ 0) {allocated : UInt64} (hgrow : s.grow count = .ok allocated) :
    allocated.toNat = s.planned count.toNat ∧ s.planned count.toNat * width.toNat ≤ maxBytes := by
  rw [h.grow_eq hcount] at hgrow
  rcases Nat.lt_or_ge (s.planned count.toNat) UInt64.size with hword | hword
  · have hroom : (s.planned count.toNat).toUInt64.toNat = s.planned count.toNat := UInt64.toNat_ofNat_of_lt' hword
    simp only [checked_of_lt hword, Except.bind, hroom] at hgrow
    split at hgrow
    · cases hgrow
    · next hbytes => exact ⟨Except.ok.inj hgrow ▸ hroom, Nat.le_of_not_lt hbytes⟩
  · simp [checked_of_le hword, Except.bind] at hgrow

theorem grow_eq_error (h : s.Fits) (hcount : count ≠ 0) (hword : s.planned count.toNat < UInt64.size)
    {error : StoreError} (hgrow : s.grow count = .error error) :
    error = .outOfMemory count ∧ maxBytes < s.planned count.toNat * width.toNat := by
  have hroom : (s.planned count.toNat).toUInt64.toNat = s.planned count.toNat := UInt64.toNat_ofNat_of_lt' hword
  simp only [h.grow_eq hcount, checked_of_lt hword, Except.bind, hroom] at hgrow
  split at hgrow
  · next hbytes => exact ⟨(Except.error.inj hgrow).symm, hbytes⟩
  · cases hgrow

theorem of_grow (h : s.Fits) (hcount : count ≠ 0) (hsize : s'.size = s.size + count.toNat)
    (hgrow : s.grow count = .ok s'.allocated) : s'.Fits := by
  obtain ⟨hallocated, hbytes⟩ := h.grow_eq_ok hcount hgrow
  exact ⟨hallocated ▸ hsize ▸ h.add_le_planned count.toNat, hallocated ▸ hbytes⟩

theorem reserve (h : s.Fits) (hok : s.reserve count init = .ok ((first, last), s')) : s'.Fits := by
  have hsize := (get?_of_reserve hok).2.2.1
  simp only [Store.reserve, bind, Except.bind, pure, Except.pure] at hok
  split at hok
  · cases hok
    exact h
  · next hcount =>
    split at hok
    · cases hok
    · next allocated hgrow =>
      cases hok
      exact h.of_grow hcount hsize hgrow

theorem push (h : s.Fits) {item : α} {slot : Nat} (hok : s.push item = .ok (slot, s')) : s'.Fits := by
  have hsize := (get?_of_push hok).2.1
  simp only [Store.push, bind, Except.bind, pure, Except.pure] at hok
  split at hok
  · cases hok
  · next allocated hgrow =>
    cases hok
    have hone : (1 : UInt64) ≠ 0 := by decide
    exact h.of_grow hone hsize hgrow

theorem modify (h : s.Fits) (slot : Nat) (f : α → α) : (s.modify slot f).Fits :=
  ⟨Nat.le_trans (Nat.le_of_eq (size_modify s slot f)) h.size_le, h.bytes_le⟩

theorem map (h : s.Fits) (f : α → α) : (s.map f).Fits :=
  ⟨Nat.le_trans (Nat.le_of_eq (size_map s f)) h.size_le, h.bytes_le⟩

end Fits

theorem fits_empty : (empty : Store α width).Fits :=
  ⟨Nat.le_refl _, by simp [empty]⟩

theorem fits_singleton (item : α) (h : width.toNat ≤ maxBytes) : (singleton item : Store α width).Fits :=
  ⟨Nat.le_refl _, by simpa [singleton] using h⟩

variable {error : StoreError}

theorem push_eq_error (h : s.Fits) (hwidth : 0 < width.toNat) {item : α} (hpush : s.push item = .error error) :
    error = .outOfMemory 1 ∧ maxBytes < (s.allocated.toNat + 2 + margin.toNat) * width.toNat := by
  simp only [push, bind, Except.bind, pure, Except.pure] at hpush
  split at hpush
  · next hgrow =>
    obtain rfl := Except.error.inj hpush
    obtain ⟨herror, hbytes⟩ := h.grow_eq_error (by decide) (h.planned_one_lt hwidth) hgrow
    exact ⟨herror, Nat.lt_of_lt_of_le hbytes (Nat.mul_le_mul_right _ (s.planned_le 1))⟩
  · cases hpush

theorem reserve_eq_error (h : s.Fits) (hword : s.planned count.toNat < UInt64.size)
    (hreserve : s.reserve count init = .error error) :
    error = .outOfMemory count ∧ count ≠ 0 ∧
      maxBytes < (s.allocated.toNat + 2 * count.toNat + margin.toNat) * width.toNat := by
  simp only [reserve, bind, Except.bind, pure, Except.pure] at hreserve
  split at hreserve
  · cases hreserve
  next hcount =>
  split at hreserve
  · next hgrow =>
    obtain rfl := Except.error.inj hreserve
    obtain ⟨herror, hbytes⟩ := h.grow_eq_error hcount hword hgrow
    exact ⟨herror, hcount, Nat.lt_of_lt_of_le hbytes (Nat.mul_le_mul_right _ (s.planned_le count.toNat))⟩
  · cases hreserve

end Store

namespace Catalog

variable {ε : Type} [Record ε] {c c' : Catalog ε} {slot : Nat}

abbrev Fits (c : Catalog ε) : Prop :=
  c.store.Fits

theorem size_setId {number : Int} (h : c.setId slot number = .ok c') : c'.size = c.size := by
  simp only [setId, bind, Except.bind, pure, Except.pure] at h
  split at h
  · cases h
  · cases h
    exact Store.size_modify _ _ _

theorem reserve_eq_error (h : c.Fits) {count : UInt64} {init : Nat → ε} {error : CatalogError}
    (hword : c.store.planned count.toNat < UInt64.size) (hreserve : c.reserve count init = .error error) :
    error = .store (.outOfMemory count) ∧ count ≠ 0 ∧ Store.maxBytes <
      (c.store.allocated.toNat + 2 * count.toNat + Store.margin.toNat) * (Record.width ε).toNat := by
  simp only [reserve, bind, Except.bind, pure, Except.pure] at hreserve
  cases hstore : c.store.reserve count init with
  | error error' =>
    simp only [hstore, Except.mapError, Except.error.injEq] at hreserve
    obtain ⟨rfl, hrest⟩ := Store.reserve_eq_error h hword hstore
    exact ⟨hreserve.symm, hrest⟩
  | ok result => simp [hstore, Except.mapError] at hreserve

namespace Fits

theorem reserve (h : c.Fits) {count : UInt64} {init : Nat → ε} {first last : Nat}
    (hok : c.reserve count init = .ok ((first, last), c')) : c'.Fits := by
  simp only [Catalog.reserve, bind, Except.bind, pure, Except.pure] at hok
  cases hstore : c.store.reserve count init with
  | error error => simp [hstore, Except.mapError] at hok
  | ok result =>
    obtain ⟨range, store⟩ := result
    simp only [hstore, Except.mapError, Except.ok.injEq, Prod.mk.injEq] at hok
    obtain ⟨rfl, rfl⟩ := hok
    exact Store.Fits.reserve h hstore

theorem claimId (h : c.Fits) (slot : Nat) : (c.claimId slot).2.Fits := by
  unfold Catalog.claimId
  split
  · exact h
  · exact h.modify slot _

theorem setId (h : c.Fits) {number : Int} (hok : c.setId slot number = .ok c') : c'.Fits := by
  simp only [Catalog.setId, bind, Except.bind, pure, Except.pure] at hok
  split at hok
  · cases hok
  · cases hok
    exact h.modify slot _

theorem enlist (h : c.Fits) (hok : c.enlist slot = .ok c') : c'.Fits := by
  rw [Fits, store_enlist hok]
  exact h

theorem define (h : c.Fits) {entry : ε} (hok : c.define entry = .ok (slot, c')) : c'.Fits := by
  simp only [Catalog.define, bind, Except.bind, pure, Except.pure] at hok
  split at hok
  · split at hok
    · cases hok
    · next c₁ hset =>
      obtain rfl := (Prod.mk.inj (Except.ok.inj hok)).2
      exact setId (c := c.modify _ _) (h.modify _ _) hset
  · simp only [Except.mapError] at hok
    cases hpush : c.store.push entry with
    | error error => simp [hpush] at hok
    | ok added =>
      simp only [hpush] at hok
      split at hok
      · cases hok
      · next c₁ henlist =>
        obtain rfl := (Prod.mk.inj (Except.ok.inj hok)).2
        exact enlist (c := { c with store := added.2 }) (h.push hpush) henlist

end Fits

theorem EnlistedTo.define_eq_error (h : c.Consistent) (hfits : c.Fits) {entry : ε} {error : CatalogError}
    (hdefine : c.define entry = .error error) : error = .store (.outOfMemory 1) := by
  cases hname : c.slotNamed? (Record.name entry) with
  | some known =>
    obtain ⟨defined, hok, -⟩ := h.exists_define_eq_ok hname
    cases hok.symm.trans hdefine
  | none =>
    cases hpush : c.store.push entry with
    | error cause =>
      simp only [Catalog.define, hname, hpush, bind, Except.bind, Except.mapError, Except.error.injEq] at hdefine
      rw [← hdefine, (Store.push_eq_error hfits Record.width_pos hpush).1]
    | ok result =>
      obtain ⟨directory, hok, -⟩ := h.exists_define_of_push hname hpush
      cases hok.symm.trans hdefine

end Catalog

end FrameTable
