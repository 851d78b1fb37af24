import FrameTable.Proofs.Catalog.Evolution
import FrameTable.Proofs.Catalog.Modify

namespace FrameTable.Catalog

variable {ε : Type} [Record ε] {a b c c' : Catalog ε} {slot : Nat} {e : ε}

structure Numbers (c c' : Catalog ε) : Prop where
  names : c.KeepsNames c'
  kept : ∀ {slot e}, c.get? slot = some e → ∃ e', c'.get? slot = some e' ∧ Record.name e' = Record.name e ∧
    (0 ≤ Record.number e → Record.number e' = Record.number e)
  origin : ∀ {slot e'}, c'.get? slot = some e' → 0 ≤ Record.number e' →
    (∃ e, c.get? slot = some e ∧ Record.number e = Record.number e') ∨ Issued c c' slot (Record.number e')
  cursor_le : c'.cursor ≤ c.cursor

namespace Numbers

theorem refl (c : Catalog ε) : Numbers c c where
  names h := h
  kept he := ⟨_, he, rfl, fun _ => rfl⟩
  origin he _ := .inl ⟨_, he, rfl⟩
  cursor_le := Int.le_refl _

theorem trans (h : Numbers a b) (h' : Numbers b c) : Numbers a c where
  names hname := h'.names (h.names hname)
  kept he := by
    obtain ⟨e', he', hname, hid⟩ := h.kept he
    obtain ⟨e'', he'', hname', hid'⟩ := h'.kept he'
    refine ⟨e'', he'', hname'.trans hname, fun hnonneg => ?_⟩
    have hkept := hid hnonneg
    exact (hid' (hkept ▸ hnonneg)).trans hkept
  origin {slot e''} he'' hnonneg := by
    rcases h'.origin he'' hnonneg with ⟨e', he', hsame⟩ | ⟨-, hle, hlt, hsole⟩
    · rcases h.origin he' (hsame ▸ hnonneg) with ⟨e, he, hsame'⟩ | ⟨-, hle, hlt, hsole⟩
      · exact .inl ⟨e, he, hsame'.trans hsame⟩
      · -- Later ids are below this one, so whoever holds it had it in the middle.
        rw [hsame] at hle hlt hsole
        refine .inr ⟨hnonneg, hle, Int.lt_of_le_of_lt h'.cursor_le hlt, fun {i e₁} he₁ hnumber => ?_⟩
        rcases h'.origin he₁ (hnumber ▸ hnonneg) with ⟨e₂, he₂, hsame₂⟩ | ⟨-, hle', -⟩
        · exact hsole he₂ (hsame₂.trans hnumber)
        · omega
    · exact .inr ⟨hnonneg, Int.le_trans hle h.cursor_le, hlt, hsole⟩
  cursor_le := Int.le_trans h'.cursor_le h.cursor_le

theorem identity? (h : Numbers c c') {e : String × Int} (he : (c.get? slot).map identity = some e) :
    ∃ e', (c'.get? slot).map identity = some e' ∧ e'.1 = e.1 ∧ (0 ≤ e.2 → e'.2 = e.2) := by
  obtain ⟨record, hrecord, rfl⟩ := Option.map_eq_some_iff.mp he
  obtain ⟨record', hrecord', hkept⟩ := h.kept hrecord
  exact ⟨identity record', congrArg (Option.map identity) hrecord', hkept⟩

theorem issued (h : Numbers c c') (hneg : ∀ {e}, c.get? slot = some e → Record.number e < 0) {e' : ε}
    (he' : c'.get? slot = some e') (hnonneg : 0 ≤ Record.number e') : Issued c c' slot (Record.number e') := by
  rcases h.origin he' hnonneg with ⟨e, he, hsame⟩ | hissued
  · have := hneg he
    omega
  · exact hissued

end Numbers

theorem Amends.numbers (h : Amends [] c c')
    (horigin : ∀ {slot e'}, c'.get? slot = some e' → 0 ≤ Record.number e' → ∃ e, c.get? slot = some e) :
    Numbers c c' := by
  have hnone : ∀ name, ¬Mentions [] name := fun _ ⟨_, hmem, _⟩ => nomatch hmem
  refine ⟨h.names, fun he => ?_, fun he' hnonneg => ?_, h.cursor_le⟩
  · rcases h.record he (hnone _) with hkept | ⟨hneg, id, he', -⟩
    · exact ⟨_, hkept, rfl, fun _ => rfl⟩
    · exact ⟨_, he', Record.name_withNumber _ _, fun hnonneg => absurd hneg (Int.not_lt.mpr hnonneg)⟩
  · obtain ⟨e, he⟩ := horigin he' hnonneg
    rcases h.record he (hnone _) with hkept | ⟨-, id, hid, hissued⟩
    · exact .inl ⟨e, he, congrArg Record.number (Option.some.inj (hkept.symm.trans he'))⟩
    · obtain rfl := Option.some.inj (hid.symm.trans he')
      exact .inr (by rwa [Record.number_withNumber])

theorem numbers_modify (c : Catalog ε) (slot : Nat) {f : ε → ε} (hf : ∀ e, identity (f e) = identity e) :
    Numbers c (c.modify slot f) := by
  refine ⟨fun hname => hname, fun {i e} he => ?_, fun {i e'} he' _ => .inl ?_, Int.le_refl _⟩
  · obtain ⟨e', he', hname, hnumber⟩ := get?_of_map_identity (c.map_identity_modify slot hf i) he
    exact ⟨e', he', hname, fun _ => hnumber⟩
  · obtain ⟨e, he, -, hnumber⟩ := get?_of_map_identity (c.map_identity_modify slot hf i).symm he'
    exact ⟨e, he, hnumber⟩

theorem slotNamed?_claimId (c : Catalog ε) (slot : Nat) (name : String) :
    (c.claimId slot).2.slotNamed? name = c.slotNamed? name := by
  have hnames : (c.directory.claimId slot).2.names = c.directory.names := by
    unfold Directory.claimId
    split
    · rfl
    · split
      · rfl
      · split <;> rfl
  rw [slotNamed?, directory_claimId, Directory.slotNamed?, hnames]
  rfl

namespace EnlistedTo

theorem slotNamed?_iff_same (h : c.Consistent) {name other : String} (hname : c.slotNamed? name = some slot) :
    c.slotNamed? other = some slot ↔ Text.same other name = true := by
  obtain ⟨e, he, hsame⟩ := h.slotNamed?_eq_some_iff.mp hname
  rw [h.slotNamed?_eq_some_iff]
  refine ⟨fun ⟨e', he', hsame'⟩ => ?_, fun hother => ⟨e, he, Text.same_trans hsame (Text.same_comm _ _ ▸ hother)⟩⟩
  obtain rfl := Option.some.inj (he.symm.trans he')
  exact Text.same_trans (Text.same_comm _ _ ▸ hsame') hsame

theorem numbers_claimId (h : c.Consistent) (he : c.get? slot = some e) :
    (c.claimId slot).2.Consistent ∧ Numbers c (c.claimId slot).2 ∧
      ∀ {i e'}, (c.claimId slot).2.get? i = some e' → ∃ e, c.get? i = some e := by
  have hclaimed : _ ∧ c.Amends [] (c.claimId slot).2 ∧ _ := h.amends_claimId he
  obtain ⟨hconsistent, hamends, -, hrecord⟩ := hclaimed
  have horigin : ∀ {i e'}, (c.claimId slot).2.get? i = some e' → ∃ e, c.get? i = some e := fun he' => by
    obtain ⟨e, -, he, -⟩ := hrecord he'
    exact ⟨e, he⟩
  exact ⟨hconsistent, hamends.numbers fun he' _ => horigin he', horigin⟩

theorem numbers_define (h : c.Consistent) {entry : ε} (hnew : c.slotNamed? (Record.name entry) = none)
    (hneg : Record.number entry < 0) (hdefine : c.define entry = .ok (slot, c')) : Numbers c c' := by
  have hamends : c.Amends [] c' := h.amends_define hnew hneg hdefine
  refine hamends.numbers fun {i e'} he' hnonneg => ?_
  obtain ⟨-, hget⟩ := get?_of_define hnew hdefine
  rw [hget] at he'
  split at he'
  · obtain rfl := Option.some.inj he'
    omega
  · exact ⟨e', he'⟩

theorem slotNumbered?_eq_some (h : c.Consistent) (he : c.get? slot = some e) (hnonneg : 0 ≤ Record.number e)
    (hsole : ∀ {i e'}, c.get? i = some e' → Record.number e' = Record.number e → i = slot) :
    c.slotNumbered? (Record.number e) = some slot := by
  have hmem : slot ∈ c.directory.ids.slots ⟨Record.number e⟩ :=
    h.mem_slots_ids_iff.mpr ⟨hnonneg, e, he, rfl⟩
  have hfind := c.directory.ids.find?_eq_head? ⟨Record.number e⟩
  rw [slotNumbered?, Directory.slotNumbered?, if_neg (Int.not_lt.mpr hnonneg), hfind]
  cases hslots : c.directory.ids.slots ⟨Record.number e⟩ with
  | nil =>
    rw [hslots] at hmem
    cases hmem
  | cons first rest =>
    have hfirst : first ∈ c.directory.ids.slots ⟨Record.number e⟩ := hslots ▸ List.mem_cons_self
    obtain ⟨-, e', he', hnumber⟩ := h.mem_slots_ids_iff.mp hfirst
    exact congrArg some (hsole he' hnumber)

theorem sole_of_numbers (h : c'.Consistent) (hnumbers : Numbers c c')
    (hneg : ∀ e, (c.get? slot).map identity = some e → e.2 < 0) {e' : String × Int}
    (he' : (c'.get? slot).map identity = some e') (hnonneg : 0 ≤ e'.2) :
    c'.slotNumbered? e'.2 = some slot ∧
      ∀ i e, (c'.get? i).map identity = some e → e.2 = e'.2 → i = slot := by
  obtain ⟨record, hrecord, rfl⟩ := Option.map_eq_some_iff.mp he'
  have hnone : ∀ {e}, c.get? slot = some e → Record.number e < 0 := fun he =>
    hneg _ (congrArg (Option.map identity) he)
  obtain ⟨-, -, -, hsole⟩ := hnumbers.issued hnone hrecord hnonneg
  refine ⟨h.slotNumbered?_eq_some hrecord hnonneg hsole, fun i e he hsame => ?_⟩
  obtain ⟨other, hother, rfl⟩ := Option.map_eq_some_iff.mp he
  exact hsole hother hsame

end EnlistedTo

end FrameTable.Catalog
