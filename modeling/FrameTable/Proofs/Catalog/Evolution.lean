import FrameTable.Proofs.Catalog.Integrity

/-!
How a catalog changes in the course of a load. A definition replaces only the record that it names. Later a
record without a legacy id may be given one from the pool, and apart from that nothing happens to a record
that no title mentions. A name never moves to another slot.
-/

namespace FrameTable

def Mentions (titles : List String) (name : String) : Prop :=
  ∃ title ∈ titles, Text.same title name = true

theorem Mentions.congr {titles : List String} {a b : String} (h : Text.same a b = true) :
    Mentions titles a ↔ Mentions titles b := by
  constructor
  · rintro ⟨title, hmem, hsame⟩
    exact ⟨title, hmem, Text.same_trans hsame h⟩
  · rintro ⟨title, hmem, hsame⟩
    exact ⟨title, hmem, Text.same_trans hsame (Text.same_comm _ _ ▸ h)⟩

theorem Mentions.mono {titles titles' : List String} {name : String} (hsub : titles ⊆ titles')
    (h : Mentions titles name) : Mentions titles' name := by
  obtain ⟨title, hmem, hsame⟩ := h
  exact ⟨title, hsub hmem, hsame⟩

namespace Catalog

variable {ε : Type} [Record ε] {titles titles' : List String} {a b c c' : Catalog ε} {slot : Nat}

def cursor (c : Catalog ε) : Int :=
  c.directory.pool.cursor

def KeepsNames (c c' : Catalog ε) : Prop :=
  ∀ {name slot}, c.slotNamed? name = some slot → c'.slotNamed? name = some slot

theorem EnlistedTo.keepsNames (h : c.Consistent) (h' : c'.Consistent)
    (hrecord : ∀ {slot e}, c.get? slot = some e →
      ∃ e', c'.get? slot = some e' ∧ Text.same (Record.name e') (Record.name e) = true) :
    c.KeepsNames c' := by
  intro name slot hname
  obtain ⟨e, he, hsame⟩ := h.slotNamed?_eq_some_iff.mp hname
  obtain ⟨e', he', hkept⟩ := hrecord he
  exact h'.slotNamed?_eq_some_iff.mpr ⟨e', he', Text.same_trans hkept hsame⟩

def Issued (c c' : Catalog ε) (slot : Nat) (id : Int) : Prop :=
  0 ≤ id ∧ id ≤ c.cursor ∧ c'.cursor < id ∧ ∀ {i e}, c'.get? i = some e → Record.number e = id → i = slot

structure Preserves (titles : List String) (c c' : Catalog ε) : Prop where
  names : c.KeepsNames c'
  record : ∀ {slot e}, c.get? slot = some e → ¬Mentions titles (Record.name e) →
    c'.get? slot = some e ∨ Record.number e < 0 ∧
      ∃ id, c'.get? slot = some (Record.withNumber e id) ∧ Issued c c' slot id

structure Redefines (titles : List String) (c c' : Catalog ε) : Prop where
  names : c.KeepsNames c'
  record : ∀ {slot e}, c.get? slot = some e → ¬Mentions titles (Record.name e) → c'.get? slot = some e
  pool : c'.directory.pool = c.directory.pool

structure Amends (titles : List String) (c c' : Catalog ε) : Prop extends Preserves titles c c' where
  holder : ∀ {slot e'}, c'.get? slot = some e' → 0 ≤ Record.number e' →
    Record.number e' ≤ c.cursor ∨ ∃ e, c.get? slot = some e ∧ Record.number e = Record.number e'
  cursor_le : c'.cursor ≤ c.cursor

namespace Redefines

theorem refl (titles : List String) (c : Catalog ε) : Redefines titles c c where
  names h := h
  record h _ := h
  pool := rfl

theorem trans (h : Redefines titles a b) (h' : Redefines titles b c) : Redefines titles a c where
  names hname := h'.names (h.names hname)
  record he hnot := h'.record (h.record he hnot) hnot
  pool := h'.pool.trans h.pool

theorem mono (hsub : titles ⊆ titles') (h : Redefines titles c c') : Redefines titles' c c' where
  names := h.names
  record he hnot := h.record he fun hmem => hnot (hmem.mono hsub)
  pool := h.pool

theorem preserves (h : Redefines titles a b) (h' : Amends titles b c) : Preserves titles a c where
  names hname := h'.names (h.names hname)
  record {slot e} he hnot := by
    rcases h'.record (h.record he hnot) hnot with hkept | ⟨hneg, id, he', hnonneg, hle, hlt, hsole⟩
    · exact .inl hkept
    · refine .inr ⟨hneg, id, he', hnonneg, ?_, hlt, hsole⟩
      rwa [cursor, ← h.pool]

end Redefines

namespace Amends

theorem refl (titles : List String) (c : Catalog ε) : Amends titles c c where
  names h := h
  record he _ := .inl he
  holder he _ := .inr ⟨_, he, rfl⟩
  cursor_le := Int.le_refl _

theorem trans (h : Amends titles a b) (h' : Amends titles b c) : Amends titles a c where
  names hname := h'.names (h.names hname)
  record {slot e} he hnot := by
    rcases h.record he hnot with hkept | ⟨hneg, id, he', hnonneg, hle, hlt, hsole⟩
    · rcases h'.record hkept hnot with hkept | ⟨hneg, id, he', hnonneg, hle, hlt, hsole⟩
      · exact .inl hkept
      · exact .inr ⟨hneg, id, he', hnonneg, Int.le_trans hle h.cursor_le, hlt, hsole⟩
    · -- An id is issued once: the record is not negative any more, and later ids are below this one.
      have hname : Record.name (Record.withNumber e id) = Record.name e := Record.name_withNumber e id
      rcases h'.record he' (hname ▸ hnot) with hkept | ⟨hneg', -⟩
      · refine .inr ⟨hneg, id, hkept, hnonneg, hle, Int.lt_of_le_of_lt h'.cursor_le hlt, ?_⟩
        intro i e'' hi hnumber
        rcases h'.holder hi (hnumber ▸ hnonneg) with hpool | ⟨e₁, he₁, hsame⟩
        · omega
        · exact hsole he₁ (hsame.trans hnumber)
      · rw [Record.number_withNumber] at hneg'
        omega
  holder {slot e''} he'' hnonneg := by
    rcases h'.holder he'' hnonneg with hpool | ⟨e', he', hsame⟩
    · exact .inl (Int.le_trans hpool h.cursor_le)
    · rcases h.holder he' (hsame ▸ hnonneg) with hpool | ⟨e, he, hsame'⟩
      · exact .inl (hsame ▸ hpool)
      · exact .inr ⟨e, he, hsame'.trans hsame⟩
  cursor_le := Int.le_trans h'.cursor_le h.cursor_le

theorem mono (hsub : titles ⊆ titles') (h : Amends titles c c') : Amends titles' c c' where
  names := h.names
  record he hnot := h.record he fun hmem => hnot (hmem.mono hsub)
  holder := h.holder
  cursor_le := h.cursor_le

end Amends

theorem map_identity_modify (c : Catalog ε) (slot : Nat) {f : ε → ε} (hf : ∀ e, identity (f e) = identity e) (i : Nat) :
    ((c.modify slot f).get? i).map identity = (c.get? i).map identity := by
  rw [get?, modify, Store.get?_modify]
  split
  · rw [Option.map_map]
    exact congrArg (Option.map · _) (funext hf)
  · rfl

theorem EnlistedTo.modify (h : c.Consistent) {f : ε → ε} (hf : ∀ e, identity (f e) = identity e) :
    (c.modify slot f).Consistent := by
  rw [Consistent, show (c.modify slot f).size = c.size from Store.size_modify _ _ _]
  exact h.congr rfl rfl fun i _ => c.map_identity_modify slot hf i

namespace EnlistedTo

theorem redefines_define (h : c.Consistent) {entry : ε} (hmem : Mentions titles (Record.name entry))
    (hdefine : c.define entry = .ok (slot, c')) : Redefines titles c c' := by
  obtain ⟨hc', hsize, hpool, hget, hslot⟩ := h.define hdefine
  have hnamed : ∀ {e}, c.get? slot = some e → Text.same (Record.name e) (Record.name entry) = true := by
    intro e he
    rcases hslot with hknown | ⟨-, rfl⟩
    · obtain ⟨e', he', hsame⟩ := h.slotNamed?_eq_some_iff.mp hknown
      obtain rfl : e = e' := Option.some.inj (he.symm.trans he')
      exact hsame
    · exact absurd (lt_size_of_get? he) (Nat.lt_irrefl _)
  refine ⟨h.keepsNames hc' fun {i e} he => ?_, fun {i e} he hnot => ?_, hpool⟩
  · rw [hget]
    split
    · next hi =>
      subst hi
      exact ⟨entry, rfl, Text.same_comm _ _ ▸ hnamed he⟩
    · exact ⟨e, he, Text.same_refl _⟩
  · rw [hget]
    split
    · next hi =>
      subst hi
      exact absurd ((Mentions.congr (hnamed he)).mpr hmem) hnot
    · exact he

theorem amends_define (h : c.Consistent) {entry : ε} (hnew : c.slotNamed? (Record.name entry) = none)
    (hneg : Record.number entry < 0) (hdefine : c.define entry = .ok (slot, c')) : Amends titles c c' := by
  obtain ⟨hc', -, hpool, hget, hslot⟩ := h.define hdefine
  obtain rfl : slot = c.size := by
    rcases hslot with hknown | ⟨-, hsize⟩
    · rw [hnew] at hknown
      cases hknown
    · exact hsize
  have hold : ∀ {i e}, c.get? i = some e → c'.get? i = some e := by
    intro i e he
    rw [hget, if_neg (Nat.ne_of_lt (lt_size_of_get? he)), he]
  refine ⟨⟨h.keepsNames hc' fun he => ⟨_, hold he, Text.same_refl _⟩, fun he _ => .inl (hold he)⟩, ?_, ?_⟩
  · intro i e' he' hnonneg
    rw [hget] at he'
    split at he'
    · cases he'
      omega
    · exact .inr ⟨e', he', rfl⟩
  · rw [cursor, hpool]
    exact Int.le_refl _

theorem amends_modify (h : c.Consistent) {f : ε → ε} (hf : ∀ e, identity (f e) = identity e)
    (hmem : ∀ {e}, c.get? slot = some e → Mentions titles (Record.name e)) :
    (c.modify slot f).Consistent ∧ Amends titles c (c.modify slot f) := by
  refine ⟨h.modify hf, ⟨fun hname => hname, fun {i e} he hnot => ?_⟩, fun {i e'} he' _ => .inr ?_, Int.le_refl _⟩
  · rw [Catalog.get?, Catalog.modify, Store.get?_modify]
    split
    · next hi =>
      subst hi
      exact absurd (hmem he) hnot
    · exact .inl he
  · obtain ⟨e, he, -, hnumber⟩ := get?_of_map_identity (c.map_identity_modify slot hf i).symm he'
    exact ⟨e, he, hnumber⟩

theorem amends_of_issued (h : c.Consistent) (hc' : c'.Consistent) {e : ε} (he : c.get? slot = some e)
    (hneg : Record.number e < 0) {id : Int} (hnonneg : 0 ≤ id) (hle : id ≤ c.cursor) (hlt : c'.cursor < id)
    (hget : ∀ i, c'.get? i = if slot = i then (c.get? i).map (Record.withNumber · id) else c.get? i)
    (hunused : ∀ i e, c.get? i = some e → Record.number e ≠ id) : Amends titles c c' := by
  have horigin : ∀ {i e'}, c'.get? i = some e' → c.get? i = some e' ∨ i = slot ∧ Record.number e' = id := by
    intro i e' he'
    rw [hget] at he'
    split at he'
    · next hi =>
      obtain ⟨e, -, rfl⟩ := Option.map_eq_some_iff.mp he'
      exact .inr ⟨hi.symm, Record.number_withNumber e id⟩
    · exact .inl he'
  have hsole : ∀ {i e'}, c'.get? i = some e' → Record.number e' = id → i = slot := by
    intro i e' he' hnumber
    rcases horigin he' with hold | ⟨hi, -⟩
    · exact absurd hnumber (hunused i e' hold)
    · exact hi
  refine ⟨⟨h.keepsNames hc' ?_, ?_⟩, ?_, Int.le_of_lt (Int.lt_of_lt_of_le hlt hle)⟩
  · intro i e he
    rw [hget, he]
    split
    · exact ⟨_, rfl, by rw [Record.name_withNumber]; exact Text.same_refl _⟩
    · exact ⟨e, rfl, Text.same_refl _⟩
  · intro i e' he' _
    rw [hget]
    split
    · next hi =>
      subst hi
      obtain rfl : e = e' := Option.some.inj (he.symm.trans he')
      exact .inr ⟨hneg, id, by rw [he, Option.map_some], hnonneg, hle, hlt, hsole⟩
    · exact .inl he'
  · intro i e' he' _
    rcases horigin he' with hold | ⟨-, hnumber⟩
    · exact .inr ⟨e', hold, rfl⟩
    · exact .inl (hnumber ▸ hle)

theorem amends_claimId (h : c.Consistent) {e : ε} (he : c.get? slot = some e) :
    (c.claimId slot).2.Consistent ∧ Amends titles c (c.claimId slot).2 ∧ (c.claimId slot).2.size = c.size ∧
      ∀ {i e'}, (c.claimId slot).2.get? i = some e' → ∃ e id, c.get? i = some e ∧ e' = Record.withNumber e id := by
  have hself : ∀ {i e'}, c.get? i = some e' → ∃ e id, c.get? i = some e ∧ e' = Record.withNumber e id :=
    fun he' => ⟨_, _, he', (Record.withNumber_number _).symm⟩
  rcases h.claimId_cases he with ⟨-, hclaim⟩ | ⟨-, error, pool, hclaim, hle⟩ |
    ⟨hneg, id, c', hclaim, hc', hsize, hget, hnonneg, hle, hlt, hunused⟩
  · rw [hclaim]
    exact ⟨h, .refl titles c, rfl, hself⟩
  · rw [hclaim]
    refine ⟨h.congr rfl rfl fun _ _ => rfl, ?_, rfl, hself⟩
    exact ⟨⟨fun hname => hname, fun he _ => .inl he⟩, fun he _ => .inr ⟨_, he, rfl⟩, hle⟩
  · rw [hclaim]
    refine ⟨hc', h.amends_of_issued hc' he hneg hnonneg hle hlt hget hunused, hsize, fun {i e'} he' => ?_⟩
    rw [hget] at he'
    split at he'
    · obtain ⟨e₁, he₁, rfl⟩ := Option.map_eq_some_iff.mp he'
      exact ⟨e₁, id, he₁, rfl⟩
    · exact hself he'

end EnlistedTo

end Catalog

end FrameTable
