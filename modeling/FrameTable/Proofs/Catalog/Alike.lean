import FrameTable.Catalog.Sprite
import FrameTable.Proofs.Catalog.Modify
import FrameTable.Proofs.Index.Alike

namespace FrameTable

namespace Catalog

variable {ε : Type} [Record ε] {c d : Catalog ε}

structure Alike (c d : Catalog ε) : Prop where
  store : c.store = d.store
  directory : c.directory.Alike d.directory

theorem alike_empty (count count' : Nat) : (empty count : Catalog ε).Alike (empty count') :=
  ⟨rfl, Directory.alike_empty count count'⟩

theorem alike_singleton (count count' : Nat) (entry : ε) : (singleton count entry).Alike (singleton count' entry) where
  store := rfl
  directory :=
    { names := (HashIndex.alike_empty count count').push rfl _
      ids := by
        have hids := HashIndex.alike_empty (κ := LegacyId) count count'
        unfold singleton
        simp only
        split
        · exact hids
        · exact hids.push rfl _
      pool := rfl }

namespace Alike

theorem get?_eq (h : c.Alike d) (slot : Nat) : c.get? slot = d.get? slot := by
  rw [get?, get?, h.store]

theorem size_eq (h : c.Alike d) : c.size = d.size :=
  congrArg Store.size h.store

theorem slotNamed?_eq (h : c.Alike d) (name : String) : c.slotNamed? name = d.slotNamed? name :=
  h.directory.slotNamed?_eq name

theorem slotNumbered?_eq (h : c.Alike d) (number : Int) : c.slotNumbered? number = d.slotNumbered? number :=
  h.directory.slotNumbered?_eq number

theorem modify (h : c.Alike d) (slot : Nat) (f : ε → ε) : (c.modify slot f).Alike (d.modify slot f) :=
  ⟨congrArg (·.modify slot f) h.store, h.directory⟩

theorem map (h : c.Alike d) (f : ε → ε) : (c.map f).Alike (d.map f) :=
  ⟨congrArg (·.map f) h.store, h.directory⟩

theorem reserve (h : c.Alike d) (count : UInt64) (init : Nat → ε) :
    Outcomes (fun a b => a.1 = b.1 ∧ a.2.Alike b.2) (c.reserve count init) (d.reserve count init) := by
  have hreserve : Outcomes Eq ((c.store.reserve count init).mapError CatalogError.store)
      ((d.store.reserve count init).mapError CatalogError.store) := h.store ▸ .diagonal fun _ _ => rfl
  refine .bind hreserve fun (range, store) (range', store') hreserved => ?_
  obtain ⟨rfl, rfl⟩ := Prod.mk.inj hreserved
  exact .ok ⟨rfl, rfl, h.directory⟩

theorem enlist (h : c.Alike d) (slot : Nat) : Outcomes Alike (c.enlist slot) (d.enlist slot) := by
  unfold Catalog.enlist
  rw [← h.get?_eq]
  cases c.get? slot with
  | none => exact .ok h
  | some entry =>
    refine .bind ((h.directory.addName slot _).mapError _) fun _ _ hnamed => ?_
    exact .bind ((hnamed.setId slot _).mapError _) fun _ _ hdirectory => .ok ⟨h.store, hdirectory⟩

theorem setId (h : c.Alike d) (slot : Nat) (number : Int) :
    Outcomes Alike (c.setId slot number) (d.setId slot number) :=
  .bind ((h.directory.setId slot number).mapError _) fun _ _ hdirectory =>
    .ok ⟨(h.modify slot (Record.withNumber · number)).store, hdirectory⟩

theorem define (h : c.Alike d) (entry : ε) :
    Outcomes (fun a b => a.1 = b.1 ∧ a.2.Alike b.2) (c.define entry) (d.define entry) := by
  unfold Catalog.define
  rw [← h.slotNamed?_eq]
  cases c.slotNamed? (Record.name entry) with
  | some slot => exact .bind ((h.modify slot _).setId slot _) fun _ _ hset => .ok ⟨rfl, hset⟩
  | none =>
    have hpush : Outcomes Eq ((c.store.push entry).mapError CatalogError.store)
        ((d.store.push entry).mapError CatalogError.store) := h.store ▸ .diagonal fun _ _ => rfl
    refine .bind hpush fun (slot, store) (slot', store') hpushed => ?_
    obtain ⟨rfl, rfl⟩ := Prod.mk.inj hpushed
    have hstore : Catalog.Alike { c with store } { d with store } := ⟨rfl, h.directory⟩
    exact .bind (hstore.enlist slot) fun _ _ henlisted => .ok ⟨rfl, henlisted⟩

theorem claimId (h : c.Alike d) (slot : Nat) :
    (c.claimId slot).1 = (d.claimId slot).1 ∧ (c.claimId slot).2.Alike (d.claimId slot).2 := by
  obtain ⟨hresult, hdirectory⟩ := h.directory.claimId slot
  unfold Catalog.claimId
  rcases hc : c.directory.claimId slot with ⟨result, directory⟩
  rcases hd : d.directory.claimId slot with ⟨result', directory'⟩
  rw [hc, hd] at hresult hdirectory
  obtain rfl : result = result' := hresult
  cases result with
  | error error => exact ⟨rfl, h.store, hdirectory⟩
  | ok number => exact ⟨rfl, (h.modify slot (Record.withNumber · number)).store, hdirectory⟩

end Alike

end Catalog

namespace Sprites

variable {s u : Sprites}

structure Alike (s u : Sprites) : Prop where
  names : s.names = u.names
  index : s.index.Alike u.index

theorem alike_initial (count count' : Nat) : (initial count).Alike (initial count') :=
  ⟨rfl, (HashIndex.alike_empty count count').push rfl _⟩

theorem Alike.slotNamed?_eq (h : s.Alike u) (name : String) : s.slotNamed? name = u.slotNamed? name :=
  h.index.find?_eq _

theorem Alike.define (h : s.Alike u) (name : String) :
    (s.define name).1 = (u.define name).1 ∧ (s.define name).2.Alike (u.define name).2 := by
  unfold Sprites.define
  rw [← h.slotNamed?_eq, ← h.names]
  cases s.slotNamed? name with
  | some slot => exact ⟨rfl, h⟩
  | none =>
    simp only
    split
    · exact ⟨rfl, h⟩
    · have hinsert := h.index.insert s.names.size ⟨name⟩
      generalize s.index.insert s.names.size ⟨name⟩ = inserted at hinsert ⊢
      generalize u.index.insert s.names.size ⟨name⟩ = inserted' at hinsert ⊢
      cases hinsert with
      | error error => exact ⟨rfl, h⟩
      | ok hindex => exact ⟨rfl, rfl, hindex⟩

end Sprites

end FrameTable
