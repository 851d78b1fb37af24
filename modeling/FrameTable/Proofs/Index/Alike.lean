import FrameTable.Proofs.Index.Lookup

namespace FrameTable

inductive Outcomes {ε α β : Type} (R : α → β → Prop) : Except ε α → Except ε β → Prop where
  | error (error : ε) : Outcomes R (.error error) (.error error)
  | ok {a : α} {b : β} (h : R a b) : Outcomes R (.ok a) (.ok b)

namespace Outcomes

variable {ε α β γ δ : Type} {R : α → β → Prop} {Q : γ → δ → Prop} {x : Except ε α} {y : Except ε β}

theorem bind {f : α → Except ε γ} {g : β → Except ε δ} (h : Outcomes R x y)
    (hf : ∀ a b, R a b → Outcomes Q (f a) (g b)) : Outcomes Q (x >>= f) (y >>= g) := by
  cases h with
  | error error => exact .error error
  | ok h => exact hf _ _ h

theorem imp {Q : α → β → Prop} (h : Outcomes R x y) (hQ : ∀ a b, R a b → Q a b) : Outcomes Q x y := by
  cases h with
  | error error => exact .error error
  | ok h => exact .ok (hQ _ _ h)

theorem mapError {ζ : Type} (h : Outcomes R x y) (f : ε → ζ) : Outcomes R (x.mapError f) (y.mapError f) := by
  cases h with
  | error error => exact .error (f error)
  | ok h => exact .ok h

theorem diagonal {R : α → α → Prop} (h : ∀ a, x = .ok a → R a a) : Outcomes R x x := by
  cases x with
  | error error => exact .error error
  | ok a => exact .ok (h a rfl)

end Outcomes

namespace HashIndex

variable {κ : Type} [IndexKey κ] {a b : HashIndex κ} {slot : Nat}

def Alike (a b : HashIndex κ) : Prop :=
  ∃ pairs, a.Represents pairs ∧ b.Represents pairs

theorem alike_empty (count count' : Nat) : (empty count : HashIndex κ).Alike (empty count') :=
  ⟨[], represents_empty count, represents_empty count'⟩

namespace Alike

theorem key?_eq (h : a.Alike b) (slot : Nat) : a.key? slot = b.key? slot := by
  obtain ⟨pairs, ha, hb⟩ := h
  rw [ha.key?_eq, hb.key?_eq]

theorem contains_eq (h : a.Alike b) (slot : Nat) : a.contains slot = b.contains slot := by
  rw [← isSome_key?, ← isSome_key?, h.key?_eq]

theorem slots_eq (h : a.Alike b) (query : κ) : a.slots query = b.slots query := by
  obtain ⟨pairs, ha, hb⟩ := h
  rw [ha.slots_eq, hb.slots_eq]

theorem find?_eq (h : a.Alike b) (query : κ) : a.find? query = b.find? query := by
  rw [find?_eq_head?, find?_eq_head?, h.slots_eq]

theorem push (h : a.Alike b) (hfree : a.contains slot = false) (key : κ) :
    (a.push slot key).Alike (b.push slot key) := by
  have hfree' : b.contains slot = false := h.contains_eq slot ▸ hfree
  obtain ⟨pairs, ha, hb⟩ := h
  exact ⟨(slot, key) :: pairs, ha.push hfree key, hb.push hfree' key⟩

theorem insert (h : a.Alike b) (slot : Nat) (key : κ) : Outcomes Alike (a.insert slot key) (b.insert slot key) := by
  rw [HashIndex.insert, HashIndex.insert, ← h.contains_eq]
  cases hfree : a.contains slot with
  | true => exact .error _
  | false => exact .ok (h.push hfree key)

theorem erase (h : a.Alike b) (slot : Nat) : (a.erase slot).2.Alike (b.erase slot).2 := by
  obtain ⟨pairs, ha, hb⟩ := h
  exact ⟨pairs.erase slot, (ha.erase slot).2, (hb.erase slot).2⟩

end Alike

end HashIndex

namespace Directory

variable {d e : Directory}

structure Alike (d e : Directory) : Prop where
  names : d.names.Alike e.names
  ids : d.ids.Alike e.ids
  pool : d.pool = e.pool

theorem alike_empty (count count' : Nat) : (empty count).Alike (empty count') where
  names := HashIndex.alike_empty count count'
  ids := HashIndex.alike_empty count count'
  pool := rfl

namespace Alike

theorem slotNamed?_eq (h : d.Alike e) (name : String) : d.slotNamed? name = e.slotNamed? name :=
  h.names.find?_eq _

theorem slotNumbered?_eq (h : d.Alike e) (number : Int) : d.slotNumbered? number = e.slotNumbered? number := by
  rw [slotNumbered?, slotNumbered?, h.ids.find?_eq]

theorem addName (h : d.Alike e) (slot : Nat) (name : String) :
    Outcomes Alike (d.addName slot name) (e.addName slot name) :=
  .bind (h.names.insert slot _) fun _ _ hnames => .ok ⟨hnames, h.ids, h.pool⟩

theorem setId (h : d.Alike e) (slot : Nat) (number : Int) :
    Outcomes Alike (d.setId slot number) (e.setId slot number) := by
  have herase := h.ids.erase slot
  by_cases hneg : number < 0
  · have hset : ∀ d : Directory, d.setId slot number = .ok { d with ids := (d.ids.erase slot).2 } := fun d => by
      simp [Directory.setId, hneg, bind, Except.bind, pure, Except.pure]
    rw [hset, hset]
    exact .ok ⟨h.names, herase, h.pool⟩
  · have hset : ∀ d : Directory, d.setId slot number =
        (d.ids.erase slot).2.insert slot ⟨number⟩ >>= fun ids => pure { d with ids } := fun d => by
      simp only [Directory.setId, hneg, if_false]
    rw [hset, hset]
    exact .bind (herase.insert slot _) fun _ _ hids => .ok ⟨h.names, hids, h.pool⟩

theorem claimId (h : d.Alike e) (slot : Nat) :
    (d.claimId slot).1 = (e.claimId slot).1 ∧ (d.claimId slot).2.Alike (e.claimId slot).2 := by
  have hid : e.idOf? slot = d.idOf? slot := congrArg (Option.map _) (h.ids.key?_eq slot).symm
  have hfind : (fun id => (e.ids.find? ⟨id⟩).isSome) = fun id => (d.ids.find? ⟨id⟩).isSome :=
    funext fun id => congrArg Option.isSome (h.ids.find?_eq ⟨id⟩).symm
  unfold Directory.claimId
  rw [hid, hfind, ← h.pool]
  cases d.idOf? slot with
  | some number => exact ⟨rfl, h⟩
  | none =>
    simp only
    split
    · exact ⟨rfl, { h with pool := rfl }⟩
    · next number pool hallocate =>
      have hinsert := h.ids.insert slot ⟨number⟩
      generalize d.ids.insert slot ⟨number⟩ = inserted at hinsert ⊢
      generalize e.ids.insert slot ⟨number⟩ = inserted' at hinsert ⊢
      cases hinsert with
      | error error => exact ⟨rfl, { h with pool := rfl }⟩
      | ok hids => exact ⟨rfl, { h with ids := hids, pool := rfl }⟩

end Alike

end Directory

end FrameTable
