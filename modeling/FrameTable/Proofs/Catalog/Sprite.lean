import FrameTable.Catalog.Sprite
import FrameTable.Proofs.Index.Lookup

namespace FrameTable.Sprites

variable {s : Sprites} {name : String} {slot : Nat}

structure Sound (s : Sprites) : Prop where
  linked : s.index.WellLinked
  lt_of_contains : ∀ {slot}, s.index.contains slot = true → slot < s.names.size
  blank_lt : blank < s.names.size

def KeepsNames (s s' : Sprites) : Prop :=
  ∀ {name slot}, s.slotNamed? name = some slot → s'.slotNamed? name = some slot

namespace Sound

theorem lt_of_slotNamed? (h : s.Sound) (hname : s.slotNamed? name = some slot) : slot < s.names.size := by
  obtain ⟨key, hkey, -⟩ := HashIndex.exists_key?_of_find? hname
  apply h.lt_of_contains
  rw [← HashIndex.isSome_key?, hkey, Option.isSome_some]

theorem contains_size (h : s.Sound) : s.index.contains s.names.size = false := by
  cases hs : s.index.contains s.names.size with
  | false => rfl
  | true => exact absurd (h.lt_of_contains hs) (Nat.lt_irrefl _)

theorem push (h : s.Sound) (name : String) :
    Sound { names := s.names.push name, index := s.index.push s.names.size ⟨name⟩ } where
  linked := h.linked.push h.contains_size _
  lt_of_contains {slot} hslot := by
    rw [Array.size_push]
    rcases HashIndex.contains_push hslot with rfl | hold
    · exact Nat.lt_succ_self _
    · exact Nat.lt_succ_of_lt (h.lt_of_contains hold)
  blank_lt := by
    rw [Array.size_push]
    exact Nat.lt_succ_of_lt h.blank_lt

theorem keepsNames_push (h : s.Sound) (hname : s.slotNamed? name = none) :
    s.KeepsNames { names := s.names.push name, index := s.index.push s.names.size ⟨name⟩ } := by
  intro other slot hother
  rw [slotNamed?, h.linked.find?_push h.contains_size]
  split
  · next hsame =>
    -- Another spelling of the new name would have been found under this one too.
    obtain ⟨key, hkey, hsame'⟩ := HashIndex.exists_key?_of_find? hother
    obtain ⟨found, hfound⟩ := h.linked.exists_find? hkey
      (Text.same_trans hsame' (Text.same_comm _ _ ▸ hsame) : Text.same key.text name = true)
    rw [slotNamed?, hfound] at hname
    cases hname
  · exact hother

theorem define (h : s.Sound) (name : String) :
    (s.define name).2.Sound ∧ s.names.size ≤ (s.define name).2.names.size ∧
      s.KeepsNames (s.define name).2 ∧
      ∀ slot, (s.define name).1 = some slot → slot < (s.define name).2.names.size := by
  simp only [Sprites.define]
  cases hname : s.slotNamed? name with
  | some known =>
    refine ⟨h, Nat.le_refl _, fun hkept => hkept, fun slot hslot => ?_⟩
    obtain rfl := Option.some.inj hslot
    exact h.lt_of_slotNamed? hname
  | none =>
    simp only
    split
    · exact ⟨h, Nat.le_refl _, fun hkept => hkept, nofun⟩
    · have hinsert : s.index.insert s.names.size ⟨name⟩ = .ok (s.index.push s.names.size ⟨name⟩) := by
        rw [HashIndex.insert, h.contains_size, if_neg Bool.false_ne_true]
      simp only [hinsert, Array.size_push]
      refine ⟨h.push name, Nat.le_succ _, h.keepsNames_push hname, fun slot hslot => ?_⟩
      obtain rfl := Option.some.inj hslot
      exact Nat.lt_succ_self _

end Sound

theorem sound_initial (buckets : Nat) : (initial buckets).Sound where
  linked := (HashIndex.wellLinked_empty buckets).push rfl _
  lt_of_contains {slot} h := by
    rcases HashIndex.contains_push h with rfl | hempty
    · exact Nat.zero_lt_one
    · cases hempty
  blank_lt := Nat.zero_lt_one

end FrameTable.Sprites
