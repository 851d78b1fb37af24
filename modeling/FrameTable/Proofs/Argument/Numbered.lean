import FrameTable.Proofs.Argument.Reference
import FrameTable.Proofs.Catalog.Owners
import FrameTable.Proofs.Load.IdRange
import FrameTable.Proofs.Number.Numeral

namespace FrameTable

theorem Number.narrow_clamp64 (value : Int) : narrow (clamp64 value) = narrow value := by
  simp only [narrow, clamp64, clamp]
  omega

theorem Operand.ofText_of_numeral {text : String} {value : Int} (h : Number.Numeral text.toList value) :
    ofText text = .number (Number.narrow value) := by
  have hwhole := Number.wholeInteger?_eq_some_iff.mpr ⟨value, h, rfl⟩
  simp only [ofText, hwhole, Number.narrow_clamp64]

namespace Catalog

variable {ε : Type} [Record ε] {c : Catalog ε}

theorem EnlistedTo.slotNumbered?_cases (h : c.Consistent) (id : Int) :
    (∃ slot, c.slotNumbered? id = some slot ∧ 0 ≤ id ∧ (c.get? slot).map Record.number = some id) ∨
      c.slotNumbered? id = none ∧ ∀ slot, ¬(0 ≤ id ∧ (c.get? slot).map Record.number = some id) := by
  cases hfind : c.slotNumbered? id with
  | none =>
    refine .inr ⟨rfl, fun slot ⟨hid, hnumber⟩ => ?_⟩
    have hmem : slot ∈ c.owners id := h.mem_owners_iff.mpr ⟨hid, Option.map_eq_some_iff.mp hnumber⟩
    rw [c.slotNumbered?_eq_head? hid, List.head?_eq_none_iff] at hfind
    rw [hfind] at hmem
    cases hmem
  | some slot =>
    have hid : 0 ≤ id := Int.not_lt.mp fun hneg => by
      have hnone : c.slotNumbered? id = none := if_pos hneg
      cases hnone.symm.trans hfind
    rw [c.slotNumbered?_eq_head? hid] at hfind
    obtain ⟨-, he⟩ := h.mem_owners_iff.mp (List.mem_of_mem_head? hfind)
    exact .inl ⟨slot, rfl, hid, Option.map_eq_some_iff.mpr he⟩

end Catalog

namespace Reference

variable {k : Reference} {t : Tables} {r : Resolver} {text : String} {slot : Nat} {id value : Int}

def id? (t : Tables) : Reference → Nat → Option Int
  | .thing => fun slot => (t.things.get? slot).map Record.number
  | .frame => fun slot => (t.frames.get? slot).map Record.number
  | .sound => fun slot => (t.sounds.get? slot).map Record.number
  | .string => fun slot => (t.strings.get? slot).map Record.number

def Holds (k : Reference) (t : Tables) (slot : Nat) (id : Int) : Prop :=
  0 ≤ id ∧ k.id? t slot = some id

def found : (k : Reference) → Nat → k.accessor.Value
  | .thing, slot => slot
  | .frame, slot => slot
  | .sound, slot => some slot
  | .string, slot => some slot

def Reaches : Reference → Nat → Prop
  | .thing, slot => Number.fits slot = true
  | .frame, slot => Number.fits slot = true
  | .sound, _ => True
  | .string, _ => True

def Resolves {α : Type} (k : Reference) (t : Tables) (id : Int) (found : Nat → α) (fallback x : α) : Prop :=
  (∃ slot, k.Holds t slot id ∧ x = found slot) ∨ (∀ slot, ¬k.Holds t slot id) ∧ x = fallback

theorem numbered?_cases (h : t.Sound) (k : Reference) (id : Int) :
    (∃ slot, (k.lookup t.resolver).numbered? id = some slot ∧ k.Holds t slot id) ∨
      (k.lookup t.resolver).numbered? id = none ∧ ∀ slot, ¬k.Holds t slot id := by
  cases k with
  | thing => exact h.things.slotNumbered?_cases id
  | frame => exact h.frames.slotNumbered?_cases id
  | sound => exact h.sounds.slotNumbered?_cases id
  | string => exact h.strings.slotNumbered?_cases id

theorem Holds.le (hholds : k.Holds t slot id) (h : t.Bounded) : id ≤ maxLegacyId := by
  obtain ⟨-, hid⟩ := hholds
  cases k with
  | thing =>
    obtain ⟨e, he, rfl⟩ := Option.map_eq_some_iff.mp hid
    exact h.things.number_le he
  | frame =>
    obtain ⟨e, he, rfl⟩ := Option.map_eq_some_iff.mp hid
    exact h.frames.number_le he
  | sound =>
    obtain ⟨e, he, rfl⟩ := Option.map_eq_some_iff.mp hid
    exact h.sounds.number_le he
  | string =>
    obtain ⟨e, he, rfl⟩ := Option.map_eq_some_iff.mp hid
    exact h.strings.number_le he

theorem holds_narrow_iff : k.Holds t slot (Number.narrow value) ↔ k.Holds t slot (min value maxLegacyId) := by
  rcases Int.lt_or_le value (-2147483648) with hlow | hhigh
  · -- The two differ, but both are negative, and no record has a negative id.
    refine iff_of_false (fun h => ?_) fun h => ?_
    · have := h.1
      simp only [Number.narrow, Number.clamp] at this
      omega
    · have := h.1
      omega
  · have hnarrow : Number.narrow value = min value maxLegacyId := by
      simp only [Number.narrow, Number.clamp, maxLegacyId]
      omega
    rw [hnarrow]

theorem getD_ofHandle?_of_fits (hfits : Number.fits slot = true) (default : Nat) :
    (ofHandle? (handle slot)).getD default = slot := by
  rw [handle, if_pos hfits, ofHandle?, if_neg (Int.not_lt.mpr (Int.natCast_nonneg slot)), Int.toNat_natCast]
  rfl

theorem answer?_of_found (hfind : (k.lookup r).find? text = some slot) (hreaches : k.Reaches slot) :
    (k.accessor.reader r).answer? ((k.accessor.reader r).evaluate text) = some (k.found slot) := by
  cases k with
  | thing =>
    have hfind : r.things.find? text = some slot := hfind
    change (Reader.thing r).answer? ((Reader.thing r).evaluate text) = some slot
    simp only [Reader.thing, hfind, Option.getD_some, getD_ofHandle?_of_fits hreaches]
  | frame =>
    have hfind : r.frames.find? text = some slot := hfind
    change (Reader.frame r).answer? ((Reader.frame r).evaluate text) = some slot
    simp only [Reader.frame, hfind, Option.getD_some, getD_ofHandle?_of_fits hreaches]
  | sound => exact congrArg some hfind
  | string => exact congrArg some hfind

theorem exists_resolves (h : t.Sound) (k : Reference) (hnumeral : Number.Numeral text.toList value)
    (hreaches : ∀ slot, k.Holds t slot (min value maxLegacyId) → k.Reaches slot) :
    ∃ x, (k.accessor.reader t.resolver).answer? ((k.accessor.reader t.resolver).evaluate text) = some x ∧
      k.Resolves t (min value maxLegacyId) k.found (k.fallback t.resolver) x := by
  have hfind : (k.lookup t.resolver).find? text = (k.lookup t.resolver).numbered? (Number.narrow value) := by
    rw [Lookup.find?, Operand.ofText_of_numeral hnumeral]
  rcases numbered?_cases h k (Number.narrow value) with ⟨slot, hslot, hholds⟩ | ⟨hnone, hnot⟩
  · rw [holds_narrow_iff] at hholds
    exact ⟨_, answer?_of_found (hfind.trans hslot) (hreaches slot hholds), .inl ⟨slot, hholds, rfl⟩⟩
  · simp only [holds_narrow_iff] at hnot
    exact ⟨_, Accessor.answer?_of_not_found (hfind.trans hnone), .inr ⟨hnot, rfl⟩⟩

theorem Resolves.of_min {α : Type} {found : Nat → α} {fallback x : α}
    (h : k.Resolves t (min value maxLegacyId) found fallback x) (hle : ∀ slot id, k.Holds t slot id → id ≤ maxLegacyId)
    (hfree : value ≤ maxLegacyId ∨ ∀ slot, ¬k.Holds t slot maxLegacyId) : k.Resolves t value found fallback x := by
  rcases Int.lt_or_le maxLegacyId value with hlt | hsmall
  · rw [Int.min_eq_right (Int.le_of_lt hlt)] at h
    have hnone := hfree.resolve_left (Int.not_le.mpr hlt)
    rcases h with ⟨slot, hholds, -⟩ | ⟨-, hx⟩
    · exact absurd hholds (hnone slot)
    · exact .inr ⟨fun slot hholds => absurd (hle slot value hholds) (Int.not_le.mpr hlt), hx⟩
  · rwa [Int.min_eq_left hsmall] at h

end Reference

end FrameTable
