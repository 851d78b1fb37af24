import FrameTable.Index.Basic
import Mathlib.Data.List.Perm.Subperm

namespace FrameTable.HashIndex

variable {κ : Type} {index other : HashIndex κ}

inductive Segment (index : HashIndex κ) : Option Nat → List Nat → Option Nat → Prop
  | nil (cursor : Option Nat) : Segment index cursor [] cursor
  | cons {slot : Nat} {link : Link κ} {slots : List Nat} {last : Option Nat} :
      index.link? slot = some link → Segment index link.next slots last →
      Segment index (some slot) (slot :: slots) last

namespace Segment

theorem append {a b c : Option Nat} {before after : List Nat} (h : Segment index a before b)
    (h' : Segment index b after c) : Segment index a (before ++ after) c := by
  induction h with
  | nil => exact h'
  | cons hlink _ ih => exact .cons hlink (ih h')

theorem split {a c : Option Nat} {before after : List Nat} (h : Segment index a (before ++ after) c) :
    ∃ b, Segment index a before b ∧ Segment index b after c := by
  induction before generalizing a with
  | nil => exact ⟨a, .nil a, h⟩
  | cons slot before ih =>
    cases h with
    | cons hlink hrest =>
      obtain ⟨b, hb, hc⟩ := ih hrest
      exact ⟨b, .cons hlink hb, hc⟩

theorem linked {a b : Option Nat} {slots : List Nat} (h : Segment index a slots b) :
    ∀ slot ∈ slots, ∃ link, index.link? slot = some link := by
  induction h with
  | nil => simp
  | cons hlink _ ih => exact List.forall_mem_cons.mpr ⟨⟨_, hlink⟩, ih⟩

theorem congr {a b : Option Nat} {slots : List Nat} (h : Segment index a slots b)
    (hlinks : ∀ slot ∈ slots, other.link? slot = index.link? slot) : Segment other a slots b := by
  induction h with
  | nil => exact .nil _
  | @cons slot link slots last hlink _ ih =>
    refine .cons ((hlinks slot List.mem_cons_self).trans hlink) (ih fun s hs => ?_)
    exact hlinks s (List.mem_cons_of_mem _ hs)

theorem follow_eq {a : Option Nat} {slots : List Nat} (h : Segment index a slots none) {fuel : Nat}
    (hfuel : slots.length ≤ fuel) : index.follow fuel a = slots := by
  induction slots generalizing a fuel with
  | nil =>
    cases h
    cases fuel <;> rfl
  | cons slot slots ih =>
    cases h with
    | cons hlink hrest =>
      obtain ⟨fuel, rfl⟩ : ∃ n, fuel = n + 1 := ⟨fuel - 1, by rw [List.length_cons] at hfuel; omega⟩
      rw [follow, next?, hlink, Option.bind_some, ih hrest (by simpa using hfuel)]

theorem length_le {a b : Option Nat} {slots : List Nat} (h : Segment index a slots b)
    (hnodup : slots.Nodup) : slots.length ≤ index.links.size := by
  have hsub : slots ⊆ List.range index.links.size := by
    intro slot hs
    obtain ⟨link, hlink⟩ := h.linked slot hs
    exact List.mem_range.mpr (lt_of_link? hlink)
  simpa using (hnodup.subperm hsub).length_le

theorem seek_eq {a b : Option Nat} {before after : List Nat} {slot : Nat}
    (h : Segment index a (before ++ slot :: after) b) (hslot : slot ∉ before) {fuel : Nat}
    (hfuel : before.length < fuel) (previous : Option Nat) :
    index.seek slot fuel previous a = some (before.getLast?.or previous) := by
  induction before generalizing a fuel previous with
  | nil =>
    obtain ⟨fuel, rfl⟩ : ∃ n, fuel = n + 1 := ⟨fuel - 1, by omega⟩
    cases h with
    | cons hlink hrest => simp [seek]
  | cons first before ih =>
    obtain ⟨fuel, rfl⟩ : ∃ n, fuel = n + 1 := ⟨fuel - 1, by omega⟩
    have hne : first ≠ slot := fun he => hslot (he ▸ List.mem_cons_self)
    cases h with
    | cons hlink hrest =>
      rw [seek, if_neg hne, next?, hlink, Option.bind_some]
      rw [ih hrest (fun hm => hslot (List.mem_cons_of_mem _ hm)) (by simpa using hfuel)]
      cases before with
      | nil => rfl
      | cons second rest =>
        rw [List.getLast?_cons_cons, List.getLast?_cons]
        rfl

end Segment

section Unlinking

variable [IndexKey κ] {link : Link κ}

theorem link?_unlink (index : HashIndex κ) (slot other : Nat) (link : Link κ) (previous : Option Nat) :
    (index.unlink slot link previous).link? other =
      if other = slot then none
      else if previous = some other then (index.link? other).map fun l => { l with next := link.next }
      else index.link? other := by
  have herase (links : Array (Option (Link κ))) :
      (links.setIfInBounds slot none)[other]?.join = if other = slot then none else links[other]?.join := by
    by_cases h : other = slot
    · subst h
      rw [if_pos rfl, Array.getElem?_setIfInBounds_self]
      split <;> rfl
    · rw [if_neg h, Array.getElem?_setIfInBounds_ne (Ne.symm h)]
  cases previous with
  | none => simp only [link?, unlink, herase, reduceCtorEq, if_false]
  | some before =>
    simp only [link?, unlink, herase, Array.getElem?_modify, Option.some.injEq]
    by_cases h : before = other
    · subst h
      cases index.links[before]? <;> simp
    · simp [h]

theorem head?_unlink (index : HashIndex κ) (slot place : Nat) (link : Link κ) (previous : Option Nat) :
    (index.unlink slot link previous).head? place =
      if place = index.place link.key ∧ previous = none then link.next else index.head? place := by
  cases previous with
  | some before => simp [head?, unlink]
  | none =>
    by_cases h : place = index.place link.key
    · subst h
      simp [head?, unlink, Array.getElem?_setIfInBounds_self_of_lt (index.place_lt link.key)]
    · simp [head?, unlink, h, Array.getElem?_setIfInBounds_ne (Ne.symm h)]

theorem Segment.unlink_of_notMem {a b : Option Nat} {slots : List Nat} (h : Segment index a slots b)
    {slot : Nat} {previous : Option Nat} (hslot : slot ∉ slots) (hprevious : ∀ s ∈ slots, previous ≠ some s) :
    Segment (index.unlink slot link previous) a slots b := by
  apply h.congr
  intro s hs
  have hne : s ≠ slot := fun he => hslot (he ▸ hs)
  rw [link?_unlink, if_neg hne, if_neg (hprevious s hs)]

theorem Segment.unlink {a : Option Nat} {before after : List Nat} {slot : Nat}
    (h : Segment index a (before ++ slot :: after) none) (hlink : index.link? slot = some link)
    (hnodup : (before ++ slot :: after).Nodup) :
    Segment (index.unlink slot link before.getLast?)
      (if before.getLast? = none then link.next else a) (before ++ after) none := by
  obtain ⟨b, hbefore, hrest⟩ := h.split
  obtain ⟨rfl, hafter⟩ : b = some slot ∧ Segment index link.next after none := by
    cases hrest with
    | cons hlink' hafter => exact ⟨rfl, Option.some.inj (hlink.symm.trans hlink') ▸ hafter⟩
  rw [List.nodup_append, List.nodup_cons] at hnodup
  obtain ⟨hnodup, ⟨hslot, -⟩, hdisjoint⟩ := hnodup
  have hafter' : ∀ p, (∀ s, p = some s → s ∈ before) → Segment (index.unlink slot link p) link.next after none :=
    fun p hp => hafter.unlink_of_notMem hslot fun s hs he =>
      hdisjoint s (hp s he) s (List.mem_cons_of_mem _ hs) rfl
  rcases List.eq_nil_or_concat before with rfl | ⟨front, last, rfl⟩
  · exact hafter' none (by simp)
  · rw [List.concat_eq_append] at *
    simp only [List.getLast?_concat, reduceCtorEq, if_false]
    obtain ⟨c, hfront, hlast⟩ := hbefore.split
    obtain ⟨l, rfl, hl⟩ : ∃ l, c = some last ∧ index.link? last = some l := by
      cases hlast with
      | cons hl _ => exact ⟨_, rfl, hl⟩
    rw [List.nodup_append] at hnodup
    have hne : last ≠ slot := hdisjoint last (by simp) slot List.mem_cons_self
    have hlast' : Segment (index.unlink slot link (some last)) (some last) (last :: after) none := by
      have hlink : (index.unlink slot link (some last)).link? last = some { l with next := link.next } := by
        rw [link?_unlink, if_neg hne, if_pos rfl, hl, Option.map_some]
      exact .cons hlink (hafter' _ (by simp))
    have hfront' : Segment (index.unlink slot link (some last)) a front (some last) := by
      apply hfront.unlink_of_notMem
      · exact fun hs => hdisjoint slot (by simp [hs]) slot List.mem_cons_self rfl
      · intro s hs he
        exact hnodup.2.2 s hs last (by simp) (Option.some.inj he).symm
    rw [List.append_assoc]
    exact hfront'.append hlast'

end Unlinking

end FrameTable.HashIndex
