import Mathlib.Logic.Relation
import FrameTable.Proofs.Catalog.Integrity
import FrameTable.Proofs.Index.Range

namespace FrameTable.Catalog

variable {ε : Type} [Record ε] {c c' : Catalog ε} {slot : Nat}

def withNames (c : Catalog ε) (names : HashIndex Name) : Catalog ε :=
  { c with directory := { c.directory with names } }

def withIds (c : Catalog ε) (ids : HashIndex LegacyId) : Catalog ε :=
  { c with directory := { c.directory with ids } }

inductive Move : Catalog ε → Catalog ε → Prop
  | write {c : Catalog ε} {slot : Nat} (hslot : slot < c.size) (f : ε → ε) : Move c (c.modify slot f)
  | append {c : Catalog ε} {store : Store ε (Record.width ε)} (hsize : c.size ≤ store.size)
      (hkept : ∀ i < c.size, store.get? i = c.get? i)
      (hfree : ∀ i, c.size ≤ i → c.directory.names.contains i = false ∧ c.directory.ids.contains i = false) :
      Move c { c with store }
  | linkName {c : Catalog ε} {slot : Nat} {e : ε} (he : c.get? slot = some e)
      (hfree : c.directory.names.contains slot = false) :
      Move c (c.withNames (c.directory.names.push slot ⟨Record.name e⟩))
  | unlinkId {c : Catalog ε} {slot : Nat} (hslot : slot < c.size)
      (hfree : (c.directory.ids.erase slot).2.contains slot = false) : Move c (c.withIds (c.directory.ids.erase slot).2)
  | linkId {c : Catalog ε} {slot : Nat} (hslot : slot < c.size) (hfree : c.directory.ids.contains slot = false)
      (number : Int) : Move c (c.withIds (c.directory.ids.push slot ⟨number⟩))
  | pool (c : Catalog ε) (pool : IdPool) : Move c (c.withPool pool)

abbrev Moves : Catalog ε → Catalog ε → Prop :=
  Relation.ReflTransGen Move

structure InRange (c : Catalog ε) : Prop where
  names : c.directory.names.InRange
  ids : c.directory.ids.InRange
  name_lt : ∀ {slot}, c.directory.names.contains slot = true → slot < c.size
  id_lt : ∀ {slot}, c.directory.ids.contains slot = true → slot < c.size

structure Linked (c : Catalog ε) : Prop where
  names : c.directory.names.WellLinked
  ids : c.directory.ids.WellLinked
  name_lt : ∀ {slot}, c.directory.names.contains slot = true → slot < c.size
  id_lt : ∀ {slot}, c.directory.ids.contains slot = true → slot < c.size

theorem Linked.inRange (h : c.Linked) : c.InRange where
  names := h.names.inRange
  ids := h.ids.inRange
  name_lt := h.name_lt
  id_lt := h.id_lt

theorem Linked.move (h : c.Linked) (hmove : Move c c') : c'.Linked := by
  cases hmove with
  | @write slot hslot f =>
    have hsize : (c.modify slot f).size = c.size := Store.size_modify _ _ _
    exact ⟨h.names, h.ids, fun hcontains => hsize ▸ h.name_lt hcontains, fun hcontains => hsize ▸ h.id_lt hcontains⟩
  | append hsize =>
    exact ⟨h.names, h.ids, fun hcontains => Nat.lt_of_lt_of_le (h.name_lt hcontains) hsize,
      fun hcontains => Nat.lt_of_lt_of_le (h.id_lt hcontains) hsize⟩
  | linkName he hfree =>
    refine ⟨h.names.push hfree _, h.ids, fun hcontains => ?_, h.id_lt⟩
    rcases HashIndex.contains_push hcontains with rfl | hold
    · exact lt_size_of_get? he
    · exact h.name_lt hold
  | @unlinkId slot hslot hfree =>
    refine ⟨h.names, h.ids.erase _, h.name_lt, fun {i} hcontains => ?_⟩
    have herase : (c.directory.ids.erase slot).2.contains i = true := hcontains
    rw [h.ids.contains_erase] at herase
    split at herase
    · cases herase
    · exact h.id_lt herase
  | linkId hslot hfree number =>
    refine ⟨h.names, h.ids.push hfree _, h.name_lt, fun hcontains => ?_⟩
    rcases HashIndex.contains_push hcontains with rfl | hold
    · exact hslot
    · exact h.id_lt hold
  | pool => exact ⟨h.names, h.ids, h.name_lt, h.id_lt⟩

structure LinkedOnce (c : Catalog ε) : Prop where
  names : ∀ slot, c.directory.names.buckets.toList.flatten.count slot = if slot < c.size then 1 else 0
  ids : ∀ {slot e}, c.get? slot = some e →
    c.directory.ids.buckets.toList.flatten.count slot = if 0 ≤ Record.number e then 1 else 0

section Order

variable (h : c.Consistent)
include h

theorem EnlistedTo.names_contains_iff : c.directory.names.contains slot = true ↔ slot < c.size := by
  refine ⟨h.lt_of_contains, fun hslot => ?_⟩
  obtain ⟨e, he⟩ := Store.exists_get? hslot
  obtain ⟨key, hkey, -⟩ := HashIndex.exists_key?_of_find? (h.slotNamed?_name he)
  rw [← HashIndex.isSome_key?, hkey, Option.isSome_some]

theorem EnlistedTo.ids_contains_iff : c.directory.ids.contains slot = true ↔
    ∃ e, c.get? slot = some e ∧ 0 ≤ Record.number e := by
  have hid : c.directory.ids.contains slot = true ↔ ∃ id, c.directory.idOf? slot = some id := by
    rw [← HashIndex.isSome_key?, ← Option.isSome_iff_exists, Directory.idOf?, Option.isSome_map]
  simp only [hid, h.idOf?_eq_some_iff]
  constructor
  · rintro ⟨_, hnonneg, e, he, rfl⟩
    exact ⟨e, he, hnonneg⟩
  · rintro ⟨e, he, hnonneg⟩
    exact ⟨_, hnonneg, e, he, rfl⟩

theorem EnlistedTo.linked : c.Linked where
  names := h.names_linked
  ids := h.ids_linked
  name_lt := h.lt_of_contains
  id_lt hcontains := by
    obtain ⟨e, he, -⟩ := h.ids_contains_iff.mp hcontains
    exact lt_size_of_get? he

theorem EnlistedTo.linkedOnce : c.LinkedOnce where
  names slot := by
    simp only [h.names_linked.count_buckets, h.names_contains_iff]
  ids {slot e} he := by
    simp only [h.ids_linked.count_buckets, h.ids_contains_iff, he, Option.some.injEq, exists_eq_left']

theorem EnlistedTo.free_of_size_le (hslot : c.size ≤ slot) :
    c.directory.names.contains slot = false ∧ c.directory.ids.contains slot = false := by
  have hlinked := h.linked
  exact ⟨Bool.eq_false_iff.mpr fun hcontains => Nat.not_lt.mpr hslot (hlinked.name_lt hcontains),
    Bool.eq_false_iff.mpr fun hcontains => Nat.not_lt.mpr hslot (hlinked.id_lt hcontains)⟩

end Order

theorem moves_directory_setId (h : c.directory.ids.WellLinked) (hslot : slot < c.size) {number : Int}
    {directory : Directory} (hset : c.directory.setId slot number = .ok directory) :
    Moves c { c with directory } := by
  have hfree : (c.directory.ids.erase slot).2.contains slot = false := by
    rw [h.contains_erase, if_pos rfl]
  have hunlink : Moves c (c.withIds (c.directory.ids.erase slot).2) := .single (.unlinkId hslot hfree)
  simp only [Directory.setId, bind, Except.bind, pure, Except.pure] at hset
  split at hset
  · obtain rfl := Except.ok.inj hset
    exact hunlink
  · rw [HashIndex.insert, hfree] at hset
    obtain rfl := Except.ok.inj hset
    exact hunlink.tail (.linkId (c := c.withIds (c.directory.ids.erase slot).2) hslot hfree number)

theorem moves_setId (h : c.directory.ids.WellLinked) (hslot : slot < c.size) {number : Int}
    (hset : c.setId slot number = .ok c') : Moves c c' := by
  simp only [setId, bind, Except.bind, pure, Except.pure] at hset
  cases hdirectory : c.directory.setId slot number with
  | error error =>
    rw [hdirectory] at hset
    cases hset
  | ok directory =>
    rw [hdirectory] at hset
    obtain rfl := Except.ok.inj hset
    exact (moves_directory_setId h hslot hdirectory).tail (.write (c := { c with directory }) hslot _)

theorem moves_enlist (h : c.directory.ids.WellLinked) (hfree : c.directory.names.contains slot = false)
    (henlist : c.enlist slot = .ok c') : Moves c c' := by
  cases he : c.get? slot with
  | none =>
    simp only [enlist, he, pure, Except.pure] at henlist
    obtain rfl := Except.ok.inj henlist
    exact .refl
  | some e =>
    let named : Catalog ε := c.withNames (c.directory.names.push slot ⟨Record.name e⟩)
    simp only [enlist, he, Directory.addName_eq_ok hfree, bind, Except.bind, pure, Except.pure, Except.mapError]
      at henlist
    split at henlist
    · cases henlist
    · next directory hset =>
      obtain rfl := Except.ok.inj henlist
      refine .head (.linkName he hfree) ?_
      have hset' : named.directory.setId slot (Record.number e) = .ok directory := by
        split at hset
        · cases hset
        · next hset' =>
          obtain rfl := Except.ok.inj hset
          exact hset'
      exact moves_directory_setId (c := named) h (lt_size_of_get? he) hset'

theorem moves_define (h : c.Consistent) {entry : ε} (hdefine : c.define entry = .ok (slot, c')) : Moves c c' := by
  cases hname : c.slotNamed? (Record.name entry) with
  | some known =>
    have hknown : known < c.size := h.lt_of_slotNamed? hname
    simp only [define, hname, bind, Except.bind, pure, Except.pure] at hdefine
    split at hdefine
    · cases hdefine
    · next defined hset =>
      obtain ⟨rfl, rfl⟩ := Prod.mk.inj (Except.ok.inj hdefine)
      have hsize : (c.modify known fun _ => entry).size = c.size := Store.size_modify _ _ _
      exact .head (.write hknown _) (moves_setId h.ids_linked (hsize ▸ hknown) hset)
  | none =>
    cases hpush : c.store.push entry with
    | error error => simp [define, hname, hpush, bind, Except.bind, Except.mapError] at hdefine
    | ok result =>
      obtain ⟨new, store⟩ := result
      obtain ⟨rfl, hsize, hget⟩ := Store.get?_of_push hpush
      have happend : Move c { c with store } := by
        refine .append (hsize ▸ Nat.le_succ _) (fun i hi => ?_) fun i hi => h.free_of_size_le hi
        exact (hget i).trans (if_neg (Nat.ne_of_lt hi))
      simp only [define, hname, hpush, bind, Except.bind, pure, Except.pure, Except.mapError] at hdefine
      split at hdefine
      · cases hdefine
      · next enlisted henlist =>
        obtain ⟨rfl, rfl⟩ := Prod.mk.inj (Except.ok.inj hdefine)
        exact .head happend (moves_enlist (c := { c with store }) h.ids_linked (h.free_of_size_le (Nat.le_refl _)).1 henlist)

theorem moves_claimId (h : c.directory.ids.WellLinked) (hslot : slot < c.size) : Moves c (c.claimId slot).2 := by
  have hwrite : ∀ (directory : Directory) (number : Int), Move { c with directory }
      { c with store := c.store.modify slot (Record.withNumber · number), directory } :=
    fun directory number => .write (c := { c with directory }) hslot _
  rcases Directory.claimId_cases h slot with ⟨number, -, hclaim⟩ | ⟨error, pool, -, hclaim, -⟩ |
    ⟨number, pool, hid, hclaim, -⟩
  · simp only [claimId, hclaim]
    exact .single (hwrite c.directory number)
  · simp only [claimId, hclaim]
    exact .single (.pool c pool)
  · simp only [claimId, hclaim]
    have hfree : c.directory.ids.contains slot = false := Directory.contains_ids_of_unnumbered hid
    exact .head (.pool c pool) (.head (.linkId (c := c.withPool pool) hslot hfree number) (.single (hwrite _ number)))

end FrameTable.Catalog
