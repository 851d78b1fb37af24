import Mathlib.Data.List.Basic
import Mathlib.Logic.Relation
import FrameTable.Catalog.Record
import FrameTable.Proofs.Catalog.Evolution
import FrameTable.Proofs.Catalog.Room

/-!
Records and indexes of a catalog while some slots are reserved. A slot that waits to be linked has a record, and may
come to have an id, but no name leads to it; about all other slots the indexes say what the records say, whatever is
done to the catalog in between.
-/

namespace FrameTable.Catalog

variable {ε : Type} [Record ε]

inductive Operates : Catalog ε × List Nat → Catalog ε × List Nat → Prop
  | define {c c' : Catalog ε} {pending : List Nat} {slot : Nat} {entry : ε}
      (hdefine : c.define entry = .ok (slot, c')) : Operates (c, pending) (c', pending)
  | reserve {c c' : Catalog ε} {pending : List Nat} {count : UInt64} {init : Nat → ε} {first last : Nat}
      (hreserve : c.reserve count init = .ok ((first, last), c')) :
      Operates (c, pending) (c', pending ++ List.range' first (last - first))
  | link {c c' : Catalog ε} {pending : List Nat} {slot : Nat} {e : ε} (hpending : slot ∈ pending)
      (he : c.get? slot = some e) (hnew : c.slotNamed? (Record.name e) = none) (henlist : c.enlist slot = .ok c') :
      Operates (c, pending) (c', pending.filter (· ≠ slot))
  | setId {c c' : Catalog ε} {pending : List Nat} {slot : Nat} {number : Int} (hslot : slot < c.size)
      (hset : c.setId slot number = .ok c') : Operates (c, pending) (c', pending)
  | claimId {c : Catalog ε} {pending : List Nat} {slot : Nat} (hslot : slot < c.size) :
      Operates (c, pending) ((c.claimId slot).2, pending)
  | withPool (c : Catalog ε) (pending : List Nat) (pool : IdPool) : Operates (c, pending) (c.withPool pool, pending)

structure InStep (c : Catalog ε) (pending : List Nat) : Prop where
  fits : c.Fits
  names_linked : c.directory.names.WellLinked
  ids_linked : c.directory.ids.WellLinked
  pending_lt : ∀ slot ∈ pending, slot < c.size
  contains_iff : ∀ {slot}, c.directory.names.contains slot = true ↔ slot < c.size ∧ slot ∉ pending
  name : ∀ {slot name}, c.directory.nameOf? slot = some name →
    ∃ e, c.get? slot = some e ∧ Text.same (Record.name e) name = true
  found : ∀ {slot name spelling}, c.directory.nameOf? slot = some name → Text.same name spelling = true →
    c.slotNamed? spelling = some slot
  held : ∀ {slot id}, c.directory.idOf? slot = some id → 0 ≤ id ∧ ∃ e, c.get? slot = some e ∧ Record.number e = id
  numbered : ∀ {slot e}, c.get? slot = some e → slot ∉ pending → 0 ≤ Record.number e →
    c.directory.idOf? slot = some (Record.number e)

def Tight (c : Catalog ε) : Prop :=
  Store.maxBytes < (c.store.allocated.toNat + 2 + Store.margin.toNat) * (Record.width ε).toNat

variable {c c' : Catalog ε} {pending pending' : List Nat} {slot : Nat} {e e' entry : ε}

theorem inStep_empty (buckets : Nat) : (empty buckets : Catalog ε).InStep [] where
  fits := Store.fits_empty
  names_linked := HashIndex.wellLinked_empty buckets
  ids_linked := HashIndex.wellLinked_empty buckets
  pending_lt := nofun
  contains_iff := iff_of_false nofun nofun
  name := nofun
  found := nofun
  held := nofun
  numbered := nofun

namespace InStep

theorem nameOf?_isSome_iff (h : c.InStep pending) :
    (c.directory.nameOf? slot).isSome = true ↔ slot < c.size ∧ slot ∉ pending := by
  rw [Directory.nameOf?, Option.isSome_map, HashIndex.isSome_key?, h.contains_iff]

theorem slotNamed?_iff (h : c.InStep pending) {spelling : String} : c.slotNamed? spelling = some slot ↔
    ∃ name, c.directory.nameOf? slot = some name ∧ Text.same name spelling = true := by
  constructor
  · intro hfind
    obtain ⟨key, hkey, hsame⟩ := HashIndex.exists_key?_of_find? hfind
    exact ⟨key.text, congrArg (Option.map Name.text) hkey, hsame⟩
  · rintro ⟨name, hname, hsame⟩
    exact h.found hname hsame

theorem withPool (h : c.InStep pending) (pool : IdPool) : (c.withPool pool).InStep pending :=
  ⟨h.fits, h.names_linked, h.ids_linked, h.pending_lt, h.contains_iff, h.name, h.found, h.held, h.numbered⟩

theorem append (h : c.InStep pending) {store : Store ε (Record.width ε)} {fresh : Nat}
    (hfits : store.Fits) (hsize : store.size = c.size + fresh) (hget : ∀ i < c.size, store.get? i = c.get? i) :
    ({ c with store } : Catalog ε).InStep (pending ++ List.range' c.size fresh) := by
  have hold {i : Nat} {e : ε} (he : c.get? i = some e) : store.get? i = some e := (hget i (lt_size_of_get? he)).trans he
  have hmem (i : Nat) : i ∈ pending ++ List.range' c.size fresh ↔ i ∈ pending ∨ c.size ≤ i ∧ i < c.size + fresh := by
    rw [List.mem_append, List.mem_range'_1]
  refine ⟨hfits, h.names_linked, h.ids_linked, fun i hi => ?_, fun {i} => ?_, fun hname => ?_, h.found, fun hid => ?_,
    fun {i e} he hnot hnonneg => ?_⟩
  · change i < store.size
    rcases (hmem i).mp hi with hpending | hrange
    · exact hsize ▸ Nat.lt_add_right fresh (h.pending_lt i hpending)
    · exact hsize ▸ hrange.2
  · change c.directory.names.contains i = true ↔ i < store.size ∧ _
    rw [h.contains_iff, hmem, hsize]
    refine ⟨fun ⟨hlt, hnot⟩ => ⟨Nat.lt_add_right fresh hlt, ?_⟩, fun ⟨hlt, hnot⟩ => ⟨?_, fun hi => hnot (.inl hi)⟩⟩
    · rintro (hi | ⟨hle, -⟩)
      · exact hnot hi
      · exact absurd hlt (Nat.not_lt_of_le hle)
    · exact Nat.lt_of_not_le fun hle => hnot (.inr ⟨hle, hlt⟩)
  · obtain ⟨e, he, hsame⟩ := h.name hname
    exact ⟨e, hold he, hsame⟩
  · obtain ⟨hnonneg, e, he, hnumber⟩ := h.held hid
    exact ⟨hnonneg, e, hold he, hnumber⟩
  · have hlt : i < store.size := Store.lt_of_get? he
    rw [hmem] at hnot
    have hin : i < c.size := Nat.lt_of_not_le fun hle => hnot (.inr ⟨hle, hsize ▸ hlt⟩)
    exact h.numbered ((hget i hin).symm.trans he) (fun hi => hnot (.inl hi)) hnonneg

section Given

variable (h : c.InStep pending) (hget : ∀ i, c'.get? i = if i = slot then some e else c.get? i)
  (hid : ∀ i, c'.directory.idOf? i =
    if i = slot then (if Record.number e < 0 then none else some (Record.number e)) else c.directory.idOf? i)
include h hget hid

theorem held_of_given {i : Nat} {id : Int} (hi : c'.directory.idOf? i = some id) :
    0 ≤ id ∧ ∃ e₁, c'.get? i = some e₁ ∧ Record.number e₁ = id := by
  rw [hid] at hi
  rw [hget]
  by_cases hslot : i = slot
  · rw [if_pos hslot] at hi ⊢
    split at hi
    · cases hi
    · next hnonneg => exact ⟨Option.some.inj hi ▸ Int.not_lt.mp hnonneg, e, rfl, Option.some.inj hi⟩
  · rw [if_neg hslot] at hi ⊢
    exact h.held hi

theorem numbered_of_given {i : Nat} {e₁ : ε} (he₁ : c'.get? i = some e₁) (hnot : i ≠ slot → i ∉ pending)
    (hnonneg : 0 ≤ Record.number e₁) : c'.directory.idOf? i = some (Record.number e₁) := by
  rw [hget] at he₁
  rw [hid]
  by_cases hslot : i = slot
  · rw [if_pos hslot] at he₁ ⊢
    obtain rfl := Option.some.inj he₁
    exact if_neg (Int.not_lt.mpr hnonneg)
  · rw [if_neg hslot] at he₁ ⊢
    exact h.numbered he₁ (hnot hslot) hnonneg

end Given

theorem replace (h : c.InStep pending) (hfits : c'.Fits) (hsize : c'.size = c.size) (he : c.get? slot = some e)
    (hget : ∀ i, c'.get? i = if i = slot then some e' else c.get? i)
    (hname : Text.same (Record.name e) (Record.name e') = true) (hnames : c'.directory.names = c.directory.names)
    (hids : c'.directory.ids.WellLinked)
    (hid : ∀ i, c'.directory.idOf? i =
      if i = slot then (if Record.number e' < 0 then none else some (Record.number e')) else c.directory.idOf? i) :
    c'.InStep pending := by
  have hnameOf (i : Nat) : c'.directory.nameOf? i = c.directory.nameOf? i := by
    rw [Directory.nameOf?, hnames, Directory.nameOf?]
  have hfind (name : String) : c'.slotNamed? name = c.slotNamed? name := by
    simp only [slotNamed?, Directory.slotNamed?, hnames]
  refine ⟨hfits, hnames ▸ h.names_linked, hids, hsize ▸ h.pending_lt, ?_, fun {i name} hi => ?_, ?_,
    h.held_of_given hget hid, fun he₁ hnot => h.numbered_of_given hget hid he₁ fun _ => hnot⟩
  · rw [hnames, hsize]
    exact h.contains_iff
  · obtain ⟨e₁, he₁, hsame⟩ := h.name (hnameOf i ▸ hi)
    rw [hget]
    by_cases hi : i = slot
    · obtain rfl := Option.some.inj (he.symm.trans (hi ▸ he₁))
      exact ⟨e', if_pos hi, Text.same_trans (Text.same_comm _ _ ▸ hname) hsame⟩
    · exact ⟨e₁, (if_neg hi).trans he₁, hsame⟩
  · intro i name spelling hi hsame
    rw [hfind]
    exact h.found (hnameOf i ▸ hi) hsame

theorem exists_enlist_eq_ok (h : c.InStep pending) (hpending : slot ∈ pending) (he : c.get? slot = some e)
    (hnew : c.slotNamed? (Record.name e) = none) :
    ∃ directory : Directory, c.enlist slot = .ok { c with directory } ∧
      ({ c with directory } : Catalog ε).InStep (pending.filter (· ≠ slot)) ∧
      c.KeepsNames { c with directory } := by
  have hfree : c.directory.names.contains slot = false :=
    Bool.eq_false_iff.mpr fun hcontains => (h.contains_iff.mp hcontains).2 hpending
  obtain ⟨directory, henlist, hnames, -, hids, hid⟩ := exists_enlist_of_free h.ids_linked he hfree
  have hnameOf (i : Nat) : directory.nameOf? i =
      if i = slot then some (Record.name e) else c.directory.nameOf? i := by
    rw [Directory.nameOf?, hnames, HashIndex.key?_push]
    split <;> rfl
  have hfind (spelling : String) : directory.slotNamed? spelling =
      if Text.same (Record.name e) spelling then some slot else c.slotNamed? spelling := by
    rw [Directory.slotNamed?, hnames]
    exact h.names_linked.find?_push hfree ⟨Record.name e⟩ ⟨spelling⟩
  -- A name that was found before is not the new one in another spelling.
  have hkept {i : Nat} {spelling : String} (hi : c.slotNamed? spelling = some i) :
      directory.slotNamed? spelling = some i := by
    obtain ⟨name, hname, hsame⟩ := h.slotNamed?_iff.mp hi
    rw [hfind, if_neg fun hnewname => ?_]
    · exact hi
    · have hcross := Text.same_trans hsame (Text.same_comm _ _ ▸ hnewname)
      cases hnew.symm.trans (h.found hname hcross)
  have hget (i : Nat) : ({ c with directory } : Catalog ε).get? i = if i = slot then some e else c.get? i := by
    split
    · next hi => exact hi ▸ he
    · rfl
  refine ⟨directory, henlist, ⟨h.fits, ?_, hids, fun i hi => ?_, fun {i} => ?_, fun {i name} hi => ?_,
    fun {i name spelling} hi hsame => ?_, h.held_of_given hget hid, fun he₁ hnot => ?_⟩, hkept⟩
  · exact hnames ▸ h.names_linked.push hfree _
  · exact h.pending_lt i (List.mem_filter.mp hi).1
  · change directory.names.contains i = true ↔ i < c.size ∧ _
    rw [List.mem_filter, decide_eq_true_iff, ← HashIndex.isSome_key?, hnames, HashIndex.key?_push]
    by_cases hi : i = slot
    · subst hi
      simp [lt_size_of_get? he]
    · rw [if_neg hi, HashIndex.isSome_key?, h.contains_iff]
      simp [hi]
  · have hname : (if i = slot then some (Record.name e) else c.directory.nameOf? i) = some name := hnameOf i ▸ hi
    by_cases hslot : i = slot
    · rw [if_pos hslot] at hname
      exact ⟨e, hslot ▸ he, Option.some.inj hname ▸ Text.same_refl _⟩
    · rw [if_neg hslot] at hname
      exact h.name hname
  · have hname : (if i = slot then some (Record.name e) else c.directory.nameOf? i) = some name := hnameOf i ▸ hi
    by_cases hslot : i = slot
    · rw [if_pos hslot] at hname
      exact (hfind spelling).trans (by rw [Option.some.inj hname, if_pos hsame, hslot])
    · rw [if_neg hslot] at hname
      exact hkept (h.found hname hsame)
  · exact h.numbered_of_given hget hid he₁ fun hslot hi =>
      hnot (List.mem_filter.mpr ⟨hi, decide_eq_true hslot⟩)

theorem renumber (h : c.InStep pending) (he : c.get? slot = some e) {number : Int}
    (hstore : c'.store = c.store.modify slot (Record.withNumber · number))
    (hnames : c'.directory.names = c.directory.names) (hids : c'.directory.ids.WellLinked)
    (hid : ∀ i, c'.directory.idOf? i =
      if i = slot then (if number < 0 then none else some number) else c.directory.idOf? i) : c'.InStep pending := by
  have hget : ∀ i, c'.get? i = if i = slot then some (Record.withNumber e number) else c.get? i := fun i => by
    rw [get?, hstore]
    exact get?_modify_withNumber he i
  have hfits : c'.store.Fits := hstore ▸ h.fits.modify slot _
  refine h.replace hfits ((congrArg Store.size hstore).trans (Store.size_modify _ _ _)) he hget ?_ hnames hids ?_
  · rw [Record.name_withNumber]
    exact Text.same_refl _
  · rw [Record.number_withNumber]
    exact hid

theorem exists_setId_eq_ok (h : c.InStep pending) (hslot : slot < c.size) (number : Int) :
    ∃ c', c.setId slot number = .ok c' ∧ c'.InStep pending ∧ c'.directory.names = c.directory.names := by
  obtain ⟨e, he⟩ := Store.exists_get? hslot
  obtain ⟨directory, hset, hnames, -, hids, hid⟩ := Catalog.exists_setId_eq_ok h.ids_linked slot number
  exact ⟨_, hset, h.renumber he rfl hnames hids hid, hnames⟩

theorem claimId (h : c.InStep pending) (hslot : slot < c.size) :
    (c.claimId slot).2.InStep pending ∧ (c.claimId slot).2.directory.names = c.directory.names := by
  obtain ⟨e, he⟩ := Store.exists_get? hslot
  rcases Directory.claimId_cases h.ids_linked slot with ⟨number, hid, hclaim⟩ | ⟨error, pool, -, hclaim, -⟩ |
    ⟨number, pool, -, hclaim, hids, hnonneg, -⟩
  · obtain ⟨-, e', he', rfl⟩ := h.held hid
    rw [claimId_of_kept he' hclaim]
    exact ⟨h, rfl⟩
  · have hrefused : c.claimId slot = (.error error, c.withPool pool) := by
      simp only [Catalog.claimId, hclaim, Catalog.withPool]
    rw [hrefused]
    exact ⟨h.withPool pool, rfl⟩
  · rw [Catalog.claimId, hclaim]
    refine ⟨h.renumber he rfl rfl hids fun i => ?_, rfl⟩
    rw [if_neg (Int.not_lt.mpr hnonneg)]
    exact Directory.idOf?_of_push rfl i

theorem exists_define_of_known (h : c.InStep pending) (hname : c.slotNamed? (Record.name entry) = some slot) :
    ∃ c', c.define entry = .ok (slot, c') ∧ c'.InStep pending ∧ c'.directory.names = c.directory.names ∧
      c'.size = c.size ∧ ∀ i, c'.get? i = if i = slot then some entry else c.get? i := by
  obtain ⟨name, hnameOf, hsame⟩ := h.slotNamed?_iff.mp hname
  obtain ⟨e, he, hrecord⟩ := h.name hnameOf
  obtain ⟨c', hdefine, hsize, hget, hnames, -, hids, hid⟩ := Catalog.exists_define_of_known h.ids_linked he hname
  have hstep := h.replace (h.fits.define hdefine) hsize he hget (Text.same_trans hrecord hsame) hnames hids hid
  exact ⟨c', hdefine, hstep, hnames, hsize, hget⟩

theorem define_of_new (h : c.InStep pending) (hnew : c.slotNamed? (Record.name entry) = none) :
    (∃ c', c.define entry = .ok (c.size, c') ∧ c'.InStep pending ∧ c.KeepsNames c' ∧ c'.size = c.size + 1 ∧
      ∀ i, c'.get? i = if i = c.size then some entry else c.get? i) ∨
    c.define entry = .error (.store (.outOfMemory 1)) ∧ c.Tight := by
  cases hpush : c.store.push entry with
  | error error =>
    obtain ⟨rfl, htight⟩ := Store.push_eq_error h.fits Record.width_pos hpush
    refine .inr ⟨?_, htight⟩
    simp only [Catalog.define, hnew, hpush, bind, Except.bind, Except.mapError]
  | ok result =>
    obtain ⟨new, store⟩ := result
    obtain ⟨rfl, hsize, hget⟩ := Store.get?_of_push hpush
    have hadded : ({ c with store } : Catalog ε).InStep (pending ++ List.range' c.size 1) :=
      h.append (h.fits.push hpush) hsize fun i hi => (hget i).trans (if_neg (Nat.ne_of_lt hi))
    obtain ⟨directory, henlist, hlinked, hnames⟩ := hadded.exists_enlist_eq_ok
      (List.mem_append_right _ List.mem_cons_self) ((hget _).trans (if_pos rfl)) hnew
    have hpending : (pending ++ List.range' c.size 1).filter (· ≠ c.size) = pending := by
      have hnot : c.size ∉ pending := fun hmem => Nat.lt_irrefl _ (h.pending_lt _ hmem)
      rw [List.filter_append, HashIndex.Represents.filter_ne_of_notMem hnot]
      simp
    rw [hpending] at hlinked
    refine .inl ⟨_, ?_, hlinked, hnames, hsize, hget⟩
    have henlist' : ({ c with store } : Catalog ε).enlist c.store.size = _ := henlist
    simp only [Catalog.define, hnew, hpush, henlist', bind, Except.bind, Except.mapError, pure, Except.pure]
    rfl

theorem reserve (h : c.InStep pending) {count : UInt64} {init : Nat → ε} {first last : Nat}
    (hreserve : c.reserve count init = .ok ((first, last), c')) :
    c'.InStep (pending ++ List.range' first (last - first)) ∧ c'.directory = c.directory := by
  simp only [Catalog.reserve, bind, Except.bind, pure, Except.pure] at hreserve
  cases hstore : c.store.reserve count init with
  | error error => simp [hstore, Except.mapError] at hreserve
  | ok result =>
    obtain ⟨⟨first', last'⟩, store⟩ := result
    simp only [hstore, Except.mapError, Except.ok.injEq, Prod.mk.injEq] at hreserve
    obtain ⟨⟨rfl, rfl⟩, rfl⟩ := hreserve
    obtain ⟨rfl, rfl, hsize, hget⟩ := Store.get?_of_reserve hstore
    rw [Nat.add_sub_cancel_left]
    exact ⟨h.append (Store.Fits.reserve h.fits hstore) hsize fun i hi => (hget i).trans (if_pos hi), rfl⟩

theorem operates {s s' : Catalog ε × List Nat} (h : s.1.InStep s.2) (hstep : Operates s s') :
    s'.1.InStep s'.2 ∧ s.1.KeepsNames s'.1 := by
  have hkept {c c' : Catalog ε} (hnames : c'.directory.names = c.directory.names) : c.KeepsNames c' :=
    fun {name slot} hname => by rwa [slotNamed?, Directory.slotNamed?, hnames]
  cases hstep with
  | @define c c' pending slot entry hdefine =>
    cases hname : c.slotNamed? (Record.name entry) with
    | some known =>
      obtain ⟨defined, hok, hdefined, hnames, -⟩ := exists_define_of_known h hname
      obtain ⟨rfl, rfl⟩ := Prod.mk.inj (Except.ok.inj (hdefine.symm.trans hok))
      exact ⟨hdefined, hkept hnames⟩
    | none =>
      rcases define_of_new h hname with ⟨defined, hok, hdefined, hnames, -⟩ | ⟨herror, -⟩
      · obtain ⟨rfl, rfl⟩ := Prod.mk.inj (Except.ok.inj (hdefine.symm.trans hok))
        exact ⟨hdefined, hnames⟩
      · cases hdefine.symm.trans herror
  | reserve hreserve =>
    obtain ⟨hreserved, hdirectory⟩ := h.reserve hreserve
    exact ⟨hreserved, hkept (congrArg Directory.names hdirectory)⟩
  | link hpending he hnew henlist =>
    obtain ⟨directory, hok, hlinked, hnames⟩ := h.exists_enlist_eq_ok hpending he hnew
    obtain rfl := Except.ok.inj (henlist.symm.trans hok)
    exact ⟨hlinked, hnames⟩
  | @setId c c' pending slot number hslot hset =>
    obtain ⟨renumbered, hok, hinStep, hnames⟩ := exists_setId_eq_ok h hslot number
    obtain rfl := Except.ok.inj (hset.symm.trans hok)
    exact ⟨hinStep, hkept hnames⟩
  | claimId hslot =>
    obtain ⟨hinStep, hnames⟩ := claimId h hslot
    exact ⟨hinStep, hkept hnames⟩
  | withPool c pending pool => exact ⟨InStep.withPool h pool, hkept rfl⟩

theorem run {s s' : Catalog ε × List Nat} (h : s.1.InStep s.2) (hrun : Relation.ReflTransGen Operates s s') :
    s'.1.InStep s'.2 ∧ s.1.KeepsNames s'.1 := by
  induction hrun with
  | refl => exact ⟨h, id⟩
  | tail _ hstep ih =>
    obtain ⟨hinStep, hnames⟩ := ih.1.operates hstep
    exact ⟨hinStep, fun hname => hnames (ih.2 hname)⟩

end InStep

structure LinkedAs (c : Catalog ε) (slot : Nat) (name : String) : Prop where
  lt_size : slot < c.size
  record : ∃ e, c.get? slot = some e ∧ Text.same (Record.name e) name = true ∧
    ∀ id, c.directory.idOf? slot = some id ↔ 0 ≤ id ∧ Record.number e = id
  slotNamed?_iff : ∀ spelling, c.slotNamed? spelling = some slot ↔ Text.same name spelling = true

theorem InStep.linkedAs (h : c.InStep pending) {name : String} (hname : c.directory.nameOf? slot = some name) :
    c.LinkedAs slot name := by
  obtain ⟨hlt, hnot⟩ := h.nameOf?_isSome_iff.mp (Option.isSome_iff_exists.mpr ⟨name, hname⟩)
  obtain ⟨e, he, hsame⟩ := h.name hname
  refine ⟨hlt, ⟨e, he, hsame, fun id => ⟨fun hid => ?_, fun ⟨hnonneg, hnumber⟩ => ?_⟩⟩, fun spelling => ?_⟩
  · obtain ⟨hnonneg, e', he', hnumber⟩ := h.held hid
    obtain rfl := Option.some.inj (he.symm.trans he')
    exact ⟨hnonneg, hnumber⟩
  · subst hnumber
    exact h.numbered he hnot hnonneg
  · rw [h.slotNamed?_iff]
    refine ⟨fun ⟨other, hother, hspelling⟩ => ?_, fun hspelling => ⟨name, hname, hspelling⟩⟩
    obtain rfl := Option.some.inj (hname.symm.trans hother)
    exact hspelling

structure Defines (c : Catalog ε) (entry : ε) : Prop where
  known : ∀ slot, c.slotNamed? (Record.name entry) = some slot →
    ∃ c', c.define entry = .ok (slot, c') ∧ c'.size = c.size ∧
      ∀ i, c'.get? i = if i = slot then some entry else c.get? i
  new : c.slotNamed? (Record.name entry) = none →
    (∃ c', c.define entry = .ok (c.size, c') ∧ c'.size = c.size + 1 ∧
      ∀ i, c'.get? i = if i = c.size then some entry else c.get? i) ∨
    c.define entry = .error (.store (.outOfMemory 1)) ∧ c.Tight

theorem InStep.defines (h : c.InStep pending) (entry : ε) : c.Defines entry where
  known slot hname := by
    obtain ⟨c', hdefine, -, -, hrest⟩ := h.exists_define_of_known hname
    exact ⟨c', hdefine, hrest⟩
  new hnew := by
    refine (h.define_of_new hnew).imp_left ?_
    rintro ⟨c', hdefine, -, -, hrest⟩
    exact ⟨c', hdefine, hrest⟩

/-- Whatever is done to a catalog while slots are pending: those that are linked are found under one name for good,
their records are in step with the indexes, and pending slots are not found. -/
theorem operates_inStep {buckets : Nat} (h : Relation.ReflTransGen Operates (empty buckets, []) (c, pending)) :
    (∀ slot name, c.directory.nameOf? slot = some name → c.LinkedAs slot name) ∧
    (∀ slot < c.size, slot ∉ pending → ∃ name, c.directory.nameOf? slot = some name) ∧
    (∀ slot ∈ pending, slot < c.size ∧ c.directory.nameOf? slot = none ∧ ∀ name, c.slotNamed? name ≠ some slot) ∧
    (∀ i j a b, c.directory.nameOf? i = some a → c.directory.nameOf? j = some b → Text.same a b = true → i = j) ∧
    (∀ c' pending', Relation.ReflTransGen Operates (c, pending) (c', pending') →
      ∀ name slot, c.slotNamed? name = some slot → c'.slotNamed? name = some slot) ∧
    (∀ entry, c.Defines entry) ∧
    (∀ slot < c.size, ∀ number, ∃ c', c.setId slot number = .ok c') ∧
    ∀ slot ∈ pending, ∀ e, c.get? slot = some e → c.slotNamed? (Record.name e) = none →
      ∃ c', c.enlist slot = .ok c' := by
  obtain ⟨hinStep, -⟩ := (inStep_empty buckets).run h
  change c.InStep pending at hinStep
  have hnameOf (slot : Nat) : (c.directory.nameOf? slot).isSome = true ↔ slot < c.size ∧ slot ∉ pending :=
    hinStep.nameOf?_isSome_iff
  refine ⟨fun slot name => hinStep.linkedAs, fun slot hslot hnot => ?_, fun slot hpending => ?_,
    fun i j a b hi hj hsame => ?_, fun c' pending' hrun name slot => (hinStep.run hrun).2, hinStep.defines,
    fun slot hslot number => ?_, fun slot hpending e he hnew => ?_⟩
  · exact Option.isSome_iff_exists.mp ((hnameOf slot).mpr ⟨hslot, hnot⟩)
  · have hnone : c.directory.nameOf? slot = none :=
      Option.not_isSome_iff_eq_none.mp fun hsome => ((hnameOf slot).mp hsome).2 hpending
    refine ⟨hinStep.pending_lt slot hpending, hnone, fun name hname => ?_⟩
    obtain ⟨found, hfound, -⟩ := hinStep.slotNamed?_iff.mp hname
    cases hnone.symm.trans hfound
  · exact Option.some.inj ((hinStep.found hi hsame).symm.trans (hinStep.found hj (Text.same_refl b)))
  · obtain ⟨c', hset, -⟩ := hinStep.exists_setId_eq_ok hslot number
    exact ⟨c', hset⟩
  · obtain ⟨directory, henlist, -⟩ := hinStep.exists_enlist_eq_ok hpending he hnew
    exact ⟨_, henlist⟩

def reservedThings : Catalog Thing :=
  (((empty 1).reserve 2 fun slot => ⟨if slot = 0 then "Imp" else "Troll", 5⟩).toOption.map (·.2)).getD (empty 1)

def definedThings : Catalog Thing :=
  ((reservedThings.define ⟨"Demon", 7⟩).toOption.map (·.2)).getD reservedThings

def linkedThings : Catalog Thing :=
  (definedThings.enlist 0).toOption.getD definedThings

theorem linkedThings_inStep : Relation.ReflTransGen Operates (empty 1, []) (linkedThings, [1]) ∧
    linkedThings.LinkedAs 0 "Imp" ∧ ∀ name, linkedThings.slotNamed? name ≠ some 1 := by
  have hreserve : (empty 1 : Catalog Thing).reserve 2 (fun slot => ⟨if slot = 0 then "Imp" else "Troll", 5⟩) =
      .ok ((0, 2), reservedThings) := rfl
  have hdefine : reservedThings.define ⟨"Demon", 7⟩ = .ok (2, definedThings) := rfl
  have henlist : definedThings.enlist 0 = .ok linkedThings := rfl
  have hrun : Relation.ReflTransGen Operates (empty 1, []) (linkedThings, [1]) :=
    .tail (.tail (.single (.reserve hreserve)) (.define hdefine))
      (.link (e := (⟨"Imp", 5⟩ : Thing)) (by decide) rfl rfl henlist)
  obtain ⟨hlinked, -, hpending, -⟩ := operates_inStep hrun
  exact ⟨hrun, hlinked 0 "Imp" rfl, (hpending 1 (by decide)).2.2⟩

end FrameTable.Catalog
