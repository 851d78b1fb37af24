import FrameTable.Catalog.Basic
import FrameTable.Proofs.Index.Lookup

namespace FrameTable.Catalog

variable {ε : Type} [Record ε] {c c' : Catalog ε} {bound slot : Nat}

structure EnlistedTo (c : Catalog ε) (bound : Nat) : Prop where
  names_linked : c.directory.names.WellLinked
  ids_linked : c.directory.ids.WellLinked
  lt_of_contains : ∀ {slot}, c.directory.names.contains slot = true → slot < bound
  slotNamed?_iff_lt : ∀ {name slot}, c.slotNamed? name = some slot ↔
    slot < bound ∧ ∃ e, c.get? slot = some e ∧ Text.same (Record.name e) name = true
  idOf?_iff_lt : ∀ {slot id}, c.directory.idOf? slot = some id ↔
    slot < bound ∧ 0 ≤ id ∧ ∃ e, c.get? slot = some e ∧ Record.number e = id

abbrev Consistent (c : Catalog ε) : Prop :=
  c.EnlistedTo c.size

theorem lt_size_of_get? {e : ε} (h : c.get? slot = some e) : slot < c.size :=
  Store.lt_of_get? h

theorem get?_of_reserve {count : UInt64} {init : Nat → ε} {first last : Nat}
    (h : c.reserve count init = .ok ((first, last), c')) :
    c'.directory = c.directory ∧ first = c.size ∧ c'.size = c.size + count.toNat ∧
      ∀ i, c'.get? i =
        if i < c.size then c.get? i else if i < c.size + count.toNat then some (init i) else none := by
  simp only [reserve, bind, Except.bind, pure, Except.pure] at h
  cases hstore : c.store.reserve count init with
  | error error => simp [hstore, Except.mapError] at h
  | ok result =>
    obtain ⟨⟨first', last'⟩, store⟩ := result
    simp only [hstore, Except.mapError, Except.ok.injEq, Prod.mk.injEq] at h
    obtain ⟨⟨rfl, rfl⟩, rfl⟩ := h
    obtain ⟨hfirst, -, hrest⟩ := Store.get?_of_reserve hstore
    exact ⟨rfl, hfirst, hrest⟩

def identity (e : ε) : String × Int :=
  (Record.name e, Record.number e)

theorem get?_of_map_identity {i : Nat} {e : ε}
    (h : (c'.get? i).map identity = (c.get? i).map identity) (he : c.get? i = some e) :
    ∃ e', c'.get? i = some e' ∧ Record.name e' = Record.name e ∧ Record.number e' = Record.number e := by
  rw [he, Option.map_some, Option.map_eq_some_iff] at h
  obtain ⟨e', he', hid⟩ := h
  exact ⟨e', he', congrArg Prod.fst hid, congrArg Prod.snd hid⟩

theorem exists_enlist_of_free (h : c.directory.ids.WellLinked) {e : ε} (he : c.get? slot = some e)
    (hfree : c.directory.names.contains slot = false) :
    ∃ directory : Directory, c.enlist slot = .ok { c with directory } ∧
      directory.names = c.directory.names.push slot ⟨Record.name e⟩ ∧ directory.pool = c.directory.pool ∧
      directory.ids.WellLinked ∧ ∀ i, directory.idOf? i =
        if i = slot then (if Record.number e < 0 then none else some (Record.number e)) else c.directory.idOf? i := by
  let named : Directory := { c.directory with names := c.directory.names.push slot ⟨Record.name e⟩ }
  have hadd : c.directory.addName slot (Record.name e) = .ok named := Directory.addName_eq_ok hfree _
  obtain ⟨directory, hset, hrest⟩ := Directory.exists_setId_eq_ok (d := named) h slot (Record.number e)
  refine ⟨directory, ?_, hrest⟩
  simp [enlist, he, hadd, hset, bind, Except.bind, Except.mapError, pure, Except.pure]

namespace EnlistedTo

theorem congr (h : c.EnlistedTo bound) (hnames : c'.directory.names = c.directory.names)
    (hids : c'.directory.ids = c.directory.ids)
    (hrecords : ∀ i < bound, (c'.get? i).map identity = (c.get? i).map identity) : c'.EnlistedTo bound where
  names_linked := hnames ▸ h.names_linked
  ids_linked := hids ▸ h.ids_linked
  lt_of_contains := by
    rw [hnames]
    exact h.lt_of_contains
  slotNamed?_iff_lt {name slot} := by
    have hslot : c'.slotNamed? name = c.slotNamed? name := by
      simp only [slotNamed?, Directory.slotNamed?, hnames]
    rw [hslot, h.slotNamed?_iff_lt]
    constructor
    · rintro ⟨hlt, e, he, hsame⟩
      obtain ⟨e', he', hname, -⟩ := get?_of_map_identity (hrecords slot hlt) he
      exact ⟨hlt, e', he', hname ▸ hsame⟩
    · rintro ⟨hlt, e, he, hsame⟩
      obtain ⟨e', he', hname, -⟩ := get?_of_map_identity (hrecords slot hlt).symm he
      exact ⟨hlt, e', he', hname ▸ hsame⟩
  idOf?_iff_lt {slot id} := by
    have hid : c'.directory.idOf? slot = c.directory.idOf? slot := by simp only [Directory.idOf?, hids]
    rw [hid, h.idOf?_iff_lt]
    constructor
    · rintro ⟨hlt, hnonneg, e, he, hnumber⟩
      obtain ⟨e', he', -, hid⟩ := get?_of_map_identity (hrecords slot hlt) he
      exact ⟨hlt, hnonneg, e', he', hid.trans hnumber⟩
    · rintro ⟨hlt, hnonneg, e, he, hnumber⟩
      obtain ⟨e', he', -, hid⟩ := get?_of_map_identity (hrecords slot hlt).symm he
      exact ⟨hlt, hnonneg, e', he', hid.trans hnumber⟩

theorem succ (h : c.EnlistedTo slot) {e : ε} (he : c.get? slot = some e)
    (hnew : c.slotNamed? (Record.name e) = none) (hrecords : ∀ i, c'.get? i = c.get? i)
    (hnames : c'.directory.names.WellLinked) (hids : c'.directory.ids.WellLinked)
    (hcontains : ∀ {i}, c'.directory.names.contains i = true → i = slot ∨ c.directory.names.contains i = true)
    (hfind : ∀ name, c'.slotNamed? name =
      if Text.same (Record.name e) name then some slot else c.slotNamed? name)
    (hid : ∀ i, c'.directory.idOf? i =
      if i = slot then (if Record.number e < 0 then none else some (Record.number e)) else c.directory.idOf? i) :
    c'.EnlistedTo (slot + 1) where
  names_linked := hnames
  ids_linked := hids
  lt_of_contains {i} hi := by
    rcases hcontains hi with rfl | hold
    · exact Nat.lt_succ_self i
    · exact Nat.lt_succ_of_lt (h.lt_of_contains hold)
  slotNamed?_iff_lt {name i} := by
    rw [hfind, hrecords]
    by_cases hs : Text.same (Record.name e) name = true
    · rw [if_pos hs, Option.some.injEq]
      constructor
      · rintro rfl
        exact ⟨Nat.lt_succ_self slot, e, he, hs⟩
      · rintro ⟨hlt, e', he', hsame⟩
        rcases Nat.lt_succ_iff_lt_or_eq.mp hlt with hold | hi
        · -- The record of an earlier slot would have been found under the new name.
          have hcross : Text.same (Record.name e') (Record.name e) = true :=
            Text.same_trans hsame (Text.same_comm _ _ ▸ hs)
          rw [h.slotNamed?_iff_lt.mpr ⟨hold, e', he', hcross⟩] at hnew
          cases hnew
        · exact hi.symm
    · rw [if_neg hs, h.slotNamed?_iff_lt]
      constructor
      · rintro ⟨hlt, hrest⟩
        exact ⟨Nat.lt_succ_of_lt hlt, hrest⟩
      · rintro ⟨hlt, e', he', hsame⟩
        rcases Nat.lt_succ_iff_lt_or_eq.mp hlt with hold | rfl
        · exact ⟨hold, e', he', hsame⟩
        · rw [he] at he'
          exact absurd (Option.some.inj he' ▸ hsame) hs
  idOf?_iff_lt {i id} := by
    rw [hid, hrecords]
    by_cases hi : i = slot
    · subst hi
      rw [if_pos rfl, he]
      simp only [Option.some.injEq, exists_eq_left', Nat.lt_succ_self, true_and]
      split
      · simp only [reduceCtorEq, false_iff]
        omega
      · rw [Option.some.injEq]
        omega
    · rw [if_neg hi, h.idOf?_iff_lt]
      have hlt : i < slot + 1 ↔ i < slot := by omega
      rw [hlt]

theorem exists_enlist_eq_ok (h : c.EnlistedTo slot) {e : ε} (he : c.get? slot = some e)
    (hnew : c.slotNamed? (Record.name e) = none) :
    ∃ directory : Directory, c.enlist slot = .ok { c with directory } ∧ directory.pool = c.directory.pool ∧
      ({ c with directory } : Catalog ε).EnlistedTo (slot + 1) ∧ ∀ name, directory.slotNamed? name =
        if Text.same (Record.name e) name then some slot else c.slotNamed? name := by
  have hfree : c.directory.names.contains slot = false := by
    cases hs : c.directory.names.contains slot with
    | false => rfl
    | true => exact absurd (h.lt_of_contains hs) (Nat.lt_irrefl slot)
  obtain ⟨directory, henlist, hnames, hpool, hlinked, hid⟩ := exists_enlist_of_free h.ids_linked he hfree
  have hfind : ∀ name, directory.slotNamed? name =
      if Text.same (Record.name e) name then some slot else c.slotNamed? name := by
    intro name
    rw [Directory.slotNamed?, hnames]
    exact h.names_linked.find?_push hfree ⟨Record.name e⟩ ⟨name⟩
  refine ⟨directory, henlist, hpool, ?_, hfind⟩
  refine h.succ he hnew (fun _ => rfl) (hnames ▸ h.names_linked.push hfree _) hlinked ?_ hfind hid
  intro i hi
  rw [show directory.names = _ from hnames] at hi
  exact HashIndex.contains_push hi

theorem replace (h : c.EnlistedTo bound) (hslot : slot < bound) {e e' : ε} (he : c.get? slot = some e)
    (he' : c'.get? slot = some e') (hname : Text.same (Record.name e) (Record.name e') = true)
    (hrest : ∀ i ≠ slot, c'.get? i = c.get? i) (hnames : c'.directory.names = c.directory.names)
    (hids : c'.directory.ids.WellLinked)
    (hid : ∀ i, c'.directory.idOf? i =
      if i = slot then (if Record.number e' < 0 then none else some (Record.number e'))
      else c.directory.idOf? i) : c'.EnlistedTo bound where
  names_linked := hnames ▸ h.names_linked
  ids_linked := hids
  lt_of_contains := by
    rw [hnames]
    exact h.lt_of_contains
  slotNamed?_iff_lt {name i} := by
    have hfind : c'.slotNamed? name = c.slotNamed? name := by
      simp only [slotNamed?, Directory.slotNamed?, hnames]
    rw [hfind, h.slotNamed?_iff_lt]
    by_cases hi : i = slot
    · subst hi
      simp only [he, he', Option.some.injEq, exists_eq_left', Text.same_congr hname name]
    · rw [hrest i hi]
  idOf?_iff_lt {i id} := by
    rw [hid]
    by_cases hi : i = slot
    · subst hi
      rw [if_pos rfl]
      simp only [he', Option.some.injEq, exists_eq_left', hslot, true_and]
      split
      · simp only [reduceCtorEq, false_iff]
        omega
      · rw [Option.some.injEq]
        omega
    · rw [if_neg hi, hrest i hi, h.idOf?_iff_lt]

end EnlistedTo

theorem get?_modify_withNumber {e : ε} (he : c.get? slot = some e) {number : Int} (i : Nat) :
    (c.store.modify slot (Record.withNumber · number)).get? i =
      if i = slot then some (Record.withNumber e number) else c.get? i := by
  rw [Store.get?_modify]
  by_cases hi : slot = i
  · subst hi
    rw [if_pos rfl, if_pos rfl, show c.store.get? slot = some e from he, Option.map_some]
  · rw [if_neg hi, if_neg (Ne.symm hi)]
    rfl

theorem EnlistedTo.renumber (h : c.EnlistedTo bound) (hslot : slot < bound) {e : ε} (he : c.get? slot = some e)
    {number : Int} (hstore : c'.store = c.store.modify slot (Record.withNumber · number))
    (hnames : c'.directory.names = c.directory.names) (hids : c'.directory.ids.WellLinked)
    (hid : ∀ i, c'.directory.idOf? i =
      if i = slot then (if number < 0 then none else some number) else c.directory.idOf? i) : c'.EnlistedTo bound := by
  have hget : ∀ i, c'.get? i = if i = slot then some (Record.withNumber e number) else c.get? i := fun i => by
    rw [get?, hstore]
    exact get?_modify_withNumber he i
  refine h.replace hslot he ((hget slot).trans (if_pos rfl)) ?_ (fun i hi => (hget i).trans (if_neg hi)) hnames hids ?_
  · rw [Record.name_withNumber]
    exact Text.same_refl _
  · rw [Record.number_withNumber]
    exact hid

theorem exists_setId_eq_ok (h : c.directory.ids.WellLinked) (slot : Nat) (number : Int) :
    ∃ directory : Directory,
      c.setId slot number = .ok { store := c.store.modify slot (Record.withNumber · number), directory } ∧
      directory.names = c.directory.names ∧ directory.pool = c.directory.pool ∧ directory.ids.WellLinked ∧
      ∀ i, directory.idOf? i =
        if i = slot then (if number < 0 then none else some number) else c.directory.idOf? i := by
  obtain ⟨directory, hset, hrest⟩ := Directory.exists_setId_eq_ok h slot number
  refine ⟨directory, ?_, hrest⟩
  simp [setId, hset, bind, Except.bind, Except.mapError, pure, Except.pure]

theorem claimId_of_kept {e : ε} (he : c.get? slot = some e)
    (hclaim : c.directory.claimId slot = (.ok (Record.number e), c.directory)) :
    c.claimId slot = (.ok (Record.number e), c) := by
  have hstore : c.store.modify slot (Record.withNumber · (Record.number e)) = c.store := by
    refine Store.modify_eq_self fun item hitem => ?_
    obtain rfl : e = item := Option.some.inj (he.symm.trans hitem)
    exact Record.withNumber_number e
  simp only [claimId, hclaim, hstore]

theorem exists_define_of_known (h : c.directory.ids.WellLinked) {e entry : ε} (he : c.get? slot = some e)
    (hname : c.slotNamed? (Record.name entry) = some slot) :
    ∃ c', c.define entry = .ok (slot, c') ∧ c'.size = c.size ∧
      (∀ i, c'.get? i = if i = slot then some entry else c.get? i) ∧ c'.directory.names = c.directory.names ∧
      c'.directory.pool = c.directory.pool ∧ c'.directory.ids.WellLinked ∧ ∀ i, c'.directory.idOf? i =
        if i = slot then (if Record.number entry < 0 then none else some (Record.number entry))
        else c.directory.idOf? i := by
  obtain ⟨directory, hset, hrest⟩ :=
    exists_setId_eq_ok (c := c.modify slot fun _ => entry) h slot (Record.number entry)
  let defined : Catalog ε :=
    ⟨(c.modify slot fun _ => entry).store.modify slot (Record.withNumber · (Record.number entry)), directory⟩
  have hsize : defined.size = c.size := (Store.size_modify _ _ _).trans (Store.size_modify _ _ _)
  refine ⟨defined, ?_, hsize, fun i => ?_, hrest⟩
  · simp only [define, hname, hset, bind, Except.bind, pure, Except.pure, defined]
  · rw [get?, Store.get?_modify, modify, Store.get?_modify]
    by_cases hi : slot = i
    · subst hi
      rw [if_pos rfl, if_pos rfl, if_pos rfl, show c.store.get? slot = some e from he]
      exact congrArg some (Record.withNumber_number entry)
    · rw [if_neg hi, if_neg hi, if_neg (Ne.symm hi)]
      rfl

theorem EnlistedTo.exists_setId_eq_ok (h : c.EnlistedTo bound) (hslot : slot < bound) {e : ε}
    (he : c.get? slot = some e) (number : Int) :
    ∃ c', c.setId slot number = .ok c' ∧ c'.EnlistedTo bound ∧ c'.size = c.size ∧
      c'.directory.names = c.directory.names ∧ c'.directory.pool = c.directory.pool ∧
      ∀ i, c'.get? i = if slot = i then (c.get? i).map (Record.withNumber · number) else c.get? i := by
  obtain ⟨directory, hset, hnames, hpool, hlinked, hid⟩ := Catalog.exists_setId_eq_ok h.ids_linked slot number
  exact ⟨_, hset, h.renumber hslot he rfl hnames hlinked hid, Store.size_modify _ _ _, hnames, hpool,
    fun i => Store.get?_modify _ _ _ _⟩

namespace EnlistedTo

section Lookup

variable (h : c.Consistent)
include h

theorem slotNamed?_eq_some_iff {name : String} :
    c.slotNamed? name = some slot ↔ ∃ e, c.get? slot = some e ∧ Text.same (Record.name e) name = true := by
  rw [h.slotNamed?_iff_lt]
  exact and_iff_right_of_imp fun ⟨_, he, _⟩ => lt_size_of_get? he

theorem slotNamed?_name {e : ε} (he : c.get? slot = some e) : c.slotNamed? (Record.name e) = some slot :=
  h.slotNamed?_eq_some_iff.mpr ⟨e, he, Text.same_refl _⟩

theorem lt_of_slotNamed? {name : String} (hname : c.slotNamed? name = some slot) : slot < c.size :=
  (h.slotNamed?_iff_lt.mp hname).1

theorem idOf?_eq_some_iff {id : Int} :
    c.directory.idOf? slot = some id ↔ 0 ≤ id ∧ ∃ e, c.get? slot = some e ∧ Record.number e = id := by
  rw [h.idOf?_iff_lt]
  exact and_iff_right_of_imp fun ⟨_, _, he, _⟩ => lt_size_of_get? he

theorem mem_slots_ids_iff {id : Int} :
    slot ∈ c.directory.ids.slots ⟨id⟩ ↔ 0 ≤ id ∧ ∃ e, c.get? slot = some e ∧ Record.number e = id := by
  rw [h.ids_linked.mem_slots_iff, ← h.idOf?_eq_some_iff, Directory.idOf?, Option.map_eq_some_iff]
  constructor
  · rintro ⟨key, hkey, hsame⟩
    obtain rfl : key = ⟨id⟩ := eq_of_beq hsame
    exact ⟨_, hkey, rfl⟩
  · rintro ⟨key, hkey, rfl⟩
    exact ⟨key, hkey, IndexKey.same_refl key⟩

theorem lt_of_slotNumbered? {number : Int} (hid : c.slotNumbered? number = some slot) : slot < c.size := by
  simp only [slotNumbered?, Directory.slotNumbered?] at hid
  split at hid
  · cases hid
  · obtain ⟨key, hkey, -⟩ := HashIndex.exists_key?_of_find? hid
    have hslot : c.directory.idOf? slot = some key.value := by rw [Directory.idOf?, hkey, Option.map_some]
    exact (h.idOf?_iff_lt.mp hslot).1

end Lookup

theorem exists_define_eq_ok (h : c.Consistent) {entry : ε}
    (hname : c.slotNamed? (Record.name entry) = some slot) :
    ∃ c', c.define entry = .ok (slot, c') ∧ c'.Consistent ∧ c'.size = c.size ∧
      c'.directory.pool = c.directory.pool ∧ ∀ i, c'.get? i = if i = slot then some entry else c.get? i := by
  obtain ⟨e, he, hsame⟩ := h.slotNamed?_eq_some_iff.mp hname
  obtain ⟨defined, hdefine, hsize, hget, hnames, hpool, hlinked, hid⟩ :=
    Catalog.exists_define_of_known h.ids_linked he hname
  refine ⟨defined, hdefine, ?_, hsize, hpool, hget⟩
  rw [Consistent, hsize]
  refine h.replace (lt_size_of_get? he) he ((hget slot).trans (if_pos rfl)) hsame ?_ hnames hlinked hid
  exact fun i hi => (hget i).trans (if_neg hi)

theorem exists_define_of_push (h : c.Consistent) {entry : ε} (hname : c.slotNamed? (Record.name entry) = none)
    {store : Store ε (Record.width ε)} (hpush : c.store.push entry = .ok (slot, store)) :
    ∃ directory : Directory, c.define entry = .ok (slot, { store, directory }) ∧ directory.pool = c.directory.pool ∧
      ({ store, directory } : Catalog ε).Consistent := by
  obtain ⟨rfl, hsize, hget⟩ := Store.get?_of_push hpush
  have hold : ({ c with store } : Catalog ε).EnlistedTo c.store.size := by
    refine h.congr rfl rfl fun i hi => ?_
    have hne : i ≠ c.store.size := Nat.ne_of_lt hi
    rw [get?, hget, if_neg hne]
    rfl
  obtain ⟨directory, henlist, hpool, hnew, -⟩ :=
    hold.exists_enlist_eq_ok ((hget _).trans (if_pos rfl)) hname
  refine ⟨directory, ?_, hpool, ?_⟩
  · simp [Catalog.define, hname, hpush, henlist, bind, Except.bind, Except.mapError, pure, Except.pure]
  · rw [Consistent, size, hsize]
    exact hnew

theorem define_of_new (h : c.Consistent) {entry : ε} (hname : c.slotNamed? (Record.name entry) = none)
    (hdefine : c.define entry = .ok (slot, c')) :
    slot = c.size ∧ c'.Consistent ∧ c'.size = c.size + 1 ∧ c'.directory.pool = c.directory.pool ∧
      ∀ i, c'.get? i = if i = slot then some entry else c.get? i := by
  cases hpush : c.store.push entry with
  | error error => simp [Catalog.define, hname, hpush, bind, Except.bind, Except.mapError] at hdefine
  | ok result =>
    obtain ⟨new, store⟩ := result
    obtain ⟨rfl, hsize, hget⟩ := Store.get?_of_push hpush
    obtain ⟨directory, hok, hpool, hconsistent⟩ := h.exists_define_of_push hname hpush
    simp only [hok, Except.ok.injEq, Prod.mk.injEq] at hdefine
    obtain ⟨rfl, rfl⟩ := hdefine
    exact ⟨rfl, hconsistent, hsize, hpool, hget⟩

theorem define (h : c.Consistent) {entry : ε} (hdefine : c.define entry = .ok (slot, c')) :
    c'.Consistent ∧ c.size ≤ c'.size ∧ c'.directory.pool = c.directory.pool ∧
      (∀ i, c'.get? i = if i = slot then some entry else c.get? i) ∧
      (c.slotNamed? (Record.name entry) = some slot ∨
        c.slotNamed? (Record.name entry) = none ∧ slot = c.size) := by
  cases hname : c.slotNamed? (Record.name entry) with
  | some known =>
    obtain ⟨defined, hok, hconsistent, hsize, hpool, hget⟩ := h.exists_define_eq_ok hname
    rw [hok, Except.ok.injEq, Prod.mk.injEq] at hdefine
    obtain ⟨rfl, rfl⟩ := hdefine
    exact ⟨hconsistent, Nat.le_of_eq hsize.symm, hpool, hget, .inl rfl⟩
  | none =>
    obtain ⟨hslot, hconsistent, hsize, hpool, hget⟩ := h.define_of_new hname hdefine
    exact ⟨hconsistent, hsize ▸ Nat.le_succ _, hpool, hget, .inr ⟨rfl, hslot⟩⟩

theorem claimId_cases (h : c.Consistent) {e : ε} (he : c.get? slot = some e) :
    (0 ≤ Record.number e ∧ c.claimId slot = (.ok (Record.number e), c)) ∨
    (Record.number e < 0 ∧ ∃ error pool, c.claimId slot = (.error error, c.withPool pool) ∧
      pool.cursor ≤ c.directory.pool.cursor) ∨
    (Record.number e < 0 ∧ ∃ id c', c.claimId slot = (.ok id, c') ∧ c'.Consistent ∧ c'.size = c.size ∧
      (∀ i, c'.get? i = if slot = i then (c.get? i).map (Record.withNumber · id) else c.get? i) ∧
      0 ≤ id ∧ id ≤ c.directory.pool.cursor ∧ c'.directory.pool.cursor < id ∧
      ∀ i e, c.get? i = some e → Record.number e ≠ id) := by
  have hnone : c.directory.idOf? slot = none → Record.number e < 0 := by
    intro hid
    rcases Int.lt_or_le (Record.number e) 0 with hneg | hnonneg
    · exact hneg
    · rw [h.idOf?_eq_some_iff.mpr ⟨hnonneg, e, he, rfl⟩] at hid
      cases hid
  rcases Directory.claimId_cases h.ids_linked slot with ⟨number, hid, hclaim⟩ | ⟨error, pool, hid, hclaim, hle⟩ |
    ⟨number, pool, hid, hclaim, hlinked, hnonneg, hle, hlt, hunused⟩
  · obtain ⟨hnonneg, e', he', rfl⟩ := h.idOf?_eq_some_iff.mp hid
    obtain rfl : e = e' := Option.some.inj (he.symm.trans he')
    exact .inl ⟨hnonneg, claimId_of_kept he hclaim⟩
  · exact .inr (.inl ⟨hnone hid, error, pool, by simp only [Catalog.claimId, hclaim, withPool], hle⟩)
  · let claimed : Catalog ε :=
      { store := c.store.modify slot (Record.withNumber · number)
        directory := { c.directory with ids := c.directory.ids.push slot ⟨number⟩, pool } }
    have hsize : claimed.size = c.size := Store.size_modify _ _ _
    refine .inr (.inr ⟨hnone hid, number, claimed, by simp only [Catalog.claimId, hclaim, claimed], ?_,
      hsize, fun i => Store.get?_modify _ _ _ _, hnonneg, hle, hlt, ?_⟩)
    · rw [Consistent, hsize]
      refine h.renumber (lt_size_of_get? he) he rfl rfl hlinked fun i => ?_
      rw [if_neg (Int.not_lt.mpr hnonneg)]
      exact Directory.idOf?_of_push rfl i
    · intro i e' he' hnumber
      exact hunused i (h.idOf?_eq_some_iff.mpr ⟨hnonneg, e', he', hnumber⟩)

end EnlistedTo

theorem enlistedTo_zero (store : Store ε (Record.width ε)) (buckets : Nat) :
    ({ store, directory := .empty buckets } : Catalog ε).EnlistedTo 0 where
  names_linked := HashIndex.wellLinked_empty buckets
  ids_linked := HashIndex.wellLinked_empty buckets
  lt_of_contains h := by cases h
  slotNamed?_iff_lt {name slot} := by
    simp only [Nat.not_lt_zero, false_and, iff_false]
    intro h
    obtain ⟨key, hkey, -⟩ := HashIndex.exists_key?_of_find? h
    cases hkey
  idOf?_iff_lt {slot id} := by
    have hid : (Directory.empty buckets).idOf? slot = none := rfl
    simp [hid]

theorem consistent_empty (buckets : Nat) : (empty buckets : Catalog ε).Consistent :=
  enlistedTo_zero .empty buckets

theorem consistent_singleton (buckets : Nat) (entry : ε) : (singleton buckets entry).Consistent := by
  have hfree (κ : Type) : (HashIndex.empty buckets : HashIndex κ).contains 0 = false := rfl
  have hnames := HashIndex.wellLinked_empty (κ := Name) buckets
  have hids := HashIndex.wellLinked_empty (κ := LegacyId) buckets
  have hzero := enlistedTo_zero (.singleton entry) buckets
  refine hzero.succ (e := entry) rfl ?_ (fun _ => rfl) (hnames.push (hfree _) _) ?_ ?_ ?_ ?_
  · cases hname : ({ store := .singleton entry, directory := .empty buckets } : Catalog ε).slotNamed?
      (Record.name entry) with
    | none => rfl
    | some slot => exact absurd (hzero.slotNamed?_iff_lt.mp hname).1 (Nat.not_lt_zero slot)
  · simp only [singleton]
    split
    · exact hids
    · exact hids.push (hfree _) _
  · exact HashIndex.contains_push
  · exact fun name => hnames.find?_push (hfree _) ⟨Record.name entry⟩ ⟨name⟩
  · intro i
    simp only [singleton]
    split
    · have hnone : (Directory.empty buckets).idOf? i = none := rfl
      rw [hnone, ite_self]
      exact hnone
    · exact Directory.idOf?_of_push rfl i

end FrameTable.Catalog
