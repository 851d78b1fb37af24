import FrameTable.Proofs.Load.Enlisting
import FrameTable.Proofs.Load.Gathering

namespace FrameTable

namespace Catalog

variable {ε : Type} [Record ε] {c c' : Catalog ε} {sections : List Section}

theorem get?_of_enlist {slot : Nat} (h : c.enlist slot = .ok c') (i : Nat) : c'.get? i = c.get? i := by
  simp only [enlist, bind, Except.bind, pure, Except.pure] at h
  split at h
  · rw [Except.ok.inj h]
  · split at h
    · cases h
    · split at h
      · cases h
      · rw [← Except.ok.inj h]
        rfl

def GivenBy (sections : List Section) (c c' : Catalog ε) : Prop :=
  ∀ i e', c'.get? i = some e' →
    (∃ s ∈ sections, Text.same s.title (Record.name e') = true ∧ Record.number e' = Load.frameId s) ∨
      c.get? i = some e' ∧ ∀ s ∈ sections, Text.same s.title (Record.name e') = false

theorem EnlistedTo.givenBy_defineEach (h : c.Consistent) {entry : Section → ε}
    (hname : ∀ s, Record.name (entry s) = s.title) (hid : ∀ s, Record.number (entry s) = Load.frameId s)
    (hdefine : c.defineEach (sections.map entry) = .ok c') : GivenBy sections c c' := by
  induction sections generalizing c with
  | nil =>
    obtain rfl : c = c' := Except.ok.inj hdefine
    exact fun _ _ he => .inr ⟨he, nofun⟩
  | cons s sections ih =>
    rw [List.map_cons, defineEach] at hdefine
    split at hdefine
    · next slot c₁ hfirst =>
      obtain ⟨h₁, -, -, hget, hslot⟩ := h.define hfirst
      intro i e' he'
      rcases ih h₁ hdefine i e' he' with ⟨other, hother, hgiven⟩ | ⟨hold, hnone⟩
      · exact .inl ⟨other, List.mem_cons_of_mem _ hother, hgiven⟩
      rw [hget] at hold
      split at hold
      · obtain rfl := Option.some.inj hold
        exact .inl ⟨s, List.mem_cons_self, by rw [hname, Text.same_refl], hid s⟩
      · next hne =>
        refine .inr ⟨hold, List.forall_mem_cons.mpr ⟨?_, hnone⟩⟩
        -- The definition has gone to the slot of its name, and that is not `i`.
        refine Bool.eq_false_iff.mpr fun hsame => ?_
        have hnamed := h.slotNamed?_eq_some_iff.mpr ⟨e', hold, Text.same_comm _ _ ▸ hsame⟩
        rw [hname] at hslot
        rcases hslot with hknown | ⟨hnew, -⟩
        · exact hne (Option.some.inj (hnamed.symm.trans hknown))
        · cases hnamed.symm.trans hnew
    · cases hdefine

end Catalog

namespace Load

variable {c c' : Catalog Frame} {sections : List Section} {s : Section} {first slot : Nat}

theorem Reserved.exists_known (h : Reserved c first (s :: sections)) {f : Frame}
    (hknown : c.slotNamed? s.title = some slot) (hf : c.get? slot = some f) :
    ∃ c₁, enlistFrames c first (s :: sections) = enlistFrames c₁ first sections ∧ Reserved c₁ first sections ∧
      ∀ i, c₁.get? i = if slot = i then some { f with legacyId := frameId s } else c.get? i := by
  by_cases hid : (c.get? slot).map (·.legacyId) = some (frameId s)
  · refine ⟨c, by simp only [enlistFrames, hknown, if_pos hid], ?_, fun i => ?_⟩
    · exact ⟨h.enlisted, by rw [← newFrames_cons_of_known hknown]; exact h.fresh⟩
    · split
      · next hslot =>
        rw [hf, Option.map_some, Option.some.injEq] at hid
        rw [← hslot, hf, ← hid]
      · rfl
  · obtain ⟨hlt, -⟩ := h.enlisted.slotNamed?_iff_lt.mp hknown
    obtain ⟨c₁, hset, hrest, -⟩ := h.setId hknown (frameId s)
    obtain ⟨c₂, hset', -, -, -, -, hget⟩ := h.enlisted.exists_setId_eq_ok hlt hf (frameId s)
    obtain rfl := Except.ok.inj (hset.symm.trans hset')
    refine ⟨c₁, by simp only [enlistFrames, hknown, if_neg hid, hset, bind, Except.bind], hrest, fun i => ?_⟩
    rw [hget]
    split
    · next hslot =>
      rw [← hslot, hf]
      rfl
    · rfl

def LastGives (sections : List Section) (name : String) (id : Int) : Prop :=
  ∃ earlier s later, sections = earlier ++ s :: later ∧ Text.same s.title name = true ∧ id = frameId s ∧
    ∀ other ∈ later, Text.same other.title name = false

namespace LastGives

variable {name : String} {id : Int}

theorem cons (h : LastGives sections name id) (s : Section) : LastGives (s :: sections) name id := by
  obtain ⟨earlier, last, later, rfl, hlast⟩ := h
  exact ⟨s :: earlier, last, later, rfl, hlast⟩

theorem eq_frameId (h : LastGives sections name id) {earlier later : List Section} {s : Section}
    (hsections : sections = earlier ++ s :: later) (hsame : Text.same s.title name = true)
    (hlater : ∀ other ∈ later, Text.same other.title name = false) : id = frameId s := by
  obtain ⟨earlier', s', later', rfl, hsame', rfl, hlater'⟩ := h
  rcases List.append_eq_append_iff.mp hsections with ⟨between, -, hsplit⟩ | ⟨between, -, hsplit⟩
  · cases between with
    | nil => rw [(List.cons.inj hsplit).1]
    | cons other between =>
      have hmem : s ∈ later' := by
        rw [(List.cons.inj hsplit).2]
        exact List.mem_append_right _ List.mem_cons_self
      cases (hlater' s hmem).symm.trans hsame
  · cases between with
    | nil => rw [(List.cons.inj hsplit).1]
    | cons other between =>
      have hmem : s' ∈ later := by
        rw [(List.cons.inj hsplit).2]
        exact List.mem_append_right _ List.mem_cons_self
      cases (hlater s' hmem).symm.trans hsame'

theorem exists_mem (h : LastGives sections name id) :
    ∃ s ∈ sections, Text.same s.title name = true ∧ id = frameId s := by
  obtain ⟨earlier, s, later, rfl, hsame, hid, -⟩ := h
  exact ⟨s, List.mem_append_right _ List.mem_cons_self, hsame, hid⟩

end LastGives

theorem lastGives_enlistFrames (h : Reserved c first sections) (hok : enlistFrames c first sections = .ok c') {i : Nat}
    {f : Frame} (hf : c'.get? i = some f) : LastGives sections f.name f.legacyId ∨
      i < first ∧ c.get? i = some f ∧ ∀ s ∈ sections, Text.same s.title f.name = false := by
  induction sections generalizing c first with
  | nil =>
    obtain rfl : c = c' := Except.ok.inj hok
    refine .inr ⟨?_, hf, nofun⟩
    rcases Nat.lt_or_ge i first with hlt | hge
    · exact hlt
    · obtain ⟨s, hs, -⟩ := h.fresh hge hf
      cases hs
  | cons s sections ih =>
    have hother : c.get? i = some f → i < first → c.slotNamed? s.title ≠ some i → Text.same s.title f.name = false :=
      fun hold hlt hne => Bool.eq_false_iff.mpr fun hsame => by
        have hbound : i < min first c.size := Nat.lt_min.mpr ⟨hlt, Catalog.lt_size_of_get? hold⟩
        exact hne (h.enlisted.slotNamed?_iff_lt.mpr ⟨hbound, f, hold, Text.same_comm _ _ ▸ hsame⟩)
    cases hname : c.slotNamed? s.title with
    | some slot =>
      obtain ⟨-, g, hg, hsame⟩ := h.enlisted.slotNamed?_iff_lt.mp hname
      obtain ⟨c₁, hstep, hrest, hget⟩ := h.exists_known hname hg
      rcases ih hrest (hstep.symm.trans hok) with hgiven | ⟨hi, hold, hnone⟩
      · exact .inl (hgiven.cons s)
      rw [hget] at hold
      split at hold
      · obtain rfl := Option.some.inj hold
        exact .inl ⟨[], s, sections, rfl, Text.same_comm _ _ ▸ hsame, rfl, hnone⟩
      · next hslot =>
        refine .inr ⟨hi, hold, List.forall_mem_cons.mpr ⟨hother hold hi fun hfound => ?_, hnone⟩⟩
        exact hslot (Option.some.inj (hname.symm.trans hfound))
    | none =>
      obtain ⟨c₁, henlist, hrest, -⟩ := h.enlist hname
      simp only [enlistFrames, hname, henlist, bind, Except.bind] at hok
      rcases ih hrest hok with hgiven | ⟨hi, hold, hnone⟩
      · exact .inl (hgiven.cons s)
      rw [Catalog.get?_of_enlist henlist] at hold
      rcases Nat.lt_succ_iff_lt_or_eq.mp hi with hlt | rfl
      · have hne : c.slotNamed? s.title ≠ some i := hname ▸ (Option.some_ne_none i).symm
        exact .inr ⟨hlt, hold, List.forall_mem_cons.mpr ⟨hother hold hlt hne, hnone⟩⟩
      · obtain rfl := h.get?_first hname hold
        exact .inl ⟨[], s, sections, rfl, Text.same_refl _, rfl, hnone⟩

theorem lastGives_placeFrames (h : c.Consistent) (hplace : placeFrames c sections = .ok c') {i : Nat} {f : Frame}
    (hf : c'.get? i = some f) : LastGives sections f.name f.legacyId ∨
      c.get? i = some f ∧ ∀ s ∈ sections, Text.same s.title f.name = false := by
  obtain ⟨reserved, hreserved, henlist, -, -, hold, -⟩ := exists_reserved_of_placeFrames h hplace
  exact (lastGives_enlistFrames hreserved henlist hf).imp_right fun ⟨hlt, hf₀, hnone⟩ => ⟨hold i hlt ▸ hf₀, hnone⟩

theorem givenBy_placeFrames (h : c.Consistent) (hplace : placeFrames c sections = .ok c') :
    c.GivenBy sections c' :=
  fun _ _ hf => (lastGives_placeFrames h hplace hf).imp_left LastGives.exists_mem

end Load

namespace Referable

def sections (b : Batch) : Referable → List Section
  | .frame => b.frames
  | .thing => b.things
  | .sound => b.sounds

def cursor (t : Tables) : Referable → Int
  | .frame => t.frames.cursor
  | .thing => t.things.cursor
  | .sound => t.sounds.cursor

def Holds (k : Referable) (t : Tables) (slot : Nat) (id : Int) : Prop :=
  ∃ e, k.identity? t slot = some e ∧ e.2 = id

end Referable

def Batch.Defines (b : Batch) (k : Referable) (name : String) : Prop :=
  ∃ s ∈ k.sections b, Text.same s.title name = true

namespace Catalog

variable {ε : Type} [Record ε] {c c' : Catalog ε} {id : Int} {slot : Nat}

theorem GivenBy.identity? {sections : List Section} (h : c.GivenBy sections c') {e' : String × Int}
    (he' : (c'.get? slot).map identity = some e') :
    (∃ s ∈ sections, Text.same s.title e'.1 = true ∧ e'.2 = Load.frameId s) ∨
      (c.get? slot).map identity = some e' ∧ ∀ s ∈ sections, Text.same s.title e'.1 = false := by
  obtain ⟨record, hrecord, rfl⟩ := Option.map_eq_some_iff.mp he'
  exact (h slot record hrecord).imp_right fun ⟨hold, hnone⟩ => ⟨congrArg (Option.map identity) hold, hnone⟩

theorem Redefines.identity? {sections : List Section} (h : c.Redefines (sections.map (·.title)) c')
    {e : String × Int} (he : (c.get? slot).map identity = some e)
    (hnone : ∀ s ∈ sections, Text.same s.title e.1 = false) : (c'.get? slot).map identity = some e := by
  obtain ⟨record, hrecord, rfl⟩ := Option.map_eq_some_iff.mp he
  refine congrArg (Option.map identity) (h.record hrecord ?_)
  rintro ⟨title, hmem, hsame⟩
  obtain ⟨s, hs, rfl⟩ := List.mem_map.mp hmem
  exact Bool.false_ne_true ((hnone s hs).symm.trans hsame)

theorem EnlistedTo.slotNamed?_iff_identity (h : c.Consistent) {name : String} :
    c.slotNamed? name = some slot ↔ ∃ e, (c.get? slot).map identity = some e ∧ Text.same e.1 name = true := by
  rw [h.slotNamed?_eq_some_iff]
  constructor
  · rintro ⟨e, he, hsame⟩
    exact ⟨identity e, congrArg (Option.map identity) he, hsame⟩
  · rintro ⟨e, he, hsame⟩
    obtain ⟨record, hrecord, rfl⟩ := Option.map_eq_some_iff.mp he
    exact ⟨record, hrecord, hsame⟩

theorem EnlistedTo.slotNumbered?_eq_some_of_identity (h : c.Consistent) (hid : 0 ≤ id)
    (hholds : ∃ e, (c.get? slot).map identity = some e ∧ e.2 = id)
    (hsole : ∀ i, (∃ e, (c.get? i).map identity = some e ∧ e.2 = id) → i = slot) : c.slotNumbered? id = some slot := by
  obtain ⟨e, he, rfl⟩ := hholds
  obtain ⟨record, hrecord, rfl⟩ := Option.map_eq_some_iff.mp he
  exact h.slotNumbered?_eq_some hrecord hid fun hother hnumber =>
    hsole _ ⟨_, congrArg (Option.map identity) hother, hnumber⟩

theorem Numbers.cursor_lt (h : Numbers c c') (hneg : ∀ e, (c.get? slot).map identity = some e → e.2 < 0)
    {e' : String × Int} (he' : (c'.get? slot).map identity = some e') (hnonneg : 0 ≤ e'.2) : c'.cursor < e'.2 := by
  obtain ⟨record, hrecord, rfl⟩ := Option.map_eq_some_iff.mp he'
  obtain ⟨-, -, hlt, -⟩ := h.issued (fun he => hneg _ (congrArg (Option.map identity) he)) hrecord hnonneg
  exact hlt

theorem Numbers.holder (h : Numbers c c') (hspent : c.cursor < id) (hid : 0 ≤ id) {e' : String × Int}
    (he' : (c'.get? slot).map identity = some e') (hsame : e'.2 = id) :
    (c.get? slot).map identity = some e' := by
  obtain ⟨record, hrecord, rfl⟩ := Option.map_eq_some_iff.mp he'
  rcases h.origin hrecord (Int.le_trans hid (Int.le_of_eq hsame.symm)) with ⟨old, hold, hnumber⟩ | ⟨-, hle, -⟩
  · obtain ⟨record', hrecord', hname, -⟩ := h.kept hold
    obtain rfl := Option.some.inj (hrecord.symm.trans hrecord')
    rw [hold, Option.map_some, identity, identity, hnumber, hname]
  · exact absurd (hsame ▸ hle) (Int.not_le.mpr hspent)

end Catalog

namespace LoadState.Fills

variable {adds : Prop} {may : Nat → Frame.Field → Prop} {σ σ' : LoadState} {k : Referable} {id : Int} {slot : Nat}

theorem cursor_le (h : Fills adds may σ σ') (k : Referable) : k.cursor σ'.tables ≤ k.cursor σ.tables := by
  cases k with
  | frame => exact h.frames.cursor_le
  | thing => exact h.things.cursor_le
  | sound => exact h.sounds.cursor_le

theorem holder (h : Fills adds may σ σ') (hspent : k.cursor σ.tables < id) (hid : 0 ≤ id) {e' : String × Int}
    (he' : k.identity? σ'.tables slot = some e') (hsame : e'.2 = id) : k.identity? σ.tables slot = some e' := by
  cases k with
  | frame => exact h.frames.holder hspent hid he' hsame
  | thing => exact h.things.holder hspent hid he' hsame
  | sound => exact h.sounds.holder hspent hid he' hsame

theorem cursor_lt (h : Fills adds may σ σ') (hneg : ∀ e, k.identity? σ.tables slot = some e → e.2 < 0)
    {e' : String × Int} (he' : k.identity? σ'.tables slot = some e') (hnonneg : 0 ≤ e'.2) :
    k.cursor σ'.tables < e'.2 := by
  cases k with
  | frame => exact h.frames.cursor_lt hneg he' hnonneg
  | thing => exact h.things.cursor_lt hneg he' hnonneg
  | sound => exact h.sounds.cursor_lt hneg he' hnonneg

end LoadState.Fills

namespace Referable

variable {t : Tables} {k : Referable} {name : String} {slot : Nat} {id : Int}

theorem slotNamed?_eq_some_iff (h : t.Indexed) :
    k.slotNamed? t name = some slot ↔ ∃ e, k.identity? t slot = some e ∧ Text.same e.1 name = true := by
  cases k with
  | frame => exact h.frames.slotNamed?_iff_identity
  | thing => exact h.things.slotNamed?_iff_identity
  | sound => exact h.sounds.slotNamed?_iff_identity

theorem same_iff (h : t.Indexed) (hname : k.slotNamed? t name = some slot) {i : Nat} {e : String × Int}
    (he : k.identity? t i = some e) : Text.same e.1 name = true ↔ slot = i := by
  constructor
  · intro hsame
    exact Option.some.inj (hname.symm.trans ((slotNamed?_eq_some_iff h).mpr ⟨e, he, hsame⟩))
  · rintro rfl
    obtain ⟨e', he', hsame⟩ := (slotNamed?_eq_some_iff h).mp hname
    obtain rfl := Option.some.inj (he.symm.trans he')
    exact hsame

theorem slotNumbered?_eq_some (h : t.Indexed) (hid : 0 ≤ id) (hholds : k.Holds t slot id)
    (hsole : ∀ i, k.Holds t i id → i = slot) : k.slotNumbered? t id = some slot := by
  cases k with
  | frame => exact h.frames.slotNumbered?_eq_some_of_identity hid hholds hsole
  | thing => exact h.things.slotNumbered?_eq_some_of_identity hid hholds hsole
  | sound => exact h.sounds.slotNumbered?_eq_some_of_identity hid hholds hsole

theorem slotNumbered?_eq_none (h : t.Indexed) (hnone : ∀ i, ¬k.Holds t i id) : k.slotNumbered? t id = none := by
  cases k with
  | frame => exact h.frames.slotNumbered?_eq_none fun he hid => hnone _ ⟨_, congrArg (Option.map _) he, hid⟩
  | thing => exact h.things.slotNumbered?_eq_none fun he hid => hnone _ ⟨_, congrArg (Option.map _) he, hid⟩
  | sound => exact h.sounds.slotNumbered?_eq_none fun he hid => hnone _ ⟨_, congrArg (Option.map _) he, hid⟩

end Referable

end FrameTable
