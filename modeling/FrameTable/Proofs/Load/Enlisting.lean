import FrameTable.Proofs.Catalog.Owners
import FrameTable.Proofs.Load.Placement
import FrameTable.Proofs.Load.Simulation
import FrameTable.Proofs.Tables.Evolution

namespace FrameTable

namespace Catalog

variable {ε : Type} [Record ε] {c c' : Catalog ε}

def idNamed? (c : Catalog ε) (name : String) : Option Int :=
  ((c.slotNamed? name).bind c.get?).map Record.number

namespace EnlistedTo

variable {bound slot : Nat} {a b : String}

theorem slotNamed?_congr (h : c.EnlistedTo bound) (hsame : Text.same a b = true) : c.slotNamed? a = c.slotNamed? b := by
  refine Option.ext fun slot => ?_
  rw [h.slotNamed?_iff_lt, h.slotNamed?_iff_lt]
  refine and_congr_right fun _ => exists_congr fun e => and_congr_right fun _ => ?_
  rw [Text.same_comm, Text.same_congr hsame, Text.same_comm]

theorem same_of_slotNamed? (h : c.EnlistedTo bound) (ha : c.slotNamed? a = some slot)
    (hb : c.slotNamed? b = some slot) : Text.same a b = true := by
  obtain ⟨-, e, he, hsame⟩ := h.slotNamed?_iff_lt.mp ha
  obtain ⟨-, e', he', hsame'⟩ := h.slotNamed?_iff_lt.mp hb
  obtain rfl := Option.some.inj (he.symm.trans he')
  exact Text.same_trans (Text.same_comm _ _ ▸ hsame) hsame'

end EnlistedTo

end Catalog

namespace Load

variable {c c' : Catalog Frame} {log more sections : List Section} {s : Section} {id : Int} {i j first slot : Nat}
  {held : String → Option Int}

def remember (held : String → Option Int) (s : Section) (name : String) : Option Int :=
  if Text.same s.title name then some (frameId s) else held name

def changing (held : String → Option Int) : List Section → List Section
  | [] => []
  | s :: sections =>
    if held s.title = some (frameId s) then changing held sections
    else s :: changing (remember held s) sections

def GivenAfter (c : Catalog Frame) (log : List Section) (id : Int) (i j : Nat) : Prop :=
  ∃ earlier s later, log = earlier ++ s :: later ∧ c.slotNamed? s.title = some i ∧ frameId s = id ∧
    ∀ other ∈ later, frameId other = id → c.slotNamed? other.title ≠ some j

def InOrder (c : Catalog Frame) (log : List Section) : Prop :=
  ∀ id, (c.owners id).Pairwise (GivenAfter c log id)

theorem GivenAfter.mono (h : GivenAfter c log id i j)
    (hi : ∀ name, c'.slotNamed? name = some i ↔ c.slotNamed? name = some i)
    (hj : ∀ name, c'.slotNamed? name = some j ↔ c.slotNamed? name = some j)
    (hmore : ∀ s ∈ more, frameId s = id → c'.slotNamed? s.title ≠ some j) : GivenAfter c' (log ++ more) id i j := by
  obtain ⟨earlier, s, later, rfl, hname, hid, hlater⟩ := h
  refine ⟨earlier, s, later ++ more, by rw [List.append_assoc, List.cons_append], (hi _).mpr hname, hid, ?_⟩
  intro other hother hid' hslot
  rcases List.mem_append.mp hother with hmem | hmem
  · exact hlater other hmem hid' ((hj _).mp hslot)
  · exact hmore other hmem hid' hslot

namespace InOrder

theorem keepsOwners (h : InOrder c log) (hkeeps : c.KeepsOwners c') : InOrder c' log := by
  intro id
  rcases hkeeps.owners id with hsame | ⟨-, hlength⟩
  · rw [hsame]
    refine (h id).imp_of_mem fun hi hj hgiven => ?_
    rw [← List.append_nil log]
    exact hgiven.mono (hkeeps.slotNamed?_iff hi) (hkeeps.slotNamed?_iff hj) nofun
  · match howners : c'.owners id with
    | [] => exact .nil
    | [_] => exact List.pairwise_singleton _ _
    | _ :: _ :: _ =>
      rw [howners] at hlength
      simp at hlength

theorem skip (h : InOrder c log) (hnone : c.slotNamed? s.title = none) : InOrder c (log ++ [s]) := by
  intro id
  refine (h id).imp fun hgiven => hgiven.mono (fun _ => Iff.rfl) (fun _ => Iff.rfl) fun other hother _ hslot => ?_
  obtain rfl := List.mem_singleton.mp hother
  cases hnone.symm.trans hslot

theorem give (h : InOrder c log) (hname : c'.slotNamed? s.title = some slot)
    (howners : ∀ id, c'.owners id = promote (c.owners id) slot (0 ≤ frameId s ∧ frameId s = id))
    (hkept : ∀ {id i}, i ∈ c.owners id → i ≠ slot → ∀ name, c'.slotNamed? name = some i ↔ c.slotNamed? name = some i) :
    InOrder c' (log ++ [s]) := by
  intro id
  have hrest : ((c.owners id).filter (· ≠ slot)).Pairwise (GivenAfter c' (log ++ [s]) id) := by
    refine ((h id).filter _).imp_of_mem fun hi hj hgiven => ?_
    obtain ⟨hi, hi'⟩ := List.mem_filter.mp hi
    obtain ⟨hj, hj'⟩ := List.mem_filter.mp hj
    have hj' := of_decide_eq_true hj'
    refine hgiven.mono (hkept hi (of_decide_eq_true hi')) (hkept hj hj') fun other hother _ hslot => ?_
    obtain rfl := List.mem_singleton.mp hother
    exact hj' (Option.some.inj (hslot.symm.trans hname))
  rw [howners, promote]
  split
  · next hid => exact hrest.cons fun other _ => ⟨log, s, [], rfl, hname, hid.2, List.forall_mem_nil _⟩
  · exact hrest

end InOrder

structure Tracks (held : String → Option Int) (c : Catalog Frame) (first : Nat) : Prop where
  named : ∀ {name slot f}, c.slotNamed? name = some slot → c.get? slot = some f → held name = some f.legacyId
  unnamed : first < c.size → ∀ {name}, c.slotNamed? name = none → held name = none

namespace Tracks

variable {f : Frame}

theorem setId (h : Tracks held c first) (hreserved : Reserved c first (s :: sections))
    (hknown : c.slotNamed? s.title = some slot) (hset : c.setId slot (frameId s) = .ok c') :
    Tracks (remember held s) c' first := by
  obtain ⟨hlt, f, hf, -⟩ := hreserved.enlisted.slotNamed?_iff_lt.mp hknown
  obtain ⟨c₁, hset₁, -, hsize, hnames, -, hget⟩ := hreserved.enlisted.exists_setId_eq_ok hlt hf (frameId s)
  obtain rfl : c₁ = c' := Except.ok.inj (hset₁.symm.trans hset)
  have hfind : ∀ name, c₁.slotNamed? name = c.slotNamed? name := fun name => by
    rw [Catalog.slotNamed?, Directory.slotNamed?, hnames]
    rfl
  constructor
  · intro name i g hname hg
    rw [hfind] at hname
    rw [hget] at hg
    unfold remember
    split
    · next hsame =>
      obtain rfl : slot = i := Option.some.inj
        (hknown.symm.trans ((hreserved.enlisted.slotNamed?_congr hsame).trans hname))
      rw [if_pos rfl, hf] at hg
      exact congrArg (some ·.legacyId) (Option.some.inj hg)
    · next hsame =>
      have hne : slot ≠ i := fun heq => hsame (hreserved.enlisted.same_of_slotNamed? hknown (heq ▸ hname))
      rw [if_neg hne] at hg
      exact h.named hname hg
  · intro hlt name hname
    rw [hfind] at hname
    unfold remember
    split
    · next hsame =>
      rw [← hreserved.enlisted.slotNamed?_congr hsame, hknown] at hname
      cases hname
    · exact h.unnamed (hsize ▸ hlt) hname

theorem enlist (h : Tracks held c first) (hget : ∀ i, c'.get? i = c.get? i)
    (hf : c.get? first = some (emptyFrame first s))
    (hfind : ∀ name, c'.slotNamed? name = if Text.same s.title name then some first else c.slotNamed? name) :
    Tracks (remember held s) c' (first + 1) := by
  constructor
  · intro name i g hname hg
    rw [hfind] at hname
    rw [hget] at hg
    unfold remember
    split at hname
    · next hsame =>
      obtain rfl : first = i := Option.some.inj hname
      rw [if_pos hsame]
      exact congrArg (some ·.legacyId) (Option.some.inj (hf.symm.trans hg))
    · next hsame =>
      rw [if_neg hsame]
      exact h.named hname hg
  · intro _ name hname
    rw [hfind] at hname
    split at hname
    · cases hname
    · next hsame =>
      unfold remember
      rw [if_neg hsame]
      exact h.unnamed (Catalog.lt_size_of_get? hf) hname

theorem overflow (h : Tracks held c first) (hreserved : Reserved c first (s :: sections))
    (hnew : c.slotNamed? s.title = none) (hf : c.get? first = none) : Tracks (remember held s) c (first + 1) := by
  have hle : c.size ≤ first := (Store.get?_eq_none_iff _ _).mp hf
  constructor
  · intro name i g hname hg
    unfold remember
    split
    · next hsame =>
      rw [← hreserved.enlisted.slotNamed?_congr hsame, hnew] at hname
      cases hname
    · exact h.named hname hg
  · intro hlt
    omega

end Tracks

namespace Reserved

theorem get?_first (h : Reserved c first (s :: sections)) (hnew : c.slotNamed? s.title = none) {f : Frame}
    (hf : c.get? first = some f) : f = emptyFrame first s := by
  obtain ⟨s', hs', rfl⟩ := h.fresh (Nat.le_refl _) hf
  rw [newFrames_cons_of_new hnew, Nat.sub_self] at hs'
  rw [Option.some.inj hs']

end Reserved

namespace InOrder

theorem setId (h : InOrder c log) (hreserved : Reserved c first (s :: sections))
    (hknown : c.slotNamed? s.title = some slot) (hset : c.setId slot (frameId s) = .ok c') :
    InOrder c' (log ++ [s]) := by
  obtain ⟨hlt, f, hf, -⟩ := hreserved.enlisted.slotNamed?_iff_lt.mp hknown
  obtain ⟨c₁, hset₁, -, -, hnames, -, -⟩ := hreserved.enlisted.exists_setId_eq_ok hlt hf (frameId s)
  obtain rfl : c₁ = c' := Except.ok.inj (hset₁.symm.trans hset)
  have hfind : ∀ name, c₁.slotNamed? name = c.slotNamed? name := fun name => by
    rw [Catalog.slotNamed?, Directory.slotNamed?, hnames]
    rfl
  refine h.give ((hfind _).trans hknown) (fun id => Catalog.owners_setId hreserved.enlisted.ids_linked hset id) ?_
  exact fun _ _ name => by rw [hfind]

theorem enlist (h : InOrder c log) (henlisted : c.EnlistedTo first) (hnew : c.slotNamed? s.title = none)
    (hf : c.get? first = some (emptyFrame first s)) (henlist : c.enlist first = .ok c')
    (hfind : ∀ name, c'.slotNamed? name = if Text.same s.title name then some first else c.slotNamed? name) :
    InOrder c' (log ++ [s]) := by
  refine h.give (by rw [hfind, if_pos (Text.same_refl _)])
    (fun id => Catalog.owners_enlist henlisted.ids_linked hf henlist id) fun {id i} hi hne name => ?_
  rw [hfind]
  split
  · next hsame =>
    rw [← henlisted.slotNamed?_congr hsame, hnew]
    simp only [Option.some.injEq, reduceCtorEq, iff_false]
    exact Ne.symm hne
  · exact Iff.rfl

theorem enlistFrames (h : InOrder c log) (hreserved : Reserved c first sections) (htracks : Tracks held c first)
    (hok : enlistFrames c first sections = .ok c') : InOrder c' (log ++ changing held sections) := by
  induction sections generalizing c first log held with
  | nil =>
    obtain rfl : c = c' := Except.ok.inj hok
    rwa [changing, List.append_nil]
  | cons s sections ih =>
    cases hname : c.slotNamed? s.title with
    | some slot =>
      obtain ⟨-, f, hf, -⟩ := hreserved.enlisted.slotNamed?_iff_lt.mp hname
      have hheld : held s.title = (c.get? slot).map (·.legacyId) := by rw [htracks.named hname hf, hf, Option.map_some]
      by_cases hid : (c.get? slot).map (·.legacyId) = some (frameId s)
      · -- The frame has the id of the section already, so that it keeps its place among the owners.
        simp only [Load.enlistFrames, hname, if_pos hid] at hok
        have hrest : Reserved c first sections :=
          ⟨hreserved.enlisted, by rw [← newFrames_cons_of_known hname]; exact hreserved.fresh⟩
        rw [changing, if_pos (hheld.trans hid)]
        exact ih h hrest htracks hok
      · obtain ⟨c₁, hset, hrest, -⟩ := hreserved.setId hname (frameId s)
        simp only [Load.enlistFrames, hname, if_neg hid, hset, bind, Except.bind] at hok
        rw [changing, if_neg fun hsame => hid (hheld.symm.trans hsame), ← List.singleton_append, ← List.append_assoc]
        exact ih (h.setId hreserved hname hset) hrest (htracks.setId hreserved hname hset) hok
    | none =>
      obtain ⟨c₁, henlist, hrest, -⟩ := hreserved.enlist hname
      simp only [Load.enlistFrames, hname, henlist, bind, Except.bind] at hok
      cases hf : c.get? first with
      | none =>
        -- The reserved slots are used up: the title stays without a frame, whatever the log says about it.
        have hle : c.size ≤ first := (Store.get?_eq_none_iff _ _).mp hf
        obtain rfl : c = c₁ := by
          simp only [Catalog.enlist, hf, pure, Except.pure] at henlist
          exact Except.ok.inj henlist
        rw [changing]
        split
        · exact ih h hrest ⟨htracks.named, fun hlt => absurd hle (by omega)⟩ hok
        · rw [← List.singleton_append, ← List.append_assoc]
          exact ih (h.skip hname) hrest (htracks.overflow hreserved hname hf) hok
      | some f =>
        have hlt : first < c.size := Catalog.lt_size_of_get? hf
        obtain rfl := hreserved.get?_first hname hf
        have henlisted : c.EnlistedTo first := Nat.min_eq_left (Nat.le_of_lt hlt) ▸ hreserved.enlisted
        obtain ⟨directory, henlist', -, -, hfind⟩ := henlisted.exists_enlist_eq_ok hf hname
        obtain rfl := Except.ok.inj (henlist'.symm.trans henlist)
        have hheld : held s.title ≠ some (frameId s) :=
          htracks.unnamed hlt hname ▸ (Option.some_ne_none (frameId s)).symm
        rw [changing, if_neg hheld, ← List.singleton_append, ← List.append_assoc]
        exact ih (h.enlist henlisted hname hf henlist hfind) hrest (htracks.enlist (fun _ => rfl) hf hfind) hok

theorem placeFrames (h : InOrder c log) (hc : c.Consistent) (hplace : placeFrames c sections = .ok c') :
    InOrder c' (log ++ changing c.idNamed? sections) := by
  obtain ⟨reserved, hreserved, henlist, hdirectory, hsize, hold, -⟩ := exists_reserved_of_placeFrames hc hplace
  have hfind : ∀ name, reserved.slotNamed? name = c.slotNamed? name := fun name => by
    rw [Catalog.slotNamed?, Catalog.slotNamed?, hdirectory]
  refine (h.keepsOwners (.of_directory_eq hdirectory)).enlistFrames hreserved ⟨?_, ?_⟩ henlist
  · intro name slot f hname hf
    rw [hfind] at hname
    rw [hold slot (hc.lt_of_slotNamed? hname)] at hf
    rw [Catalog.idNamed?, hname, Option.bind_some, hf]
    rfl
  · intro _ name hname
    rw [hfind] at hname
    rw [Catalog.idNamed?, hname]
    rfl

end InOrder

theorem keepsOwners_fill {σ : LoadState} (h : σ.tables.frames.Consistent) (b : Batch) :
    σ.tables.frames.KeepsOwners ((fill b).run.run σ).2.tables.frames := by
  refine (fill_invariant (P := fun c => c.Consistent ∧ σ.tables.frames.KeepsOwners c) ?_ ?_ ?_
    ⟨h, .of_directory_eq rfl⟩ b).2
  · rintro c ⟨hc, hkeeps⟩ slot g hg
    exact ⟨hc.modify hg, hkeeps.trans (.of_directory_eq rfl)⟩
  · rintro c ⟨hc, hkeeps⟩ name slot hname
    obtain ⟨f, hf, -⟩ := hc.slotNamed?_eq_some_iff.mp hname
    exact ⟨(hc.numbers_claimId hf).1, hkeeps.trans (hc.keepsOwners_claimId slot)⟩
  · rintro c ⟨hc, hkeeps⟩ f slot c' hnew hneg hdefine
    exact ⟨(hc.define hdefine).1, hkeeps.trans (hc.keepsOwners_define hnew hneg hdefine)⟩

end Load

end FrameTable
