import FrameTable.Proofs.Catalog.Names
import FrameTable.Proofs.Load.Collecting
import FrameTable.Proofs.Load.Stable

namespace FrameTable

def Warning.implicitTarget? : Warning → Option String
  | .implicitFrame _ target => some target
  | _ => none

namespace LoadState

variable {σ₀ σ : LoadState} {asked : String → Prop} {added : List String}

def implicitTargets (σ : LoadState) : List String :=
  σ.warnings.toList.filterMap Warning.implicitTarget?

theorem implicitTargets_push (σ : LoadState) (warning : Warning) (tables : Tables) :
    implicitTargets ⟨tables, σ.warnings.push warning⟩ = σ.implicitTargets ++ warning.implicitTarget?.toList := by
  simp only [implicitTargets, Array.toList_push, List.filterMap_append, List.filterMap_cons, List.filterMap_nil]
  cases warning.implicitTarget? <;> rfl

theorem implicitTarget?_eq_none {warning : Warning} (h : ∀ frame name, warning ≠ .implicitFrame frame name) :
    warning.implicitTarget? = none := by
  cases warning with
  | implicitFrame frame name => exact absurd rfl (h frame name)
  | _ => rfl

structure Adds (asked : String → Prop) (σ₀ σ : LoadState) (added : List String) : Prop where
  names : σ.tables.frames.names = σ₀.tables.frames.names ++ added
  warned : σ.implicitTargets = σ₀.implicitTargets ++ added
  asked : ∀ name ∈ added, asked name ∧ Load.ByName name ∧ σ₀.tables.frames.slotNamed? name = none

theorem Adds.slotNamed?_eq_none (h : Adds asked σ₀ σ added) (h₀ : σ₀.tables.frames.Consistent)
    (hσ : σ.tables.frames.Consistent) {name : String} (hnone : σ.tables.frames.slotNamed? name = none) :
    σ₀.tables.frames.slotNamed? name = none := by
  by_contra hknown
  obtain ⟨other, hother, hsame⟩ := h₀.slotNamed?_ne_none_iff.mp hknown
  exact hσ.slotNamed?_ne_none_iff.mpr ⟨other, h.names ▸ List.mem_append_left _ hother, hsame⟩ hnone

theorem stable_adds (h₀ : σ₀.tables.frames.Consistent) :
    Stable asked fun σ => σ.tables.Fillable ∧ ∃ added, Adds asked σ₀ σ added where
  indexed h := h.1.indexed
  fits h := h.1.fits.frames
  warn := by
    rintro σ ⟨h, added, hadds⟩ warning hwarning
    refine ⟨h, added, hadds.names, ?_, hadds.asked⟩
    rw [implicitTargets_push, implicitTarget?_eq_none hwarning]
    exact (List.append_nil _).trans hadds.warned
  edit := by
    rintro σ ⟨h, added, hadds⟩ slot hslot g hg
    refine ⟨(stable_fillable asked).edit h hslot hg, added, ?_, hadds.warned, hadds.asked⟩
    exact (Catalog.names_modify hg).trans hadds.names
  sprite := by
    rintro σ ⟨h, added, hadds⟩ name
    exact ⟨(stable_fillable asked).sprite h name, added, hadds.names, hadds.warned, hadds.asked⟩
  frameId := by
    rintro σ ⟨h, added, hadds⟩ name slot hname
    refine ⟨(stable_fillable asked).frameId h hname, added, ?_, hadds.warned, hadds.asked⟩
    exact (Catalog.names_claimId _ slot).trans hadds.names
  thingId := by
    rintro σ ⟨h, added, hadds⟩ name slot hname
    exact ⟨(stable_fillable asked).thingId h hname, added, hadds.names, hadds.warned, hadds.asked⟩
  soundId := by
    rintro σ ⟨h, added, hadds⟩ name slot hname
    exact ⟨(stable_fillable asked).soundId h hname, added, hadds.names, hadds.warned, hadds.asked⟩
  addFrame := by
    rintro σ ⟨h, added, hadds⟩ frame name slot frames hasked hbyName hnew hdefine
    have hnew' : σ.tables.frames.slotNamed? (Record.name (Load.placeholder σ.tables name)) = none := hnew
    refine ⟨(stable_fillable asked).addFrame h hasked hbyName hnew hdefine, added ++ [name], ?_, ?_, ?_⟩
    · rw [← List.append_assoc, ← hadds.names]
      exact Catalog.names_define hnew' hdefine
    · rw [implicitTargets_push, ← List.append_assoc, ← hadds.warned]
      rfl
    · intro other hother
      rcases List.mem_append.mp hother with hold | hlast
      · exact hadds.asked other hold
      · obtain rfl := List.mem_singleton.mp hlast
        exact ⟨hasked, hbyName, hadds.slotNamed?_eq_none h₀ h.indexed.frames hnew⟩

end LoadState

namespace Load

variable {σ σ' : LoadState} {b : Batch} {first : Bool}

theorem exists_adds_fill (h : σ.tables.Fillable) (b : Batch) :
    ∃ added, LoadState.Adds (Asked b) σ ((fill b).run.run σ).2 added := by
  have hstart : LoadState.Adds (Asked b) σ σ [] := ⟨(List.append_nil _).symm, (List.append_nil _).symm, nofun⟩
  exact (fill_stays (LoadState.stable_adds h.indexed.frames) ⟨h, [], hstart⟩).1.2

theorem implicitTargets_addSprites (names : List String) (σ : LoadState) :
    ((names.forM addSprite).run σ).2.implicitTargets = σ.implicitTargets := by
  induction names generalizing σ with
  | nil => rfl
  | cons name names ih =>
    have hcons : ((name :: names).forM addSprite).run σ = (names.forM addSprite).run ((addSprite name).run σ).2 := rfl
    rw [hcons, ih, run_addSprite]
    split
    · rfl
    · rw [LoadState.implicitTargets_push]
      exact List.append_nil _

theorem implicitTargets_gather (h : (gather b first).run.run σ = (.ok (), σ')) :
    σ'.implicitTargets = σ.implicitTargets := by
  rw [LoadState.implicitTargets, warnings_of_gather h]
  exact implicitTargets_addSprites b.sprites σ

variable {c c' : Catalog Frame} {sections : List Section}

theorem names_of_collected (h : Collected sections c c') : c'.names = c.names ++ newTitles c sections := by
  apply List.ext_getElem?
  intro i
  rw [Catalog.getElem?_names, List.getElem?_append, Catalog.length_names]
  split
  · next hlt =>
    obtain ⟨f, hf⟩ := Store.exists_get? hlt
    obtain ⟨id, hf', -⟩ := h.kept hf
    rw [hf', Catalog.getElem?_names, show c.get? i = some f from hf]
    rfl
  · next hge =>
    have hi : c.size + (i - c.size) = i := Nat.add_sub_cancel' (Nat.le_of_not_lt hge)
    cases htitle : (newTitles c sections)[i - c.size]? with
    | some title =>
      obtain ⟨id, hf⟩ := h.added htitle
      rw [hi] at hf
      rw [hf]
      rfl
    | none =>
      have hlarge : c'.get? i = none := by
        rw [Catalog.get?, Store.get?_eq_none_iff, ← Catalog.size, h.size]
        have := List.getElem?_eq_none_iff.mp htitle
        omega
      rw [hlarge, Option.map_none]

end Load

end FrameTable
