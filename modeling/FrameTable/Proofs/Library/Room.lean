import FrameTable.Proofs.Library.Integrity
import FrameTable.Proofs.Library.Passes
import FrameTable.Proofs.Load.Linking

namespace FrameTable

theorem Tables.fits_initial (sizes : IndexSizes) : (initial sizes).Fits where
  frames := Store.fits_empty
  things := Store.fits_singleton Thing.unknown (by decide)
  sounds := Store.fits_singleton Sound.null (by decide)
  strings := Store.fits_empty

namespace Library

variable {sizes : IndexSizes} {l l' : Library}

namespace Intact

variable (h : l.Intact) (hfits : l.tables.Fits)
include h hfits

theorem gather_stays (b : Batch) :
    Load.Stays (Load.Gathering l.tables) l.state (Load.gather b (!l.initialized)) :=
  Load.gather_stays (σ := l.state) h.sound hfits b _

theorem fits_gathered (b : Batch) : (l.gathered b).tables.Fits :=
  (h.gather_stays hfits b).1.fits

theorem fits_load (b : Batch) : (l.load b).2.tables.Fits := by
  rcases l.load_cases b with ⟨error, -, hload⟩ | ⟨result, σ, phase, hgather, hfill, hload⟩
  · rw [hload, abandon, tables]
    split
    · exact h.fits_gathered hfits b
    · exact Tables.fits_initial _
  · have hstart : (l.gathered b).tables.Fillable := ⟨(h.ready_gathered b hgather).indexed, h.fits_gathered hfits b⟩
    have hfilled := (Load.fill_stays (stable_fillable (Load.Asked b)) hstart).1
    rw [hfill] at hfilled
    rw [hload, tables]
    exact hfilled.fits

theorem fits_step (hstep : Step l l') : l'.tables.Fits := by
  cases hstep with
  | load _ b => exact h.fits_load hfits b
  | setArgument _ slot position text =>
    unfold Library.setArgument
    split
    · exact hfits
    · simp only
      split
      · exact { hfits with frames := hfits.frames.modify slot _ }
      · exact { hfits with frames := hfits.frames.modify slot _ }
  | readArgument _ r slot position default =>
    unfold Library.readArgument
    split
    · exact hfits
    · exact { hfits with frames := hfits.frames.modify slot _ }
  | forgetEvaluations => exact { hfits with frames := hfits.frames.map _ }
  | clearWarnings => exact hfits

end Intact

theorem Reachable.fits (h : Reachable sizes l) : l.tables.Fits := by
  induction h with
  | refl => exact Tables.fits_initial sizes
  | tail hrun hstep ih => exact Intact.fits_step (Reachable.intact hrun) ih hstep

end Library

end FrameTable
