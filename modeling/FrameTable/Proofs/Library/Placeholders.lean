import FrameTable.Proofs.Library.HandleLife
import FrameTable.Proofs.Library.Room
import FrameTable.Proofs.Load.IdRange
import FrameTable.Proofs.Load.Placeholders
import FrameTable.Proofs.Load.Targets

namespace FrameTable.Library

open LoadState (Leads)

variable {sizes : IndexSizes} {l l' : Library} {b b' : Batch} {name target : String} {slot : Nat}

def frameNames (l : Library) : List String := l.tables.frames.names

def Known (l : Library) (b : Batch) (name : String) : Prop :=
  l.slotNamed? name ≠ none ∨ ∃ s ∈ b.frames, Text.same s.title name = true

def placeholders (l : Library) (b : Batch) : List String :=
  (l.load b).2.frameNames.drop (l.frameCount + (Load.newTitles l.tables.frames b.frames).length)

structure Settles (l : Library) (b : Batch) : Prop where
  names : (l.load b).2.frameNames =
    l.frameNames ++ Load.newTitles l.tables.frames b.frames ++ l.placeholders b
  slotNamed?_iff : ∀ {name slot}, (l.load b).2.slotNamed? name = some slot ↔
    ∃ other, (l.load b).2.frameNames[slot]? = some other ∧ Text.same other name = true
  warned : (l.load b).2.state.implicitTargets = l.state.implicitTargets ++ l.placeholders b
  distinct : (l.placeholders b).Pairwise fun a b => Text.same a b = false
  mem_iff : ∀ {name}, (∃ other ∈ l.placeholders b, Text.same other name = true) ↔
    ∃ target, Load.Asked b target ∧ Load.ByName target ∧ ¬l.Known b target ∧ Text.same target name = true
  leads : ∀ {before turn after target}, b.turns = before ++ turn :: after → turn.successor? = some target →
    target.toList.head? ≠ some '@' → l.Known b target ∨ Number.wholeInteger? target = none →
    ∃ σ σ' frame slot next f, Taken before (l.gathered b) σ ∧ turn.target? = some frame ∧
      σ.tables.frames.slotNamed? frame = some slot ∧ (turn.run slot).run.run σ = (.ok (), σ') ∧
      Taken after σ' (l.load b).2.state ∧ (l.load b).2.slotNamed? target = some next ∧
      σ'.tables.frames.get? slot = some f ∧ f.next = next

section Load

variable (h : l.Intact) (hfits : l.tables.Fits) (hok : (l.load b).1 = .ok ())
include h hfits hok

theorem collected_gathered : Load.Collected b.frames l.tables.frames (l.gathered b).tables.frames :=
  Load.collected_placeFrames h.sound.frames hfits.frames (gathers_of_load hok).frames

theorem known_iff : l.Known b name ↔ (l.gathered b).tables.frames.slotNamed? name ≠ none := by
  have hcollected := collected_gathered h hfits hok
  have hgathered := (h.sound_gathered b).frames
  rw [Option.ne_none_iff_exists']
  constructor
  · rintro (hold | ⟨s, hs, hsame⟩)
    · obtain ⟨slot, hslot⟩ := Option.ne_none_iff_exists'.mp hold
      exact ⟨slot, slotNamed?_gathered h b hslot⟩
    · obtain ⟨slot, hslot⟩ := hcollected.exists_slotNamed? h.sound.frames hs
      exact ⟨slot, hgathered.slotNamed?_congr hsame ▸ hslot⟩
  · rintro ⟨slot, hslot⟩
    rcases hcollected.origin h.sound.frames hgathered hslot with hold | htitle
    · exact .inl (Option.ne_none_iff_exists'.mpr ⟨slot, hold⟩)
    · exact .inr htitle

theorem taken_load : Taken b.turns (l.gathered b) (l.load b).2.state := by
  rcases l.load_cases b with ⟨error, -, hload⟩ | ⟨result, σ, phase, hgather, hfill, hload⟩
  · rw [hload] at hok
    cases hok
  · have htitles : ∀ s ∈ b.frames, (l.gathered b).tables.frames.slotNamed? s.title ≠ none := fun s hs =>
      (known_iff h hfits hok).mp (.inr ⟨s, hs, Text.same_refl _⟩)
    rw [hload] at hok ⊢
    obtain rfl : result = .ok () := hok
    exact Load.taken_of_fill (h.ready_gathered b hgather).indexed htitles hfill

theorem adds_load : LoadState.Adds (Load.Asked b) (l.gathered b) (l.load b).2.state (l.placeholders b) ∧
    (l.gathered b).tables.frames.names = l.frameNames ++ Load.newTitles l.tables.frames b.frames := by
  have hgathered := Load.names_of_collected (collected_gathered h hfits hok)
  rcases l.load_cases b with ⟨error, -, hload⟩ | ⟨result, σ, phase, hgather, hfill, hload⟩
  · rw [hload] at hok
    cases hok
  · obtain ⟨added, hadds⟩ := Load.exists_adds_fill ⟨(h.ready_gathered b hgather).indexed, h.fits_gathered hfits b⟩ b
    rw [hfill] at hadds
    have hstate : (l.load b).2.state = σ := by rw [hload]
    obtain rfl : l.placeholders b = added := by
      have hnames : (l.load b).2.frameNames = _ := (hstate ▸ hadds).names
      have hcount : l.frameCount = l.tables.frames.names.length := (Catalog.length_names _).symm
      rw [placeholders, hnames, hgathered, hcount, ← List.length_append, List.drop_left]
    exact ⟨hstate ▸ hadds, hgathered⟩

theorem leads_load {before after : List Turn} {turn : Turn} (hsplit : b.turns = before ++ turn :: after)
    (hsuccessor : turn.successor? = some target) (hhead : target.toList.head? ≠ some '@')
    (htarget : l.Known b target ∨ Number.wholeInteger? target = none) :
    ∃ σ σ' frame slot next f, Taken before (l.gathered b) σ ∧ turn.target? = some frame ∧
      σ.tables.frames.slotNamed? frame = some slot ∧ (turn.run slot).run.run σ = (.ok (), σ') ∧
      Taken after σ' (l.load b).2.state ∧ (l.load b).2.slotNamed? target = some next ∧
      σ'.tables.frames.get? slot = some f ∧ f.next = next := by
  have hindexed := (h.completes b hok).gathered
  obtain ⟨σ, hbefore, hrest⟩ := (hsplit ▸ taken_load h hfits hok).exists_of_append
  cases hrest with | @cons _ _ frame slot _ σ' _ hframe hslot hrun hafter => ?_
  have hfills := hbefore.turns.fills hindexed
  have h₁ := hfills.indexed hindexed
  have hlt := h₁.frames.lt_of_slotNamed? hslot
  have hnameable : (l.gathered b).Nameable target := ⟨hhead, htarget.imp_left (known_iff h hfits hok).mp⟩
  obtain ⟨hturn, hleads⟩ := (turn.leads h₁ hlt hsuccessor (hnameable.after hfills)).ok hrun
  obtain ⟨next, hnext, hfollows⟩ := hleads
  obtain ⟨f, hf⟩ := Store.exists_get? (hturn.lt_size hlt)
  have hlast := hafter.turns.fills (hturn.indexed h₁)
  exact ⟨σ, σ', frame, slot, next, f, hbefore, hframe, hslot, hrun, hafter, hlast.frames.names hnext, hf, hfollows f hf⟩

theorem mem_placeholders_iff : (∃ other ∈ l.placeholders b, Text.same other name = true) ↔
    ∃ target, Load.Asked b target ∧ Load.ByName target ∧ ¬l.Known b target ∧ Text.same target name = true := by
  obtain ⟨hadds, -⟩ := adds_load h hfits hok
  constructor
  · rintro ⟨target, hmem, hsame⟩
    obtain ⟨hasked, hbyName, hnew⟩ := hadds.asked target hmem
    exact ⟨target, hasked, hbyName, fun hknown => (known_iff h hfits hok).mp hknown hnew, hsame⟩
  · rintro ⟨target, ⟨turn, hturn, hsuccessor⟩, hbyName, hunknown, hsame⟩
    obtain ⟨before, after, hsplit⟩ := List.append_of_mem hturn
    obtain ⟨-, -, -, -, next, -, -, -, -, -, -, hnext, -⟩ :=
      leads_load h hfits hok hsplit hsuccessor hbyName.1 (.inr hbyName.2)
    have hfinal := (h.completes b hok).indexed.frames
    obtain ⟨other, hother, hsame'⟩ := hfinal.slotNamed?_ne_none_iff.mp (Option.ne_none_iff_exists'.mpr ⟨next, hnext⟩)
    rw [show (l.load b).2.tables.frames.names = _ from hadds.names] at hother
    refine ⟨other, (List.mem_append.mp hother).resolve_left fun hold => hunknown ?_, Text.same_trans hsame' hsame⟩
    exact (known_iff h hfits hok).mpr ((h.sound_gathered b).frames.slotNamed?_ne_none_iff.mpr ⟨other, hold, hsame'⟩)

theorem settles : l.Settles b := by
  obtain ⟨hadds, hgathered⟩ := adds_load h hfits hok
  have hfinal := (h.completes b hok).indexed.frames
  have hnames : (l.load b).2.frameNames = (l.gathered b).tables.frames.names ++ l.placeholders b := hadds.names
  refine
    { names := hnames.trans (congrArg (· ++ _) hgathered)
      slotNamed?_iff := hfinal.slotNamed?_iff_getElem?_names
      warned := ?_
      distinct := ?_
      mem_iff := mem_placeholders_iff h hfits hok
      leads := leads_load h hfits hok }
  · rcases l.load_cases b with ⟨error, -, hload⟩ | ⟨-, -, -, hgather, -, -⟩
    · rw [hload] at hok
      cases hok
    · rw [hadds.warned, Load.implicitTargets_gather hgather]
  · have hdistinct := hfinal.pairwise_names
    rw [show (l.load b).2.tables.frames.names = _ from hnames] at hdistinct
    exact (List.pairwise_append.mp hdistinct).2.1

end Load

theorem asked_perm (hframes : b'.frames.Perm b.frames) (hdeltas : b'.deltas.Perm b.deltas) :
    Load.Asked b' target ↔ Load.Asked b target := by
  have hturns : b'.turns.Perm b.turns :=
    (hframes.map (Turn.mk .definition)).append (hdeltas.map (Turn.mk .delta))
  simp only [Load.Asked, hturns.mem_iff]

/-- The names that a batch asks for are settled, and the order of its frames has no part in which of them get frames of
their own. -/
theorem Reachable.load_settles (h : Reachable sizes l) (hok : (l.load b).1 = .ok ()) : l.Settles b ∧
    ∀ b', b'.frames.Perm b.frames → b'.deltas.Perm b.deltas → (l.load b').1 = .ok () → ∀ name,
      (∃ other ∈ l.placeholders b', Text.same other name = true) ↔
        ∃ other ∈ l.placeholders b, Text.same other name = true := by
  have hsettles := settles h.intact h.fits hok
  refine ⟨hsettles, fun b' hframes hdeltas hok' name => ?_⟩
  have hknown : ∀ target, l.Known b' target ↔ l.Known b target := fun target => by
    simp only [Known, hframes.mem_iff]
  rw [hsettles.mem_iff, (settles h.intact h.fits hok').mem_iff]
  simp only [asked_perm hframes hdeltas, hknown]

def pursuing : Batch where
  frames := [{ title := "S_SEE", fields := .ofList [("cmp", .text "*|*|*|*|*|s_run")] },
    { title := "S_NULL", fields := .ofList [("cmp", .text "*|*|*|*|*|S_Gone")] },
    { title := "S_Run", fields := .ofList [("cmp", .text "PLAY|A|*|4|*|S_GONE")] }]
  deltas := [{ title := "", fields := .ofList [("name", .text "s_see"), ("nextframe", .text "s_gone")] }]

def pursuingBackwards : Batch :=
  { pursuing with frames := pursuing.frames.reverse }

theorem load_settles_pursuing :
    (new ⟨1, 1, 1, 1, 1⟩).Settles pursuing ∧ (new ⟨1, 1, 1, 1, 1⟩).placeholders pursuing = ["S_Gone"] ∧
      (new ⟨1, 1, 1, 1, 1⟩).placeholders pursuingBackwards = ["S_GONE"] ∧
      ∃ other ∈ (new ⟨1, 1, 1, 1, 1⟩).placeholders pursuingBackwards, Text.same other "s_gone" = true := by
  have hreachable : Reachable ⟨1, 1, 1, 1, 1⟩ (new ⟨1, 1, 1, 1, 1⟩) := .refl
  have hok : ((new ⟨1, 1, 1, 1, 1⟩).load pursuing).1 = .ok () := by decide +kernel
  have hok' : ((new ⟨1, 1, 1, 1, 1⟩).load pursuingBackwards).1 = .ok () := by decide +kernel
  obtain ⟨hsettles, hreordered⟩ := hreachable.load_settles hok
  have hplaceholders : (new ⟨1, 1, 1, 1, 1⟩).placeholders pursuing = ["S_Gone"] := by decide +kernel
  refine ⟨hsettles, hplaceholders, by decide +kernel, ?_⟩
  refine (hreordered pursuingBackwards (List.reverse_perm _) (.refl _) hok' "s_gone").mpr ?_
  rw [hplaceholders]
  exact ⟨"S_Gone", List.mem_singleton_self _, by decide +kernel⟩

end FrameTable.Library
