import Mathlib.Data.Prod.Basic
import FrameTable.Proofs.Library.Integrity
import FrameTable.Proofs.Load.Footprint

namespace FrameTable

namespace Image

@[simp] theorem isFullbright_brighten (i : Image) : i.brighten.isFullbright = true := by
  have habsorb : (i.word ||| fullbrightBit) &&& fullbrightBit = fullbrightBit := by
    ext j hj
    simp only [BitVec.getElem_and, BitVec.getElem_or]
    cases fullbrightBit[j] <;> simp
  rw [isFullbright, brighten, habsorb]
  decide

@[simp] theorem isFullbright_ofInt_zero : (ofInt 0).isFullbright = false := by decide

end Image

theorem Contents.isFullbright_imageAfter {w : Writing} {s : Section} (sprite : Nat) (number : Int) (image : Image) :
    (imageAfter w s sprite number image).isFullbright =
      if s.bool? "fullbright" = some true then true
      else if sprite = Sprites.blank then false
      else if w.writes s "spriteframe" then (Image.ofInt number).isFullbright
      else image.isFullbright := by
  unfold imageAfter
  by_cases hbright : s.bool? "fullbright" = some true
  · simp only [if_pos hbright, Image.isFullbright_brighten]
  · simp only [if_neg hbright]
    split
    · exact Image.isFullbright_ofInt_zero
    · split <;> rfl

namespace Load

variable {slot : Nat} {f : Frame} {s : Section} {state state' : LoadState}

theorem exists_image_amend (hf : state.tables.frames.get? slot = some f)
    (hrun : (amend slot s).run.run state = (.ok (), state')) : ∃ f' number,
    state'.tables.frames.get? slot = some f' ∧ (s.has "sprite" = false → f'.sprite = f.sprite) ∧
      (s.has "spriteframe" = true → spriteFrameValue f.name (s.value? "spriteframe") = .ok number) ∧
      f'.image = Contents.imageAfter .delta s f'.sprite number f.image := by
  have hslot : slot < state.tables.frames.size := Catalog.lt_size_of_get? hf
  obtain ⟨act, id, ⟨t', r, hnumber, rfl⟩, hf', -⟩ := (amend_acts hslot fun _ h => h).exists_frame hf hrun
  rw [hf] at hnumber
  have hbody := f.contents.toFrameBody_afterFields (w := .delta) (s := s) (r := r)
  have hsprite : (f.contents.afterFields .delta s r).sprite = _ := congrArg FrameBody.sprite hbody
  have himage : (f.contents.afterFields .delta s r).image = _ := congrArg FrameBody.image hbody
  refine ⟨_, r.number, hf', fun h => ?_, hnumber, ?_⟩
  · exact hsprite.trans (if_neg (ne_true_of_eq_false h))
  · exact himage.trans (congrArg (fun sprite => Contents.imageAfter .delta s sprite r.number f.image) hsprite.symm)

/-- When the fields of a delta account for what becomes of the image: without any that concern it, without the
fullbright field, and with this field but not the number. -/
theorem image_amend (hf : state.tables.frames.get? slot = some f)
    (hrun : (amend slot s).run.run state = (.ok (), state')) : ∃ f', state'.tables.frames.get? slot = some f' ∧
    (s.has "sprite" = false → s.has "spriteframe" = false → s.has "fullbright" = false →
      (f'.image = f.image ↔ f.sprite ≠ Sprites.blank ∨ f.image = .ofInt 0)) ∧
    (s.has "fullbright" = false → (f'.image.isFullbright = f.image.isFullbright ↔
      if f'.sprite = Sprites.blank then f.image.isFullbright = false
      else s.has "spriteframe" = true → ∀ number, spriteFrameValue f.name (s.value? "spriteframe") = .ok number →
        (Image.ofInt number).isFullbright = f.image.isFullbright)) ∧
    (∀ b, s.bool? "fullbright" = some b → s.has "spriteframe" = false →
      (f'.image.isFullbright = b ↔ b = true ∨ f'.sprite = Sprites.blank ∨ f.image.isFullbright = false)) := by
  obtain ⟨f', number, hf', hsprite, hnumber, himage⟩ := exists_image_amend hf hrun
  have hbright := Contents.isFullbright_imageAfter (w := .delta) (s := s) f'.sprite number f.image
  rw [← himage] at hbright
  have hnone : s.has "fullbright" = false → s.bool? "fullbright" = none := fun h => by
    rw [Section.bool?, Section.value?_eq_none h, Option.bind_none]
  refine ⟨f', hf', fun h₁ h₂ h₃ => ?_, fun h => ?_, fun b hb h => ?_⟩
  · have himage' : f'.image = if f.sprite = Sprites.blank then .ofInt 0 else f.image := by
      rw [himage, hsprite h₁, Contents.imageAfter, hnone h₃, Writing.writes, h₂]
      rfl
    rw [himage']
    by_cases hblank : f.sprite = Sprites.blank
    · simp only [hblank, if_true, ne_eq, not_true, false_or]
      exact eq_comm
    · simp only [hblank, if_false, ne_eq, not_false_iff, true_or]
  · rw [hbright, hnone h, if_neg (Option.some_ne_none true).symm]
    by_cases hblank : f'.sprite = Sprites.blank
    · rw [if_pos hblank, if_pos hblank]
      exact eq_comm
    -- What is left to decide the bit is the number that the section writes, if it does.
    rw [if_neg hblank, if_neg hblank, Writing.writes]
    by_cases hwritten : s.has "spriteframe" = true
    · rw [if_pos hwritten]
      refine ⟨fun heq _ number' hnumber' => ?_, fun hall => hall hwritten number (hnumber hwritten)⟩
      rw [← Except.ok.inj ((hnumber hwritten).symm.trans hnumber'), heq]
    · rw [if_neg hwritten]
      exact iff_of_true rfl fun h => absurd h hwritten
  · rw [hbright, hb, Writing.writes, h]
    cases b with
    | true => simp
    | false =>
      rw [if_neg (by decide)]
      by_cases hblank : f'.sprite = Sprites.blank
      · simp [hblank]
      · simp [hblank]

def bright : Batch where
  frames := [{ title := "S_NULL", fields := .ofList [("decorate", .bool true)] },
    { title := "S_GLOW", fields := .ofList [("action", .text "Light0"), ("fullbright", .bool true)] },
    { title := "S_LAMP", fields := .ofList [("cmp", .text "LAMP|A|t|4|Light0")] }]

def brightLibrary : Library :=
  ((Library.new ⟨1, 1, 1, 1, 1⟩).load bright).2

def timing : Section where
  title := ""
  fields := .ofList [("name", .text "S_GLOW"), ("tics", .int 3)]

def turning : Section where
  title := ""
  fields := .ofList [("name", .text "S_LAMP"), ("spriteframe", .text "B")]

def darkening : Section where
  title := ""
  fields := .ofList [("fullbright", .bool false), ("name", .text "S_LAMP")]

theorem image_amend_darkening : ∃ f f',
    brightLibrary.state.tables.frames.get? 2 = some f ∧ f.image.isFullbright = true ∧
    ((amend 2 darkening).run.run brightLibrary.state).2.tables.frames.get? 2 = some f' ∧
    f'.sprite ≠ Sprites.blank ∧ f'.image.isFullbright ≠ false := by
  have hok : ((amend 2 darkening).run.run brightLibrary.state).1 = .ok () := by decide +kernel
  have hbefore : (brightLibrary.state.tables.frames.get? 2).map (·.image.isFullbright) = some true := by
    decide +kernel
  have hafter : (((amend 2 darkening).run.run brightLibrary.state).2.tables.frames.get? 2).map (·.sprite) =
      some 1 := by decide +kernel
  obtain ⟨f, hf, hbright⟩ := Option.map_eq_some_iff.mp hbefore
  obtain ⟨f', hf', -, -, hdark⟩ := image_amend hf (Prod.fst_eq_iff.mp hok)
  rw [hf'] at hafter
  have hsprite : f'.sprite ≠ Sprites.blank := by
    rw [show f'.sprite = 1 from Option.some.inj hafter]
    decide
  refine ⟨f, f', hf, hbright, hf', hsprite, fun h => ?_⟩
  rcases (hdark false (by decide +kernel) (by decide +kernel)).mp h with h | h | h
  · cases h
  · exact hsprite h
  · rw [hbright] at h
    cases h

theorem brightLibrary_deltas :
    Library.Reachable ⟨1, 1, 1, 1, 1⟩ brightLibrary ∧
    ((Library.new ⟨1, 1, 1, 1, 1⟩).load bright).1 = .ok () ∧
    (brightLibrary.frame? 1).map (·.image) = some (.ofInt 0x8000) ∧
    (brightLibrary.frame? 2).map (·.image) = some (.ofInt 0x8000) ∧
    (brightLibrary.load { deltas := [timing] }).1 = .ok () ∧
    ((brightLibrary.load { deltas := [timing] }).2.frame? 1).map (·.image) = some (.ofInt 0) ∧
    (brightLibrary.load { deltas := [turning] }).1 = .ok () ∧
    ((brightLibrary.load { deltas := [turning] }).2.frame? 2).map (·.image) = some (.ofInt 1) ∧
    (brightLibrary.load { deltas := [darkening] }).1 = .ok () ∧
    ((brightLibrary.load { deltas := [darkening] }).2.frame? 2).map (·.image) = some (.ofInt 0x8000) :=
  ⟨.single (.load _ _), by decide +kernel⟩

end Load

end FrameTable
