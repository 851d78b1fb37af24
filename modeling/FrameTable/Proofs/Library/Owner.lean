import FrameTable.Proofs.Library.Handles
import FrameTable.Proofs.Library.Successor
import FrameTable.Proofs.Load.Enlisting
import FrameTable.Proofs.Load.Gathering

/-!
The frame that a shared legacy id leads to. Of the frames that have the id it is the one that was changed to it last;
a section that repeats the id of its frame changes nothing, so that the frame that was given the id last need not be
the one that is found.
-/

namespace FrameTable.Library

variable {sizes : IndexSizes} {batches : List Batch} {l : Library} {b : Batch} {sections : List Section} {id : Int}
  {slot other first second : Nat} {rest : List Nat}

def Holds (l : Library) (slot : Nat) (id : Int) : Prop :=
  ∃ f, l.frame? slot = some f ∧ f.legacyId = id

def Gives (l : Library) (id : Int) (slot : Nat) (s : Section) : Prop :=
  l.slotNamed? s.title = some slot ∧ Load.frameId s = id ∧ l.Holds slot id

/-- Of the sections that give the id to frames that still have it, the last one gives it to the frame in `slot`. -/
def LastGiven (l : Library) (sections : List Section) (id : Int) (slot : Nat) : Prop :=
  ∃ earlier s later, sections = earlier ++ s :: later ∧ l.Gives id slot s ∧ ∀ other ∈ later, ∀ i, ¬l.Gives id i other

def changesFrom (l : Library) : List Batch → List Section
  | [] => []
  | b :: batches => Load.changing l.tables.frames.idNamed? b.frames ++ changesFrom (l.load b).2 batches

def changes (sizes : IndexSizes) (batches : List Batch) : List Section :=
  changesFrom (new sizes) batches

theorem exists_lastGiven {s : Section} (hmem : s ∈ sections) (hgives : l.Gives id slot s) :
    ∃ last, l.LastGiven sections id last := by
  induction sections generalizing s slot with
  | nil => cases hmem
  | cons s' sections ih =>
    by_cases hlater : ∃ t ∈ sections, ∃ i, l.Gives id i t
    · obtain ⟨t, ht, i, hgives'⟩ := hlater
      obtain ⟨last, earlier, u, later, rfl, hlast⟩ := ih ht hgives'
      exact ⟨last, s' :: earlier, u, later, rfl, hlast⟩
    · obtain rfl : s = s' := by
        rcases List.mem_cons.mp hmem with rfl | ht
        · rfl
        · exact absurd ⟨s, ht, slot, hgives⟩ hlater
      exact ⟨slot, [], s, sections, rfl, hgives, fun t ht i hgives' => hlater ⟨t, ht, i, hgives'⟩⟩

theorem Intact.mem_owners_iff (h : l.Intact) : slot ∈ l.tables.frames.owners id ↔ 0 ≤ id ∧ l.Holds slot id :=
  Catalog.EnlistedTo.mem_owners_iff h.sound.frames

theorem Intact.slotNumbered?_of_owners (h : l.Intact) (howners : l.tables.frames.owners id = first :: rest) :
    l.slotNumbered? id = some first := by
  obtain ⟨hid, f, hf, -⟩ := h.mem_owners_iff.mp (howners ▸ List.mem_cons_self)
  have hinit : l.initialized = true := by
    cases hinit : l.initialized with
    | false => cases (h.frame?_eq_none hinit first).symm.trans hf
    | true => rfl
  rw [slotNumbered?, nullFrame?, if_pos hinit, l.tables.frames.slotNumbered?_eq_head? hid, howners]
  rfl

theorem Intact.slotNumbered?_of_not_holds (h : l.Intact) (hnone : id < 0 ∨ ∀ slot, ¬l.Holds slot id) :
    l.slotNumbered? id = l.nullFrame? := by
  have hfind : l.tables.frames.slotNumbered? id = none := by
    rcases hnone with hneg | hnot
    · exact if_pos hneg
    · exact Catalog.EnlistedTo.slotNumbered?_eq_none h.sound.frames fun hf hid => hnot _ ⟨_, hf, hid⟩
  rw [slotNumbered?, hfind]
  exact Option.map_id'

section Order

variable (h : l.Intact) (horder : Load.InOrder l.tables.frames sections)
include h horder

theorem eq_of_lastGiven (howners : l.tables.frames.owners id = first :: rest) (hlast : l.LastGiven sections id other) :
    other = first := by
  by_contra hne
  obtain ⟨earlier, s, later, hsplit, ⟨hname, hid, hholds⟩, hlater⟩ := hlast
  have hnonneg := (h.mem_owners_iff.mp (howners ▸ List.mem_cons_self)).1
  have hmem : other ∈ rest := by
    have hmem := h.mem_owners_iff.mpr ⟨hnonneg, hholds⟩
    rw [howners, List.mem_cons] at hmem
    exact hmem.resolve_left hne
  have hpairwise := horder id
  rw [howners, List.pairwise_cons] at hpairwise
  obtain ⟨earlier', s', later', hsplit', hname', hid', hlater'⟩ := hpairwise.1 other hmem
  have hgives' : l.Gives id first s' :=
    ⟨hname', hid', (h.mem_owners_iff.mp (howners ▸ List.mem_cons_self)).2⟩
  have hdiffer : s ≠ s' := by
    rintro rfl
    exact hne (Option.some.inj (hname.symm.trans hname'))
  rcases List.append_eq_append_iff.mp (hsplit'.symm.trans hsplit) with ⟨mid, -, hmid⟩ | ⟨mid, -, hmid⟩
  · cases mid with
    | nil => exact hdiffer (List.cons.inj hmid).1.symm
    | cons t mid =>
      -- `s` comes after `s'`, and gives the id to `other`.
      have hafter : s ∈ later' := (List.cons.inj hmid).2 ▸ List.mem_append_right _ List.mem_cons_self
      exact hlater' s hafter hid hname
  · cases mid with
    | nil => exact hdiffer (List.cons.inj hmid).1
    | cons t mid =>
      have hafter : s' ∈ later := (List.cons.inj hmid).2 ▸ List.mem_append_right _ List.mem_cons_self
      exact hlater s' hafter first hgives'

theorem lastGiven_of_shared (howners : l.tables.frames.owners id = first :: second :: rest) :
    l.LastGiven sections id first := by
  have hpairwise := horder id
  rw [howners, List.pairwise_cons] at hpairwise
  obtain ⟨earlier, s, later, hsplit, hname, hid, -⟩ := hpairwise.1 second List.mem_cons_self
  have hholds := (h.mem_owners_iff.mp (howners ▸ List.mem_cons_self)).2
  obtain ⟨last, hlast⟩ :=
    exists_lastGiven (hsplit ▸ List.mem_append_right _ List.mem_cons_self) ⟨hname, hid, hholds⟩
  exact eq_of_lastGiven h horder howners hlast ▸ hlast

theorem slotNumbered?_eq_some_iff (hid : 0 ≤ id) (hholds : l.Holds slot id) :
    l.slotNumbered? id = some slot ↔ ∀ other, l.LastGiven sections id other → other = slot := by
  have hmem := h.mem_owners_iff.mpr ⟨hid, hholds⟩
  match howners : l.tables.frames.owners id with
  | [] =>
    rw [howners] at hmem
    cases hmem
  | first :: rest =>
    rw [h.slotNumbered?_of_owners howners, Option.some.injEq]
    constructor
    · rintro rfl other hlast
      exact eq_of_lastGiven h horder howners hlast
    · intro hlast
      cases rest with
      | nil =>
        rw [howners] at hmem
        exact (List.mem_singleton.mp hmem).symm
      | cons second rest => exact hlast first (lastGiven_of_shared h horder howners)

end Order

theorem inOrder_load (h : l.Intact) (horder : Load.InOrder l.tables.frames sections) (hok : (l.load b).1 = .ok ()) :
    Load.InOrder (l.load b).2.tables.frames (sections ++ Load.changing l.tables.frames.idNamed? b.frames) := by
  rcases l.load_cases b with ⟨error, -, hload⟩ | ⟨result, σ, phase, hgather, hfill, hload⟩
  · rw [hload] at hok
    cases hok
  · have hgathers := Load.gathers_of_gather hgather
    have hkeeps := Load.keepsOwners_fill (h.sound_gathered b).frames b
    have hframes : (l.load b).2.tables.frames = σ.tables.frames := by rw [hload]; rfl
    rw [hfill] at hkeeps
    rw [hframes]
    exact (horder.placeFrames h.sound.frames hgathers.frames).keepsOwners hkeeps

theorem changes_concat (sizes : IndexSizes) (batches : List Batch) (b : Batch) : changes sizes (batches ++ [b]) =
    changes sizes batches ++ Load.changing (loadAll sizes batches).tables.frames.idNamed? b.frames := by
  -- The log is built from its front, from any library, while runs of loads grow at their end.
  have happend : ∀ l : Library, l.changesFrom (batches ++ [b]) = l.changesFrom batches ++
      Load.changing (batches.foldl (fun l b => (l.load b).2) l).tables.frames.idNamed? b.frames := by
    induction batches with
    | nil => exact fun l => List.append_nil _
    | cons b' batches ih =>
      intro l
      rw [List.cons_append, changesFrom, ih, changesFrom, List.append_assoc]
      rfl
  exact happend (new sizes)

theorem inOrder_loadAll (h : AllLoad sizes batches) :
    Load.InOrder (loadAll sizes batches).tables.frames (changes sizes batches) := by
  induction batches using List.reverseRecOn with
  | nil => exact fun id => .nil
  | append_singleton batches b ih =>
    obtain ⟨hbefore, hok⟩ := allLoad_concat_iff.mp h
    rw [loadAll_concat, changes_concat]
    exact inOrder_load (intact_loadAll sizes batches) (ih hbefore) hok

def DefinitionOwns {ε : Type} [Record ε] (c : Catalog ε) : Prop :=
  ∀ {entry slot c'}, c.define entry = .ok (slot, c') → 0 ≤ Record.number entry →
    c'.slotNumbered? (Record.number entry) = some slot

/-- After a run of loads an id leads to the frame that was changed to it last among those that have it. The frame
that was given it last is found exactly if no section changed another one to the id after it, and things, sounds and
strings are found as soon as they are defined again. -/
theorem slotNumbered?_loadAll (h : AllLoad sizes batches) (id : Int) :
    (0 ≤ id → ∀ slot, (loadAll sizes batches).Holds slot id → ((loadAll sizes batches).slotNumbered? id = some slot ↔
      ∀ other, (loadAll sizes batches).LastGiven (changes sizes batches) id other → other = slot)) ∧
    (0 ≤ id → ∀ slot, (∃ s ∈ batches.flatMap (·.frames), (loadAll sizes batches).Gives id slot s) →
      ∃ last, (loadAll sizes batches).LastGiven (batches.flatMap (·.frames)) id last ∧
        ((loadAll sizes batches).slotNumbered? id = some last ↔
          ∀ other, (loadAll sizes batches).LastGiven (changes sizes batches) id other → other = last)) ∧
    (id < 0 ∨ (∀ slot, ¬(loadAll sizes batches).Holds slot id) →
      (loadAll sizes batches).slotNumbered? id = (loadAll sizes batches).nullFrame?) ∧
    DefinitionOwns (loadAll sizes batches).tables.things ∧ DefinitionOwns (loadAll sizes batches).tables.sounds ∧
      DefinitionOwns (loadAll sizes batches).tables.strings := by
  have hintact := intact_loadAll sizes batches
  have horder := inOrder_loadAll h
  have hfound : 0 ≤ id → ∀ slot, (loadAll sizes batches).Holds slot id →
      ((loadAll sizes batches).slotNumbered? id = some slot ↔
        ∀ other, (loadAll sizes batches).LastGiven (changes sizes batches) id other → other = slot) :=
    fun hid slot hholds => slotNumbered?_eq_some_iff hintact horder hid hholds
  refine ⟨hfound, fun hid slot ⟨s, hmem, hgives⟩ => ?_, hintact.slotNumbered?_of_not_holds, ?_, ?_, ?_⟩
  · obtain ⟨last, hlast⟩ := exists_lastGiven hmem hgives
    have hholds : (loadAll sizes batches).Holds last id := by
      obtain ⟨-, -, -, -, ⟨-, -, hholds⟩, -⟩ := hlast
      exact hholds
    exact ⟨last, hlast, hfound hid last hholds⟩
  · exact fun hdefine hnonneg => Catalog.EnlistedTo.slotNumbered?_define hintact.sound.things hdefine hnonneg
  · exact fun hdefine hnonneg => Catalog.EnlistedTo.slotNumbered?_define hintact.sound.sounds hdefine hnonneg
  · exact fun hdefine hnonneg => Catalog.EnlistedTo.slotNumbered?_define hintact.sound.strings hdefine hnonneg

def numbered (title : String) (id : Int) : Section where
  title := title
  fields := .ofList [("decorate", .bool true), ("dehackednum", .int id)]

def sharing : Batch where
  frames := [decorated "S_NULL", numbered "S_A" 5, numbered "S_B" 5]

def repeating : Batch where
  frames := [numbered "S_A" 5]

theorem allLoad_sharing :
    AllLoad ⟨1, 1, 1, 1, 1⟩ [sharing] ∧ AllLoad ⟨1, 1, 1, 1, 1⟩ [sharing, repeating] := by
  have hfirst : AllLoad ⟨1, 1, 1, 1, 1⟩ ([] ++ [sharing]) :=
    allLoad_concat_iff.mpr ⟨allLoad_nil _, by decide +kernel⟩
  have hboth : AllLoad ⟨1, 1, 1, 1, 1⟩ ([sharing] ++ [repeating]) :=
    allLoad_concat_iff.mpr ⟨hfirst, by decide +kernel⟩
  exact ⟨hfirst, hboth⟩

theorem holds_sharing (slot : Nat) (hslot : slot = 1 ∨ slot = 2) :
    (loadAll ⟨1, 1, 1, 1, 1⟩ [sharing, repeating]).Holds slot 5 := by
  have hid : ((loadAll ⟨1, 1, 1, 1, 1⟩ [sharing, repeating]).frame? slot).map (·.legacyId) = some 5 := by
    rcases hslot with rfl | rfl <;> decide +kernel
  exact Option.map_eq_some_iff.mp hid

theorem slotNumbered?_sharing : (loadAll ⟨1, 1, 1, 1, 1⟩ [sharing, repeating]).slotNumbered? 5 = some 2 ∧
    (∀ other, (loadAll ⟨1, 1, 1, 1, 1⟩ [sharing, repeating]).LastGiven (changes ⟨1, 1, 1, 1, 1⟩ [sharing, repeating])
      5 other → other = 2) ∧
    (loadAll ⟨1, 1, 1, 1, 1⟩ [sharing, repeating]).slotNumbered? 6 = some 0 := by
  have hfound := slotNumbered?_loadAll allLoad_sharing.2 5
  have hmissing := slotNumbered?_loadAll allLoad_sharing.2 6
  have htwo : (loadAll ⟨1, 1, 1, 1, 1⟩ [sharing, repeating]).slotNumbered? 5 = some 2 := by decide +kernel
  have hnull : (loadAll ⟨1, 1, 1, 1, 1⟩ [sharing, repeating]).nullFrame? = some 0 := by decide +kernel
  refine ⟨htwo, (hfound.1 (by decide) 2 (holds_sharing 2 (.inr rfl))).mp htwo, ?_⟩
  refine (hmissing.2.2.1 (.inr fun slot ⟨f, hf, hid⟩ => ?_)).trans hnull
  have hids : ∀ f ∈ (loadAll ⟨1, 1, 1, 1, 1⟩ [sharing, repeating]).tables.frames.store.items.toList,
      f.legacyId ≠ 6 := by
    decide +kernel
  exact hids f (Array.mem_toList_iff.mpr (Array.mem_of_getElem? hf)) hid

theorem sharing_lastGiven : AllLoad ⟨1, 1, 1, 1, 1⟩ [sharing, repeating] ∧
    (loadAll ⟨1, 1, 1, 1, 1⟩ [sharing, repeating]).LastGiven ([sharing, repeating].flatMap (·.frames)) 5 1 ∧
    (loadAll ⟨1, 1, 1, 1, 1⟩ [sharing, repeating]).slotNumbered? 5 = some 2 := by
  have hgives : (loadAll ⟨1, 1, 1, 1, 1⟩ [sharing, repeating]).Gives 5 1 (numbered "S_A" 5) :=
    ⟨by decide +kernel, by decide +kernel, holds_sharing 1 (.inl rfl)⟩
  exact ⟨allLoad_sharing.2, ⟨sharing.frames, numbered "S_A" 5, [], rfl, hgives, nofun⟩, by decide +kernel⟩

end FrameTable.Library
