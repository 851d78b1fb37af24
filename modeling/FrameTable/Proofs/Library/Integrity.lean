import Mathlib.Logic.Relation
import FrameTable.Proofs.Library.Load

/-!
Whatever is done to a library, its frames, its indexes and its references stay in order, also when loads fail
halfway and others follow them.
-/

namespace FrameTable.Library

variable {sizes : IndexSizes} {l l' : Library}

inductive Step : Library → Library → Prop
  | load (l : Library) (b : Batch) : Step l (l.load b).2
  | setArgument (l : Library) (slot position : Nat) (text : String) : Step l (l.setArgument slot position text).2
  | readArgument {α : Type} (l : Library) (r : Reader α) (slot position : Nat) (default : α) :
      Step l (l.readArgument r slot position default).2
  | forgetEvaluations (l : Library) : Step l l.forgetEvaluations
  | clearWarnings (l : Library) : Step l l.clearWarnings

def Reachable (sizes : IndexSizes) (l : Library) : Prop :=
  Relation.ReflTransGen Step (new sizes) l

theorem frame?_setArguments (l : Library) (slot : Nat) (args : ArgumentList) (i : Nat) :
    (l.setArguments slot args).frame? i =
      if slot = i then (l.frame? i).map fun f => { f with args := some args } else l.frame? i :=
  Store.get?_modify _ _ _ _

namespace Intact

theorem frame?_eq_none (h : l.Intact) (hinit : l.initialized = false) (slot : Nat) : l.frame? slot = none := by
  rw [frame?, h.initial hinit]
  rfl

theorem setArguments (h : l.Intact) {slot : Nat} {f : Frame} (hf : l.frame? slot = some f) (args : ArgumentList) :
    (l.setArguments slot args).Intact where
  initial hinit := by
    rw [h.frame?_eq_none hinit] at hf
    cases hf
  ready hinit := (h.ready hinit).modify (g := fun f => { f with args := some args })
    (Tables.edits_of_eq fun _ => ⟨rfl, rfl, rfl⟩) slot

theorem setArgument (h : l.Intact) (slot position : Nat) (text : String) :
    (l.setArgument slot position text).2.Intact := by
  unfold Library.setArgument
  split
  · exact h
  · next f hf =>
    simp only
    split
    · exact h.setArguments hf _
    · exact h.setArguments hf _

theorem readArgument {α : Type} (h : l.Intact) (r : Reader α) (slot position : Nat) (default : α) :
    (l.readArgument r slot position default).2.Intact := by
  unfold Library.readArgument
  split
  · exact h
  · next args hargs =>
    obtain ⟨f, hf, -⟩ := Option.bind_eq_some_iff.mp hargs
    exact h.setArguments hf _

theorem forgetEvaluations (h : l.Intact) : l.forgetEvaluations.Intact where
  initial hinit := by
    have htables : l.state.tables = .initial l.sizes := h.initial hinit
    simp only [Library.forgetEvaluations, editFrames, tables, htables, Tables.initial, Catalog.map_empty]
  ready hinit := (h.ready hinit).map (g := fun f => { f with args := f.args.map ArgumentList.forgetAll })
    (Tables.edits_of_eq fun _ => ⟨rfl, rfl, rfl⟩)

theorem step (h : l.Intact) (hstep : Step l l') : l'.Intact := by
  cases hstep with
  | load _ b => exact h.load b
  | setArgument _ slot position text => exact h.setArgument slot position text
  | readArgument _ r slot position default => exact h.readArgument r slot position default
  | forgetEvaluations => exact h.forgetEvaluations
  | clearWarnings => exact ⟨h.initial, h.ready⟩

end Intact

theorem Reachable.intact (h : Reachable sizes l) : l.Intact := by
  induction h with
  | refl => exact intact_new sizes
  | tail _ hstep ih => exact ih.step hstep

structure Integrity (l : Library) : Prop where
  index_eq : ∀ {slot f}, l.frame? slot = some f → f.index = slot
  name_distinct : ∀ {i j f g}, l.frame? i = some f → l.frame? j = some g → Text.same f.name g.name = true → i = j
  slotNamed? : ∀ {slot f name}, l.frame? slot = some f → Text.same f.name name = true →
    l.slotNamed? name = some slot
  mem_ids : ∀ {slot id}, slot ∈ l.tables.frames.directory.ids.slots ⟨id⟩ ↔
    0 ≤ id ∧ ∃ f, l.frame? slot = some f ∧ f.legacyId = id
  next_lt : ∀ {slot f}, l.frame? slot = some f → f.next < l.frameCount
  sprite_lt : ∀ {slot f}, l.frame? slot = some f → f.sprite < l.tables.sprites.names.size
  action : ∀ {slot f position}, l.frame? slot = some f → f.action = some position →
    position < CodePointer.mnemonics.length ∧ position ≠ CodePointer.null
  args_le : ∀ {slot args}, l.arguments? slot = some args → args.size ≤ maxArguments
  nullFrame : 0 < l.frameCount → ∃ slot f, l.nullFrame? = some slot ∧ l.slotNamed? Frame.nullName = some slot ∧
    l.frame? slot = some f ∧ Text.same f.name Frame.nullName = true
  unknownThing : l.tables.things.slotNamed? Thing.unknown.name = some Thing.unknownSlot ∧
    ∃ thing, l.tables.things.get? Thing.unknownSlot = some thing ∧
      Text.same thing.name Thing.unknown.name = true
  nullSound : l.tables.sounds.slotNamed? Sound.null.mnemonic = some Sound.nullSlot ∧
    ∃ sound, l.tables.sounds.get? Sound.nullSlot = some sound ∧
      Text.same sound.mnemonic Sound.null.mnemonic = true

theorem Reachable.integrity (h : Reachable sizes l) : l.Integrity := by
  have hsound := h.intact.sound
  refine
    { index_eq := hsound.index_eq
      name_distinct := fun hf hg hsame => ?_
      slotNamed? := fun hf hsame => hsound.frames.slotNamed?_eq_some_iff.mpr ⟨_, hf, hsame⟩
      mem_ids := hsound.frames.mem_slots_ids_iff
      next_lt := fun hf => (hsound.refers hf).next_lt
      sprite_lt := fun hf => (hsound.refers hf).sprite_lt
      action := fun hf => (hsound.refers hf).action
      args_le := fun {slot args} _ => args.length_le
      nullFrame := fun hpos => ?_
      unknownThing := ⟨hsound.unknownThing, hsound.things.slotNamed?_eq_some_iff.mp hsound.unknownThing⟩
      nullSound := ⟨hsound.nullSound, hsound.sounds.slotNamed?_eq_some_iff.mp hsound.nullSound⟩ }
  · have hi := hsound.frames.slotNamed?_eq_some_iff.mpr ⟨_, hf, hsame⟩
    exact Option.some.inj (hi.symm.trans (hsound.frames.slotNamed?_name hg))
  · cases hinit : l.initialized with
    | false =>
      rw [frameCount, h.intact.initial hinit] at hpos
      exact absurd hpos (Nat.lt_irrefl 0)
    | true =>
      have hnull := (h.intact.ready hinit).nullFrame
      obtain ⟨f, hf, hsame⟩ := hsound.frames.slotNamed?_eq_some_iff.mp hnull
      exact ⟨_, f, by rw [nullFrame?, hinit, if_pos rfl], hnull, hf, hsame⟩

def respelled : Batch where
  things := [{ title := "UNKNOWN" }]
  frames := [{ title := "s_null", fields := .ofList [("decorate", .bool true)] }]
  deltas := [{ title := "" }]

def respelledLibrary : Library :=
  (((new ⟨1, 1, 1, 1, 1⟩).load respelled).2.setArgument 0 3 "x").2

theorem reachable_respelledLibrary : Reachable ⟨1, 1, 1, 1, 1⟩ respelledLibrary :=
  .tail (.single (.load _ _)) (.setArgument _ _ _ _)

theorem integrity_respelledLibrary :
    respelledLibrary.frameCount = 1 ∧ respelledLibrary.argumentCount 0 = 4 ∧ respelledLibrary.Integrity :=
  ⟨by decide +kernel, by decide +kernel, reachable_respelledLibrary.integrity⟩

theorem respelledLibrary_names :
    Reachable ⟨1, 1, 1, 1, 1⟩ respelledLibrary ∧
      (respelledLibrary.tables.things.get? Thing.unknownSlot).map (·.name) ≠ some Thing.unknown.name ∧
      (respelledLibrary.nullFrame?.bind respelledLibrary.frame?).map (·.name) ≠ some Frame.nullName :=
  ⟨reachable_respelledLibrary, by decide +kernel, by decide +kernel⟩

end FrameTable.Library
