import FrameTable.Proofs.Catalog.Alike
import FrameTable.Proofs.Load.Gathering
import FrameTable.Proofs.Load.Placement
import FrameTable.Proofs.Load.Simulation

namespace FrameTable

structure Tables.Alike (t u : Tables) : Prop where
  frames : t.frames.Alike u.frames
  things : t.things.Alike u.things
  sounds : t.sounds.Alike u.sounds
  strings : t.strings.Alike u.strings
  sprites : t.sprites.Alike u.sprites
  nullFrame : t.nullFrame = u.nullFrame

structure LoadState.Alike (σ τ : LoadState) : Prop where
  tables : σ.tables.Alike τ.tables
  warnings : σ.warnings = τ.warnings

namespace Tables

variable {t u : Tables}

theorem alike_initial (sizes sizes' : IndexSizes) : (initial sizes).Alike (initial sizes') where
  frames := Catalog.alike_empty _ _
  things := Catalog.alike_singleton _ _ _
  sounds := Catalog.alike_singleton _ _ _
  strings := Catalog.alike_empty _ _
  sprites := Sprites.alike_initial _ _
  nullFrame := rfl

namespace Alike

theorem looksLike (h : t.Alike u) : t.LooksLike u where
  frames := h.frames.store
  things := h.things.store
  sounds := h.sounds.store
  strings := h.strings.store
  frameNamed := funext h.frames.slotNamed?_eq
  thingNamed := funext h.things.slotNamed?_eq
  soundNamed := funext h.sounds.slotNamed?_eq
  stringNamed := funext h.strings.slotNamed?_eq
  frameNumbered := funext h.frames.slotNumbered?_eq
  nullFrame := h.nullFrame

theorem lookup_eq {ε : Type} [Record ε] {c d : Catalog ε} (h : c.Alike d) : lookup c = lookup d := by
  rw [lookup, lookup, funext h.slotNamed?_eq, funext h.slotNumbered?_eq]

theorem resolver_eq (h : t.Alike u) : t.resolver = u.resolver := by
  rw [resolver, resolver, lookup_eq h.things, lookup_eq h.frames, lookup_eq h.sounds, lookup_eq h.strings, h.nullFrame]

end Alike

end Tables

namespace Catalog.Alike

variable {c d : Catalog Frame}

theorem enlistFrames (h : c.Alike d) (first : Nat) (sections : List Section) :
    Outcomes Alike (Load.enlistFrames c first sections) (Load.enlistFrames d first sections) := by
  induction sections generalizing c d first with
  | nil => exact .ok h
  | cons s sections ih =>
    unfold Load.enlistFrames
    rw [← h.slotNamed?_eq]
    cases c.slotNamed? s.title with
    | none => exact .bind (h.enlist first) fun _ _ h => ih h (first + 1)
    | some slot =>
      simp only [← h.get?_eq]
      split
      · exact ih h first
      · exact .bind (h.setId slot _) fun _ _ h => ih h first

theorem placeFrames (h : c.Alike d) (sections : List Section) :
    Outcomes Alike (Load.placeFrames c sections) (Load.placeFrames d sections) := by
  have hnew : Load.newFrames d sections = Load.newFrames c sections :=
    Load.newFrames_congr fun name => (h.slotNamed?_eq name).symm
  simp only [Load.placeFrames]
  rw [hnew, ← h.size_eq]
  split
  · exact .error _
  refine .bind (h.reserve _ _) ?_
  rintro ⟨range, reserved⟩ ⟨range', reserved'⟩ ⟨rfl, hreserved⟩
  exact hreserved.enlistFrames range.1 sections

end Catalog.Alike

namespace Load

open LoadState (Alike)

variable {σ τ : LoadState} {s : Section}

theorem simulation_alike : Simulation Alike where
  looksLike h := h.tables.looksLike
  warn h warning := ⟨h.tables, congrArg (·.push warning) h.warnings⟩
  edit h slot g _ := ⟨{ h.tables with frames := h.tables.frames.modify slot g }, h.warnings⟩
  sprite h name :=
    have hdefine := h.tables.sprites.define name
    ⟨hdefine.1, { h.tables with sprites := hdefine.2 }, h.warnings⟩
  frameId h _ slot _ :=
    have hclaim := h.tables.frames.claimId slot
    ⟨hclaim.1, { h.tables with frames := hclaim.2 }, h.warnings⟩
  thingId h slot :=
    have hclaim := h.tables.things.claimId slot
    ⟨hclaim.1, { h.tables with things := hclaim.2 }, h.warnings⟩
  soundId h slot :=
    have hclaim := h.tables.sounds.claimId slot
    ⟨hclaim.1, { h.tables with sounds := hclaim.2 }, h.warnings⟩
  addFrame {σ τ} h name _ := by
    have hplaceholder : placeholder τ.tables name = placeholder σ.tables name := by
      rw [placeholder, placeholder, h.tables.frames.size_eq, h.tables.nullFrame]
    have hdefine := h.tables.frames.define (placeholder σ.tables name)
    rw [hplaceholder]
    exact hdefine.imp fun _ _ hab => ⟨hab.1, { h.tables with frames := hab.2 }, h.warnings⟩

theorem addSprite_agrees (h : σ.Alike τ) (name : String) : Update.Agrees Alike σ τ (addSprite name) := by
  obtain ⟨hslot, hsprites⟩ := h.tables.sprites.define name
  unfold Update.Agrees
  rw [run_addSprite, run_addSprite, ← hslot]
  cases (σ.tables.sprites.define name).1 with
  | some slot => exact ⟨rfl, { h.tables with sprites := hsprites }, h.warnings⟩
  | none => exact ⟨rfl, simulation_alike.warn h _⟩

theorem agrees_of_define {ε : Type} [Record ε] {x : Load Unit} (get : Tables → Catalog ε)
    (put : LoadState → Catalog ε → LoadState) {entry : ε}
    (hx : ∀ σ, x.run.run σ = afterDefine σ (put σ) ((get σ.tables).define entry))
    (h : σ.Alike τ) (hget : (get σ.tables).Alike (get τ.tables))
    (hput : ∀ c d : Catalog ε, c.Alike d → (put σ c).Alike (put τ d)) : Agrees Alike σ τ x := by
  have hdefine := hget.define entry
  have hσ : StateT.run x.run σ = _ := hx σ
  have hτ : StateT.run x.run τ = _ := hx τ
  unfold Agrees Update.Agrees
  rw [hσ, hτ]
  generalize (get σ.tables).define entry = outcome at hdefine ⊢
  generalize (get τ.tables).define entry = outcome' at hdefine ⊢
  cases hdefine with
  | error error => exact ⟨rfl, h⟩
  | ok hadded => exact ⟨rfl, hput _ _ hadded.2⟩

theorem addThing_agrees (h : σ.Alike τ) (s : Section) : Agrees Alike σ τ (addThing s) :=
  agrees_of_define (·.things) (fun σ things => { σ with tables.things := things }) (run_addThing s) h h.tables.things
    fun _ _ hthings => ⟨{ h.tables with things := hthings }, h.warnings⟩

theorem addSound_agrees (h : σ.Alike τ) (s : Section) : Agrees Alike σ τ (addSound s) :=
  agrees_of_define (·.sounds) (fun σ sounds => { σ with tables.sounds := sounds }) (run_addSound s) h h.tables.sounds
    fun _ _ hsounds => ⟨{ h.tables with sounds := hsounds }, h.warnings⟩

theorem addString_agrees (h : σ.Alike τ) (s : Section) : Agrees Alike σ τ (addString s) :=
  agrees_of_define (·.strings) (fun σ strings => { σ with tables.strings := strings }) (run_addString s) h
    h.tables.strings
    fun _ _ hstrings => ⟨{ h.tables with strings := hstrings }, h.warnings⟩

theorem allotFrames_agrees (h : σ.Alike τ) (sections : List Section) (first : Bool) :
    Agrees Alike σ τ (allotFrames sections first) := by
  have hplace := h.tables.frames.placeFrames sections
  have hσ : (allotFrames sections first).run.run σ = _ := run_allotFrames sections first σ
  have hτ : (allotFrames sections first).run.run τ = _ := run_allotFrames sections first τ
  unfold Agrees Update.Agrees
  rw [hσ, hτ]
  generalize placeFrames σ.tables.frames sections = outcome at hplace ⊢
  generalize placeFrames τ.tables.frames sections = outcome' at hplace ⊢
  cases hplace with
  | error error => exact ⟨rfl, h⟩
  | @ok frames frames' hframes =>
    have hcheck : checkNullFrame frames' = checkNullFrame frames := by
      rw [checkNullFrame, checkNullFrame, hframes.size_eq, hframes.slotNamed?_eq]
    have hplaced : Alike { σ with tables.frames := frames } { τ with tables.frames := frames' } :=
      ⟨{ h.tables with frames := hframes }, h.warnings⟩
    cases first with
    | false => exact ⟨rfl, hplaced⟩
    | true =>
      simp only [if_true, hcheck]
      cases checkNullFrame frames with
      | error error => exact ⟨rfl, hplaced⟩
      | ok nullFrame => exact ⟨rfl, { hplaced.tables with nullFrame := rfl }, h.warnings⟩

theorem gather_agrees (h : σ.Alike τ) (b : Batch) (first : Bool) : Agrees Alike σ τ (gather b first) := by
  refine .bind (.lift (.forM (fun name _ _ h => addSprite_agrees h name) h)) fun _ _ _ h => ?_
  refine .bind (.forM (fun s _ _ h => addThing_agrees h s) h) fun _ _ _ h => ?_
  refine .bind (.forM (fun s _ _ h => addSound_agrees h s) h) fun _ _ _ h => ?_
  refine .bind (.forM (fun s _ _ h => addString_agrees h s) h) fun _ _ _ h => ?_
  exact allotFrames_agrees h b.frames first

end Load

end FrameTable
