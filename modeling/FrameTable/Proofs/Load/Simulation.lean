import FrameTable.Load.Batch
import FrameTable.Proofs.Catalog.Integrity
import FrameTable.Proofs.Index.Alike
import FrameTable.Proofs.Load.Resolving

/-!
Filling the same batch from two states. If a relation between states holds at the start, lets the two look alike to
whoever resolves references, and is kept by the few ways in which filling changes the tables, then both runs end
in the same way and the relation holds at the end.
-/

namespace FrameTable

variable {α β : Type} {R : LoadState → LoadState → Prop} {σ τ : LoadState}

def Update.Agrees (R : LoadState → LoadState → Prop) (σ τ : LoadState) (x : Update α) : Prop :=
  (x.run σ).1 = (x.run τ).1 ∧ R (x.run σ).2 (x.run τ).2

def Load.Agrees (R : LoadState → LoadState → Prop) (σ τ : LoadState) (x : Load α) : Prop :=
  Update.Agrees R σ τ x.run

namespace Update.Agrees

variable {x : Update α} {f : α → Update β}

theorem pure (h : R σ τ) (a : α) : Agrees R σ τ (pure a) :=
  ⟨rfl, h⟩

theorem bind (h : Agrees R σ τ x) (hf : ∀ a σ τ, R σ τ → Agrees R σ τ (f a)) : Agrees R σ τ (x >>= f) := by
  obtain ⟨hresult, hR⟩ := h
  have hrest := hf (x.run σ).1 _ _ hR
  have hτ : (x >>= f).run τ = (f (x.run σ).1).run (x.run τ).2 := by rw [hresult]; rfl
  unfold Agrees at hrest ⊢
  rw [hτ]
  exact hrest

theorem tables_bind {f : Tables → Update β} (hf : f τ.tables = f σ.tables) (h : Agrees R σ τ (f σ.tables)) :
    Agrees R σ τ (Load.tables >>= f) := by
  unfold Agrees at h ⊢
  have hstep : (Load.tables >>= f).run τ = (f τ.tables).run τ := rfl
  rw [hstep, hf]
  exact h

theorem forM {f : α → Update Unit} {items : List α} (hstep : ∀ item σ τ, R σ τ → Agrees R σ τ (f item)) (h : R σ τ) :
    Agrees R σ τ (items.forM f) := by
  induction items generalizing σ τ with
  | nil => exact pure h ()
  | cons item items ih => exact bind (hstep item σ τ h) fun _ _ _ h' => ih h'

end Update.Agrees

namespace Load.Agrees

variable {x : Load α} {f : α → Load β}

theorem pure (h : R σ τ) (a : α) : Agrees R σ τ (pure a) :=
  ⟨rfl, h⟩

theorem raise (h : R σ τ) (error : LoadError) : Agrees R σ τ (raise error : Load α) :=
  ⟨rfl, h⟩

theorem raise_bind (h : R σ τ) (error : LoadError) {f : α → Load β} : Agrees R σ τ (Load.raise error >>= f) :=
  ⟨rfl, h⟩

theorem lift {x : Update α} (h : Update.Agrees R σ τ x) : Agrees R σ τ (liftM x) :=
  ⟨congrArg Except.ok h.1, h.2⟩

theorem ofExcept (h : R σ τ) (result : Except LoadError α) : Agrees R σ τ (liftM result) := by
  cases result with
  | error error => exact raise h error
  | ok a => exact pure h a

theorem bind (h : Agrees R σ τ x) (hf : ∀ a σ τ, R σ τ → Agrees R σ τ (f a)) : Agrees R σ τ (x >>= f) := by
  rw [Agrees, ExceptT.run_bind]
  refine Update.Agrees.bind h fun result σ τ h' => ?_
  cases result with
  | error error => exact Update.Agrees.pure h' _
  | ok a => exact hf a σ τ h'

theorem tables_bind {f : Tables → Load β} (hf : f τ.tables = f σ.tables) (h : Agrees R σ τ (f σ.tables)) :
    Agrees R σ τ (liftM Load.tables >>= f) :=
  Update.Agrees.tables_bind (f := fun t => (f t).run) (congrArg ExceptT.run hf) h

theorem given {text : Option String} {default : α} {value : String → Load α} (h : R σ τ)
    (hsome : ∀ given, Agrees R σ τ (value given)) : Agrees R σ τ (given text default value) := by
  cases text with
  | some given => exact hsome given
  | none => exact pure h default

theorem forM {f : α → Load Unit} {items : List α} (hstep : ∀ item σ τ, R σ τ → Agrees R σ τ (f item)) (h : R σ τ) :
    Agrees R σ τ (items.forM f) := by
  induction items generalizing σ τ with
  | nil => exact pure h ()
  | cons item items ih => exact bind (hstep item σ τ h) fun _ _ _ h' => ih h'

end Load.Agrees

structure Tables.LooksLike (t u : Tables) : Prop where
  frames : t.frames.store = u.frames.store
  things : t.things.store = u.things.store
  sounds : t.sounds.store = u.sounds.store
  strings : t.strings.store = u.strings.store
  frameNamed : t.frames.slotNamed? = u.frames.slotNamed?
  thingNamed : t.things.slotNamed? = u.things.slotNamed?
  soundNamed : t.sounds.slotNamed? = u.sounds.slotNamed?
  stringNamed : t.strings.slotNamed? = u.strings.slotNamed?
  frameNumbered : t.frames.slotNumbered? = u.frames.slotNumbered?
  nullFrame : t.nullFrame = u.nullFrame

structure Simulation (R : LoadState → LoadState → Prop) : Prop where
  looksLike : ∀ {σ τ}, R σ τ → σ.tables.LooksLike τ.tables
  warn : ∀ {σ τ}, R σ τ → ∀ warning, R { σ with warnings := σ.warnings.push warning }
    { τ with warnings := τ.warnings.push warning }
  edit : ∀ {σ τ}, R σ τ → ∀ slot {g : Frame → Frame}, (∀ f, Catalog.identity (g f) = Catalog.identity f) →
    R { σ with tables.frames := σ.tables.frames.modify slot g }
      { τ with tables.frames := τ.tables.frames.modify slot g }
  sprite : ∀ {σ τ}, R σ τ → ∀ name, (σ.tables.sprites.define name).1 = (τ.tables.sprites.define name).1 ∧
    R { σ with tables.sprites := (σ.tables.sprites.define name).2 }
      { τ with tables.sprites := (τ.tables.sprites.define name).2 }
  frameId : ∀ {σ τ}, R σ τ → ∀ {name slot}, σ.tables.frames.slotNamed? name = some slot →
    (σ.tables.frames.claimId slot).1 = (τ.tables.frames.claimId slot).1 ∧
    R { σ with tables.frames := (σ.tables.frames.claimId slot).2 }
      { τ with tables.frames := (τ.tables.frames.claimId slot).2 }
  thingId : ∀ {σ τ}, R σ τ → ∀ slot, (σ.tables.things.claimId slot).1 = (τ.tables.things.claimId slot).1 ∧
    R { σ with tables.things := (σ.tables.things.claimId slot).2 }
      { τ with tables.things := (τ.tables.things.claimId slot).2 }
  soundId : ∀ {σ τ}, R σ τ → ∀ slot, (σ.tables.sounds.claimId slot).1 = (τ.tables.sounds.claimId slot).1 ∧
    R { σ with tables.sounds := (σ.tables.sounds.claimId slot).2 }
      { τ with tables.sounds := (τ.tables.sounds.claimId slot).2 }
  addFrame : ∀ {σ τ}, R σ τ → ∀ {name}, σ.tables.frames.slotNamed? name = none →
    Outcomes (fun a b => a.1 = b.1 ∧ R { σ with tables.frames := a.2 } { τ with tables.frames := b.2 })
      (σ.tables.frames.define (Load.placeholder σ.tables name))
      (τ.tables.frames.define (Load.placeholder τ.tables name))

theorem Successor.slot?_congr {t u : Tables} (h : t.LooksLike u) (slot : Nat) (successor : Successor) :
    successor.slot? u slot = successor.slot? t slot := by
  cases successor with
  | next => rw [slot?, slot?, Catalog.size, Catalog.size, h.frames]
  | previous => rfl
  | this => rfl
  | null => exact congrArg some h.nullFrame.symm

namespace Load

variable {slot : Nat} {frame name token : String} {s : Section} {w : Writing}

theorem run_spriteNamed (hblank : ¬Text.same name Sprites.blankName = true) (σ : LoadState) :
    (spriteNamed frame name).run σ =
      match (σ.tables.sprites.define name).1 with
      | some slot => (slot, { σ with tables.sprites := (σ.tables.sprites.define name).2 })
      | none => (Sprites.blank, { σ with warnings := σ.warnings.push (.undefinableSprite frame name) }) := by
  rcases hdefine : σ.tables.sprites.define name with ⟨slot, sprites⟩
  cases slot <;> simp [spriteNamed, hblank, tables, setTables, warn, hdefine] <;> rfl

theorem identity_clearBlank (f : Frame) : Catalog.identity f.clearBlank = Catalog.identity f := by
  unfold Frame.clearBlank
  split <;> rfl

section Walk

variable (S : Simulation R)
include S

theorem warn_agrees (h : R σ τ) (warning : Warning) : Update.Agrees R σ τ (warn warning) :=
  ⟨rfl, S.warn h warning⟩

theorem edit_agrees (h : R σ τ) {g : Frame → Frame} (hg : ∀ f, Catalog.identity (g f) = Catalog.identity f) :
    Update.Agrees R σ τ (edit slot g) :=
  ⟨rfl, S.edit h slot hg⟩

theorem nameOf_agrees (h : R σ τ) : Update.Agrees R σ τ (nameOf slot) := by
  refine .tables_bind ?_ (.pure h _)
  simp only [Catalog.get?, (S.looksLike h).frames]

theorem claimId_agrees {ε : Type} [Record ε] {kind : Kind} {get : Tables → Catalog ε}
    {put : Tables → Catalog ε → Tables} {fallback : Tables → Int}
    (hstore : (get σ.tables).store = (get τ.tables).store) (hfallback : fallback σ.tables = fallback τ.tables)
    (hresult : ((get σ.tables).claimId slot).1 = ((get τ.tables).claimId slot).1)
    (h : R { σ with tables := put σ.tables ((get σ.tables).claimId slot).2 }
      { τ with tables := put τ.tables ((get τ.tables).claimId slot).2 }) :
    Update.Agrees R σ τ (claimId kind get put fallback slot) := by
  have hname : (get σ.tables).get? slot = (get τ.tables).get? slot := by simp only [Catalog.get?, hstore]
  unfold Update.Agrees
  rw [show σ = ⟨σ.tables, σ.warnings⟩ from rfl, show τ = ⟨τ.tables, τ.warnings⟩ from rfl, run_claimId, run_claimId,
    ← hresult, ← hname, ← hfallback]
  cases ((get σ.tables).claimId slot).1 with
  | ok number => exact ⟨rfl, h⟩
  | error error => exact ⟨rfl, S.warn h _⟩

theorem frameValue_agrees (h : R σ τ) (hname : σ.tables.frames.slotNamed? name = some slot) :
    Update.Agrees R σ τ (frameValue slot) := by
  obtain ⟨hresult, hR⟩ := S.frameId h hname
  exact claimId_agrees S (S.looksLike h).frames (congrArg slotValue (S.looksLike h).nullFrame) hresult hR

theorem thingValue_agrees (h : R σ τ) : Update.Agrees R σ τ (thingValue slot) := by
  obtain ⟨hresult, hR⟩ := S.thingId h slot
  exact claimId_agrees S (S.looksLike h).things rfl hresult hR

theorem soundValue_agrees (h : R σ τ) : Update.Agrees R σ τ (soundValue slot) := by
  obtain ⟨hresult, hR⟩ := S.soundId h slot
  exact claimId_agrees S (S.looksLike h).sounds rfl hresult hR

theorem unresolved_agrees (h : R σ τ) (kind : Kind) : Update.Agrees R σ τ (unresolved kind name) :=
  warn_agrees S h _

theorem stringValue_agrees (h : R σ τ) : Update.Agrees R σ τ (stringValue name) := by
  have hlooks := S.looksLike h
  have hget : τ.tables.strings.get? = σ.tables.strings.get? := funext fun i => by
    simp only [Catalog.get?, hlooks.strings]
  refine .tables_bind ?_ ?_
  · simp only [hget, hlooks.stringNamed]
  · simp only
    split
    · exact .bind (unresolved_agrees S h _) fun _ _ _ h => .pure h 0
    · exact .pure h _

theorem labelledValue_agrees (h : R σ τ) {label : MiscLabel} : Update.Agrees R σ τ (labelledValue label name) := by
  have hlooks := S.looksLike h
  refine .tables_bind ?_ ?_
  · simp only [hlooks.frameNamed, hlooks.thingNamed, hlooks.soundNamed, hlooks.nullFrame]
  cases label with
  | frame =>
    cases hname : σ.tables.frames.slotNamed? name with
    | some i => exact frameValue_agrees S h hname
    | none => exact .bind (unresolved_agrees S h _) fun _ _ _ h => .pure h _
  | thing =>
    cases σ.tables.things.slotNamed? name with
    | some i => exact thingValue_agrees S h
    | none => exact .bind (unresolved_agrees S h _) fun _ _ _ h => .pure h _
  | sound =>
    cases σ.tables.sounds.slotNamed? name with
    | some i => exact soundValue_agrees S h
    | none => exact .bind (unresolved_agrees S h _) fun _ _ _ h => soundValue_agrees S h
  | flags word => exact .pure h _
  | codePointer =>
    cases CodePointer.find? name with
    | some position => exact .pure h _
    | none => exact .bind (unresolved_agrees S h _) fun _ _ _ h => .pure h _
  | string => exact stringValue_agrees S h

theorem bareValue_agrees (h : R σ τ) : Update.Agrees R σ τ (bareValue name) := by
  have hlooks := S.looksLike h
  refine .tables_bind ?_ ?_
  · simp only [hlooks.frameNamed, hlooks.thingNamed, hlooks.soundNamed, hlooks.stringNamed]
  split
  · exact thingValue_agrees S h
  split
  · next i hname => exact frameValue_agrees S h hname
  split
  · exact soundValue_agrees S h
  split
  · exact stringValue_agrees S h
  split
  · exact .pure h _
  · exact .bind (warn_agrees S h _) fun _ _ _ h => .pure h 0

theorem miscValue_agrees (h : R σ τ) : Update.Agrees R σ τ (miscValue token) := by
  unfold miscValue
  split
  · exact .bind (warn_agrees S h _) fun _ _ _ h => .pure h 0
  · split
    · exact labelledValue_agrees S h
    · exact .bind (warn_agrees S h _) fun _ _ _ h => .pure h 0
  · split
    · exact .pure h _
    · exact bareValue_agrees S h

theorem spriteNamed_agrees (h : R σ τ) : Update.Agrees R σ τ (spriteNamed frame name) := by
  by_cases hblank : Text.same name Sprites.blankName = true
  · unfold spriteNamed
    rw [if_pos hblank]
    exact .pure h Sprites.blank
  · obtain ⟨hslot, hR⟩ := S.sprite h name
    unfold Update.Agrees
    rw [run_spriteNamed hblank, run_spriteNamed hblank, ← hslot]
    cases (σ.tables.sprites.define name).1 with
    | some slot => exact ⟨rfl, hR⟩
    | none => exact ⟨rfl, S.warn h _⟩

theorem addFrame_agrees (h : R σ τ) (hnew : σ.tables.frames.slotNamed? name = none) :
    Agrees R σ τ (addFrame frame name) := by
  have hdefine := S.addFrame h hnew
  have hσ : (addFrame frame name).run.run σ = _ := run_addFrame frame name σ.tables σ.warnings
  have hτ : (addFrame frame name).run.run τ = _ := run_addFrame frame name τ.tables τ.warnings
  unfold Agrees Update.Agrees
  rw [hσ, hτ]
  generalize σ.tables.frames.define _ = result at hdefine ⊢
  generalize τ.tables.frames.define _ = result' at hdefine ⊢
  cases hdefine with
  | error error => exact ⟨rfl, h⟩
  | ok hresult => exact ⟨congrArg Except.ok hresult.1, S.warn hresult.2 _⟩

theorem nextFrame_agrees (h : R σ τ) {target : String} : Agrees R σ τ (nextFrame slot frame target) := by
  have hlooks := S.looksLike h
  refine .tables_bind ?_ ?_
  · simp only [Successor.slot?_congr hlooks, hlooks.frameNamed, hlooks.frameNumbered]
  split
  · split
    · exact .pure h _
    · exact .raise h _
  · split
    · exact .pure h _
    · next hnew =>
      split
      · exact addFrame_agrees S h hnew
      · split
        · exact .pure h _
        · exact .raise h _

theorem writeArguments_agrees (h : R σ τ) {values : List String} {dropped : Nat} :
    Update.Agrees R σ τ (writeArguments slot frame values dropped) := by
  refine .bind (edit_agrees S h fun _ => rfl) fun _ _ _ h => ?_
  simp only
  split
  · exact warn_agrees S h _
  · exact .pure h ()

theorem writeSprite_agrees (h : R σ τ) : Update.Agrees R σ τ (writeSprite w slot frame s) := by
  unfold writeSprite
  split
  · exact .bind (spriteNamed_agrees S h) fun _ _ _ h => edit_agrees S h fun _ => rfl
  · exact .pure h ()

theorem writeSpriteFrame_agrees (h : R σ τ) : Agrees R σ τ (writeSpriteFrame w slot frame s) := by
  unfold writeSpriteFrame
  split
  · exact .bind (.ofExcept h _) fun _ _ _ h => .lift (edit_agrees S h fun _ => rfl)
  · exact .pure h ()

theorem writeFullbright_agrees (h : R σ τ) : Update.Agrees R σ τ (writeFullbright slot s) := by
  unfold writeFullbright
  split
  · exact edit_agrees S h fun _ => rfl
  · exact .pure h ()

theorem writeTics_agrees (h : R σ τ) : Update.Agrees R σ τ (writeTics w slot s) := by
  unfold writeTics
  split
  · exact edit_agrees S h fun _ => rfl
  · exact .pure h ()

theorem writeAction_agrees (h : R σ τ) : Agrees R σ τ (writeAction w slot frame s) := by
  unfold writeAction
  split
  · refine .bind (.ofExcept h _) fun _ _ _ h => ?_
    exact .bind (.lift (edit_agrees S h fun _ => rfl)) fun _ _ _ h => .pure h _
  · exact .pure h none

theorem writeNext_agrees (h : R σ τ) : Agrees R σ τ (writeNext w slot frame s) := by
  unfold writeNext
  split
  · exact .bind (nextFrame_agrees S h) fun _ _ _ h => .lift (edit_agrees S h fun _ => rfl)
  · exact .pure h ()

theorem writeMisc1_agrees (h : R σ τ) : Update.Agrees R σ τ (writeMisc1 w slot s) := by
  unfold writeMisc1
  split
  · exact .bind (miscValue_agrees S h) fun _ _ _ h => edit_agrees S h fun _ => rfl
  · exact .pure h ()

theorem writeMisc2_agrees (h : R σ τ) : Update.Agrees R σ τ (writeMisc2 w slot s) := by
  unfold writeMisc2
  split
  · exact .bind (miscValue_agrees S h) fun _ _ _ h => edit_agrees S h fun _ => rfl
  · exact .pure h ()

theorem writeParticleEvent_agrees (h : R σ τ) : Agrees R σ τ (writeParticleEvent w slot frame s) := by
  unfold writeParticleEvent
  split
  · exact .bind (.given h fun _ => .ofExcept h _) fun _ _ _ h => .lift (edit_agrees S h fun _ => rfl)
  · exact .pure h ()

theorem writeMisc_agrees (h : R σ τ) : Agrees R σ τ (writeMisc w slot frame s) := by
  refine .bind (.lift (writeMisc1_agrees S h)) fun _ _ _ h => ?_
  refine .bind (.lift (writeMisc2_agrees S h)) fun _ _ _ h => ?_
  exact writeParticleEvent_agrees S h

theorem writeRest_agrees (h : R σ τ) {inline : Option (List String)} :
    Agrees R σ τ (writeRest w slot frame s inline) := by
  have hrest : ∀ {σ τ}, R σ τ → Agrees R σ τ
      (do edit slot fun f => { f with flags := setFlags s f.flags }; writeMisc w slot frame s) := fun h =>
    .bind (.lift (edit_agrees S h fun _ => rfl)) fun _ _ _ h => writeMisc_agrees S h
  unfold writeRest
  split
  · exact .bind (.lift (writeArguments_agrees S h)) fun _ _ _ h => hrest h
  · exact hrest h

theorem writeFields_agrees (h : R σ τ) : Agrees R σ τ (writeFields w slot frame s) := by
  refine .bind (.lift (writeSprite_agrees S h)) fun _ _ _ h => ?_
  refine .bind (writeSpriteFrame_agrees S h) fun _ _ _ h => ?_
  refine .bind (.lift (edit_agrees S h identity_clearBlank)) fun _ _ _ h => ?_
  refine .bind (.lift (writeFullbright_agrees S h)) fun _ _ _ h => ?_
  refine .bind (.lift (writeTics_agrees S h)) fun _ _ _ h => ?_
  refine .bind (writeAction_agrees S h) fun _ _ _ h => ?_
  refine .bind (writeNext_agrees S h) fun _ _ _ h => ?_
  exact writeRest_agrees S h

theorem packedBody_agrees (h : R σ τ) {p : PackedFrame} : Agrees R σ τ (packedBody slot frame p) := by
  refine .bind (.given h fun _ => .lift (spriteNamed_agrees S h)) fun _ σ τ h => ?_
  refine .bind (.given h fun _ => .ofExcept h _) fun _ σ τ h => ?_
  refine .bind (.given h fun _ => .ofExcept h _) fun _ σ τ h => ?_
  refine .tables_bind (by rw [(S.looksLike h).nullFrame]) ?_
  refine .bind (.given h fun _ => nextFrame_agrees S h) fun _ σ τ h => ?_
  refine .bind (.given h fun _ => .ofExcept h _) fun _ σ τ h => ?_
  refine .bind (.given h fun _ => .lift (miscValue_agrees S h)) fun _ σ τ h => ?_
  refine .bind (.given h fun _ => .lift (miscValue_agrees S h)) fun _ σ τ h => ?_
  exact .pure h _

theorem writePacked_agrees (h : R σ τ) {text : String} : Agrees R σ τ (writePacked slot frame text) := by
  refine .bind (packedBody_agrees S h) fun _ _ _ h => ?_
  refine .bind (.lift (edit_agrees S h fun _ => rfl)) fun _ _ _ h => ?_
  refine .bind (.lift (writeArguments_agrees S h)) fun _ _ _ h => ?_
  split
  · exact .lift (warn_agrees S h _)
  · exact .pure h ()

theorem define_agrees (h : R σ τ) : Agrees R σ τ (define slot s) := by
  refine .bind (.lift (nameOf_agrees S h)) fun _ _ _ h => ?_
  refine .bind (.lift (edit_agrees S h fun _ => rfl)) fun _ _ _ h => ?_
  split
  · exact writeMisc_agrees S h
  split
  · exact .bind (writePacked_agrees S h) fun _ _ _ h => writeRest_agrees S h
  · exact writeFields_agrees S h

theorem amend_agrees (h : R σ τ) : Agrees R σ τ (amend slot s) :=
  .bind (.lift (nameOf_agrees S h)) fun _ _ _ h => writeFields_agrees S h

theorem defineAll_agrees (h : R σ τ) (sections : List Section) : Agrees R σ τ (defineAll sections) := by
  induction sections generalizing σ τ with
  | nil => exact .pure h ()
  | cons s sections ih =>
    refine .tables_bind (by rw [(S.looksLike h).frameNamed]) ?_
    split
    · exact .bind (define_agrees S h) fun _ _ _ h => ih h
    · exact ih h

theorem amendAll_agrees (h : R σ τ) (position : Nat) (deltas : List Section) :
    Agrees R σ τ (amendAll position deltas) := by
  induction deltas generalizing σ τ position with
  | nil => exact .pure h ()
  | cons s deltas ih =>
    rw [amendAll]
    split
    · exact .raise_bind h _
    · refine .tables_bind (by rw [(S.looksLike h).frameNamed]) ?_
      split
      · exact .raise_bind h _
      · exact .bind (amend_agrees S h) fun _ _ _ h => ih h _

theorem fill_agrees (h : R σ τ) (b : Batch) : Agrees R σ τ (fill b) :=
  .bind (defineAll_agrees S h _) fun _ _ _ h => amendAll_agrees S h _ _

end Walk

theorem fill_invariant {P : Catalog Frame → Prop}
    (hedit : ∀ {c}, P c → ∀ slot {g : Frame → Frame}, (∀ f, Catalog.identity (g f) = Catalog.identity f) →
      P (c.modify slot g))
    (hclaim : ∀ {c}, P c → ∀ {name slot}, c.slotNamed? name = some slot → P (c.claimId slot).2)
    (hadd : ∀ {c}, P c → ∀ {f : Frame} {slot c'}, c.slotNamed? f.name = none → f.legacyId < 0 →
      c.define f = .ok (slot, c') → P c')
    (h : P σ.tables.frames) (b : Batch) : P ((fill b).run.run σ).2.tables.frames := by
  -- Both runs start from the same state, so that the relation only has to carry the property.
  have S : Simulation fun σ τ => σ = τ ∧ P σ.tables.frames := by
    constructor
    case looksLike =>
      rintro σ _ ⟨rfl, -⟩
      exact ⟨rfl, rfl, rfl, rfl, rfl, rfl, rfl, rfl, rfl, rfl⟩
    case warn =>
      rintro σ _ ⟨rfl, hP⟩ warning
      exact ⟨rfl, hP⟩
    case edit =>
      rintro σ _ ⟨rfl, hP⟩ slot g hg
      exact ⟨rfl, hedit hP slot hg⟩
    case sprite =>
      rintro σ _ ⟨rfl, hP⟩ name
      exact ⟨rfl, rfl, hP⟩
    case frameId =>
      rintro σ _ ⟨rfl, hP⟩ name slot hname
      exact ⟨rfl, rfl, hclaim hP hname⟩
    case thingId =>
      rintro σ _ ⟨rfl, hP⟩ slot
      exact ⟨rfl, rfl, hP⟩
    case soundId =>
      rintro σ _ ⟨rfl, hP⟩ slot
      exact ⟨rfl, rfl, hP⟩
    case addFrame =>
      rintro σ _ ⟨rfl, hP⟩ name hnew
      refine .diagonal fun (slot, frames) hok => ?_
      have hneg : (placeholder σ.tables name).legacyId < 0 := Int.negSucc_lt_zero 0
      have hadded : P frames := hadd (f := placeholder σ.tables name) hP hnew hneg hok
      exact ⟨rfl, rfl, hadded⟩
  exact (fill_agrees S ⟨rfl, h⟩ b).2.2

end Load

end FrameTable
