import FrameTable.Proofs.Catalog.Room
import FrameTable.Proofs.Load.Simulation
import FrameTable.Proofs.Load.Turn

/-!
What filling a batch keeps. A property of the state of a load that is stable under the few ways in which filling
changes the state holds at the end, whether the batch is filled or not. No failure is one of an index or of the
numbering of records.
-/

namespace FrameTable

/-- The error speaks of the batch or of memory, not of an index in disorder, of numbers, or of sums that are no
words. -/
def LoadError.Ordinary (error : LoadError) : Prop :=
  (∀ cause, error ≠ .catalog (.index cause)) ∧ (∀ cause, error ≠ .numbering cause) ∧
    error ≠ .catalog (.store .overflow)

def Load.ByName (target : String) : Prop :=
  target.toList.head? ≠ some '@' ∧ Number.wholeInteger? target = none

namespace Turn

variable {turn : Turn}

def successor? (turn : Turn) : Option String :=
  match turn.packedText? with
  | some text => (PackedFrame.parse text).nextframe
  | none =>
    if turn.writing.writes turn.source "nextframe" ∧
        (turn.writing = .definition → turn.source.bool? "decorate" ≠ some true) then
      some ((turn.source.text? "nextframe").getD Frame.nullName)
    else none

theorem successor?_of_packedText? {text : String} (h : turn.packedText? = some text) :
    turn.successor? = (PackedFrame.parse text).nextframe := by
  rw [successor?, h]

theorem successor?_of_writes (h : turn.packedText? = none)
    (hplain : turn.writing = .definition → turn.source.bool? "decorate" ≠ some true)
    (hwrites : turn.writing.writes turn.source "nextframe" = true) :
    turn.successor? = some ((turn.source.text? "nextframe").getD Frame.nullName) := by
  simp only [successor?, h]
  exact if_pos ⟨hwrites, hplain⟩

theorem packedText?_delta (s : Section) : (Turn.mk .delta s).packedText? = none :=
  if_neg fun hplain => nomatch hplain.1

theorem packedText?_definition {s : Section} (h : s.bool? "decorate" ≠ some true) :
    (Turn.mk .definition s).packedText? = s.text? "cmp" :=
  if_pos ⟨rfl, h⟩

end Turn

variable {α β : Type} {P : LoadState → Prop} {σ : LoadState}

structure Stable (asked : String → Prop) (P : LoadState → Prop) : Prop where
  indexed : ∀ {σ}, P σ → σ.tables.Indexed
  fits : ∀ {σ}, P σ → σ.tables.frames.Fits
  warn : ∀ {σ}, P σ → ∀ warning, (∀ frame name, warning ≠ .implicitFrame frame name) →
    P { σ with warnings := σ.warnings.push warning }
  edit : ∀ {σ}, P σ → ∀ {slot}, slot < σ.tables.frames.size →
    ∀ {g : Frame → Frame}, (∀ f, Catalog.identity (g f) = Catalog.identity f) →
      P { σ with tables.frames := σ.tables.frames.modify slot g }
  sprite : ∀ {σ}, P σ → ∀ name, P { σ with tables.sprites := (σ.tables.sprites.define name).2 }
  frameId : ∀ {σ}, P σ → ∀ {name slot}, σ.tables.frames.slotNamed? name = some slot →
    P { σ with tables.frames := (σ.tables.frames.claimId slot).2 }
  thingId : ∀ {σ}, P σ → ∀ {name slot}, σ.tables.things.slotNamed? name = some slot →
    P { σ with tables.things := (σ.tables.things.claimId slot).2 }
  soundId : ∀ {σ}, P σ → ∀ {name slot}, σ.tables.sounds.slotNamed? name = some slot →
    P { σ with tables.sounds := (σ.tables.sounds.claimId slot).2 }
  addFrame : ∀ {σ}, P σ → ∀ {frame name slot frames}, asked name → Load.ByName name →
    σ.tables.frames.slotNamed? name = none →
    σ.tables.frames.define (Load.placeholder σ.tables name) = .ok (slot, frames) →
    P { σ with tables.frames := frames, warnings := σ.warnings.push (.implicitFrame frame name) }

structure Tables.Fits (t : Tables) : Prop where
  frames : t.frames.Fits
  things : t.things.Fits
  sounds : t.sounds.Fits
  strings : t.strings.Fits

structure Tables.Fillable (t : Tables) : Prop where
  indexed : t.Indexed
  fits : t.Fits

theorem stable_fillable (asked : String → Prop) : Stable asked fun σ => σ.tables.Fillable where
  indexed h := h.indexed
  fits h := h.fits.frames
  warn h _ _ := h
  edit h slot _ g hg :=
    ⟨{ h.indexed with frames := h.indexed.frames.modify hg }, { h.fits with frames := h.fits.frames.modify slot g }⟩
  sprite h _ := ⟨{ h.indexed with }, { h.fits with }⟩
  frameId h _ slot hname := by
    obtain ⟨f, hf, -⟩ := h.indexed.frames.slotNamed?_eq_some_iff.mp hname
    have hfills : LoadState.Fills True (fun _ _ => True) _ _ := .frameId h.indexed hf
    exact ⟨hfills.indexed h.indexed, { h.fits with frames := h.fits.frames.claimId slot }⟩
  thingId h _ slot hname := by
    obtain ⟨e, he, -⟩ := h.indexed.things.slotNamed?_eq_some_iff.mp hname
    have hfills : LoadState.Fills True (fun _ _ => True) _ _ := .thingId h.indexed he
    exact ⟨hfills.indexed h.indexed, { h.fits with things := h.fits.things.claimId slot }⟩
  soundId h _ slot hname := by
    obtain ⟨e, he, -⟩ := h.indexed.sounds.slotNamed?_eq_some_iff.mp hname
    have hfills : LoadState.Fills True (fun _ _ => True) _ _ := .soundId h.indexed he
    exact ⟨hfills.indexed h.indexed, { h.fits with sounds := h.fits.sounds.claimId slot }⟩
  addFrame {σ} h frame name _ _ _ _ hnew hdefine := by
    have hfills : LoadState.Fills True (fun _ _ => True) _ _ := .addFrame h.indexed trivial hnew hdefine
    exact ⟨hfills.indexed h.indexed, { h.fits with frames := h.fits.frames.define hdefine }⟩

def Update.Stays (P : LoadState → Prop) (σ : LoadState) (x : Update α) : Prop :=
  P (x.run σ).2

def Load.Stays (P : LoadState → Prop) (σ : LoadState) (x : Load α) : Prop :=
  P (x.run.run σ).2 ∧ ∀ error, (x.run.run σ).1 = .error error → error.Ordinary

namespace Update.Stays

variable {x : Update α} {f : α → Update β}

theorem pure (h : P σ) (a : α) : Stays P σ (pure a) := h

theorem bind (h : Stays P σ x) (hf : ∀ a σ, P σ → Stays P σ (f a)) : Stays P σ (x >>= f) :=
  hf _ _ h

theorem tables_bind {f : Tables → Update β} (h : Stays P σ (f σ.tables)) : Stays P σ (Load.tables >>= f) := h

end Update.Stays

namespace Load.Stays

variable {x : Load α} {f : α → Load β}

theorem pure (h : P σ) (a : α) : Stays P σ (pure a) :=
  ⟨h, nofun⟩

theorem raise (h : P σ) {error : LoadError} (herror : error.Ordinary) : Stays P σ (raise error : Load α) :=
  ⟨h, fun _ heq => Except.error.inj heq ▸ herror⟩

theorem raise_bind (h : P σ) {error : LoadError} (herror : error.Ordinary) {f : α → Load β} :
    Stays P σ (Load.raise error >>= f) :=
  ⟨h, fun _ heq => Except.error.inj heq ▸ herror⟩

theorem lift {x : Update α} (h : Update.Stays P σ x) : Stays P σ (liftM x) :=
  ⟨h, nofun⟩

theorem ofExcept (h : P σ) {result : Except LoadError α} (herror : ∀ error, result = .error error → error.Ordinary) :
    Stays P σ (liftM result) := by
  cases result with
  | error error => exact raise h (herror error rfl)
  | ok a => exact pure h a

theorem bind (h : Stays P σ x) (hf : ∀ a σ, P σ → Stays P σ (f a)) : Stays P σ (x >>= f) := by
  obtain ⟨hP, herror⟩ := h
  unfold Stays
  rw [ExceptT.run_bind, StateT.run_bind]
  cases hx : x.run.run σ with
  | mk result σ' =>
    rw [hx] at hP herror
    cases result with
    | error error => exact raise (α := β) hP (herror error rfl)
    | ok a => exact hf a σ' hP

theorem tables_bind {f : Tables → Load α} (h : Stays P σ (f σ.tables)) : Stays P σ (liftM Load.tables >>= f) := h

theorem nameOf_bind {slot : Nat} {f : String → Load α}
    (h : Stays P σ (f (((σ.tables.frames.get? slot).map (·.name)).getD ""))) :
    Stays P σ (liftM (Load.nameOf slot) >>= f) := h

theorem given {text : Option String} {default : α} {value : String → Load α} (h : P σ)
    (hsome : ∀ given, text = some given → Stays P σ (value given)) : Stays P σ (given text default value) := by
  cases text with
  | some given => exact hsome given rfl
  | none => exact pure h default

end Load.Stays

namespace Load

variable {asked : String → Prop} {slot : Nat} {frame name token : String} {s : Section} {w : Writing}

theorem ordinary_spriteFrame {value : String} {error : LoadError} (h : spriteFrameOf frame value = .error error) :
    error.Ordinary := by
  unfold spriteFrameOf at h
  split at h
  · exact Except.error.inj h ▸ ⟨nofun, nofun, nofun⟩
  · cases h

theorem ordinary_spriteFrameValue {value : Option FieldValue} {error : LoadError}
    (h : spriteFrameValue frame value = .error error) : error.Ordinary := by
  unfold spriteFrameValue at h
  split at h
  · cases h
  · cases h
  · exact Except.error.inj h ▸ ⟨nofun, nofun, nofun⟩
  · exact ordinary_spriteFrame h

theorem ordinary_action {error : LoadError} (h : actionOf frame name = .error error) : error.Ordinary := by
  unfold actionOf at h
  split at h
  · exact Except.error.inj h ▸ ⟨nofun, nofun, nofun⟩
  · cases h

theorem ordinary_particleEvent {error : LoadError} (h : particleEventOf frame name = .error error) :
    error.Ordinary := by
  unfold particleEventOf at h
  split at h
  · exact Except.error.inj h ▸ ⟨nofun, nofun, nofun⟩
  · cases h

section Walk

variable (S : Stable asked P)
include S

theorem warn_stays (h : P σ) {warning : Warning} (hwarning : ∀ frame name, warning ≠ .implicitFrame frame name) :
    Update.Stays P σ (warn warning) :=
  S.warn h warning hwarning

theorem claimId_stays {ε : Type} [Record ε] {kind : Kind} {get : Tables → Catalog ε}
    {put : Tables → Catalog ε → Tables} {fallback : Tables → Int}
    (hclaimed : P { σ with tables := put σ.tables ((get σ.tables).claimId slot).2 }) :
    Update.Stays P σ (claimId kind get put fallback slot) := by
  unfold Update.Stays
  rw [show σ = ⟨σ.tables, σ.warnings⟩ from rfl, run_claimId]
  split
  · exact hclaimed
  · exact S.warn hclaimed _ nofun

theorem frameValue_stays (h : P σ) (hname : σ.tables.frames.slotNamed? name = some slot) :
    Update.Stays P σ (frameValue slot) :=
  claimId_stays S (S.frameId h hname)

theorem thingValue_stays (h : P σ) (hname : σ.tables.things.slotNamed? name = some slot) :
    Update.Stays P σ (thingValue slot) :=
  claimId_stays S (S.thingId h hname)

theorem soundValue_stays (h : P σ) (hname : σ.tables.sounds.slotNamed? name = some slot) :
    Update.Stays P σ (soundValue slot) :=
  claimId_stays S (S.soundId h hname)

theorem unresolved_stays (h : P σ) (kind : Kind) : Update.Stays P σ (unresolved kind name) :=
  warn_stays S h nofun

theorem stringValue_stays (h : P σ) : Update.Stays P σ (stringValue name) := by
  refine .tables_bind ?_
  simp only
  split
  · exact .bind (unresolved_stays S h _) fun _ _ h => .pure h 0
  · exact .pure h _

theorem labelledValue_stays (h : P σ) {label : MiscLabel} : Update.Stays P σ (labelledValue label name) := by
  refine .tables_bind ?_
  cases label with
  | frame =>
    cases hname : σ.tables.frames.slotNamed? name with
    | some i => exact frameValue_stays S h hname
    | none => exact .bind (unresolved_stays S h _) fun _ _ h => .pure h _
  | thing =>
    cases hname : σ.tables.things.slotNamed? name with
    | some i => exact thingValue_stays S h hname
    | none => exact .bind (unresolved_stays S h _) fun _ _ h => .pure h _
  | sound =>
    cases hname : σ.tables.sounds.slotNamed? name with
    | some i => exact soundValue_stays S h hname
    | none => exact .bind (unresolved_stays S h _) fun _ _ h => soundValue_stays S h (S.indexed h).nullSound
  | flags word => exact .pure h _
  | codePointer =>
    cases CodePointer.find? name with
    | some position => exact .pure h _
    | none => exact .bind (unresolved_stays S h _) fun _ _ h => .pure h _
  | string => exact stringValue_stays S h

theorem bareValue_stays (h : P σ) : Update.Stays P σ (bareValue name) := by
  refine .tables_bind ?_
  split
  · next i hname => exact thingValue_stays S h hname
  split
  · next i hname => exact frameValue_stays S h hname
  split
  · next i hname => exact soundValue_stays S h hname
  split
  · exact stringValue_stays S h
  split
  · exact .pure h _
  · exact .bind (warn_stays S h nofun) fun _ _ h => .pure h 0

theorem miscValue_stays (h : P σ) : Update.Stays P σ (miscValue token) := by
  unfold miscValue
  split
  · exact .bind (warn_stays S h nofun) fun _ _ h => .pure h 0
  · split
    · exact labelledValue_stays S h
    · exact .bind (warn_stays S h nofun) fun _ _ h => .pure h 0
  · split
    · exact .pure h _
    · exact bareValue_stays S h

theorem spriteNamed_stays (h : P σ) : Update.Stays P σ (spriteNamed frame name) := by
  by_cases hblank : Text.same name Sprites.blankName = true
  · unfold spriteNamed
    rw [if_pos hblank]
    exact .pure h Sprites.blank
  · unfold Update.Stays
    rw [run_spriteNamed hblank]
    split
    · exact S.sprite h name
    · exact S.warn h _ nofun

theorem addFrame_stays (h : P σ) (hasked : asked name) (hbyName : ByName name)
    (hnew : σ.tables.frames.slotNamed? name = none) : Stays P σ (addFrame frame name) := by
  have hrun : (addFrame frame name).run.run σ = _ := run_addFrame frame name σ.tables σ.warnings
  unfold Stays
  rw [hrun]
  cases hdefine : σ.tables.frames.define (placeholder σ.tables name) with
  | error error =>
    obtain rfl := (S.indexed h).frames.define_eq_error (S.fits h) hdefine
    exact ⟨h, fun _ heq => Except.error.inj heq ▸ ⟨nofun, nofun, nofun⟩⟩
  | ok added => exact ⟨S.addFrame h hasked hbyName hnew hdefine, nofun⟩

theorem nextFrame_stays (h : P σ) {target : String} (hasked : asked target) :
    Stays P σ (nextFrame slot frame target) := by
  refine .tables_bind ?_
  split
  · split
    · exact .pure h _
    · exact .raise h ⟨nofun, nofun, nofun⟩
  · next hplain =>
    split
    · exact .pure h _
    · next hnew =>
      split
      · next hnumber =>
        refine addFrame_stays S h hasked ⟨fun hhead => ?_, hnumber⟩ hnew
        obtain ⟨special, hspecial⟩ := List.head?_eq_some_iff.mp hhead
        exact hplain special hspecial
      · split
        · exact .pure h _
        · exact .raise h ⟨nofun, nofun, nofun⟩

section Frame

variable (hslot : ∀ {σ}, P σ → slot < σ.tables.frames.size)
include hslot

theorem edit_stays (h : P σ) {g : Frame → Frame} (hg : ∀ f, Catalog.identity (g f) = Catalog.identity f) :
    Update.Stays P σ (edit slot g) :=
  S.edit h (hslot h) hg

theorem writeArguments_stays (h : P σ) {values : List String} {dropped : Nat} :
    Update.Stays P σ (writeArguments slot frame values dropped) := by
  refine .bind (edit_stays S hslot h fun _ => rfl) fun _ _ h => ?_
  simp only
  split
  · exact warn_stays S h nofun
  · exact .pure h ()

theorem writeSprite_stays (h : P σ) : Update.Stays P σ (writeSprite w slot frame s) := by
  unfold writeSprite
  split
  · exact .bind (spriteNamed_stays S h) fun _ _ h => edit_stays S hslot h fun _ => rfl
  · exact .pure h ()

theorem writeSpriteFrame_stays (h : P σ) : Stays P σ (writeSpriteFrame w slot frame s) := by
  unfold writeSpriteFrame
  split
  · refine .bind (.ofExcept h fun _ => ordinary_spriteFrameValue) fun _ _ h => ?_
    exact .lift (edit_stays S hslot h fun _ => rfl)
  · exact .pure h ()

theorem writeFullbright_stays (h : P σ) : Update.Stays P σ (writeFullbright slot s) := by
  unfold writeFullbright
  split
  · exact edit_stays S hslot h fun _ => rfl
  · exact .pure h ()

theorem writeTics_stays (h : P σ) : Update.Stays P σ (writeTics w slot s) := by
  unfold writeTics
  split
  · exact edit_stays S hslot h fun _ => rfl
  · exact .pure h ()

theorem writeAction_stays (h : P σ) : Stays P σ (writeAction w slot frame s) := by
  unfold writeAction
  split
  · refine .bind (.ofExcept h fun _ => ordinary_action) fun _ _ h => ?_
    exact .bind (.lift (edit_stays S hslot h fun _ => rfl)) fun _ _ h => .pure h _
  · exact .pure h none

theorem writeNext_stays (h : P σ)
    (hasked : w.writes s "nextframe" = true → asked ((s.text? "nextframe").getD Frame.nullName)) :
    Stays P σ (writeNext w slot frame s) := by
  unfold writeNext
  split
  · next hw =>
    exact .bind (nextFrame_stays S h (hasked hw)) fun _ _ h => .lift (edit_stays S hslot h fun _ => rfl)
  · exact .pure h ()

theorem writeMisc1_stays (h : P σ) : Update.Stays P σ (writeMisc1 w slot s) := by
  unfold writeMisc1
  split
  · exact .bind (miscValue_stays S h) fun _ _ h => edit_stays S hslot h fun _ => rfl
  · exact .pure h ()

theorem writeMisc2_stays (h : P σ) : Update.Stays P σ (writeMisc2 w slot s) := by
  unfold writeMisc2
  split
  · exact .bind (miscValue_stays S h) fun _ _ h => edit_stays S hslot h fun _ => rfl
  · exact .pure h ()

theorem writeParticleEvent_stays (h : P σ) : Stays P σ (writeParticleEvent w slot frame s) := by
  unfold writeParticleEvent
  split
  · refine .bind (.given h fun _ _ => .ofExcept h fun _ => ordinary_particleEvent) fun _ _ h => ?_
    exact .lift (edit_stays S hslot h fun _ => rfl)
  · exact .pure h ()

theorem writeMisc_stays (h : P σ) : Stays P σ (writeMisc w slot frame s) := by
  refine .bind (.lift (writeMisc1_stays S hslot h)) fun _ _ h => ?_
  refine .bind (.lift (writeMisc2_stays S hslot h)) fun _ _ h => ?_
  exact writeParticleEvent_stays S hslot h

theorem writeRest_stays (h : P σ) {inline : Option (List String)} : Stays P σ (writeRest w slot frame s inline) := by
  have hrest : ∀ {σ}, P σ → Stays P σ
      (do edit slot fun f => { f with flags := setFlags s f.flags }; writeMisc w slot frame s) := fun h =>
    .bind (.lift (edit_stays S hslot h fun _ => rfl)) fun _ _ h => writeMisc_stays S hslot h
  unfold writeRest
  split
  · exact .bind (.lift (writeArguments_stays S hslot h)) fun _ _ h => hrest h
  · exact hrest h

theorem writeFields_stays (h : P σ)
    (hasked : w.writes s "nextframe" = true → asked ((s.text? "nextframe").getD Frame.nullName)) :
    Stays P σ (writeFields w slot frame s) := by
  refine .bind (.lift (writeSprite_stays S hslot h)) fun _ _ h => ?_
  refine .bind (writeSpriteFrame_stays S hslot h) fun _ _ h => ?_
  refine .bind (.lift (edit_stays S hslot h identity_clearBlank)) fun _ _ h => ?_
  refine .bind (.lift (writeFullbright_stays S hslot h)) fun _ _ h => ?_
  refine .bind (.lift (writeTics_stays S hslot h)) fun _ _ h => ?_
  refine .bind (writeAction_stays S hslot h) fun _ _ h => ?_
  refine .bind (writeNext_stays S hslot h hasked) fun _ _ h => ?_
  exact writeRest_stays S hslot h

omit hslot in
theorem packedBody_stays (h : P σ) {p : PackedFrame} (hasked : ∀ target, p.nextframe = some target → asked target) :
    Stays P σ (packedBody slot frame p) := by
  refine .bind (.given h fun _ _ => .lift (spriteNamed_stays S h)) fun _ σ h => ?_
  refine .bind (.given h fun _ _ => .ofExcept h fun _ => ordinary_spriteFrame) fun _ σ h => ?_
  refine .bind (.given h fun _ _ => .ofExcept h fun _ => ordinary_action) fun _ σ h => ?_
  refine .tables_bind ?_
  refine .bind (.given h fun target htarget => nextFrame_stays S h (hasked target htarget)) fun _ σ h => ?_
  refine .bind (.given h fun _ _ => .ofExcept h fun _ => ordinary_particleEvent) fun _ σ h => ?_
  refine .bind (.given h fun _ _ => .lift (miscValue_stays S h)) fun _ σ h => ?_
  refine .bind (.given h fun _ _ => .lift (miscValue_stays S h)) fun _ σ h => ?_
  exact .pure h _

theorem writePacked_stays (h : P σ) {text : String}
    (hasked : ∀ target, (PackedFrame.parse text).nextframe = some target → asked target) :
    Stays P σ (writePacked slot frame text) := by
  refine .bind (packedBody_stays S h hasked) fun _ _ h => ?_
  refine .bind (.lift (edit_stays S hslot h fun _ => rfl)) fun _ _ h => ?_
  refine .bind (.lift (writeArguments_stays S hslot h)) fun _ _ h => ?_
  split
  · exact .lift (warn_stays S h nofun)
  · exact .pure h ()

theorem run_stays (h : P σ) {turn : Turn} (hasked : ∀ target, turn.successor? = some target → asked target) :
    Stays P σ (turn.run slot) := by
  obtain ⟨writing, s⟩ := turn
  cases writing with
  | delta =>
    refine .nameOf_bind (writeFields_stays S hslot h fun hwrites => hasked _ ?_)
    exact Turn.successor?_of_writes (Turn.packedText?_delta s) nofun hwrites
  | definition =>
    refine .nameOf_bind (.bind (.lift (edit_stays S hslot h fun _ => rfl)) fun _ σ h => ?_)
    split
    · exact writeMisc_stays S hslot h
    next hplain =>
    split
    · next text hcmp =>
      refine .bind (writePacked_stays S hslot h fun target htarget => hasked _ ?_)
        fun _ _ h => writeRest_stays S hslot h
      exact (Turn.successor?_of_packedText? ((Turn.packedText?_definition hplain).trans hcmp)).trans htarget
    · next hcmp =>
      refine writeFields_stays S hslot h fun hwrites => hasked _ ?_
      exact Turn.successor?_of_writes ((Turn.packedText?_definition hplain).trans hcmp) (fun _ => hplain) hwrites

end Frame

end Walk

end Load

namespace Stable

variable {asked : String → Prop} {slot : Nat}

theorem within (S : Stable asked P) (slot : Nat) : Stable asked fun σ => P σ ∧ slot < σ.tables.frames.size where
  indexed h := S.indexed h.1
  fits h := S.fits h.1
  warn h warning hwarning := ⟨S.warn h.1 warning hwarning, h.2⟩
  edit h _ hi _ hg := ⟨S.edit h.1 hi hg, Nat.lt_of_lt_of_eq h.2 (Store.size_modify _ _ _).symm⟩
  sprite h name := ⟨S.sprite h.1 name, h.2⟩
  frameId h _ i hname := ⟨S.frameId h.1 hname, Nat.lt_of_lt_of_eq h.2 (Catalog.size_claimId _ i).symm⟩
  thingId h _ _ hname := ⟨S.thingId h.1 hname, h.2⟩
  soundId h _ _ hname := ⟨S.soundId h.1 hname, h.2⟩
  addFrame {σ} h _ name _ _ hasked hbyName hnew hdefine := by
    refine ⟨S.addFrame h.1 hasked hbyName hnew hdefine, ?_⟩
    have hnew' : σ.tables.frames.slotNamed? (Record.name (Load.placeholder σ.tables name)) = none := hnew
    obtain ⟨hsize, -⟩ := Catalog.get?_of_define hnew' hdefine
    exact Nat.lt_of_lt_of_eq (Nat.lt_succ_of_lt h.2) hsize.symm

end Stable

namespace Load

variable {asked : String → Prop} {slot : Nat}

theorem turn_stays (S : Stable asked P) (h : P σ) (hslot : slot < σ.tables.frames.size) {turn : Turn}
    (hasked : ∀ target, turn.successor? = some target → asked target) : Stays P σ (turn.run slot) := by
  obtain ⟨hstays, herror⟩ := run_stays (S.within slot) (fun h => h.2) ⟨h, hslot⟩ hasked
  exact ⟨hstays.1, herror⟩

theorem defineAll_stays (S : Stable asked P) (h : P σ) {sections : List Section}
    (hasked : ∀ s ∈ sections, ∀ target, (Turn.mk .definition s).successor? = some target → asked target) :
    Stays P σ (defineAll sections) := by
  induction sections generalizing σ with
  | nil => exact .pure h ()
  | cons s sections ih =>
    obtain ⟨hfirst, hrest⟩ := List.forall_mem_cons.mp hasked
    refine .tables_bind ?_
    split
    · next slot hslot =>
      have hturn := turn_stays S h ((S.indexed h).frames.lt_of_slotNamed? hslot) hfirst
      exact .bind hturn fun _ _ h => ih h hrest
    · exact ih h hrest

theorem amendAll_stays (S : Stable asked P) (h : P σ) {deltas : List Section} (position : Nat)
    (hasked : ∀ s ∈ deltas, ∀ target, (Turn.mk .delta s).successor? = some target → asked target) :
    Stays P σ (amendAll position deltas) := by
  induction deltas generalizing σ position with
  | nil => exact .pure h ()
  | cons s deltas ih =>
    obtain ⟨hfirst, hrest⟩ := List.forall_mem_cons.mp hasked
    rw [amendAll]
    split
    · have hordinary : (LoadError.deltaWithoutName position).Ordinary := by
        refine ⟨fun _ heq => ?_, fun _ heq => ?_, fun heq => ?_⟩ <;> cases heq
      exact .raise_bind h hordinary
    · next name _ =>
      refine .tables_bind ?_
      split
      · have hordinary : (LoadError.unknownDeltaTarget name).Ordinary := by
          refine ⟨fun _ heq => ?_, fun _ heq => ?_, fun heq => ?_⟩ <;> cases heq
        exact .raise_bind h hordinary
      · next slot hslot =>
        have hturn := turn_stays S h ((S.indexed h).frames.lt_of_slotNamed? hslot) hfirst
        exact .bind hturn fun _ _ h => ih h _ hrest

def Asked (b : Batch) (name : String) : Prop :=
  ∃ turn ∈ b.turns, turn.successor? = some name

theorem fill_stays {b : Batch} (S : Stable (Asked b) P) (h : P σ) : Stays P σ (fill b) := by
  refine .bind (defineAll_stays S h fun s hs target htarget => ?_)
    fun _ _ h => amendAll_stays S h 0 fun s hs target htarget => ?_
  · exact ⟨_, List.mem_append_left _ (List.mem_map_of_mem hs), htarget⟩
  · exact ⟨_, List.mem_append_right _ (List.mem_map_of_mem hs), htarget⟩

end Load

end FrameTable
