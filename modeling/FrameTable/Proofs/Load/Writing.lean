import FrameTable.Load.Frame
import FrameTable.Proofs.Load.Resolving

namespace FrameTable

structure ResolvedMisc where
  misc1 : Int
  misc2 : Int
  particleEvent : ParticleEvent

structure Resolved extends ResolvedMisc where
  sprite : Nat
  number : Int
  action : Option Nat
  next : Nat

def Section.WritesMisc (s : Section) (w : Writing) (token : String) : Prop :=
  ∃ key ∈ ["misc1", "misc2"], w.writes s key = true ∧ (s.text? key).getD "" = token

def Section.inlineArguments (s : Section) (w : Writing) : Option (List String) :=
  if w.writes s "action" then (Packed.Call.parse ((s.text? "action").getD "NULL")).args else none

namespace Contents

variable (w : Writing) (s : Section)

def afterArguments (c : Contents) (values : List String) : Contents :=
  { c with args := some ((c.args.getD .empty).replace values) }

def afterMisc (m : ResolvedMisc) (c : Contents) : Contents :=
  { c with
    misc1 := if w.writes s "misc1" then m.misc1 else c.misc1
    misc2 := if w.writes s "misc2" then m.misc2 else c.misc2
    particleEvent := if w.writes s "particle_event" then m.particleEvent else c.particleEvent }

def afterRest (inline : Option (List String)) (m : ResolvedMisc) (c : Contents) : Contents :=
  let c :=
    match Load.writtenArguments w s inline with
    | some values => c.afterArguments (values.map Text.dropLabel)
    | none => c
  { c with flags := Load.setFlags s c.flags }.afterMisc w s m

def imageAfter (sprite : Nat) (number : Int) (image : Image) : Image :=
  let image := if w.writes s "spriteframe" then .ofInt number else image
  let image := if sprite = Sprites.blank then .ofInt 0 else image
  if s.bool? "fullbright" = some true then image.brighten else image

def afterFields (r : Resolved) (c : Contents) : Contents :=
  let sprite := if w.writes s "sprite" then r.sprite else c.sprite
  { c with
    sprite
    image := imageAfter w s sprite r.number c.image
    tics := if w.writes s "tics" then (s.number? "tics").getD 1 else c.tics
    action := if w.writes s "action" then r.action else c.action
    next := if w.writes s "nextframe" then r.next else c.next }.afterRest w s (s.inlineArguments w) r.toResolvedMisc

end Contents

namespace Load

open Tables (Resolves)

variable {tokens : String → Prop} {t : Tables} {slot : Nat} {frame : String} {w : Writing} {s : Section}

theorem writeSprite_acts : Update.Acts slot (Resolves tokens) t (writeSprite w slot frame s) fun _ act _ =>
    ∃ sprite, act = fun c => { c with sprite := if w.writes s "sprite" then sprite else c.sprite } := by
  unfold writeSprite
  split
  · exact .bind_edit (fun sprite c => { c with sprite }) (fun _ _ _ => rfl) spriteNamed_acts
  · exact .pure ⟨0, rfl⟩

theorem writeSpriteFrame_acts : Acts slot (Resolves tokens) t (writeSpriteFrame w slot frame s) fun _ act _ =>
    ∃ number, (w.writes s "spriteframe" = true → spriteFrameValue frame (s.value? "spriteframe") = .ok number) ∧
      act = fun c => { c with image := if w.writes s "spriteframe" then .ofInt number else c.image } := by
  unfold writeSpriteFrame
  split
  · refine .ofExcept_bind fun number hnumber => .lift ?_
    exact .edit (fun c => { c with image := .ofInt number }) (fun _ _ => rfl)
      ⟨number, fun _ => hnumber, rfl⟩
  · next hw => exact .pure ⟨0, fun h => absurd h hw, rfl⟩

theorem writes_clearBlank : Update.Writes slot (edit slot Frame.clearBlank)
    (fun c => { c with image := if c.sprite = Sprites.blank then .ofInt 0 else c.image }) [] := by
  refine writes_edit _ fun f c => ?_
  unfold Frame.clearBlank
  split
  · next hblank =>
    rw [if_pos (show c.sprite = Sprites.blank from hblank)]
    rfl
  · next hblank =>
    rw [if_neg (show ¬c.sprite = Sprites.blank from hblank)]

theorem clearBlank_acts : Update.Acts slot (Resolves tokens) t (edit slot Frame.clearBlank) fun _ act _ =>
    act = fun c => { c with image := if c.sprite = Sprites.blank then .ofInt 0 else c.image } :=
  .of_writes writes_clearBlank rfl

theorem writes_writeFullbright : Update.Writes slot (writeFullbright slot s)
    (fun c => { c with image := if s.bool? "fullbright" = some true then c.image.brighten else c.image }) [] := by
  unfold writeFullbright
  split
  · exact writes_edit _ fun _ _ => rfl
  · intro t c warnings
    rw [Array.append_empty]
    rfl

theorem writeFullbright_acts : Update.Acts slot (Resolves tokens) t (writeFullbright slot s) fun _ act _ =>
    act = fun c => { c with image := if s.bool? "fullbright" = some true then c.image.brighten else c.image } :=
  .of_writes writes_writeFullbright rfl

theorem writeTics_acts : Update.Acts slot (Resolves tokens) t (writeTics w slot s) fun _ act _ =>
    act = fun c => { c with tics := if w.writes s "tics" then (s.number? "tics").getD 1 else c.tics } := by
  unfold writeTics
  split
  · exact .edit _ (fun _ _ => rfl) rfl
  · exact .pure rfl

theorem writeAction_acts : Acts slot (Resolves tokens) t (writeAction w slot frame s) fun inline act _ =>
    inline = s.inlineArguments w ∧
      ∃ action, act = fun c => { c with action := if w.writes s "action" then action else c.action } := by
  unfold writeAction Section.inlineArguments
  split
  · refine .ofExcept_bind fun action _ => ?_
    exact .edit_bind (fun c => { c with action }) (fun _ _ => rfl) (.pure ⟨rfl, action, rfl⟩)
  · exact .pure ⟨rfl, none, rfl⟩

theorem writeNext_acts (hslot : slot < t.frames.size) :
    Acts slot (Resolves tokens) t (writeNext w slot frame s) fun _ act _ =>
      ∃ next, act = fun c => { c with next := if w.writes s "nextframe" then next else c.next } := by
  unfold writeNext
  split
  · exact .bind_edit (fun next c => { c with next }) (fun _ _ _ => rfl) (nextFrame_acts hslot)
  · exact .pure ⟨0, rfl⟩

theorem writeMisc1_acts (htokens : ∀ token, s.WritesMisc w token → tokens token) :
    Update.Acts slot (Resolves tokens) t (writeMisc1 w slot s) fun _ act _ =>
      ∃ misc1, act = fun c => { c with misc1 := if w.writes s "misc1" then misc1 else c.misc1 } := by
  unfold writeMisc1
  split
  · next hw =>
    have htoken : tokens ((s.text? "misc1").getD "") := htokens _ ⟨"misc1", by decide, hw, rfl⟩
    exact .bind_edit (fun misc1 c => { c with misc1 }) (fun _ _ _ => rfl) (miscValue_acts htoken)
  · exact .pure ⟨0, rfl⟩

theorem writeMisc2_acts (htokens : ∀ token, s.WritesMisc w token → tokens token) :
    Update.Acts slot (Resolves tokens) t (writeMisc2 w slot s) fun _ act _ =>
      ∃ misc2, act = fun c => { c with misc2 := if w.writes s "misc2" then misc2 else c.misc2 } := by
  unfold writeMisc2
  split
  · next hw =>
    have htoken : tokens ((s.text? "misc2").getD "") := htokens _ ⟨"misc2", by decide, hw, rfl⟩
    exact .bind_edit (fun misc2 c => { c with misc2 }) (fun _ _ _ => rfl) (miscValue_acts htoken)
  · exact .pure ⟨0, rfl⟩

theorem given_acts {α : Type} {R : Tables → Tables → Prop} [Std.Refl R] {text : Option String} {default : α}
    {value : String → Load α} (h : ∀ given, Acts slot R t (value given) fun _ act _ => act = id) :
    Acts slot R t (given text default value) fun _ act _ => act = id := by
  cases text with
  | some given => exact h given
  | none => exact .pure rfl

theorem ofExcept_acts {α : Type} {R : Tables → Tables → Prop} [Std.Refl R] {result : Except LoadError α} :
    Acts slot R t (liftM result) fun _ act _ => act = id := by
  cases result with
  | ok a => exact .pure rfl
  | error error => exact .raise

theorem writeParticleEvent_acts : Acts slot (Resolves tokens) t (writeParticleEvent w slot frame s) fun _ act _ =>
    ∃ event, act = fun c =>
      { c with particleEvent := if w.writes s "particle_event" then event else c.particleEvent } := by
  unfold writeParticleEvent
  split
  · exact .bind_edit (fun particleEvent c => { c with particleEvent }) (fun _ _ _ => rfl)
      (given_acts fun _ => ofExcept_acts)
  · exact .pure ⟨.none, rfl⟩

theorem writeMisc_acts (htokens : ∀ token, s.WritesMisc w token → tokens token) :
    Acts slot (Resolves tokens) t (writeMisc w slot frame s) fun _ act _ => ∃ m, act = Contents.afterMisc w s m := by
  refine .bind (.lift (writeMisc1_acts htokens)) fun _ _ t₁ _ ⟨misc1, h₁⟩ => ?_
  refine .bind (.lift (writeMisc2_acts htokens)) fun _ _ t₂ _ ⟨misc2, h₂⟩ => ?_
  refine writeParticleEvent_acts.mono fun _ _ _ ⟨particleEvent, h₃⟩ => ⟨{ misc1, misc2, particleEvent }, ?_⟩
  rw [h₁, h₂, h₃]
  rfl

theorem writes_writeArguments {values : List String} {dropped : Nat} :
    Update.Writes slot (writeArguments slot frame values dropped) (fun c => c.afterArguments values)
      (let dropped := dropped + ArgumentList.overflow values
      if 0 < dropped then [.droppedArguments frame dropped] else []) := by
  intro t c warnings
  have hedit : (edit slot fun f => { f with args := some ((f.args.getD .empty).replace values) }).run
      ⟨t.withContents slot c, warnings⟩ = _ := writes_edit (fun c => c.afterArguments values) (fun _ _ => rfl) t c warnings
  simp only [writeArguments, StateT.run_bind, hedit, Array.append_empty]
  split
  · rw [← Array.push_eq_append]
    rfl
  · rw [Array.append_empty]
    rfl

theorem writeArguments_acts {values : List String} {dropped : Nat} :
    Update.Acts slot (Resolves tokens) t (writeArguments slot frame values dropped) fun _ act _ =>
      act = fun c => c.afterArguments values :=
  .of_writes writes_writeArguments rfl

theorem writeRest_acts (htokens : ∀ token, s.WritesMisc w token → tokens token) {inline : Option (List String)} :
    Acts slot (Resolves tokens) t (writeRest w slot frame s inline) fun _ act _ =>
      ∃ m, act = Contents.afterRest w s inline m := by
  -- With arguments or without, the flags and the misc fields come last.
  have hflags : ∀ {t : Tables}, Acts slot (Resolves tokens) t
      (do edit slot fun f => { f with flags := setFlags s f.flags }; writeMisc w slot frame s)
      fun _ act _ => ∃ m, act = fun c => { c with flags := setFlags s c.flags }.afterMisc w s m := by
    intro t
    refine .edit_bind (fun c => { c with flags := setFlags s c.flags }) (fun _ _ => rfl) ?_
    exact (writeMisc_acts htokens).mono fun _ _ _ ⟨m, hm⟩ => ⟨m, by rw [hm]; rfl⟩
  unfold writeRest
  cases hwritten : writtenArguments w s inline with
  | some values =>
    refine .bind (.lift writeArguments_acts) fun _ _ _ _ hargs => ?_
    refine hflags.mono fun _ _ _ ⟨m, hm⟩ => ⟨m, ?_⟩
    rw [hm, hargs]
    funext c
    simp only [Contents.afterRest, hwritten]
    rfl
  | none =>
    refine hflags.mono fun _ _ _ ⟨m, hm⟩ => ⟨m, ?_⟩
    rw [hm]
    funext c
    simp only [Contents.afterRest, hwritten]

theorem writeFields_acts (hslot : slot < t.frames.size) (htokens : ∀ token, s.WritesMisc w token → tokens token) :
    Acts slot (Resolves tokens) t (writeFields w slot frame s) fun _ act _ =>
      ∃ r : Resolved, (w.writes s "spriteframe" = true →
        spriteFrameValue frame (s.value? "spriteframe") = .ok r.number) ∧ act = Contents.afterFields w s r := by
  refine .bind (.lift writeSprite_acts) fun _ _ t₁ hR₁ ⟨sprite, h₁⟩ => ?_
  refine .bind writeSpriteFrame_acts fun _ _ t₂ hR₂ ⟨number, hnumber, h₂⟩ => ?_
  refine .bind (.lift clearBlank_acts) fun _ _ t₃ hR₃ h₃ => ?_
  refine .bind (.lift writeFullbright_acts) fun _ _ t₄ hR₄ h₄ => ?_
  refine .bind (.lift writeTics_acts) fun _ _ t₅ hR₅ h₅ => ?_
  refine .bind writeAction_acts fun inline _ t₆ hR₆ ⟨hinline, action, h₆⟩ => ?_
  have hslot' : slot < t₆.frames.size :=
    hR₆.lt_size (hR₅.lt_size (hR₄.lt_size (hR₃.lt_size (hR₂.lt_size (hR₁.lt_size hslot)))))
  refine .bind (writeNext_acts hslot') fun _ _ t₇ hR₇ ⟨next, h₇⟩ => ?_
  refine (writeRest_acts htokens).mono fun _ _ _ ⟨m, h₈⟩ => ?_
  refine ⟨{ m with sprite, number, action, next }, hnumber, ?_⟩
  rw [h₁, h₂, h₃, h₄, h₅, h₆, h₇, h₈, hinline]
  rfl

end Load

end FrameTable
