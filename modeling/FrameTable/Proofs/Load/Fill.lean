import FrameTable.Load.Batch
import FrameTable.Proofs.Load.Reference

namespace FrameTable

def Batch.frameTitles (b : Batch) : List String :=
  b.frames.map (·.title) ++ b.deltas.filterMap (·.text? "name")

namespace Load

open Tables (Amends)

variable {α : Type} {titles : List String} {t : Tables} {slot : Nat} {frame : String} {s : Section} {w : Writing}

theorem edit_follows (h : t.Writable titles slot) {g : Frame → Frame} (hg : t.Edits g) :
    Update.Follows (Amends titles) t (edit slot g) fun _ _ => True :=
  .edit (h.amends_edit hg) trivial

theorem given_follows {R : Tables → Tables → Prop} [Std.Refl R] {text : Option String} {default : α}
    {value : String → Load α} {Q : α → Tables → Prop} (hnone : Q default t)
    (hsome : ∀ given, Follows R t (value given) Q) : Follows R t (given text default value) Q := by
  cases text with
  | some given => exact hsome given
  | none => exact .pure hnone

theorem given_ofExcept_bind {β : Type} {R : Tables → Tables → Prop} [Std.Refl R] {text : Option String}
    {default : β} {result : String → Except LoadError β} {f : β → Load α} {P : β → Prop}
    {Q : α → Tables → Prop} (hnone : P default) (hsome : ∀ given b, result given = .ok b → P b)
    (h : ∀ b, P b → Follows R t (f b) Q) :
    Follows R t (given text default (fun given => liftM (result given)) >>= f) Q := by
  cases text with
  | some given => exact .ofExcept_bind fun b hb => h b (hsome given b hb)
  | none => exact h default hnone

theorem writeArguments_follows (h : t.Writable titles slot) {values : List String} {dropped : Nat} :
    Update.Follows (Amends titles) t (writeArguments slot frame values dropped) fun _ _ => True := by
  refine .bind (edit_follows h (Tables.edits_of_eq fun _ => ⟨rfl, rfl, rfl⟩)) fun _ _ _ _ => ?_
  simp only
  split
  · exact .warn trivial
  · exact .pure trivial

theorem writeSprite_follows (h : t.Writable titles slot) :
    Update.Follows (Amends titles) t (writeSprite w slot frame s) fun _ _ => True := by
  unfold writeSprite
  split
  · refine .bind (spriteNamed_follows h.toReady) fun sprite t' hR hsprite => ?_
    exact edit_follows (hR.writable h) fun f => ⟨rfl, rfl, fun hf => ⟨hf.1, hsprite, hf.3⟩⟩
  · exact .pure trivial

theorem writeSpriteFrame_follows (h : t.Writable titles slot) :
    Follows (Amends titles) t (writeSpriteFrame w slot frame s) fun _ _ => True := by
  unfold writeSpriteFrame
  split
  · refine .ofExcept_bind fun number _ => .lift ?_
    exact edit_follows h (Tables.edits_of_eq fun _ => ⟨rfl, rfl, rfl⟩)
  · exact .pure trivial

theorem writeFullbright_follows (h : t.Writable titles slot) :
    Update.Follows (Amends titles) t (writeFullbright slot s) fun _ _ => True := by
  unfold writeFullbright
  split
  · exact edit_follows h (Tables.edits_of_eq fun _ => ⟨rfl, rfl, rfl⟩)
  · exact .pure trivial

theorem writeTics_follows (h : t.Writable titles slot) :
    Update.Follows (Amends titles) t (writeTics w slot s) fun _ _ => True := by
  unfold writeTics
  split
  · exact edit_follows h (Tables.edits_of_eq fun _ => ⟨rfl, rfl, rfl⟩)
  · exact .pure trivial

theorem writeAction_follows (h : t.Writable titles slot) :
    Follows (Amends titles) t (writeAction w slot frame s) fun _ _ => True := by
  unfold writeAction
  split
  · refine .ofExcept_bind fun action haction => ?_
    refine .bind (.lift (edit_follows h fun f => ⟨rfl, rfl, ?_⟩)) fun _ _ _ _ => .pure trivial
    exact fun hf => ⟨hf.1, hf.2, fun hposition => actionOf_eq_ok haction hposition⟩
  · exact .pure trivial

theorem writeNext_follows (h : t.Writable titles slot) :
    Follows (Amends titles) t (writeNext w slot frame s) fun _ _ => True := by
  unfold writeNext
  split
  · refine .bind (nextFrame_follows h.toReady h.named.lt_size) fun next t' hR hnext => .lift ?_
    exact edit_follows (hR.writable h) fun f => ⟨rfl, rfl, fun hf => ⟨hnext, hf.2, hf.3⟩⟩
  · exact .pure trivial

theorem writeMisc1_follows (h : t.Writable titles slot) :
    Update.Follows (Amends titles) t (writeMisc1 w slot s) fun _ _ => True := by
  unfold writeMisc1
  split
  · refine .bind (miscValue_follows h.toReady) fun misc t' hR _ => ?_
    exact edit_follows (hR.writable h) (Tables.edits_of_eq fun _ => ⟨rfl, rfl, rfl⟩)
  · exact .pure trivial

theorem writeMisc2_follows (h : t.Writable titles slot) :
    Update.Follows (Amends titles) t (writeMisc2 w slot s) fun _ _ => True := by
  unfold writeMisc2
  split
  · refine .bind (miscValue_follows h.toReady) fun misc t' hR _ => ?_
    exact edit_follows (hR.writable h) (Tables.edits_of_eq fun _ => ⟨rfl, rfl, rfl⟩)
  · exact .pure trivial

theorem writeParticleEvent_follows (h : t.Writable titles slot) :
    Follows (Amends titles) t (writeParticleEvent w slot frame s) fun _ _ => True := by
  unfold writeParticleEvent
  split
  · refine given_ofExcept_bind (P := fun _ => True) trivial (fun _ _ _ => trivial) fun event _ => .lift ?_
    exact edit_follows h (Tables.edits_of_eq fun _ => ⟨rfl, rfl, rfl⟩)
  · exact .pure trivial

theorem Follows.andThen {β : Type} {x : Load α} {f : α → Load β} {Q : β → Tables → Prop}
    (h : t.Writable titles slot) (hx : Follows (Amends titles) t x fun _ _ => True)
    (hf : ∀ a t', t'.Writable titles slot → Follows (Amends titles) t' (f a) Q) :
    Follows (Amends titles) t (x >>= f) Q :=
  .bind hx fun a t' hR _ => hf a t' (hR.writable h)

theorem writeMisc_follows (h : t.Writable titles slot) :
    Follows (Amends titles) t (writeMisc w slot frame s) fun _ _ => True := by
  refine .andThen h (.lift (writeMisc1_follows h)) fun _ _ h => ?_
  refine .andThen h (.lift (writeMisc2_follows h)) fun _ _ h => ?_
  exact writeParticleEvent_follows h

theorem writeRest_follows (h : t.Writable titles slot) {inline : Option (List String)} :
    Follows (Amends titles) t (writeRest w slot frame s inline) fun _ _ => True := by
  have hrest : ∀ {t : Tables}, t.Writable titles slot → Follows (Amends titles) t
      (do edit slot fun f => { f with flags := setFlags s f.flags }; writeMisc w slot frame s)
      fun _ _ => True := by
    intro t h
    refine .andThen h (.lift (edit_follows h (Tables.edits_of_eq fun _ => ⟨rfl, rfl, rfl⟩))) ?_
    exact fun _ _ h => writeMisc_follows h
  unfold writeRest
  split
  · exact .andThen h (.lift (writeArguments_follows h)) fun _ _ h => hrest h
  · exact hrest h

theorem edits_clearBlank : t.Edits Frame.clearBlank := by
  refine Tables.edits_of_eq fun f => ?_
  unfold Frame.clearBlank
  split <;> exact ⟨rfl, rfl, rfl⟩

theorem writeFields_follows (h : t.Writable titles slot) :
    Follows (Amends titles) t (writeFields w slot frame s) fun _ _ => True := by
  refine .andThen h (.lift (writeSprite_follows h)) fun _ _ h => ?_
  refine .andThen h (writeSpriteFrame_follows h) fun _ _ h => ?_
  refine .andThen h (.lift (edit_follows h edits_clearBlank)) fun _ _ h => ?_
  refine .andThen h (.lift (writeFullbright_follows h)) fun _ _ h => ?_
  refine .andThen h (.lift (writeTics_follows h)) fun _ _ h => ?_
  refine .andThen h (writeAction_follows h) fun inline _ h => ?_
  refine .andThen h (writeNext_follows h) fun _ _ h => ?_
  exact writeRest_follows h

structure BodyRefers (t : Tables) (body : FrameBody) : Prop where
  next_lt : body.next < t.frames.size
  sprite_lt : body.sprite < t.sprites.names.size
  action : ∀ {position}, body.action = some position →
    position < CodePointer.mnemonics.length ∧ position ≠ CodePointer.null

theorem packedBody_follows (h : t.Writable titles slot) {p : PackedFrame} :
    Follows (Amends titles) t (packedBody slot frame p) fun body t' => BodyRefers t' body := by
  refine .bind (given_follows h.sprites.blank_lt fun _ => .lift (spriteNamed_follows h.toReady)) ?_
  intro sprite t₁ hR₁ hsprite
  have h₁ := hR₁.writable h
  refine given_ofExcept_bind (P := fun _ => True) trivial (fun _ _ _ => trivial) fun number _ => ?_
  refine given_ofExcept_bind (P := fun action : Option Nat => ∀ {position}, action = some position →
    position < CodePointer.mnemonics.length ∧ position ≠ CodePointer.null) nofun
    (fun _ _ haction => actionOf_eq_ok haction) fun action haction => .tables_bind ?_
  refine .bind (given_follows h₁.nullFrame_lt fun _ => nextFrame_follows h₁.toReady h₁.named.lt_size) ?_
  intro next t₂ hR₂ hnext
  have h₂ := hR₂.ready h₁.toReady
  refine given_ofExcept_bind (P := fun _ => True) trivial (fun _ _ _ => trivial) fun event _ => ?_
  refine .bind (given_follows (Q := fun _ _ => True) trivial fun _ => .lift (miscValue_follows h₂)) ?_
  intro misc1 t₃ hR₃ _
  have h₃ := hR₃.ready h₂
  refine .bind (given_follows (Q := fun _ _ => True) trivial fun _ => .lift (miscValue_follows h₃)) ?_
  intro misc2 t₄ hR₄ _
  have hframes : t₂.frames.size ≤ t₄.frames.size := Nat.le_trans hR₃.frames_le hR₄.frames_le
  have hsprites : t₁.sprites.names.size ≤ t₄.sprites.names.size :=
    Nat.le_trans hR₂.sprites_le (Nat.le_trans hR₃.sprites_le hR₄.sprites_le)
  exact .pure ⟨Nat.lt_of_lt_of_le hnext hframes, Nat.lt_of_lt_of_le hsprite hsprites, haction⟩

theorem writePacked_follows (h : t.Writable titles slot) {text : String} :
    Follows (Amends titles) t (writePacked slot frame text) fun _ _ => True := by
  refine .bind (packedBody_follows h) fun body t' hR hbody => ?_
  replace h := hR.writable h
  refine .andThen h (.lift (edit_follows h fun f => ⟨rfl, rfl, fun _ => ?_⟩)) fun _ _ h => ?_
  · exact ⟨hbody.next_lt, hbody.sprite_lt, hbody.action⟩
  refine .andThen h (.lift (writeArguments_follows h)) fun _ _ h => ?_
  split
  · exact .lift (.warn trivial)
  · exact .pure trivial

theorem define_follows (h : t.Writable titles slot) :
    Follows (Amends titles) t (define slot s) fun _ _ => True := by
  refine .nameOf_bind fun frame => ?_
  refine .andThen h (.lift (edit_follows h (Tables.edits_of_eq fun _ => ⟨rfl, rfl, rfl⟩))) fun _ _ h => ?_
  split
  · exact writeMisc_follows h
  split
  · exact .andThen h (writePacked_follows h) fun _ _ h => writeRest_follows h
  · exact writeFields_follows h

theorem amend_follows (h : t.Writable titles slot) :
    Follows (Amends titles) t (amend slot s) fun _ _ => True :=
  .nameOf_bind fun _ => writeFields_follows h

theorem defineAll_follows (h : t.Ready) {sections : List Section} (hsub : ∀ s ∈ sections, s.title ∈ titles) :
    Follows (Amends titles) t (defineAll sections) fun _ _ => True := by
  induction sections generalizing t with
  | nil => exact .pure trivial
  | cons s sections ih =>
    have htail : ∀ s ∈ sections, s.title ∈ titles := fun s hs => hsub s (List.mem_cons_of_mem _ hs)
    refine .tables_bind ?_
    split
    · next slot hname =>
      have hwritable := h.writable hname (hsub s List.mem_cons_self)
      exact .bind (define_follows hwritable) fun _ _ hR _ => ih (hR.ready h) htail
    · exact ih h htail

theorem amendAll_follows (h : t.Ready) {deltas : List Section} {position : Nat}
    (hsub : ∀ s ∈ deltas, ∀ name, s.text? "name" = some name → name ∈ titles) :
    Follows (Amends titles) t (amendAll position deltas) fun _ _ => True := by
  induction deltas generalizing t position with
  | nil => exact .pure trivial
  | cons s deltas ih =>
    have htail : ∀ s ∈ deltas, ∀ name, s.text? "name" = some name → name ∈ titles :=
      fun s hs => hsub s (List.mem_cons_of_mem _ hs)
    rw [amendAll]
    split
    · exact .raise_bind
    · next name hname =>
      refine .tables_bind ?_
      split
      · exact .raise_bind
      · next slot hslot =>
        have hwritable := h.writable hslot (hsub s List.mem_cons_self name hname)
        exact .bind (amend_follows hwritable) fun _ _ hR _ => ih (hR.ready h) htail

theorem fill_follows (h : t.Ready) (b : Batch) :
    Follows (Amends b.frameTitles) t (fill b) fun _ _ => True := by
  refine .bind (defineAll_follows h fun s hs => ?_) fun _ t' hR _ => amendAll_follows (hR.ready h) ?_
  · exact List.mem_append_left _ (List.mem_map_of_mem hs)
  · intro s hs name hname
    exact List.mem_append_right _ (List.mem_filterMap.mpr ⟨s, hs, hname⟩)

end Load

end FrameTable
