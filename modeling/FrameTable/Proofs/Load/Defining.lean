import FrameTable.Proofs.Load.Writing

namespace FrameTable

namespace ArgumentList

theorem texts_replace (l : ArgumentList) (texts : List String) :
    (l.replace texts).texts = texts.take maxArguments := by
  rw [ArgumentList.texts, replace, List.map_map]
  exact List.map_id _

end ArgumentList

namespace Contents

variable {w : Writing} {s : Section} {inline : Option (List String)} {m : ResolvedMisc} {act : Contents → Contents}

theorem toFrameBody_afterRest (c : Contents) : (c.afterRest w s inline m).toFrameBody =
    { c.toFrameBody with
      misc1 := if w.writes s "misc1" then m.misc1 else c.misc1
      misc2 := if w.writes s "misc2" then m.misc2 else c.misc2
      particleEvent := if w.writes s "particle_event" then m.particleEvent else c.particleEvent } := by
  unfold afterRest
  cases Load.writtenArguments w s inline <;> rfl

theorem flags_afterRest (c : Contents) : (c.afterRest w s inline m).flags = Load.setFlags s c.flags := by
  unfold afterRest
  cases Load.writtenArguments w s inline <;> rfl

theorem args_afterRest (c : Contents) : (c.afterRest w s inline m).args =
    match Load.writtenArguments w s inline with
    | some values => some ((c.args.getD .empty).replace (values.map Text.dropLabel))
    | none => c.args := by
  unfold afterRest
  cases Load.writtenArguments w s inline <;> rfl

structure Forgets (act : Contents → Contents) : Prop where
  body : ∀ c c', (act c).toFrameBody = (act c').toFrameBody
  texts : ∀ c c', (act c).args.map (·.texts) = (act c').args.map (·.texts)

theorem Forgets.comp (h : Forgets act) (f : Contents → Contents) : Forgets (act ∘ f) where
  body c c' := h.body (f c) (f c')
  texts c c' := h.texts (f c) (f c')

theorem Forgets.afterRest (h : Forgets act) : Forgets (Contents.afterRest w s inline m ∘ act) where
  body c c' := by
    simp only [Function.comp, toFrameBody_afterRest, h.body c c']
  texts c c' := by
    simp only [Function.comp, args_afterRest]
    cases Load.writtenArguments w s inline with
    | some values => simp only [Option.map_some, ArgumentList.texts_replace]
    | none => exact h.texts c c'

theorem toFrameBody_afterFields {r : Resolved} (c : Contents) : (c.afterFields w s r).toFrameBody =
    let sprite := if w.writes s "sprite" then r.sprite else c.sprite
    { sprite
      image := imageAfter w s sprite r.number c.image
      tics := if w.writes s "tics" then (s.number? "tics").getD 1 else c.tics
      action := if w.writes s "action" then r.action else c.action
      next := if w.writes s "nextframe" then r.next else c.next
      misc1 := if w.writes s "misc1" then r.misc1 else c.misc1
      misc2 := if w.writes s "misc2" then r.misc2 else c.misc2
      particleEvent := if w.writes s "particle_event" then r.particleEvent else c.particleEvent } :=
  toFrameBody_afterRest _

theorem flags_afterFields {r : Resolved} (c : Contents) : (c.afterFields w s r).flags = Load.setFlags s c.flags :=
  flags_afterRest _

theorem args_afterFields {r : Resolved} (c : Contents) : (c.afterFields w s r).args =
    match Load.writtenArguments w s (s.inlineArguments w) with
    | some values => some ((c.args.getD .empty).replace (values.map Text.dropLabel))
    | none => c.args :=
  args_afterRest _

theorem forgets_afterFields {r : Resolved} : Forgets (afterFields .definition s r) where
  body c c' := by
    simp only [afterFields, toFrameBody_afterRest]
    rfl
  texts c c' := by
    simp only [afterFields, args_afterRest, Load.writtenArguments, Option.map_some, ArgumentList.texts_replace]

end Contents

namespace Load

open Tables (Resolves)

variable {tokens : String → Prop} {t : Tables} {slot : Nat} {frame : String} {s : Section}

theorem packedBody_acts (hslot : slot < t.frames.size) (htokens : ∀ token, tokens token) {p : PackedFrame} :
    Acts slot (Resolves tokens) t (packedBody slot frame p) fun _ act _ => act = id := by
  refine .bind (given_acts fun _ => .lift spriteNamed_acts) fun sprite _ t₁ hR₁ h₁ => ?_
  refine .bind (given_acts fun _ => ofExcept_acts) fun number _ t₂ hR₂ h₂ => ?_
  refine .bind (given_acts fun _ => ofExcept_acts) fun action _ t₃ hR₃ h₃ => ?_
  have hslot' : slot < t₃.frames.size := hR₃.lt_size (hR₂.lt_size (hR₁.lt_size hslot))
  refine .tables_bind (fun c => rfl) ?_
  refine .bind (given_acts fun _ => nextFrame_acts hslot') fun next _ t₄ _ h₄ => ?_
  refine .bind (given_acts fun _ => ofExcept_acts) fun particleEvent _ t₅ _ h₅ => ?_
  refine .bind (given_acts fun _ => .lift (miscValue_acts (htokens _))) fun misc1 _ t₆ _ h₆ => ?_
  refine .bind (given_acts fun _ => .lift (miscValue_acts (htokens _))) fun misc2 _ t₇ _ h₇ => .pure ?_
  rw [h₁, h₂, h₃, h₄, h₅, h₆, h₇]
  rfl

theorem writePacked_acts (hslot : slot < t.frames.size) (htokens : ∀ token, tokens token) {text : String} :
    Acts slot (Resolves tokens) t (writePacked slot frame text) fun _ act _ =>
      Contents.Forgets act ∧ ∀ c, (act c).flags = c.flags := by
  refine .bind (packedBody_acts hslot htokens) fun body _ t₁ _ h₁ => ?_
  refine .edit_bind (fun c => { c with toFrameBody := body }) (fun _ _ => rfl) ?_
  refine .bind (.lift writeArguments_acts) fun _ _ t₂ _ h₂ => ?_
  have hwritten : ∀ {act : Contents → Contents}, act = id →
      Contents.Forgets (((act ∘ fun c => c.afterArguments (PackedFrame.parse text).args) ∘
        fun c => { c with toFrameBody := body }) ∘ id) := by
    rintro _ rfl
    refine ⟨fun c c' => rfl, fun c c' => ?_⟩
    exact congrArg some ((ArgumentList.texts_replace _ _).trans (ArgumentList.texts_replace _ _).symm)
  rw [h₁, h₂]
  split
  · exact .lift (.warn ⟨hwritten rfl, fun c => rfl⟩)
  · exact .pure ⟨hwritten rfl, fun c => rfl⟩

theorem define_acts (hslot : slot < t.frames.size) (hdecorate : s.bool? "decorate" ≠ some true) :
    Acts slot (Resolves fun _ => True) t (define slot s) fun _ act _ =>
      Contents.Forgets act ∧ ∀ c, (act c).flags = setFlags s { c.flags with decorate := false } := by
  refine .nameOf_bind ?_
  refine .edit_bind (fun c => { c with flags := { c.flags with decorate := false } }) ?_ ?_
  · intro f c
    rw [decide_eq_false hdecorate]
    rfl
  rw [if_neg hdecorate]
  split
  · refine .bind (writePacked_acts hslot fun _ => trivial) fun _ _ t' _ ⟨hforgets, hflags⟩ => ?_
    refine (writeRest_acts fun _ _ => trivial).mono fun _ _ _ ⟨m, hm⟩ => ?_
    rw [hm]
    refine ⟨hforgets.afterRest.comp _, fun c => ?_⟩
    rw [Function.comp, Function.comp, Contents.flags_afterRest, hflags]
  · refine (writeFields_acts hslot fun _ _ => trivial).mono fun _ _ _ ⟨r, _, hr⟩ => ?_
    rw [hr]
    exact ⟨Contents.forgets_afterFields.comp _, fun c => Contents.flags_afterFields _⟩

theorem define_decorate_acts (hdecorate : s.bool? "decorate" = some true)
    (htokens : ∀ token, s.WritesMisc .definition token → tokens token) :
    Acts slot (Resolves tokens) t (define slot s) fun _ act _ => ∃ m, act = fun c =>
      { c with flags := { c.flags with decorate := true } }.afterMisc .definition s m := by
  refine .nameOf_bind ?_
  refine .edit_bind (fun c => { c with flags := { c.flags with decorate := true } }) ?_ ?_
  · intro f c
    rw [decide_eq_true hdecorate]
    rfl
  rw [if_pos hdecorate]
  refine (writeMisc_acts htokens).mono fun _ _ _ ⟨m, hm⟩ => ⟨m, ?_⟩
  rw [hm]
  rfl

theorem amend_acts (hslot : slot < t.frames.size) (htokens : ∀ token, s.WritesMisc .delta token → tokens token) :
    Acts slot (Resolves tokens) t (amend slot s) fun _ act _ => ∃ r : Resolved,
      (s.has "spriteframe" = true →
        spriteFrameValue (((t.frames.get? slot).map (·.name)).getD "") (s.value? "spriteframe") = .ok r.number) ∧
      act = Contents.afterFields .delta s r :=
  .nameOf_bind (writeFields_acts hslot htokens)

end Load

end FrameTable
