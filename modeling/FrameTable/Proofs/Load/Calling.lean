import FrameTable.Proofs.Load.Defining
import FrameTable.Proofs.Load.Packing
import FrameTable.Proofs.Packed.Calling

namespace FrameTable

open Packed

namespace Section

def acting (title text : String) : Section where
  title
  fields := .present [("action", some (.text text))] (List.pairwise_singleton _ _)

variable {title text key : String}

theorem value?_acting_of_ne (h : Text.same "action" key = false) : (acting title text).value? key = none :=
  Fields.find?_present_of_absent (List.pairwise_singleton _ _) fun _ hother => List.mem_singleton.mp hother ▸ h

theorem value?_acting : (acting title text).value? "action" = some (.text text) := rfl

end Section

def Warning.dropped? : Warning → Option Nat
  | .droppedArguments _ count => some count
  | _ => none

namespace LoadState

variable {σ : LoadState} {slot : Nat}

def action? (σ : LoadState) (slot : Nat) : Option (Option Nat) :=
  (σ.tables.frames.get? slot).map (·.action)

def argumentTexts? (σ : LoadState) (slot : Nat) : Option (List String) :=
  (σ.tables.frames.get? slot).bind fun f => f.args.map (·.texts)

def dropped (σ : LoadState) : List Nat :=
  σ.warnings.toList.filterMap Warning.dropped?

structure Calls (σ : LoadState) (slot position : Nat) (values : List String) (σ' : LoadState) : Prop where
  action : σ'.action? slot = some (if position = CodePointer.null then none else some position)
  texts : σ'.argumentTexts? slot = some (values.take maxArguments)
  dropped : σ'.dropped =
    σ.dropped ++ if maxArguments < values.length then [values.length - maxArguments] else []

theorem Calls.agree {first second : LoadState} {position : Nat} {tokens : List Token}
    (hfirst : σ.Calls slot position (tokens.map fun token => Text.dropLabel token.text) first)
    (hsecond : σ.Calls slot position (tokens.map argument) second) :
    first.action? slot = second.action? slot ∧ first.dropped = second.dropped ∧
      (first.argumentTexts? slot = second.argumentTexts? slot ↔
        ∀ token ∈ tokens.take maxArguments, token.isDefault = false) := by
  refine ⟨hfirst.action.trans hsecond.action.symm, ?_, ?_⟩
  · rw [hfirst.dropped, hsecond.dropped, List.length_map, List.length_map]
  · rw [hfirst.texts, hsecond.texts, Option.some_inj, ← List.map_take, ← List.map_take, List.map_inj_left]
    simp only [dropLabel_eq_argument_iff]

end LoadState

namespace Load

open LoadState (Calls)

variable {t t' : Tables} {slot position next : Nat} {f : Frame} {frame title text name : String} {values : List String}
  {inner : List Char} {warnings added : Array Warning}

def calling (f : Frame) (position next : Nat) (values : List String) : Contents where
  sprite := Sprites.blank
  image := .ofInt 0
  tics := 1
  action := if position = CodePointer.null then none else some position
  next
  particleEvent := .none
  misc1 := 0
  misc2 := 0
  flags := { f.flags with decorate := false }
  args := some ((f.args.getD .empty).replace values)

def called (t : Tables) (warnings : Array Warning) (slot : Nat) (f : Frame) (position next : Nat)
    (values : List String) : LoadState where
  tables := t.withContents slot (calling f position next values)
  warnings := warnings ++ (let dropped := ArgumentList.overflow values
    if 0 < dropped then [.droppedArguments f.name dropped] else []).toArray

theorem calls_called {σ : LoadState} (hf : t.frames.get? slot = some f)
    (hwarnings : warnings.toList.filterMap Warning.dropped? = σ.dropped) :
    σ.Calls slot position values (called t warnings slot f position next values) where
  action := by
    rw [LoadState.action?, called, Tables.get?_withContents hf]
    rfl
  texts := by
    rw [LoadState.argumentTexts?, called, Tables.get?_withContents hf, Option.bind_some]
    exact congrArg some (ArgumentList.texts_replace _ _)
  dropped := by
    simp only [LoadState.dropped, called, Array.toList_append, List.filterMap_append, hwarnings,
      ArgumentList.overflow, Nat.sub_pos_iff_lt]
    split <;> rfl

theorem define_acting (h : Call.parse text = ⟨name, some values⟩) : define slot (.acting title text) = (do
    let frame ← nameOf slot
    edit slot fun f => { f with flags.decorate := false }
    edit slot fun f => { f with sprite := Sprites.blank }
    edit slot fun f => { f with image := .ofInt 0 }
    edit slot Frame.clearBlank
    edit slot fun f => { f with tics := 1 }
    let action ← actionOf frame name
    edit slot fun f => { f with action }
    let next ← nextFrame slot frame Frame.nullName
    edit slot fun f => { f with next }
    writeArguments slot frame (values.map Text.dropLabel) 0
    edit slot fun f => { f with flags := f.flags }
    edit slot fun f => { f with misc1 := 0 }
    edit slot fun f => { f with misc2 := 0 }
    edit slot fun f => { f with particleEvent := .none }
    return ()) := by
  have habsent : ∀ key ∈ ["decorate", "cmp", "sprite", "spriteframe", "fullbright", "tics", "nextframe", "args",
      "SKILL5FAST", "INTERPOLATE", "misc1", "misc2", "particle_event"],
      (Section.acting title text).value? key = none :=
    fun key hkey => Section.value?_acting_of_ne ((by decide : ∀ key ∈ _, Text.same "action" key = false) key hkey)
  simp only [List.forall_mem_cons] at habsent
  obtain ⟨hdecorate, hcmp, hsprite, hspriteframe, hfullbright, htics, hnextframe, hargs, hskill, hinterpolate, hmisc1,
    hmisc2, hevent, -⟩ := habsent
  have hblank : ∀ frame, spriteNamed frame Sprites.blankName = pure Sprites.blank := fun frame => by
    rw [spriteNamed, if_pos (Text.same_refl _)]
  have hmisc : miscValue "" = pure 0 := rfl
  simp [define, Section.text?, Section.bool?, Section.list?, Section.number?, hdecorate, hcmp, hsprite, hspriteframe,
    hfullbright, htics, hnextframe, hargs, hskill, hinterpolate, hmisc1, hmisc2, hevent, Section.value?_acting,
    FieldValue.toText?, writeFields, writeSprite, writeSpriteFrame, spriteFrameValue, writeFullbright, writeTics,
    writeAction, writeNext, writeRest, writeMisc, writeMisc1, writeMisc2, writeParticleEvent, Writing.writes,
    writtenArguments, setFlags, h, hblank, hmisc, given, liftM_ok_bind]

theorem actionOf_eq (hname : CodePointer.find? name = some position) :
    actionOf frame name = .ok (if position = CodePointer.null then none else some position) := by
  rw [actionOf, hname]

theorem exists_run_nextFrame (hf : t.frames.get? slot = some f) (hplain : name.toList.head? ≠ some '@')
    (hnumber : Number.wholeInteger? name = none) (frame : String) (warnings : Array Warning) :
    ∃ (result : Except LoadError Nat) (t' : Tables) (added : Array Warning),
      (∀ c, (nextFrame slot frame name).run.run ⟨t.withContents slot c, warnings⟩ =
        (result, ⟨t'.withContents slot c, warnings ++ added⟩)) ∧
      t'.frames.get? slot = some f ∧ added.toList.filterMap Warning.dropped? = [] ∧
      (t.frames.slotNamed? name ≠ none → ∃ next, result = .ok next) := by
  have hslot := Store.lt_of_get? hf
  cases hnamed : t.frames.slotNamed? name with
  | some next =>
    refine ⟨.ok next, t, #[], fun c => ?_, hf, rfl, fun _ => ⟨next, rfl⟩⟩
    rw [Array.append_empty]
    exact run_nextFrame_of_named (t := t.withContents slot c) hplain hnamed warnings
  | none =>
    have hadd : ∀ c, (nextFrame slot frame name).run.run ⟨t.withContents slot c, warnings⟩ =
        (addFrame frame name).run.run ⟨t.withContents slot c, warnings⟩ := by
      intro c
      have hunknown : (t.withContents slot c).frames.slotNamed? name = none := hnamed
      unfold nextFrame
      split
      · next hname => simp [hname] at hplain
      · rw [run_tables_bind]
        simp only [hunknown, hnumber]
    cases hdefine : t.frames.define (placeholder t name) with
    | error error =>
      refine ⟨.error (.catalog error), t, #[], fun c => ?_, hf, rfl, fun h => absurd rfl h⟩
      rw [hadd, run_addFrame_withContents hslot hnamed, hdefine, Array.append_empty]
    | ok result =>
      obtain ⟨i, frames⟩ := result
      have hunknown : t.frames.slotNamed? (Record.name (placeholder t name)) = none := hnamed
      obtain ⟨-, hget⟩ := Catalog.get?_of_define hunknown hdefine
      refine ⟨.ok i, { t with frames }, #[.implicitFrame frame name], fun c => ?_, ?_, rfl, nofun⟩
      · rw [hadd, run_addFrame_withContents hslot hnamed, hdefine, ← Array.push_eq_append]
      · exact (hget slot).trans ((if_neg (Nat.ne_of_lt hslot)).trans hf)

theorem outcome_define_acting (hf : t.frames.get? slot = some f) (hname : CodePointer.find? name = some position)
    (hcall : Call.parse text = ⟨name, some values⟩) {result : Except LoadError Nat}
    (hnext : ∀ c, (nextFrame slot f.name Frame.nullName).run.run ⟨t.withContents slot c, warnings⟩ =
      (result, ⟨t'.withContents slot c, warnings ++ added⟩)) :
    (define slot (.acting title text)).outcome ⟨t, warnings⟩ = result.map fun next =>
      called t' (warnings ++ added) slot f position next (values.map Text.dropLabel) := by
  rw [define_acting hcall, outcome_nameOf_bind hf,
    outcome_quiet_bind (writes_edit (fun c => { c with flags.decorate := false }) fun _ _ => rfl),
    outcome_quiet_bind (writes_edit (fun c => { c with sprite := Sprites.blank }) fun _ _ => rfl),
    outcome_quiet_bind (writes_edit (fun c => { c with image := .ofInt 0 }) fun _ _ => rfl),
    outcome_quiet_bind writes_clearBlank,
    outcome_quiet_bind (writes_edit (fun c => { c with tics := 1 }) fun _ _ => rfl),
    actionOf_eq hname, liftM_ok_bind,
    outcome_quiet_bind (writes_edit (fun c => { c with action := _ }) fun _ _ => rfl)]
  -- What comes after the next frame cannot fail.
  cases result with
  | error error => rw [outcome_bind_error (hnext _)]; rfl
  | ok next =>
    rw [outcome_bind_ok (hnext _),
      outcome_quiet_bind (writes_edit (fun c => { c with next }) fun _ _ => rfl),
      outcome_writes_bind writes_writeArguments,
      outcome_quiet_bind (writes_edit (fun c => c) fun _ _ => rfl),
      outcome_quiet_bind (writes_edit (fun c => { c with misc1 := 0 }) fun _ _ => rfl),
      outcome_quiet_bind (writes_edit (fun c => { c with misc2 := 0 }) fun _ _ => rfl),
      outcome_quiet_bind (writes_edit (fun c => { c with particleEvent := .none }) fun _ _ => rfl)]
    simp only [Nat.zero_add]
    rfl

theorem outcome_define_packed_action (hf : t.frames.get? slot = some f)
    (hname : CodePointer.find? name = some position)
    (hparse : PackedFrame.parse text =
      { action := some name, args := values.take maxArguments, dropped := values.length - maxArguments }) :
    (define slot (.packed title text)).outcome ⟨t, warnings⟩ =
      .ok (called t warnings slot f position t.nullFrame values) := by
  let body (t : Tables) : FrameBody := (calling f position t.nullFrame values).toFrameBody
  -- Without a next frame of its own the packed definition looks nothing up but the null frame of the tables.
  have hwrite : writePacked slot f.name text = (do
      edit slot (·.withBody (body (← tables)))
      writeArguments slot f.name values 0) := by
    rw [← writeArguments_take]
    simp [writePacked, hparse, packedBody, given, actionOf_eq hname, liftM_ok_bind, packedImage, body, calling]
  have hbody : (edit slot (·.withBody (body t))).Writes slot (fun c => { c with toFrameBody := body t }) [] :=
    writes_edit _ fun _ _ => rfl
  have htables : ∀ c, body (t.withContents slot c) = body t := fun _ => rfl
  rw [define_packed_text, outcome_nameOf_bind hf,
    outcome_quiet_bind (writes_edit (fun c => { c with flags.decorate := false }) fun _ _ => rfl), hwrite, bind_assoc,
    outcome, run_tables_bind, htables, bind_assoc, ← outcome, outcome_quiet_bind hbody,
    outcome_writes_bind writes_writeArguments,
    outcome_quiet_bind (writes_edit (fun c => c) fun _ _ => rfl)]
  simp only [Nat.zero_add]
  rfl

/-- A call that is a definition by itself and the same call in a packed definition: if both go through, the frame has
the same action and as many arguments are left out; the texts of the others are the same as long as none of them is a
bare star. The first definition cannot fail where the null name is known, the second one nowhere. -/
theorem calls_agree_iff {σ : LoadState} (hslot : slot < σ.tables.frames.size)
    (hname : CodePointer.find? name = some position) (hinner : ∀ s ∈ segments inner, s.isInner = true)
    (title title' : String) :
    let tokens := argumentTokens inner
    let plain := (define slot (.acting title (callText name inner))).outcome σ
    (σ.tables.frames.slotNamed? Frame.nullName ≠ none → ∃ first, plain = .ok first) ∧
    ∃ second, (define slot (.packed title' (packedCall name inner))).outcome σ = .ok second ∧
      σ.Calls slot position (tokens.map argument) second ∧
      ∀ first, plain = .ok first →
        σ.Calls slot position (tokens.map fun token => Text.dropLabel token.text) first ∧
        first.action? slot = second.action? slot ∧ first.dropped = second.dropped ∧
        (first.argumentTexts? slot = second.argumentTexts? slot ↔
          ∀ token ∈ tokens.take maxArguments, token.isDefault = false) := by
  obtain ⟨t, warnings⟩ := σ
  intro tokens plain
  obtain ⟨f, hf⟩ := Store.exists_get? hslot
  have hat : Frame.nullName.toList.head? ≠ some '@' := by decide
  have hnumber : Number.wholeInteger? Frame.nullName = none := by decide +kernel
  obtain ⟨result, t', added, hnext, hf', hadded, hknown⟩ :=
    exists_run_nextFrame hf hat hnumber f.name warnings
  have hplain : plain = _ := outcome_define_acting hf hname (Call.parse_callText hname hinner) hnext
  rw [List.map_map] at hplain
  have hparse := PackedFrame.parse_packedCall hname hinner
  rw [← (argumentTokens inner).length_map argument] at hparse
  refine ⟨fun hnull => ?_, _, outcome_define_packed_action hf hname hparse, calls_called hf rfl, fun first hfirst => ?_⟩
  · obtain ⟨next, rfl⟩ := hknown hnull
    exact ⟨_, hplain⟩
  · have hcalls : Calls ⟨t, warnings⟩ slot position (tokens.map fun token => Text.dropLabel token.text) first := by
      rw [hplain] at hfirst
      cases result with
      | error error => cases hfirst
      | ok next =>
        cases hfirst
        exact calls_called hf' (by rw [Array.toList_append, List.filterMap_append, hadded, List.append_nil]; rfl)
    exact ⟨hcalls, hcalls.agree (calls_called hf rfl)⟩

def lightArguments : List Char := "'*' , sound:'a|(b' ,,\t-1".toList

theorem calls_agree_iff_light :
    let σ := allotted ["S_NULL", "S_CALL"] true
    let tokens := argumentTokens lightArguments
    let plain := (define 1 (.acting "S_CALL" (callText "a_LIGHT0" lightArguments))).outcome σ
    callText "a_LIGHT0" lightArguments = "a_LIGHT0('*' , sound:'a|(b' ,,\t-1)" ∧
    1 < σ.tables.frames.size ∧ CodePointer.find? "a_LIGHT0" = some 0 ∧
    (∀ s ∈ segments lightArguments, s.isInner = true) ∧
    σ.tables.frames.slotNamed? Frame.nullName ≠ none ∧ tokens.map argument = ["*", "a|(b", "", "-1"] ∧
    (σ.tables.frames.slotNamed? Frame.nullName ≠ none → ∃ first, plain = .ok first) ∧
    ∃ second, (define 1 (.packed "S_CALL" (packedCall "a_LIGHT0" lightArguments))).outcome σ = .ok second ∧
      σ.Calls 1 0 (tokens.map argument) second ∧
      ∀ first, plain = .ok first →
        σ.Calls 1 0 (tokens.map fun token => Text.dropLabel token.text) first ∧
        first.action? 1 = second.action? 1 ∧ first.dropped = second.dropped ∧
        (first.argumentTexts? 1 = second.argumentTexts? 1 ↔
          ∀ token ∈ tokens.take maxArguments, token.isDefault = false) := by
  have hslot : 1 < (allotted ["S_NULL", "S_CALL"] true).tables.frames.size := by decide +kernel
  have hname : CodePointer.find? "a_LIGHT0" = some 0 := by decide +kernel
  have hinner : ∀ s ∈ segments lightArguments, s.isInner = true := by decide +kernel
  exact ⟨by decide +kernel, hslot, hname, hinner, by decide +kernel, by decide +kernel,
    calls_agree_iff hslot hname hinner "S_CALL" "S_CALL"⟩

theorem calls_differ_at_star :
    let σ := allotted ["S_NULL", "S_CALL"] true
    let inner := "*, 3".toList
    let plain := (define 1 (.acting "S_CALL" (callText "Light0" inner))).outcome σ
    let packed := (define 1 (.packed "S_CALL" (packedCall "Light0" inner))).outcome σ
    callText "Light0" inner = "Light0(*, 3)" ∧ packedCall "Light0" inner = "*|*|*|*|Light0(*, 3)" ∧
    CodePointer.find? "Light0" = some 0 ∧ (∀ s ∈ segments inner, s.isInner = true) ∧
    plain.toOption.bind (·.argumentTexts? 1) = some ["*", "3"] ∧
    packed.toOption.bind (·.argumentTexts? 1) = some ["", "3"] := by
  intro σ inner plain packed
  exact ⟨by decide +kernel, by decide +kernel, by decide +kernel, by decide +kernel, by decide +kernel,
    by decide +kernel⟩

end Load

end FrameTable
