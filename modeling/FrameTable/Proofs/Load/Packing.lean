import FrameTable.Load.Batch
import FrameTable.Proofs.Load.Coupling
import FrameTable.Proofs.Load.Writing
import FrameTable.Proofs.Packed.Quotation
import FrameTable.Proofs.Section.Fields

/-!
A packed definition and the plain one with the same texts. They resolve the same references, in the same order but
for the particle event, and come to the same frame, the same tables and the same warnings. Only a missing next
frame is not the same in both: the packed definition takes the null frame, the plain one the frame of its name.
-/

namespace FrameTable

open Packed

namespace Section

def packed (title text : String) : Section where
  title
  fields := .present [("cmp", some (.text text))] (List.pairwise_singleton _ _)

variable {title text key : String}

theorem value?_packed_of_ne (h : Text.same "cmp" key = false) : (packed title text).value? key = none :=
  Fields.find?_present_of_absent (List.pairwise_singleton _ _) fun _ hother => List.mem_singleton.mp hother ▸ h

theorem text?_packed : (packed title text).text? "cmp" = some text := rfl

end Section

theorem CodePointer.find?_null : find? "NULL" = some null := by decide +kernel

namespace FrameTexts

def entries (v : FrameTexts) : List (String × Option FieldValue) :=
  [("action", v.action.map .text), ("args", some (.list v.args)), ("fullbright", v.fullbright.map .text),
    ("misc1", v.misc1.map .text), ("misc2", v.misc2.map .text), ("nextframe", v.nextframe.map .text),
    ("particle_event", v.particleEvent.map .text), ("sprite", v.sprite.map .text),
    ("spriteframe", v.spriteFrame.map .text), ("tics", v.tics.map .text)]

def keys : List String :=
  ["action", "args", "fullbright", "misc1", "misc2", "nextframe", "particle_event", "sprite", "spriteframe", "tics"]

theorem map_entries (v : FrameTexts) : v.entries.map (·.1) = keys := rfl

theorem entries_sorted (v : FrameTexts) : (v.entries.map (·.1)).Pairwise (· < ·) := by
  rw [map_entries]
  decide

theorem keys_distinct : keys.Pairwise fun a b => Text.same a b = false := by decide

def plain (v : FrameTexts) (title : String) : Section where
  title
  fields := .present v.entries v.entries_sorted

variable {v : FrameTexts} {title key : String} {value : Option FieldValue} {text : Option String}

theorem value?_plain (h : (key, value) ∈ v.entries) : (v.plain title).value? key = value :=
  Fields.find?_present v.entries_sorted keys_distinct h

theorem value?_plain_of_absent (h : ∀ other ∈ keys, Text.same other key = false) : (v.plain title).value? key = none :=
  Fields.find?_present_of_absent v.entries_sorted h

def texts (v : FrameTexts) : List (String × Option String) :=
  [("action", v.action), ("fullbright", v.fullbright), ("misc1", v.misc1), ("misc2", v.misc2),
    ("nextframe", v.nextframe), ("particle_event", v.particleEvent), ("sprite", v.sprite),
    ("spriteframe", v.spriteFrame), ("tics", v.tics)]

theorem value?_plain_text : ∀ e ∈ v.texts, (v.plain title).value? e.1 = e.2.map .text := by
  intro e he
  refine value?_plain ?_
  simp only [texts, List.mem_cons, List.not_mem_nil, or_false] at he
  rcases he with rfl | rfl | rfl | rfl | rfl | rfl | rfl | rfl | rfl <;> simp [entries]

theorem text?_plain (title : String) : ∀ e ∈ v.texts, (v.plain title).text? e.1 = e.2 := by
  intro e he
  rw [Section.text?, value?_plain_text e he]
  cases e.2 <;> rfl

theorem list?_plain : (v.plain title).list? "args" = some v.args := by
  have hargs : (v.plain title).value? "args" = some (.list v.args) := value?_plain (by simp [entries])
  rw [Section.list?, hargs]
  rfl

theorem number?_plain : (v.plain title).number? "tics" =
    v.tics.map fun value => Number.narrow (Number.readInteger value).1 := by
  have htics : (v.plain title).value? "tics" = v.tics.map .text := value?_plain_text ("tics", _) (by simp [texts])
  rw [Section.number?, htics]
  cases v.tics <;> rfl

theorem call_plain (h : ∀ action ∈ v.action, action.toList.all isPlain = true) :
    Call.parse (v.action.getD "NULL") = ⟨v.action.getD "NULL", none⟩ := by
  cases haction : v.action with
  | none => exact Call.parse_of_plain (by decide)
  | some action => exact Call.parse_of_plain (h action haction)

end FrameTexts

namespace Load

open Tables (Resolves)

variable {slot : Nat} {frame title text : String} {v : FrameTexts} {w : SpelledFrame}

theorem writeArguments_take (values : List String) : writeArguments slot frame (values.take maxArguments)
    (values.length - maxArguments) = writeArguments slot frame values 0 := by
  have hoverflow : ArgumentList.overflow (values.take maxArguments) = 0 :=
    Nat.sub_eq_zero_of_le (List.length_take_le _ _)
  have hreplace : ∀ l : ArgumentList, l.replace (values.take maxArguments) = l.replace values := by
    intro l
    simp only [ArgumentList.replace, List.take_take, Nat.min_self]
  have hdropped : ArgumentList.overflow values = values.length - maxArguments := rfl
  simp only [writeArguments, hoverflow, hreplace, hdropped, Nat.add_zero, Nat.zero_add]

theorem writeRest_packed : writeRest .delta slot frame (.packed title text) none =
    (do edit slot fun f => { f with flags := f.flags } : Load Unit) := by
  have habsent : ∀ key ∈ ["args", "SKILL5FAST", "INTERPOLATE", "misc1", "misc2", "particle_event"],
      (Section.packed title text).value? key = none :=
    fun key hkey => Section.value?_packed_of_ne ((by decide : ∀ key ∈ _, Text.same "cmp" key = false) key hkey)
  simp only [List.forall_mem_cons] at habsent
  obtain ⟨hargs, hskill, hinterpolate, hmisc1, hmisc2, hevent, -⟩ := habsent
  simp [writeRest, writtenArguments, setFlags, writeMisc, writeMisc1, writeMisc2, writeParticleEvent, Writing.writes,
    Section.has, Section.list?, Section.bool?, hargs, hskill, hinterpolate, hmisc1, hmisc2, hevent]

theorem define_packed_text : define slot (.packed title text) = (do
    let frame ← nameOf slot
    edit slot fun f => { f with flags.decorate := false }
    writePacked slot frame text
    edit slot fun f => { f with flags := f.flags }
    return ()) := by
  have hdecorate : (Section.packed title text).bool? "decorate" = none := by
    rw [Section.bool?, Section.value?_packed_of_ne (by decide)]
    rfl
  simp [define, hdecorate, Section.text?_packed, writeRest_packed]

theorem define_packed (h : w.Writes v) : define slot (.packed title w.called) = (do
    let frame ← nameOf slot
    edit slot fun f => { f with flags.decorate := false }
    let body ← packedBody slot frame v.meaning
    edit slot (·.withBody body)
    writeArguments slot frame (v.args.map Text.dropLabel) 0
    edit slot fun f => { f with flags := f.flags }
    return ()) := by
  have hargs : ∀ frame, writeArguments slot frame v.meaning.args v.meaning.dropped =
      writeArguments slot frame (v.args.map Text.dropLabel) 0 := by
    intro frame
    rw [← writeArguments_take, List.length_map]
    rfl
  have hextra : v.meaning.extra = 0 := rfl
  simp [define_packed_text, writePacked, h.parse_called, hargs, hextra]

def eventValue (frame : String) : Option String → Except LoadError ParticleEvent
  | none => .ok .none
  | some name => particleEventOf frame name

theorem given_eq_liftM (text : Option String) : given text .none (fun name => particleEventOf frame name) =
    (liftM (eventValue frame text) : Load ParticleEvent) := by
  cases text <;> rfl

theorem define_plain (haction : ∀ action ∈ v.action, action.toList.all isPlain = true) :
    define slot (v.plain title) = (do
      let frame ← nameOf slot
      edit slot fun f => { f with flags.decorate := false }
      let sprite ← spriteNamed frame (v.sprite.getD Sprites.blankName)
      edit slot fun f => { f with sprite }
      let number ← spriteFrameValue frame (v.spriteFrame.map .text)
      edit slot fun f => { f with image := .ofInt number }
      edit slot Frame.clearBlank
      writeFullbright slot (v.plain title)
      edit slot fun f => { f with tics := (v.tics.map fun value => Number.narrow (Number.readInteger value).1).getD 1 }
      let action ← actionOf frame (v.action.getD "NULL")
      edit slot fun f => { f with action }
      let next ← nextFrame slot frame (v.nextframe.getD Frame.nullName)
      edit slot fun f => { f with next }
      writeArguments slot frame (v.args.map Text.dropLabel) 0
      edit slot fun f => { f with flags := f.flags }
      let misc1 ← miscValue (v.misc1.getD "")
      edit slot fun f => { f with misc1 }
      let misc2 ← miscValue (v.misc2.getD "")
      edit slot fun f => { f with misc2 }
      let particleEvent ← eventValue frame v.particleEvent
      edit slot fun f => { f with particleEvent }
      return ()) := by
  have habsent : ∀ key ∈ ["decorate", "cmp", "SKILL5FAST", "INTERPOLATE"], (v.plain title).value? key = none :=
    fun key hkey => FrameTexts.value?_plain_of_absent
      ((by decide : ∀ key ∈ _, ∀ other ∈ FrameTexts.keys, Text.same other key = false) key hkey)
  simp only [List.forall_mem_cons] at habsent
  obtain ⟨hdecorate, hcmp, hskill, hinterpolate, -⟩ := habsent
  have hdecorate : (v.plain title).bool? "decorate" = none := by rw [Section.bool?, hdecorate]; rfl
  have hcmp : (v.plain title).text? "cmp" = none := by rw [Section.text?, hcmp]; rfl
  have hflags : ∀ flags, setFlags (v.plain title) flags = flags := fun flags => by
    simp [setFlags, Section.bool?, hskill, hinterpolate]
  have hframe : (v.plain title).value? "spriteframe" = v.spriteFrame.map .text :=
    FrameTexts.value?_plain_text ("spriteframe", _) (by simp [FrameTexts.texts])
  have htexts := v.text?_plain title
  simp only [FrameTexts.texts, List.forall_mem_cons] at htexts
  obtain ⟨hname, -, hmisc1, hmisc2, hnextframe, hevent, hsprite, -⟩ := htexts
  simp [define, hdecorate, hcmp, writeFields, writeSprite, writeSpriteFrame, writeTics, writeAction, writeNext,
    writeRest, writeMisc, writeMisc1, writeMisc2, writeParticleEvent, Writing.writes, writtenArguments, hflags,
    hname, hmisc1, hmisc2, hnextframe, hevent, hsprite, hframe, FrameTexts.number?_plain, FrameTexts.list?_plain,
    FrameTexts.call_plain haction, given_eq_liftM]

theorem given_eq_getD {α : Type} {text : Option String} {default : α} {value : String → Load α} {name : String}
    (h : value name = pure default) : given text default value = value (text.getD name) := by
  cases text with
  | none => exact h.symm
  | some text => rfl

theorem actionOf_null (frame : String) : actionOf frame "NULL" = .ok none := by
  rw [actionOf, CodePointer.find?_null]
  exact congrArg Except.ok (if_pos rfl)

theorem packedBody_meaning : packedBody slot frame v.meaning = (do
    let sprite ← spriteNamed frame (v.sprite.getD Sprites.blankName)
    let number ← spriteFrameValue frame (v.spriteFrame.map .text)
    let action ← actionOf frame (v.action.getD "NULL")
    let next ← given v.nextframe (← tables).nullFrame (nextFrame slot frame)
    let particleEvent ← eventValue frame v.particleEvent
    let misc1 ← miscValue (v.misc1.getD "")
    let misc2 ← miscValue (v.misc2.getD "")
    return {
      sprite, action, next, particleEvent, misc1, misc2
      image := packedImage v.meaning sprite number
      tics := (v.tics.map fun value => Number.narrow (Number.readInteger value).1).getD 1 }) := by
  have hsprite : spriteNamed frame Sprites.blankName = pure Sprites.blank := by
    rw [spriteNamed, if_pos (Text.same_refl _)]
  have hnumber : given v.spriteFrame 0 (fun value => spriteFrameOf frame value) =
      (liftM (spriteFrameValue frame (v.spriteFrame.map .text)) : Load Int) := by
    cases v.spriteFrame <;> rfl
  have haction : (liftM (actionOf frame "NULL") : Load (Option Nat)) = pure none := by
    rw [actionOf_null]
    rfl
  have hmisc : (liftM (miscValue "") : Load Int) = pure 0 := rfl
  have hsprite' := @given_eq_getD Nat v.sprite Sprites.blank (fun name => spriteNamed frame name) Sprites.blankName
    (by rw [hsprite]; rfl)
  have haction' := @given_eq_getD (Option Nat) v.action none (fun name => actionOf frame name) "NULL" haction
  have hmisc' := fun text => @given_eq_getD Int text 0 (fun token => miscValue token) "" hmisc
  unfold packedBody
  simp only [FrameTexts.meaning, given_eq_liftM, hnumber, hsprite', haction', hmisc']

theorem liftM_ok_bind {α β : Type} {a : α} {f : α → Load β} :
    (liftM (Except.ok a : Except LoadError α) : Load α) >>= f = f a := rfl

theorem meet_following {t : Tables} {c : Contents} {sprite next : Nat} {image : Image} {tics : Int}
    {action : Option Nat} :
    Meet slot t c { c with sprite, image, tics, action } []
      (do
        let particleEvent ← eventValue frame v.particleEvent
        let misc1 ← miscValue (v.misc1.getD "")
        let misc2 ← miscValue (v.misc2.getD "")
        edit slot (·.withBody { sprite, image, tics, action, next, particleEvent, misc1, misc2 })
        writeArguments slot frame (v.args.map Text.dropLabel) 0
        edit slot fun f => { f with flags := f.flags }
        return () : Load Unit)
      (do
        edit slot fun f => { f with next }
        writeArguments slot frame (v.args.map Text.dropLabel) 0
        edit slot fun f => { f with flags := f.flags }
        let misc1 ← miscValue (v.misc1.getD "")
        edit slot fun f => { f with misc1 }
        let misc2 ← miscValue (v.misc2.getD "")
        edit slot fun f => { f with misc2 }
        let particleEvent ← eventValue frame v.particleEvent
        edit slot fun f => { f with particleEvent }
        return () : Load Unit) := by
  have hmisc : ∀ (t : Tables) token, Acts slot (Resolves fun _ => True) t (liftM (miscValue token) : Load Int)
      fun _ act _ => act = id := fun t token => .lift (miscValue_acts trivial)
  cases hevent : eventValue frame v.particleEvent with
  | error error =>
    refine .raise ?_
    refine .bind fun _ => .bind fun _ => .bind fun _ => .bind fun misc1 => .bind fun _ => .bind fun misc2 => ?_
    exact .bind fun _ => .raise_bind
  | ok particleEvent =>
    simp only [liftM_ok_bind]
    refine .second_quiet_bind (writes_edit (fun c => { c with next }) fun _ _ => rfl) ?_
    refine .second_bind writes_writeArguments ?_
    refine .second_quiet_bind (writes_edit (fun c => c) fun _ _ => rfl) ?_
    refine .both_bind (hmisc _ _) fun misc1 t₁ _ => ?_
    refine .second_quiet_bind (writes_edit (fun c => { c with misc1 }) fun _ _ => rfl) ?_
    refine .both_bind (hmisc _ _) fun misc2 t₂ _ => ?_
    refine .second_quiet_bind (writes_edit (fun c => { c with misc2 }) fun _ _ => rfl) ?_
    refine .second_quiet_bind (writes_edit (fun c => { c with particleEvent }) fun _ _ => rfl) ?_
    let body : FrameBody := { sprite, image, tics, action, next, particleEvent, misc1, misc2 }
    refine .first_quiet_bind (writes_edit (fun c => { c with toFrameBody := body }) fun _ _ => rfl) ?_
    refine .first_settling_bind writes_writeArguments ?_
    exact .first_quiet_bind (writes_edit (fun c => c) fun _ _ => rfl) .pure

structure SameFrames (t t' : Tables) : Prop where
  frames : t'.frames = t.frames
  nullFrame : t'.nullFrame = t.nullFrame

instance : Std.Refl SameFrames where
  refl _ := ⟨rfl, rfl⟩

theorem packedImage_meaning (title : String) {sprite : Nat} {number : Int}
    (hbright : ∀ text ∈ v.fullbright, FieldValue.isTrueText text = isBright text) :
    packedImage v.meaning sprite number =
      let image : Image := if sprite = Sprites.blank then .ofInt 0 else .ofInt number
      if (v.plain title).bool? "fullbright" = some true then image.brighten else image := by
  have hvalue : (v.plain title).value? "fullbright" = v.fullbright.map .text :=
    FrameTexts.value?_plain_text ("fullbright", _) (by simp [FrameTexts.texts])
  have himage : Image.ofInt (if sprite = Sprites.blank then 0 else number) =
      if sprite = Sprites.blank then .ofInt 0 else .ofInt number := apply_ite _ _ _ _
  have hcond : v.meaning.fullbright.any isBright = true ↔ (v.plain title).bool? "fullbright" = some true := by
    rw [Section.bool?, hvalue]
    cases hfullbright : v.fullbright with
    | none => simp [FrameTexts.meaning, hfullbright]
    | some text => simp [FrameTexts.meaning, hfullbright, FieldValue.bool?, hbright text hfullbright]
  simp only [packedImage, himage, hcond]

theorem run_nextFrame_of_named {t : Tables} {name : String} {next : Nat} (hplain : name.toList.head? ≠ some '@')
    (hnamed : t.frames.slotNamed? name = some next) (warnings : Array Warning) :
    (nextFrame slot frame name).run.run ⟨t, warnings⟩ = (.ok next, ⟨t, warnings⟩) := by
  unfold nextFrame
  split
  · next hname => simp [hname] at hplain
  · rw [run_tables_bind]
    simp only [hnamed]
    rfl

/-- Both definitions fail with the same error or come to the same tables with the same warnings. While a batch is
filled the tables are `Tables.Ready`, so that a missing next frame makes no difference there. -/
theorem packed_matches_plain {σ : LoadState} {title' : String} (hw : w.Writes v)
    (haction : ∀ action ∈ v.action, action.toList.all isPlain = true)
    (hbright : ∀ text ∈ v.fullbright, FieldValue.isTrueText text = isBright text)
    (hnext : v.nextframe = none → σ.tables.frames.slotNamed? Frame.nullName = some σ.tables.nullFrame)
    (hslot : slot < σ.tables.frames.size) :
    Outcomes LoadState.Matches ((define slot (.packed title w.called)).outcome σ)
      ((define slot (v.plain title')).outcome σ) := by
  obtain ⟨f, hf⟩ := Store.exists_get? hslot
  have hcoupled : LoadState.Coupled slot σ.tables f.contents f.contents [] σ σ := by
    have hsame := (Tables.withContents_of_get? hf).symm
    exact ⟨hsame, hsame, by rw [List.append_nil]⟩
  refine (?_ : Meet slot σ.tables f.contents f.contents [] _ _) σ σ hcoupled
  rw [define_packed hw, define_plain haction]
  simp only [packedBody_meaning, bind_assoc, pure_bind]
  refine .both_nameOf_bind fun frame => ?_
  refine .first_quiet_bind (writes_edit (fun c => { c with flags.decorate := false }) fun _ _ => rfl) ?_
  refine .second_quiet_bind (writes_edit (fun c => { c with flags.decorate := false }) fun _ _ => rfl) ?_
  generalize { f.contents with flags.decorate := false } = c
  have hsprite : Acts slot SameFrames σ.tables (liftM (spriteNamed frame (v.sprite.getD Sprites.blankName)) : Load Nat)
      fun _ act _ => act = id := .lift (spriteNamed_acts_of fun _ => ⟨rfl, rfl⟩)
  -- From here on the plain definition writes each field as it goes, and the packed one nothing.
  refine .both_bind hsprite fun sprite t hkept => ?_
  refine .second_quiet_bind (writes_edit (fun c => { c with sprite }) fun _ _ => rfl) ?_
  refine .both_bind (R := Eq) ofExcept_acts fun number _ ht => ?_
  subst ht
  refine .second_quiet_bind (writes_edit (fun c => { c with image := .ofInt number }) fun _ _ => rfl) ?_
  refine .second_quiet_bind writes_clearBlank ?_
  refine .second_quiet_bind writes_writeFullbright ?_
  let tics := (v.tics.map fun value => Number.narrow (Number.readInteger value).1).getD 1
  refine .second_quiet_bind (writes_edit (fun c => { c with tics }) fun _ _ => rfl) ?_
  refine .both_bind (R := Eq) ofExcept_acts fun action _ ht => ?_
  subst ht
  refine .second_quiet_bind (writes_edit (fun c => { c with action }) fun _ _ => rfl) ?_
  refine .first_tables_bind ?_
  have hfollowing := fun t next => @meet_following slot frame v t c sprite next (packedImage v.meaning sprite number)
    tics action
  simp only [packedImage_meaning title' hbright] at hfollowing ⊢
  cases hnextframe : v.nextframe with
  | some target =>
    have hsize : slot < t.frames.size := hkept.frames ▸ hslot
    have hstep : Acts slot (Resolves fun _ => True) t (nextFrame slot frame target) fun _ act _ => act = id :=
      nextFrame_acts hsize
    exact .both_bind hstep fun next t' _ => hfollowing t' next
  | none =>
    -- Only the sprites can have changed, so the null name still leads to the null frame.
    have hnamed : t.frames.slotNamed? Frame.nullName = some t.nullFrame := by
      rw [hkept.frames, hkept.nullFrame]
      exact hnext hnextframe
    exact .second_value_bind (run_nextFrame_of_named (by decide) hnamed) (hfollowing t t.nullFrame)

def allotted (names : List String) (first : Bool) : LoadState :=
  ((allotFrames (names.map fun title => { title }) first).run.run ⟨.initial ⟨1, 1, 1, 1, 1⟩, #[]⟩).2

def glowing : FrameTexts where
  sprite := some "LAMP"
  spriteFrame := some "C"
  fullbright := some "True"
  tics := some "-1"
  action := some "A_Light0"
  particleEvent := some "pevt_rexpl"
  misc1 := some "frame:S_LAMP"
  args := ["sound:a \"hum\"", "it's|out", "", "*"]

theorem packed_matches_plain_glowing :
    let σ := allotted ["S_NULL", "S_LAMP"] true
    (SpelledFrame.ofTexts glowing).called = "\"LAMP\"|\"C\"|\"True\"|\"-1\"|\"A_Light0\"" ++
      "(\"sound:a \"'\"'\"hum\"'\"'\"\",\"it's|out\",\"\",\"*\")|*|\"pevt_rexpl\"|\"frame:S_LAMP\"|*" ∧
    (SpelledFrame.ofTexts glowing).Writes glowing ∧
    (∀ action ∈ glowing.action, action.toList.all isPlain = true) ∧
    (∀ text ∈ glowing.fullbright, FieldValue.isTrueText text = isBright text) ∧
    (glowing.nextframe = none → σ.tables.frames.slotNamed? Frame.nullName = some σ.tables.nullFrame) ∧
    1 < σ.tables.frames.size ∧
    Outcomes LoadState.Matches
      ((define 1 (.packed "S_LAMP" (SpelledFrame.ofTexts glowing).called)).outcome σ)
      ((define 1 (glowing.plain "S_LAMP")).outcome σ) := by
  have hwrites := SpelledFrame.writes_ofTexts glowing
  have haction : ∀ action ∈ glowing.action, action.toList.all isPlain = true := by decide
  have hbright : ∀ text ∈ glowing.fullbright, FieldValue.isTrueText text = isBright text := by decide
  have hnext : glowing.nextframe = none → (allotted ["S_NULL", "S_LAMP"] true).tables.frames.slotNamed? Frame.nullName =
      some (allotted ["S_NULL", "S_LAMP"] true).tables.nullFrame := fun _ => by decide +kernel
  have hslot : 1 < (allotted ["S_NULL", "S_LAMP"] true).tables.frames.size := by decide +kernel
  exact ⟨by decide +kernel, hwrites, haction, hbright, hnext, hslot,
    packed_matches_plain hwrites haction hbright hnext hslot⟩

theorem packed_differs_without_null :
    let σ := allotted ["S_LAMP"] false
    let v : FrameTexts := { action := some "Light0" }
    (SpelledFrame.ofTexts v).Writes v ∧ (∀ action ∈ v.action, action.toList.all isPlain = true) ∧
    (∀ text ∈ v.fullbright, FieldValue.isTrueText text = isBright text) ∧ 0 < σ.tables.frames.size ∧
    ¬Outcomes LoadState.Matches ((define 0 (.packed "S_LAMP" (SpelledFrame.ofTexts v).called)).outcome σ)
      ((define 0 (v.plain "S_LAMP")).outcome σ) := by
  intro σ v
  have hpacked : ((define 0 (.packed "S_LAMP" (SpelledFrame.ofTexts v).called)).outcome σ).toOption.map
      (·.tables.frames.size) = some 1 := by decide +kernel
  have hplain : ((define 0 (v.plain "S_LAMP")).outcome σ).toOption.map (·.tables.frames.size) = some 2 := by
    decide +kernel
  refine ⟨SpelledFrame.writes_ofTexts v, by decide, by decide, by decide +kernel, fun h => ?_⟩
  generalize (define 0 (.packed "S_LAMP" (SpelledFrame.ofTexts v).called)).outcome σ = first at h hpacked
  generalize (define 0 (v.plain "S_LAMP")).outcome σ = second at h hplain
  cases h with
  | error error => cases hpacked
  | ok hmatches =>
    rw [Except.toOption, Option.map_some, hmatches.tables] at hpacked
    cases hpacked.symm.trans hplain

end Load

end FrameTable
