import FrameTable.Load.Batch
import FrameTable.Proofs.Load.Footprint
import FrameTable.Proofs.Load.Values

namespace FrameTable

def FrameBody.misc (b : FrameBody) : MiscField → Int
  | .misc1 => b.misc1
  | .misc2 => b.misc2

def PackedFrame.misc (p : PackedFrame) : MiscField → Option String
  | .misc1 => p.misc1
  | .misc2 => p.misc2

def Section.miscToken (s : Section) (m : MiscField) : String :=
  (s.text? m.key).getD ""

structure Turn where
  writing : Writing
  source : Section

def Batch.turns (b : Batch) : List Turn :=
  b.frames.map (Turn.mk .definition) ++ b.deltas.map (Turn.mk .delta)

namespace Turn

variable (turn : Turn)

def target? : Option String :=
  match turn.writing with
  | .definition => some turn.source.title
  | .delta => turn.source.text? "name"

def run (slot : Nat) : Load Unit :=
  match turn.writing with
  | .definition => Load.define slot turn.source
  | .delta => Load.amend slot turn.source

def GivesBody : Prop :=
  turn.writing = .definition ∧ turn.source.bool? "decorate" ≠ some true

def packedText? : Option String :=
  if turn.writing = .definition ∧ turn.source.bool? "decorate" ≠ some true then turn.source.text? "cmp" else none

def WritesNext : Prop :=
  match turn.packedText? with
  | some text => (PackedFrame.parse text).nextframe ≠ none
  | none => turn.source.has "nextframe" = true ∧
      (turn.writing = .definition → turn.source.bool? "decorate" ≠ some true)

instance : Decidable turn.GivesBody :=
  inferInstanceAs (Decidable (_ ∧ _))

instance : Decidable turn.WritesNext :=
  match h : turn.packedText? with
  | some text => decidable_of_iff ((PackedFrame.parse text).nextframe ≠ none) (by rw [WritesNext, h])
  | none => decidable_of_iff (turn.source.has "nextframe" = true ∧
      (turn.writing = .definition → turn.source.bool? "decorate" ≠ some true)) (by rw [WritesNext, h])

def Touches : Frame.Field → Prop
  | .next => turn.GivesBody ∨ turn.WritesNext
  | .misc m => turn.writing.writes turn.source m.key = true
  | .args => True

def token? (m : MiscField) : Option String :=
  match turn.packedText? with
  | some text => if turn.source.has m.key then some (turn.source.miscToken m) else (PackedFrame.parse text).misc m
  | none => if turn.writing.writes turn.source m.key then some (turn.source.miscToken m) else none

end Turn

def At (slot : Nat) (fields : Frame.Field → Prop) (i : Nat) (field : Frame.Field) : Prop :=
  i = slot ∧ fields field

def Section.MiscWritten (s : Section) (w : Writing) (field : Frame.Field) : Prop :=
  ∃ m : MiscField, field = .misc m ∧ w.writes s m.key = true

namespace LoadState

variable {σ σ' σ'' : LoadState} {slot : Nat} {adds : Prop} {may : Nat → Frame.Field → Prop} {m : MiscField}
  {token : String}

def MiscSet (σ σ' : LoadState) (slot : Nat) (m : MiscField) (token : String) : Prop :=
  ∀ f, σ'.tables.frames.get? slot = some f → Means σ σ' token (f.misc m)

def NextIsNull (σ : LoadState) (slot : Nat) : Prop :=
  ∀ f, σ.tables.frames.get? slot = some f → f.next = σ.tables.nullFrame

theorem MiscSet.before (h : MiscSet σ' σ'' slot m token) (hfills : Fills adds may σ σ') : MiscSet σ σ'' slot m token :=
  fun f hf => (h f hf).before hfills

theorem MiscSet.after (h : MiscSet σ σ' slot m token) (hslot : slot < σ'.tables.frames.size)
    (hfills : Fills False may σ' σ'') (hnot : ¬may slot (.misc m)) : MiscSet σ σ'' slot m token := by
  intro f'' hf''
  obtain ⟨f', hf'⟩ := Store.exists_get? hslot
  obtain ⟨f, hf, hkeeps⟩ := hfills.kept hf'
  obtain rfl := Option.some.inj (hf.symm.trans hf'')
  have hsame : f.misc m = f'.misc m := hkeeps.agrees (.misc m) hnot
  exact hsame ▸ (h f' hf').after hfills

theorem NextIsNull.after (h : NextIsNull σ slot) (hfills : Fills adds may σ σ') (hnot : ¬may slot .next) :
    NextIsNull σ' slot := by
  intro f' hf'
  cases hf : σ.tables.frames.get? slot with
  | none => exact ((hfills.added hf' hf).1 hnot).trans hfills.nullFrame.symm
  | some f =>
    obtain ⟨f₁, hf₁, hkeeps⟩ := hfills.kept hf
    obtain rfl := Option.some.inj (hf₁.symm.trans hf')
    have hsame : f₁.next = f.next := hkeeps.agrees .next hnot
    exact hsame.trans ((h f hf).trans hfills.nullFrame.symm)

theorem Fills.lt_size (h : Fills adds may σ σ') (hslot : slot < σ.tables.frames.size) :
    slot < σ'.tables.frames.size := by
  obtain ⟨f, hf⟩ := Store.exists_get? hslot
  obtain ⟨f', hf', -⟩ := h.kept hf
  exact Catalog.lt_size_of_get? hf'

theorem Fills.at {fields fields' : Frame.Field → Prop} {adds' : Prop} (h : Fills adds (At slot fields) σ σ')
    (hadds : adds → adds') (hfields : ∀ field, fields field → fields' field) : Fills adds' (At slot fields') σ σ' :=
  h.mono hadds fun _ _ ⟨hi, hfield⟩ => ⟨hi, hfields _ hfield⟩

end LoadState

namespace Load

open LoadState (Fills MiscSet NextIsNull Means)

variable {adds : Prop} {may : Nat → Frame.Field → Prop} {σ : LoadState} {slot : Nat} {frame token : String}
  {s : Section} {w : Writing}

theorem edit_runs (h : σ.tables.Indexed) {g : Frame → Frame} {Q : Unit → LoadState → Prop}
    (hidentity : ∀ f, Catalog.identity (g f) = Catalog.identity f) (hkeeps : ∀ f : Frame, f.Keeps (may slot) (g f))
    (hQ : ∀ σ', Fills adds may σ σ' →
      (∀ f', σ'.tables.frames.get? slot = some f' → ∃ f, f' = g f) → Q () σ') :
    Update.Runs (Fills adds may) σ (edit slot g) Q := by
  have hedit : Fills adds may σ _ := .edit h hidentity hkeeps
  refine .edit hedit (hQ _ hedit fun f' hf' => ?_)
  rw [show (σ.tables.frames.modify slot g).get? slot = _ from Store.get?_modify _ _ _ _, if_pos rfl] at hf'
  obtain ⟨f, -, rfl⟩ := Option.map_eq_some_iff.mp hf'
  exact ⟨f, rfl⟩

theorem edit_aside_runs (h : σ.tables.Indexed) {g : Frame → Frame}
    (hg : ∀ f : Frame, Catalog.identity (g f) = Catalog.identity f ∧
      ((g f).next, (g f).misc1, (g f).misc2, (g f).args) = (f.next, f.misc1, f.misc2, f.args)) :
    Update.Runs (Fills adds may) σ (edit slot g) fun _ _ => True :=
  edit_runs h (fun f => (hg f).1) (fun f => .of_eq (hg f).2) fun _ _ _ => trivial

theorem writeArguments_runs (h : σ.tables.Indexed) (hmay : may slot .args) {values : List String} {dropped : Nat} :
    Update.Runs (Fills adds may) σ (writeArguments slot frame values dropped) fun _ _ => True := by
  refine .bind (edit_runs (Q := fun _ _ => True) h (fun _ => rfl) (fun _ => .replace hmay) fun _ _ _ => trivial)
    fun _ _ _ _ => ?_
  simp only
  split
  · exact warn_runs trivial
  · exact .pure trivial

theorem writeSprite_runs (h : σ.tables.Indexed) :
    Update.Runs (Fills adds may) σ (writeSprite w slot frame s) fun _ _ => True := by
  unfold writeSprite
  split
  · refine .bind spriteNamed_runs fun _ _ hfills _ => ?_
    exact edit_aside_runs (hfills.indexed h) fun _ => ⟨rfl, rfl⟩
  · exact .pure trivial

theorem writeSpriteFrame_runs (h : σ.tables.Indexed) :
    Runs (Fills adds may) σ (writeSpriteFrame w slot frame s) fun _ _ => True := by
  unfold writeSpriteFrame
  split
  · refine .bind .ofExcept fun _ _ hfills _ => .lift ?_
    exact edit_aside_runs (hfills.indexed h) fun _ => ⟨rfl, rfl⟩
  · exact .pure trivial

theorem clearBlank_runs (h : σ.tables.Indexed) :
    Update.Runs (Fills adds may) σ (edit slot Frame.clearBlank) fun _ _ => True := by
  refine edit_aside_runs h fun f => ?_
  unfold Frame.clearBlank
  split <;> exact ⟨rfl, rfl⟩

theorem writeFullbright_runs (h : σ.tables.Indexed) :
    Update.Runs (Fills adds may) σ (writeFullbright slot s) fun _ _ => True := by
  unfold writeFullbright
  split
  · exact edit_aside_runs h fun _ => ⟨rfl, rfl⟩
  · exact .pure trivial

theorem writeTics_runs (h : σ.tables.Indexed) :
    Update.Runs (Fills adds may) σ (writeTics w slot s) fun _ _ => True := by
  unfold writeTics
  split
  · exact edit_aside_runs h fun _ => ⟨rfl, rfl⟩
  · exact .pure trivial

theorem writeAction_runs (h : σ.tables.Indexed) :
    Runs (Fills adds may) σ (writeAction w slot frame s) fun _ _ => True := by
  unfold writeAction
  split
  · refine .bind .ofExcept fun _ _ hfills _ => ?_
    refine .bind (.lift (edit_aside_runs (hfills.indexed h) fun _ => ⟨rfl, rfl⟩)) fun _ _ _ _ => .pure trivial
  · exact .pure trivial

theorem writeNext_runs (h : σ.tables.Indexed) :
    Runs (Fills True (At slot fun field => field = .next ∧ w.writes s "nextframe" = true)) σ
      (writeNext w slot frame s) fun _ σ' =>
        w.writes s "nextframe" = true → s.has "nextframe" = false → NextIsNull σ' slot := by
  unfold writeNext
  split
  · next hw =>
    have hmay : At slot (fun field => field = .next ∧ w.writes s "nextframe" = true) slot .next := ⟨rfl, rfl, hw⟩
    refine .bind (nextFrame_runs h) fun next σ₁ hfills hnext => .lift ?_
    refine edit_runs (hfills.indexed h) (fun _ => rfl) (fun _ => .next hmay) fun σ₂ hfills' hnew _ hdefault f hf => ?_
    obtain ⟨f', rfl⟩ := hnew f hf
    have htext : s.text? "nextframe" = none := by
      rw [Section.text?, Section.value?_eq_none hdefault, Option.bind_none]
    have hnull := hnext (by rw [htext, Option.getD_none])
    exact hnull.trans hfills'.nullFrame.symm
  · next hw => exact .pure fun h => absurd h hw

def writeMiscField (w : Writing) (slot : Nat) (s : Section) : MiscField → Update Unit
  | .misc1 => writeMisc1 w slot s
  | .misc2 => writeMisc2 w slot s

theorem miscValue_edit_runs (h : σ.tables.Indexed) (m : MiscField) (write : Int → Frame → Frame)
    (hidentity : ∀ v f, Catalog.identity (write v f) = Catalog.identity f)
    (hkeeps : ∀ v (f : Frame), f.Keeps (may slot) (write v f)) (hwrite : ∀ v f, (write v f).misc m = v) :
    Update.Runs (Fills False may) σ (do let v ← miscValue token; edit slot (write v)) fun _ σ' =>
      MiscSet σ σ' slot m token := by
  have hvalue : Update.Runs (Fills False may) σ (miscValue token) fun v σ' => Means σ σ' token v :=
    (miscValue_runs h).imp (fun _ hfills => hfills.mono id nofun) fun _ _ _ => id
  refine .bind hvalue fun v σ₁ hfills hv => ?_
  refine edit_runs (hfills.indexed h) (hidentity v) (hkeeps v) fun σ₂ hfills' hnew f' hf' => ?_
  obtain ⟨f, rfl⟩ := hnew f' hf'
  rw [hwrite]
  exact hv.after hfills'

theorem writeMiscField_runs (h : σ.tables.Indexed) (m : MiscField) :
    Update.Runs (Fills False (At slot fun field => field = .misc m ∧ w.writes s m.key = true)) σ
      (writeMiscField w slot s m) fun _ σ' => w.writes s m.key = true → MiscSet σ σ' slot m (s.miscToken m) := by
  by_cases hw : w.writes s m.key = true
  · have hmay : At slot (fun field => field = .misc m ∧ w.writes s m.key = true) slot (.misc m) := ⟨rfl, rfl, hw⟩
    cases m with
    | misc1 =>
      rw [writeMiscField, writeMisc1, if_pos (show w.writes s "misc1" = true from hw)]
      exact (miscValue_edit_runs h .misc1 (fun misc1 f => { f with misc1 }) (fun _ _ => rfl) (fun _ _ => .misc1 hmay)
        fun _ _ => rfl).post fun _ _ _ hset _ => hset
    | misc2 =>
      rw [writeMiscField, writeMisc2, if_pos (show w.writes s "misc2" = true from hw)]
      exact (miscValue_edit_runs h .misc2 (fun misc2 f => { f with misc2 }) (fun _ _ => rfl) (fun _ _ => .misc2 hmay)
        fun _ _ => rfl).post fun _ _ _ hset _ => hset
  · have hskip : writeMiscField w slot s m = pure () := by
      cases m with
      | misc1 => exact if_neg hw
      | misc2 => exact if_neg hw
    rw [hskip]
    exact .pure fun h => absurd h hw

theorem writeParticleEvent_runs (h : σ.tables.Indexed) :
    Runs (Fills adds may) σ (writeParticleEvent w slot frame s) fun _ _ => True := by
  unfold writeParticleEvent
  split
  · refine .bind (.given (fun _ => trivial) fun _ _ => .ofExcept) fun _ _ hfills _ => .lift ?_
    exact edit_aside_runs (hfills.indexed h) fun _ => ⟨rfl, rfl⟩
  · exact .pure trivial

theorem writeMisc_runs (h : σ.tables.Indexed) (hslot : slot < σ.tables.frames.size) :
    Runs (Fills False (At slot (s.MiscWritten w))) σ (writeMisc w slot frame s) fun _ σ' =>
      ∀ m : MiscField, w.writes s m.key = true → MiscSet σ σ' slot m (s.miscToken m) := by
  refine .bind_within (.lift (writeMiscField_runs h .misc1)) (fun _ hfills => hfills.at id ?_)
    fun _ σ₁ hfills₁ hset₁ => ?_
  · rintro _ ⟨rfl, hw⟩
    exact ⟨.misc1, rfl, hw⟩
  have h₁ := hfills₁.indexed h
  refine .bind_within (.lift (writeMiscField_runs h₁ .misc2)) (fun _ hfills => hfills.at id ?_)
    fun _ σ₂ hfills₂ hset₂ => ?_
  · rintro _ ⟨rfl, hw⟩
    exact ⟨.misc2, rfl, hw⟩
  have hslot₁ := hfills₁.lt_size hslot
  have hslot₂ := hfills₂.lt_size hslot₁
  have hevent : Runs (Fills False (At slot fun _ => False)) σ₂ (writeParticleEvent w slot frame s) fun _ _ => True :=
    writeParticleEvent_runs (hfills₂.indexed h₁)
  refine hevent.imp (fun _ hfills => hfills.at id nofun) fun _ σ₃ hfills₃ _ m hw => ?_
  cases m with
  | misc1 =>
    have hkept : MiscSet σ σ₂ slot .misc1 _ := (hset₁ hw).after hslot₁ hfills₂ fun hmay => nomatch hmay
    exact hkept.after hslot₂ hfills₃ fun hmay => hmay.2
  | misc2 =>
    have hkept : MiscSet σ σ₂ slot .misc2 _ := (hset₂ hw).before hfills₁
    exact hkept.after hslot₂ hfills₃ fun hmay => hmay.2

theorem writeRest_runs (h : σ.tables.Indexed) (hslot : slot < σ.tables.frames.size) {inline : Option (List String)} :
    Runs (Fills False (At slot fun field => field = .args ∨ s.MiscWritten w field)) σ
      (writeRest w slot frame s inline) fun _ σ' =>
        ∀ m : MiscField, w.writes s m.key = true → MiscSet σ σ' slot m (s.miscToken m) := by
  -- With arguments or without, the flags and the misc fields come last.
  have hflags : ∀ {σ₁ : LoadState}, σ₁.tables.Indexed → slot < σ₁.tables.frames.size →
      Runs (Fills False (At slot fun field => field = .args ∨ s.MiscWritten w field)) σ₁
        (do edit slot fun f => { f with flags := setFlags s f.flags }; writeMisc w slot frame s) fun _ σ' =>
          ∀ m : MiscField, w.writes s m.key = true → MiscSet σ₁ σ' slot m (s.miscToken m) := by
    intro σ₁ h₁ hslot₁
    refine .bind (.lift (edit_aside_runs h₁ fun _ => ⟨rfl, rfl⟩)) fun _ σ₂ hfills₂ _ => ?_
    refine (writeMisc_runs (hfills₂.indexed h₁) (hfills₂.lt_size hslot₁)).imp
      (fun _ hfills => hfills.at id fun _ => .inr) ?_
    exact fun _ σ₃ _ hset m hw => (hset m hw).before hfills₂
  unfold writeRest
  split
  · refine .bind (.lift (writeArguments_runs h ⟨rfl, .inl rfl⟩)) fun _ σ₁ hfills₁ _ => ?_
    refine (hflags (hfills₁.indexed h) (hfills₁.lt_size hslot)).post fun _ σ₂ _ hset m hw => ?_
    exact (hset m hw).before hfills₁
  · exact hflags h hslot

def FieldsWritten (w : Writing) (s : Section) (field : Frame.Field) : Prop :=
  field = .next ∧ w.writes s "nextframe" = true ∨ field = .args ∨ s.MiscWritten w field

theorem writeFields_runs (h : σ.tables.Indexed) (hslot : slot < σ.tables.frames.size) :
    Runs (Fills True (At slot (FieldsWritten w s))) σ (writeFields w slot frame s) fun _ σ' =>
      (w.writes s "nextframe" = true → s.has "nextframe" = false → NextIsNull σ' slot) ∧
      ∀ m : MiscField, w.writes s m.key = true → MiscSet σ σ' slot m (s.miscToken m) := by
  refine .bind (.lift (writeSprite_runs h)) fun _ σ₁ hfills₁ _ => ?_
  have h₁ := hfills₁.indexed h
  refine .bind (writeSpriteFrame_runs h₁) fun _ σ₂ hfills₂ _ => ?_
  have h₂ := hfills₂.indexed h₁
  refine .bind (.lift (clearBlank_runs h₂)) fun _ σ₃ hfills₃ _ => ?_
  have h₃ := hfills₃.indexed h₂
  refine .bind (.lift (writeFullbright_runs h₃)) fun _ σ₄ hfills₄ _ => ?_
  have h₄ := hfills₄.indexed h₃
  refine .bind (.lift (writeTics_runs h₄)) fun _ σ₅ hfills₅ _ => ?_
  have h₅ := hfills₅.indexed h₄
  refine .bind (writeAction_runs h₅) fun inline σ₆ hfills₆ _ => ?_
  have hbefore := hfills₁.trans (hfills₂.trans (hfills₃.trans (hfills₄.trans (hfills₅.trans hfills₆))))
  have h₆ := hbefore.indexed h
  refine .bind_within (writeNext_runs h₆) (fun _ hfills => hfills.at id fun _ => .inl) fun _ σ₇ hfills₇ hnext => ?_
  have h₇ := hfills₇.indexed h₆
  have hslot₇ := hfills₇.lt_size (hbefore.lt_size hslot)
  refine (writeRest_runs h₇ hslot₇).imp (fun _ hfills => hfills.at (fun _ => trivial) fun _ => .inr) ?_
  intro _ σ₈ hfills₈ hset
  refine ⟨fun hw hdefault => (hnext hw hdefault).after hfills₈ fun hmay => ?_, fun m hw => ?_⟩
  · obtain ⟨-, hargs | ⟨m, hm, -⟩⟩ := hmay
    · cases hargs
    · cases hm
  · exact ((hset m hw).before hfills₇).before hbefore

theorem given_miscValue_runs (h : σ.tables.Indexed) {text : Option String} :
    Runs (Fills False fun _ _ => False) σ (given text 0 fun token => miscValue token) fun v σ' =>
      ∀ token, text = some token → Means σ σ' token v := by
  refine .given (fun hnone token htoken => nomatch hnone.symm.trans htoken) fun given hgiven => .lift ?_
  refine (miscValue_runs h).post fun v σ' _ hv token htoken => ?_
  exact Option.some.inj (hgiven.symm.trans htoken) ▸ hv

theorem packedBody_runs (h : σ.tables.Indexed) {p : PackedFrame} :
    Runs (Fills True fun _ _ => False) σ (packedBody slot frame p) fun body σ' =>
      (p.nextframe = none → body.next = σ'.tables.nullFrame) ∧
      ∀ m token, p.misc m = some token → Means σ σ' token (body.misc m) := by
  refine .bind (.given (fun _ => trivial) fun _ _ => .lift spriteNamed_runs) fun sprite σ₁ hfills₁ _ => ?_
  have h₁ := hfills₁.indexed h
  refine .bind (.given (fun _ => trivial) fun _ _ => .ofExcept) fun number σ₂ hfills₂ _ => ?_
  have h₂ := hfills₂.indexed h₁
  refine .bind (.given (fun _ => trivial) fun _ _ => .ofExcept) fun action σ₃ hfills₃ _ => ?_
  have h₃ := hfills₃.indexed h₂
  have hnext : Runs (Fills True fun _ _ => False) σ₃ (given p.nextframe σ₃.tables.nullFrame (nextFrame slot frame))
      fun next σ' => p.nextframe = none → next = σ'.tables.nullFrame :=
    .given (fun _ _ => rfl) fun target htarget =>
      (nextFrame_runs h₃).post fun _ _ _ _ hnone => nomatch hnone.symm.trans htarget
  refine .tables_bind (.bind hnext fun next σ₄ hfills₄ hnext => ?_)
  have h₄ := hfills₄.indexed h₃
  refine .bind (.given (fun _ => trivial) fun _ _ => .ofExcept) fun event σ₅ hfills₅ _ => ?_
  have hbefore := hfills₁.trans (hfills₂.trans (hfills₃.trans (hfills₄.trans hfills₅)))
  have h₅ := hbefore.indexed h
  have hadds : ∀ {σ₁ σ₂ : LoadState}, Fills False (fun _ _ => False) σ₁ σ₂ → Fills True (fun _ _ => False) σ₁ σ₂ :=
    fun hfills => hfills.mono nofun fun _ _ => id
  refine .bind_within (given_miscValue_runs h₅) (fun _ => hadds) fun misc1 σ₆ hfills₆ hmisc1 => ?_
  refine .bind_within (given_miscValue_runs (hfills₆.indexed h₅)) (fun _ => hadds) fun misc2 σ₇ hfills₇ hmisc2 => ?_
  refine .pure ⟨fun hnone => ?_, fun m token htoken => ?_⟩
  · have hnull := hfills₅.trans ((hadds hfills₆).trans (hadds hfills₇))
    exact (hnext hnone).trans hnull.nullFrame.symm
  · cases m with
    | misc1 => exact ((hmisc1 token htoken).after hfills₇).before hbefore
    | misc2 => exact (hmisc2 token htoken).before (hbefore.trans (hadds hfills₆))

theorem writePacked_runs (h : σ.tables.Indexed) (hslot : slot < σ.tables.frames.size) {text : String} :
    Runs (Fills True (At slot fun _ => True)) σ (writePacked slot frame text) fun _ σ' =>
      ((PackedFrame.parse text).nextframe = none → NextIsNull σ' slot) ∧
      ∀ m token, (PackedFrame.parse text).misc m = some token → MiscSet σ σ' slot m token := by
  refine .bind_within (packedBody_runs h) (fun _ hfills => hfills.mono id nofun)
    fun body σ₁ hfills₁ ⟨hnext, hmisc⟩ => ?_
  have h₁ := hfills₁.indexed h
  have hbody : Update.Runs (Fills False (At slot (· ≠ .args))) σ₁ (edit slot (·.withBody body)) fun _ σ' =>
      ((PackedFrame.parse text).nextframe = none → NextIsNull σ' slot) ∧
      ∀ m token, (PackedFrame.parse text).misc m = some token → MiscSet σ σ' slot m token := by
    refine edit_runs h₁ (fun _ => rfl) (fun _ => .withBody fun field hne => ⟨rfl, hne⟩) fun σ₂ hfills₂ hnew =>
      ⟨fun hnone f hf => ?_, fun m token htoken f hf => ?_⟩
    · obtain ⟨f', rfl⟩ := hnew f hf
      exact (hnext hnone).trans hfills₂.nullFrame.symm
    · obtain ⟨f', rfl⟩ := hnew f hf
      have hwritten : (f'.withBody body).misc m = body.misc m := by cases m <;> rfl
      rw [hwritten]
      exact (hmisc m token htoken).after hfills₂
  refine .bind_within (.lift hbody) (fun _ hfills => hfills.at nofun fun _ _ => trivial)
    fun _ σ₂ hfills₂ ⟨hnext, hmisc⟩ => ?_
  have hslot₂ := hfills₂.lt_size (hfills₁.lt_size hslot)
  have hrest : Runs (Fills False (At slot (· = .args))) σ₂ (do
      writeArguments slot frame (PackedFrame.parse text).args (PackedFrame.parse text).dropped
      if 0 < (PackedFrame.parse text).extra then warn (.extraFields frame (PackedFrame.parse text).extra))
      fun _ _ => True := by
    refine .bind (.lift (writeArguments_runs (hfills₂.indexed h₁) ⟨rfl, rfl⟩)) fun _ σ₃ hfills₃ _ => ?_
    split
    · exact .lift (warn_runs trivial)
    · exact .pure trivial
  refine hrest.imp (fun _ hfills => hfills.at nofun fun _ _ => trivial) fun _ σ₃ hfills₃ _ => ⟨fun hnone => ?_, ?_⟩
  · exact (hnext hnone).after hfills₃ fun hmay => nomatch hmay
  · exact fun m token htoken => (hmisc m token htoken).after hslot₂ hfills₃ fun hmay => nomatch hmay

end Load

namespace Turn

open LoadState (Fills MiscSet NextIsNull)

variable {σ : LoadState} {slot : Nat} {s : Section}

theorem GivesBody.touches {turn : Turn} (h : turn.GivesBody) (field : Frame.Field) : turn.Touches field := by
  match field with
  | .next => exact .inl h
  | .misc m => rw [Touches, h.1, Writing.writes]
  | .args => trivial

theorem touches_of_miscWritten (turn : Turn) {field : Frame.Field}
    (h : turn.source.MiscWritten turn.writing field) : turn.Touches field := by
  obtain ⟨m, rfl, hw⟩ := h
  exact hw

def Done (turn : Turn) (slot : Nat) (σ σ' : LoadState) : Prop :=
  (turn.GivesBody → ¬turn.WritesNext → NextIsNull σ' slot) ∧
    ∀ m token, turn.token? m = some token → MiscSet σ σ' slot m token

theorem Done.before {turn : Turn} {adds : Prop} {may : Nat → Frame.Field → Prop} {σ σ' σ'' : LoadState}
    (h : turn.Done slot σ' σ'') (hfills : Fills adds may σ σ') : turn.Done slot σ σ'' :=
  ⟨h.1, fun m token htoken => (h.2 m token htoken).before hfills⟩

theorem decorate_runs (h : σ.tables.Indexed) (hslot : slot < σ.tables.frames.size) {frame : String}
    (hdecorate : s.bool? "decorate" = some true) :
    Load.Runs (Fills True (At slot (Turn.mk .definition s).Touches)) σ (Load.writeMisc .definition slot frame s)
      fun _ σ' => (Turn.mk .definition s).Done slot σ σ' := by
  refine (Load.writeMisc_runs h hslot).imp (fun _ hfills => hfills.at nofun fun _ => touches_of_miscWritten ⟨_, s⟩) ?_
  refine fun _ σ' _ hset => ⟨fun hbody => absurd hdecorate hbody.2, fun m token htoken => ?_⟩
  have hpacked : (Turn.mk .definition s).packedText? = none := if_neg fun hplain => hplain.2 hdecorate
  rw [token?, hpacked] at htoken
  obtain rfl := Option.some.inj ((if_pos rfl).symm.trans htoken)
  exact hset m rfl

theorem packed_runs (h : σ.tables.Indexed) (hslot : slot < σ.tables.frames.size) {frame text : String}
    (hdecorate : s.bool? "decorate" ≠ some true) (hcmp : s.text? "cmp" = some text) :
    Load.Runs (Fills True (At slot (Turn.mk .definition s).Touches)) σ
      (do Load.writePacked slot frame text; Load.writeRest .delta slot frame s none)
      fun _ σ' => (Turn.mk .definition s).Done slot σ σ' := by
  have hbody : (Turn.mk .definition s).GivesBody := ⟨rfl, hdecorate⟩
  have hpacked : (Turn.mk .definition s).packedText? = some text := (if_pos hbody).trans hcmp
  refine .bind_within (Load.writePacked_runs h hslot)
    (fun _ hfills => hfills.at id fun field _ => hbody.touches field) ?_
  intro _ σ₁ hfills₁ ⟨hnext, hmisc⟩
  have hslot₁ := hfills₁.lt_size hslot
  refine (Load.writeRest_runs (hfills₁.indexed h) hslot₁).imp
    (fun _ hfills => hfills.at nofun fun field _ => hbody.touches field) fun _ σ₂ hfills₂ hset => ⟨fun _ hnot => ?_, ?_⟩
  · have hnone : (PackedFrame.parse text).nextframe = none := by
      by_contra hsome
      rw [WritesNext, hpacked] at hnot
      exact hnot hsome
    refine (hnext hnone).after hfills₂ fun hmay => ?_
    obtain ⟨-, hargs | ⟨m, hm, -⟩⟩ := hmay
    · cases hargs
    · cases hm
  · -- A misc field is taken from the packed text unless the section has a field of its own for it.
    intro m token htoken
    rw [token?, hpacked] at htoken
    simp only at htoken
    split at htoken
    · next hhas => exact Option.some.inj htoken ▸ (hset m hhas).before hfills₁
    · next hhas =>
      refine (hmisc m token htoken).after hslot₁ hfills₂ fun hmay => ?_
      obtain ⟨-, hargs | ⟨m', hm', hw⟩⟩ := hmay
      · cases hargs
      · cases hm'
        exact hhas hw

theorem fields_runs (h : σ.tables.Indexed) (hslot : slot < σ.tables.frames.size) {frame : String}
    (hdecorate : s.bool? "decorate" ≠ some true) (hcmp : s.text? "cmp" = none) :
    Load.Runs (Fills True (At slot (Turn.mk .definition s).Touches)) σ (Load.writeFields .definition slot frame s)
      fun _ σ' => (Turn.mk .definition s).Done slot σ σ' := by
  have hbody : (Turn.mk .definition s).GivesBody := ⟨rfl, hdecorate⟩
  have hpacked : (Turn.mk .definition s).packedText? = none := (if_pos hbody).trans hcmp
  refine (Load.writeFields_runs h hslot).imp (fun _ hfills => hfills.at id fun field _ => hbody.touches field) ?_
  intro _ σ' _ ⟨hnext, hset⟩
  refine ⟨fun _ hnot => hnext rfl (Bool.eq_false_iff.mpr fun hhas => ?_), fun m token htoken => ?_⟩
  · rw [WritesNext, hpacked] at hnot
    exact hnot ⟨hhas, fun _ => hdecorate⟩
  · rw [token?, hpacked] at htoken
    obtain rfl := Option.some.inj ((if_pos rfl).symm.trans htoken)
    exact hset m rfl

theorem amend_runs (h : σ.tables.Indexed) (hslot : slot < σ.tables.frames.size) :
    Load.Runs (Fills True (At slot (Turn.mk .delta s).Touches)) σ (Load.amend slot s)
      fun _ σ' => (Turn.mk .delta s).Done slot σ σ' := by
  have hpacked : (Turn.mk .delta s).packedText? = none := if_neg fun hplain => nomatch hplain.1
  refine .nameOf_bind ((Load.writeFields_runs h hslot).imp (fun _ hfills => hfills.at id fun field hfield => ?_) ?_)
  · rcases hfield with ⟨rfl, hw⟩ | rfl | hmisc
    · refine .inr ?_
      rw [WritesNext, hpacked]
      exact ⟨hw, nofun⟩
    · trivial
    · exact touches_of_miscWritten ⟨_, s⟩ hmisc
  · refine fun _ σ' _ hset => ⟨fun hbody => (nomatch hbody.1), fun m token htoken => ?_⟩
    rw [token?, hpacked] at htoken
    simp only at htoken
    split at htoken
    · next hw => exact Option.some.inj htoken ▸ hset.2 m hw
    · cases htoken

theorem runs (h : σ.tables.Indexed) (hslot : slot < σ.tables.frames.size) (turn : Turn) :
    Load.Runs (Fills True (At slot turn.Touches)) σ (turn.run slot) fun _ σ' => turn.Done slot σ σ' := by
  obtain ⟨writing, s⟩ := turn
  cases writing with
  | delta => exact amend_runs h hslot
  | definition =>
    refine .nameOf_bind (.bind (.lift (Load.edit_aside_runs h fun _ => ⟨rfl, rfl⟩)) fun _ σ₁ hfills₁ _ => ?_)
    have h₁ := hfills₁.indexed h
    have hslot₁ := hfills₁.lt_size hslot
    split
    · next hdecorate =>
      exact (decorate_runs h₁ hslot₁ hdecorate).post fun _ _ _ hdone => hdone.before hfills₁
    · next hdecorate =>
      split
      · next hcmp =>
        exact (packed_runs h₁ hslot₁ hdecorate hcmp).post fun _ _ _ hdone => hdone.before hfills₁
      · next hcmp =>
        exact (fields_runs h₁ hslot₁ hdecorate hcmp).post fun _ _ _ hdone => hdone.before hfills₁

end Turn

end FrameTable
