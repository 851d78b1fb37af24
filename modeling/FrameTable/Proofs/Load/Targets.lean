import FrameTable.Proofs.Load.Stable
import FrameTable.Proofs.Load.Turns

namespace FrameTable

namespace LoadState

variable {σ σ' : LoadState} {adds : Prop} {may : Nat → Frame.Field → Prop} {slot : Nat} {target : String}

def Nameable (σ : LoadState) (target : String) : Prop :=
  target.toList.head? ≠ some '@' ∧
    (σ.tables.frames.slotNamed? target ≠ none ∨ Number.wholeInteger? target = none)

def Leads (σ : LoadState) (slot : Nat) (target : String) : Prop :=
  ∃ next, σ.tables.frames.slotNamed? target = some next ∧
    ∀ f, σ.tables.frames.get? slot = some f → f.next = next

theorem Nameable.after (h : σ.Nameable target) (hfills : Fills adds may σ σ') : σ'.Nameable target := by
  refine ⟨h.1, h.2.imp_left fun hknown hnone => ?_⟩
  obtain ⟨next, hnext⟩ := Option.ne_none_iff_exists'.mp hknown
  cases (hfills.frames.names hnext).symm.trans hnone

theorem Leads.after (h : σ.Leads slot target) (hslot : slot < σ.tables.frames.size) (hfills : Fills adds may σ σ')
    (hnot : ¬may slot .next) : σ'.Leads slot target := by
  obtain ⟨next, hname, hnext⟩ := h
  refine ⟨next, hfills.frames.names hname, fun f' hf' => ?_⟩
  obtain ⟨f, hf⟩ := Store.exists_get? hslot
  obtain ⟨f₁, hf₁, hkeeps⟩ := hfills.kept hf
  obtain rfl := Option.some.inj (hf'.symm.trans hf₁)
  have hsame : f'.next = f.next := hkeeps.agrees .next hnot
  exact hsame.trans (hnext f hf)

end LoadState

namespace Load

open LoadState (Fills Nameable Leads)

variable {may : Nat → Frame.Field → Prop} {σ : LoadState} {slot : Nat} {frame name target : String} {s : Section}
  {w : Writing}

theorem addFrame_leads (h : σ.tables.Indexed) (hnew : σ.tables.frames.slotNamed? name = none) :
    Runs (Fills True may) σ (addFrame frame name) fun next σ' => σ'.tables.frames.slotNamed? name = some next := by
  have hrun := run_addFrame frame name σ.tables σ.warnings
  obtain ⟨hfills, -⟩ : Runs (Fills True may) σ (addFrame frame name) fun _ _ => True := addFrame_runs h hnew
  refine ⟨hfills, ?_⟩
  rw [show StateT.run (addFrame frame name).run σ = _ from hrun]
  cases hdefine : σ.tables.frames.define (placeholder σ.tables name) with
  | error error => exact nofun
  | ok result =>
    rintro next hnext
    obtain rfl := Except.ok.inj hnext
    obtain ⟨hframes, -, -, hget, -⟩ := h.frames.define hdefine
    exact hframes.slotNamed?_name ((hget _).trans (if_pos rfl))

theorem nextFrame_leads (h : σ.tables.Indexed) (htarget : σ.Nameable target) :
    Runs (Fills True may) σ (nextFrame slot frame target) fun next σ' =>
      σ'.tables.frames.slotNamed? target = some next := by
  refine .tables_bind ?_
  split
  · next special hspecial =>
    refine absurd ?_ htarget.1
    rw [hspecial, List.head?_cons]
  · split
    · next next hname => exact .pure hname
    · next hname =>
      rw [htarget.2.resolve_left (· hname)]
      exact addFrame_leads h hname

theorem writeNext_leads (h : σ.tables.Indexed) :
    Runs (Fills True (At slot (· = .next))) σ (writeNext w slot frame s) fun _ σ' =>
      w.writes s "nextframe" = true → σ.Nameable ((s.text? "nextframe").getD Frame.nullName) →
        σ'.Leads slot ((s.text? "nextframe").getD Frame.nullName) := by
  unfold writeNext
  split
  · next hw =>
    have hresolve : Runs (Fills True (At slot (· = .next))) σ
        (nextFrame slot frame ((s.text? "nextframe").getD Frame.nullName)) fun next σ' =>
          σ.Nameable ((s.text? "nextframe").getD Frame.nullName) →
            σ'.tables.frames.slotNamed? ((s.text? "nextframe").getD Frame.nullName) = some next := by
      by_cases htarget : σ.Nameable ((s.text? "nextframe").getD Frame.nullName)
      · exact (nextFrame_leads h htarget).post fun _ _ _ hnext _ => hnext
      · exact (nextFrame_runs h).post fun _ _ _ _ hnameable => absurd hnameable htarget
    refine .bind hresolve fun next σ₁ hfills hnext => .lift ?_
    refine edit_runs (hfills.indexed h) (fun _ => rfl) (fun _ => .next ⟨rfl, rfl⟩) fun σ₂ hfills' hnew _ htarget => ?_
    refine ⟨next, hfills'.frames.names (hnext htarget), fun f hf => ?_⟩
    obtain ⟨f', rfl⟩ := hnew f hf
    rfl
  · next hw => exact .pure fun hwrites => absurd hwrites hw

theorem writeFields_leads (h : σ.tables.Indexed) (hslot : slot < σ.tables.frames.size) :
    Runs (Fills True (At slot fun _ => True)) σ (writeFields w slot frame s) fun _ σ' =>
      w.writes s "nextframe" = true → σ.Nameable ((s.text? "nextframe").getD Frame.nullName) →
        σ'.Leads slot ((s.text? "nextframe").getD Frame.nullName) := by
  refine .bind (.lift (writeSprite_runs h)) fun _ σ₁ hfills₁ _ => ?_
  have h₁ := hfills₁.indexed h
  refine .bind (writeSpriteFrame_runs h₁) fun _ σ₂ hfills₂ _ => ?_
  have h₂ := hfills₂.indexed h₁
  refine .bind (.lift (clearBlank_runs h₂)) fun _ σ₃ hfills₃ _ => ?_
  have h₃ := hfills₃.indexed h₂
  refine .bind (.lift (writeFullbright_runs h₃)) fun _ σ₄ hfills₄ _ => ?_
  have h₄ := hfills₄.indexed h₃
  refine .bind (.lift (writeTics_runs h₄)) fun _ σ₅ hfills₅ _ => ?_
  have h₅ := hfills₅.indexed h₄
  refine .bind (writeAction_runs h₅) fun inline σ₆ hfills₆ _ => ?_
  have hbefore := hfills₁.trans (hfills₂.trans (hfills₃.trans (hfills₄.trans (hfills₅.trans hfills₆))))
  have h₆ := hbefore.indexed h
  refine .bind_within (writeNext_leads h₆) (fun _ hfills => hfills.at id fun _ _ => trivial)
    fun _ σ₇ hfills₇ hleads => ?_
  have hslot₇ := hfills₇.lt_size (hbefore.lt_size hslot)
  refine (writeRest_runs (hfills₇.indexed h₆) hslot₇).imp (fun _ hfills => hfills.at nofun fun _ _ => trivial) ?_
  intro _ σ₈ hfills₈ _ hwrites htarget
  refine (hleads hwrites (htarget.after hbefore)).after hslot₇ hfills₈ fun hmay => ?_
  obtain ⟨-, hargs | ⟨m, hm, -⟩⟩ := hmay
  · cases hargs
  · cases hm

theorem packedBody_leads (h : σ.tables.Indexed) {p : PackedFrame} (target : String) :
    Runs (Fills True fun _ _ => False) σ (packedBody slot frame p) fun body σ' =>
      p.nextframe = some target → σ.Nameable target → σ'.tables.frames.slotNamed? target = some body.next := by
  refine .bind (.given (fun _ => trivial) fun _ _ => .lift spriteNamed_runs) fun sprite σ₁ hfills₁ _ => ?_
  have h₁ := hfills₁.indexed h
  refine .bind (.given (fun _ => trivial) fun _ _ => .ofExcept) fun number σ₂ hfills₂ _ => ?_
  have h₂ := hfills₂.indexed h₁
  refine .bind (.given (fun _ => trivial) fun _ _ => .ofExcept) fun action σ₃ hfills₃ _ => ?_
  have hbefore := hfills₁.trans (hfills₂.trans hfills₃)
  have h₃ := hbefore.indexed h
  have hnext : Runs (Fills True fun _ _ => False) σ₃ (given p.nextframe σ₃.tables.nullFrame (nextFrame slot frame))
      fun next σ' => p.nextframe = some target → σ₃.Nameable target →
        σ'.tables.frames.slotNamed? target = some next := by
    refine .given (fun hnone htarget => nomatch hnone.symm.trans htarget) fun given hgiven => ?_
    by_cases hnameable : σ₃.Nameable given
    · refine (nextFrame_leads h₃ hnameable).post fun next _ _ hnext htarget _ => ?_
      exact Option.some.inj (hgiven.symm.trans htarget) ▸ hnext
    · refine (nextFrame_runs h₃).post fun _ _ _ _ htarget hnameable' => ?_
      exact absurd (Option.some.inj (hgiven.symm.trans htarget) ▸ hnameable') hnameable
  refine .tables_bind (.bind hnext fun next σ₄ hfills₄ hnext => ?_)
  have h₄ := hfills₄.indexed h₃
  refine .bind (.given (fun _ => trivial) fun _ _ => .ofExcept) fun event σ₅ hfills₅ _ => ?_
  have h₅ := hfills₅.indexed h₄
  have hadds : ∀ {σ₁ σ₂ : LoadState}, Fills False (fun _ _ => False) σ₁ σ₂ → Fills True (fun _ _ => False) σ₁ σ₂ :=
    fun hfills => hfills.mono nofun fun _ _ => id
  refine .bind_within (given_miscValue_runs h₅) (fun _ => hadds) fun misc1 σ₆ hfills₆ _ => ?_
  refine .bind_within (given_miscValue_runs (hfills₆.indexed h₅)) (fun _ => hadds) fun misc2 σ₇ hfills₇ _ => ?_
  have hafter := hfills₅.trans ((hadds hfills₆).trans (hadds hfills₇))
  exact .pure fun htarget hnameable => hafter.frames.names (hnext htarget (hnameable.after hbefore))

theorem writePacked_leads (h : σ.tables.Indexed) (hslot : slot < σ.tables.frames.size) {text : String}
    (target : String) :
    Runs (Fills True (At slot fun _ => True)) σ (writePacked slot frame text) fun _ σ' =>
      (PackedFrame.parse text).nextframe = some target → σ.Nameable target → σ'.Leads slot target := by
  refine .bind_within (packedBody_leads h target) (fun _ hfills => hfills.mono id nofun) fun body σ₁ hfills₁ hnext => ?_
  have h₁ := hfills₁.indexed h
  have hbody : Update.Runs (Fills False (At slot (· ≠ .args))) σ₁ (edit slot (·.withBody body)) fun _ σ' =>
      (PackedFrame.parse text).nextframe = some target → σ.Nameable target → σ'.Leads slot target := by
    refine edit_runs h₁ (fun _ => rfl) (fun _ => .withBody fun field hne => ⟨rfl, hne⟩)
      fun σ₂ hfills₂ hnew htarget hnameable => ⟨body.next, ?_, fun f hf => ?_⟩
    · exact hfills₂.frames.names (hnext htarget hnameable)
    · obtain ⟨f', rfl⟩ := hnew f hf
      rfl
  refine .bind_within (.lift hbody) (fun _ hfills => hfills.at nofun fun _ _ => trivial)
    fun _ σ₂ hfills₂ hleads => ?_
  have hslot₂ := hfills₂.lt_size (hfills₁.lt_size hslot)
  have hrest : Runs (Fills False (At slot (· = .args))) σ₂ (do
      writeArguments slot frame (PackedFrame.parse text).args (PackedFrame.parse text).dropped
      if 0 < (PackedFrame.parse text).extra then warn (.extraFields frame (PackedFrame.parse text).extra))
      fun _ _ => True := by
    refine .bind (.lift (writeArguments_runs (hfills₂.indexed h₁) ⟨rfl, rfl⟩)) fun _ σ₃ hfills₃ _ => ?_
    split
    · exact .lift (warn_runs trivial)
    · exact .pure trivial
  refine hrest.imp (fun _ hfills => hfills.at nofun fun _ _ => trivial) fun _ σ₃ hfills₃ _ htarget hnameable => ?_
  exact (hleads htarget hnameable).after hslot₂ hfills₃ fun hmay => nomatch hmay

end Load

namespace Turn

open LoadState (Fills Nameable Leads)

variable {σ : LoadState} {slot : Nat} {target : String}

theorem successor?_delta {s : Section} (h : (Turn.mk .delta s).successor? = some target) :
    s.has "nextframe" = true ∧ (s.text? "nextframe").getD Frame.nullName = target := by
  simp only [successor?, packedText?_delta, Option.ite_none_right_eq_some, Option.some.injEq] at h
  exact ⟨h.1.1, h.2⟩

theorem successor?_plain {s : Section} (hcmp : s.text? "cmp" = none)
    (h : (Turn.mk .definition s).successor? = some target) :
    (s.text? "nextframe").getD Frame.nullName = target := by
  have hpacked : (Turn.mk .definition s).packedText? = none := by
    unfold packedText?
    split
    · exact hcmp
    · rfl
  simp only [successor?, hpacked, Option.ite_none_right_eq_some, Option.some.injEq] at h
  exact h.2

theorem not_decorate_of_successor? {s : Section} (h : (Turn.mk .definition s).successor? = some target) :
    s.bool? "decorate" ≠ some true := by
  intro hdecorate
  have hpacked : (Turn.mk .definition s).packedText? = none := if_neg fun hplain => hplain.2 hdecorate
  simp only [successor?, hpacked, Option.ite_none_right_eq_some] at h
  exact h.1.2 trivial hdecorate

theorem leads (turn : Turn) (h : σ.tables.Indexed) (hslot : slot < σ.tables.frames.size)
    (hsuccessor : turn.successor? = some target) (htarget : σ.Nameable target) :
    Load.Runs (Fills True (At slot fun _ => True)) σ (turn.run slot) fun _ σ' => σ'.Leads slot target := by
  obtain ⟨writing, s⟩ := turn
  cases writing with
  | delta =>
    obtain ⟨hhas, rfl⟩ := successor?_delta hsuccessor
    exact .nameOf_bind ((Load.writeFields_leads h hslot).post fun _ _ _ hleads => hleads hhas htarget)
  | definition =>
    have hplain := not_decorate_of_successor? hsuccessor
    refine .nameOf_bind (.bind (.lift (Load.edit_aside_runs h fun _ => ⟨rfl, rfl⟩)) fun _ σ₁ hfills _ => ?_)
    have h₁ := hfills.indexed h
    have hslot₁ := hfills.lt_size hslot
    rw [if_neg hplain]
    split
    · next text hcmp =>
      rw [successor?_of_packedText? ((packedText?_definition hplain).trans hcmp)] at hsuccessor
      refine .bind (Load.writePacked_leads h₁ hslot₁ target) fun _ σ₂ hfills₂ hleads => ?_
      have hslot₂ := hfills₂.lt_size hslot₁
      refine (Load.writeRest_runs (hfills₂.indexed h₁) hslot₂).imp (fun _ hfills => hfills.at nofun fun _ _ => trivial) ?_
      intro _ σ₃ hfills₃ _
      refine (hleads hsuccessor (htarget.after hfills)).after hslot₂ hfills₃ fun hmay => ?_
      obtain ⟨-, hargs | ⟨m, hm, -⟩⟩ := hmay
      · cases hargs
      · cases hm
    · next hcmp =>
      obtain rfl := successor?_plain hcmp hsuccessor
      exact (Load.writeFields_leads h₁ hslot₁).post fun _ _ _ hleads => hleads rfl (htarget.after hfills)

end Turn

end FrameTable
