import FrameTable.Proofs.Load.Filling

namespace FrameTable

inductive Referable where
  | frame
  | thing
  | sound
deriving DecidableEq, Repr

namespace Referable

def label : Referable → MiscLabel
  | .frame => .frame
  | .thing => .thing
  | .sound => .sound

def kind : Referable → Kind
  | .frame => .frame
  | .thing => .thing
  | .sound => .sound

def slotNamed? (t : Tables) : Referable → String → Option Nat
  | .frame => t.frames.slotNamed?
  | .thing => t.things.slotNamed?
  | .sound => t.sounds.slotNamed?

def slotNumbered? (t : Tables) : Referable → Int → Option Nat
  | .frame => t.frames.slotNumbered?
  | .thing => t.things.slotNumbered?
  | .sound => t.sounds.slotNumbered?

def identity? (t : Tables) : Referable → Nat → Option (String × Int)
  | .frame => fun slot => (t.frames.get? slot).map Catalog.identity
  | .thing => fun slot => (t.things.get? slot).map Catalog.identity
  | .sound => fun slot => (t.sounds.get? slot).map Catalog.identity

theorem label_injective {j k : Referable} (h : j.label = k.label) : j = k := by
  cases j <;> cases k <;> first | rfl | cases h

end Referable

def Refers (token : String) (k : Referable) (name : String) : Prop :=
  ∃ label, Text.splitLabel? token = some (label, name) ∧ name ≠ "" ∧ MiscLabel.ofName? label = some k.label

namespace LoadState

variable {adds : Prop} {may : Nat → Frame.Field → Prop} {σ σ₁ σ₂ σ₃ : LoadState} {k : Referable} {slot : Nat}
  {v : Int} {token : String} {warning : Warning}

def Logged (σ σ' : LoadState) (warning : Warning) : Prop :=
  ∃ added, σ'.warnings = σ.warnings ++ added ∧ warning ∈ added

def Settles (σ σ' : LoadState) (k : Referable) (slot : Nat) (v : Int) : Prop :=
  ∃ e, k.identity? σ'.tables slot = some e ∧ (0 ≤ v ∧ e.2 = v ∨ Logged σ σ' (.poolExhausted k.kind e.1))

def Means (σ σ' : LoadState) (token : String) (v : Int) : Prop :=
  ∀ k name slot, Refers token k name → k.slotNamed? σ'.tables name = some slot → Settles σ σ' k slot v

theorem Logged.of_push {σ' : LoadState} (h : σ'.warnings = σ.warnings.push warning) : Logged σ σ' warning :=
  ⟨#[warning], by rw [h, Array.push_eq_append], by simp⟩

theorem Logged.before (h : Logged σ₂ σ₃ warning) (hwarnings : ∃ added, σ₂.warnings = σ₁.warnings ++ added) :
    Logged σ₁ σ₃ warning := by
  obtain ⟨added, hadded, hmem⟩ := h
  obtain ⟨added', hadded'⟩ := hwarnings
  exact ⟨added' ++ added, by rw [hadded, hadded', Array.append_assoc], Array.mem_append_right _ hmem⟩

theorem Logged.after (h : Logged σ₁ σ₂ warning) (hfills : Fills adds may σ₂ σ₃) : Logged σ₁ σ₃ warning := by
  obtain ⟨added, hadded, hmem⟩ := h
  obtain ⟨added', hadded'⟩ := hfills.warnings
  exact ⟨added ++ added', by rw [hadded', hadded, Array.append_assoc], Array.mem_append_left _ hmem⟩

theorem Fills.identity? (h : Fills adds may σ₁ σ₂) {e : String × Int} (he : k.identity? σ₁.tables slot = some e) :
    ∃ e', k.identity? σ₂.tables slot = some e' ∧ e'.1 = e.1 ∧ (0 ≤ e.2 → e'.2 = e.2) := by
  cases k with
  | frame => exact h.frames.identity? he
  | thing => exact h.things.identity? he
  | sound => exact h.sounds.identity? he

theorem Fills.slotNamed?_eq (h : Fills False may σ₁ σ₂) (k : Referable) (name : String) :
    k.slotNamed? σ₂.tables name = k.slotNamed? σ₁.tables name := by
  cases k with
  | frame => exact h.frameNames not_false name
  | thing => exact h.thingNames name
  | sound => exact h.soundNames name

theorem Fills.sole (hfills : Fills adds may σ₁ σ₂) (h : σ₂.tables.Indexed)
    (hneg : ∀ e, k.identity? σ₁.tables slot = some e → e.2 < 0) {e : String × Int}
    (he : k.identity? σ₂.tables slot = some e) (hnonneg : 0 ≤ e.2) :
    k.slotNumbered? σ₂.tables e.2 = some slot ∧
      ∀ i e', k.identity? σ₂.tables i = some e' → e'.2 = e.2 → i = slot := by
  cases k with
  | frame => exact h.frames.sole_of_numbers hfills.frames hneg he hnonneg
  | thing => exact h.things.sole_of_numbers hfills.things hneg he hnonneg
  | sound => exact h.sounds.sole_of_numbers hfills.sounds hneg he hnonneg

theorem Settles.before (h : Settles σ₂ σ₃ k slot v) (hfills : Fills adds may σ₁ σ₂) : Settles σ₁ σ₃ k slot v := by
  obtain ⟨e, he, hv⟩ := h
  exact ⟨e, he, hv.imp_right fun hlogged => hlogged.before hfills.warnings⟩

theorem Settles.after (h : Settles σ₁ σ₂ k slot v) (hfills : Fills adds may σ₂ σ₃) : Settles σ₁ σ₃ k slot v := by
  obtain ⟨e, he, hv⟩ := h
  obtain ⟨e', he', hname, hid⟩ := hfills.identity? he
  refine ⟨e', he', ?_⟩
  rcases hv with ⟨hnonneg, rfl⟩ | hlogged
  · exact .inl ⟨hnonneg, hid hnonneg⟩
  · exact .inr (hname ▸ hlogged.after hfills)

theorem Means.before (h : Means σ₂ σ₃ token v) (hfills : Fills adds may σ₁ σ₂) : Means σ₁ σ₃ token v :=
  fun k name slot hrefers hname => (h k name slot hrefers hname).before hfills

theorem Means.after (h : Means σ₁ σ₂ token v) (hfills : Fills False may σ₂ σ₃) : Means σ₁ σ₃ token v :=
  fun k name slot hrefers hname =>
    (h k name slot hrefers ((hfills.slotNamed?_eq k name).symm.trans hname)).after hfills

end LoadState

namespace Load

open LoadState (Fills Settles Means Logged)

variable {adds : Prop} {may : Nat → Frame.Field → Prop} {σ : LoadState} {slot i : Nat} {frame name token : String}

theorem claimId_runs {ε : Type} [Record ε] {kind : Kind} {get : Tables → Catalog ε} {put : Tables → Catalog ε → Tables}
    {fallback : Tables → Int} {e : ε} (hc : (get σ.tables).Consistent) (he : (get σ.tables).get? i = some e)
    (hput : ∀ c, get (put σ.tables c) = c)
    (hfills : Fills adds may σ { σ with tables := put σ.tables ((get σ.tables).claimId i).2 }) :
    Update.Runs (Fills adds may) σ (claimId kind get put fallback i) fun v σ' =>
      ∃ e', (get σ'.tables).get? i = some e' ∧
        (0 ≤ v ∧ Record.number e' = v ∨ Logged σ σ' (.poolExhausted kind (Record.name e'))) := by
  have hrun := run_claimId kind get put fallback i σ.tables σ.warnings
  rw [Update.Runs, show StateT.run (claimId kind get put fallback i) σ = _ from hrun]
  rcases hc.claimId_cases he with ⟨hnonneg, hclaim⟩ | ⟨-, error, pool, hclaim, -⟩ |
    ⟨-, id, c', hclaim, -, -, hget, hnonneg, -⟩
  · rw [hclaim] at hfills ⊢
    refine ⟨hfills, e, ?_, .inl ⟨hnonneg, rfl⟩⟩
    rw [hput]
    exact he
  · rw [hclaim] at hfills ⊢
    refine ⟨hfills.trans (.warn _ _), e, ?_, .inr ?_⟩
    · rw [hput]
      exact he
    · rw [he]
      exact .of_push rfl
  · rw [hclaim] at hfills ⊢
    refine ⟨hfills, Record.withNumber e id, ?_, .inl ⟨hnonneg, Record.number_withNumber e id⟩⟩
    rw [hput, hget, if_pos rfl, he]
    rfl

theorem frameValue_runs (h : σ.tables.Indexed) (hname : σ.tables.frames.slotNamed? name = some i) :
    Update.Runs (Fills adds may) σ (frameValue i) fun v σ' => Settles σ σ' .frame i v := by
  obtain ⟨f, hf, -⟩ := h.frames.slotNamed?_eq_some_iff.mp hname
  refine (claimId_runs h.frames hf (fun _ => rfl) (.frameId h hf)).post fun v σ' _ ⟨f', hf', hv⟩ => ?_
  exact ⟨Catalog.identity f', congrArg (Option.map Catalog.identity) hf', hv⟩

theorem thingValue_runs (h : σ.tables.Indexed) (hname : σ.tables.things.slotNamed? name = some i) :
    Update.Runs (Fills adds may) σ (thingValue i) fun v σ' => Settles σ σ' .thing i v := by
  obtain ⟨e, he, -⟩ := h.things.slotNamed?_eq_some_iff.mp hname
  refine (claimId_runs h.things he (fun _ => rfl) (.thingId h he)).post fun v σ' _ ⟨e', he', hv⟩ => ?_
  exact ⟨Catalog.identity e', congrArg (Option.map Catalog.identity) he', hv⟩

theorem soundValue_runs (h : σ.tables.Indexed) (hname : σ.tables.sounds.slotNamed? name = some i) :
    Update.Runs (Fills adds may) σ (soundValue i) fun v σ' => Settles σ σ' .sound i v := by
  obtain ⟨e, he, -⟩ := h.sounds.slotNamed?_eq_some_iff.mp hname
  refine (claimId_runs h.sounds he (fun _ => rfl) (.soundId h he)).post fun v σ' _ ⟨e', he', hv⟩ => ?_
  exact ⟨Catalog.identity e', congrArg (Option.map Catalog.identity) he', hv⟩

theorem warn_runs {warning : Warning} {Q : Unit → LoadState → Prop}
    (h : Q () { σ with warnings := σ.warnings.push warning }) : Update.Runs (Fills adds may) σ (warn warning) Q :=
  .warn (.warn σ warning) h

theorem warn_pure_runs {α : Type} {warning : Warning} {a : α} {Q : α → LoadState → Prop}
    (h : Q a { σ with warnings := σ.warnings.push warning }) :
    Update.Runs (Fills adds may) σ (do warn warning; return a) Q :=
  ⟨.warn σ warning, h⟩

theorem stringValue_runs {name : String} : Update.Runs (Fills adds may) σ (stringValue name) fun _ _ => True := by
  refine .tables_bind ?_
  simp only
  split
  · exact warn_pure_runs trivial
  · exact .pure trivial

theorem referableValue_runs (h : σ.tables.Indexed) (k : Referable) :
    Update.Runs (Fills adds may) σ (labelledValue k.label name) fun v σ' =>
      ∀ i, k.slotNamed? σ.tables name = some i → Settles σ σ' k i v := by
  refine .tables_bind ?_
  cases k with
  | frame =>
    cases hname : σ.tables.frames.slotNamed? name with
    | some i =>
      refine (frameValue_runs h hname).post fun v σ' _ hv j hj => ?_
      exact Option.some.inj (hname.symm.trans hj) ▸ hv
    | none => exact warn_pure_runs fun j hj => nomatch hname.symm.trans hj
  | thing =>
    cases hname : σ.tables.things.slotNamed? name with
    | some i =>
      refine (thingValue_runs h hname).post fun v σ' _ hv j hj => ?_
      exact Option.some.inj (hname.symm.trans hj) ▸ hv
    | none => exact warn_pure_runs fun j hj => nomatch hname.symm.trans hj
  | sound =>
    cases hname : σ.tables.sounds.slotNamed? name with
    | some i =>
      refine (soundValue_runs h hname).post fun v σ' _ hv j hj => ?_
      exact Option.some.inj (hname.symm.trans hj) ▸ hv
    | none =>
      refine .bind (warn_runs (Q := fun _ _ => True) trivial) fun _ σ' hfills _ => ?_
      have hnull := (hfills.indexed h).nullSound
      exact (soundValue_runs (hfills.indexed h) hnull).post fun _ _ _ _ j hj => nomatch hname.symm.trans hj

theorem labelledValue_runs (h : σ.tables.Indexed) {label : MiscLabel} :
    Update.Runs (Fills adds may) σ (labelledValue label name) fun v σ' =>
      ∀ k i, label = k.label → k.slotNamed? σ.tables name = some i → Settles σ σ' k i v := by
  cases label with
  | frame =>
    refine (referableValue_runs h .frame).post fun v σ' _ hv k i hk => ?_
    exact Referable.label_injective (j := .frame) hk ▸ hv i
  | thing =>
    refine (referableValue_runs h .thing).post fun v σ' _ hv k i hk => ?_
    exact Referable.label_injective (j := .thing) hk ▸ hv i
  | sound =>
    refine (referableValue_runs h .sound).post fun v σ' _ hv k i hk => ?_
    exact Referable.label_injective (j := .sound) hk ▸ hv i
  | flags word => exact .tables_bind (.pure fun k i hk => by cases k <;> cases hk)
  | codePointer =>
    refine .tables_bind ?_
    cases hname : CodePointer.find? name with
    | some position => exact .pure fun k i hk => by cases k <;> cases hk
    | none => exact warn_pure_runs fun k i hk => by cases k <;> cases hk
  | string =>
    refine .tables_bind (stringValue_runs.post fun _ _ _ _ k i hk => ?_)
    cases k <;> cases hk

theorem bareValue_runs (h : σ.tables.Indexed) : Update.Runs (Fills adds may) σ (bareValue name) fun _ _ => True := by
  refine .tables_bind ?_
  split
  · next hname => exact (thingValue_runs h hname).post fun _ _ _ _ => trivial
  split
  · next hname => exact (frameValue_runs h hname).post fun _ _ _ _ => trivial
  split
  · next hname => exact (soundValue_runs h hname).post fun _ _ _ _ => trivial
  split
  · exact stringValue_runs
  split
  · exact .pure trivial
  · exact warn_pure_runs trivial

theorem miscValue_runs (h : σ.tables.Indexed) : Update.Runs (Fills False fun _ _ => False) σ (miscValue token)
    fun v σ' => Means σ σ' token v := by
  unfold miscValue
  split
  · next hsplit =>
    refine warn_pure_runs fun k other i hrefers => ?_
    obtain ⟨label, hlabel, hne, -⟩ := hrefers
    rw [hsplit] at hlabel
    exact absurd (congrArg Prod.snd (Option.some.inj hlabel)).symm hne
  · next label name _ hsplit =>
    have hlabel_eq : ∀ {k other}, Refers token k other → other = name ∧ MiscLabel.ofName? label = some k.label := by
      rintro k other ⟨label', hlabel', -, hk⟩
      obtain ⟨rfl, rfl⟩ := Prod.mk.inj (Option.some.inj (hsplit.symm.trans hlabel'))
      exact ⟨rfl, hk⟩
    split
    · next label' hlabel =>
      refine (labelledValue_runs h).post fun v σ' hfills hv k other i hrefers hi => ?_
      obtain ⟨rfl, hk⟩ := hlabel_eq hrefers
      rw [hfills.slotNamed?_eq] at hi
      exact hv k i (Option.some.inj (hlabel.symm.trans hk)) hi
    · next hnone =>
      refine warn_pure_runs fun k other i hrefers => ?_
      cases hnone.symm.trans (hlabel_eq hrefers).2
  · next hsplit =>
    have hno : ∀ {v σ'}, Means σ σ' token v := fun _ _ _ ⟨label, hlabel, _⟩ => nomatch hsplit.symm.trans hlabel
    split
    · exact .pure hno
    · exact (bareValue_runs h).post fun _ _ _ _ => hno

theorem spriteNamed_runs : Update.Runs (Fills adds may) σ (spriteNamed frame name) fun _ _ => True := by
  unfold spriteNamed
  split
  · exact .pure trivial
  refine .tables_bind ?_
  split
  · next sprites _ => exact ⟨.sprites σ sprites, trivial⟩
  · exact warn_pure_runs trivial

theorem addFrame_runs (h : σ.tables.Indexed) (hnew : σ.tables.frames.slotNamed? name = none) :
    Runs (Fills True may) σ (addFrame frame name) fun _ _ => True := by
  have hrun := run_addFrame frame name σ.tables σ.warnings
  rw [Runs, Update.Runs, show StateT.run (addFrame frame name).run σ = _ from hrun]
  cases hdefine : σ.tables.frames.define (placeholder σ.tables name) with
  | error error => exact ⟨.refl σ, fun _ _ => trivial⟩
  | ok result =>
    have hadded : Fills True may σ { σ with tables.frames := result.2 } := .addFrame h trivial hnew hdefine
    exact ⟨hadded.trans (.warn _ _), fun _ _ => trivial⟩

theorem nextFrame_runs (h : σ.tables.Indexed) {target : String} :
    Runs (Fills True may) σ (nextFrame slot frame target) fun next σ' =>
      target = Frame.nullName → next = σ'.tables.nullFrame := by
  refine .tables_bind ?_
  split
  · next special htarget =>
    have hne : target ≠ Frame.nullName := by
      intro heq
      have hhead : Frame.nullName.toList.head? = some '@' := by rw [← heq, htarget, List.head?_cons]
      exact absurd hhead (by decide)
    split
    · exact .pure fun heq => absurd heq hne
    · exact .raise
  · split
    · next next hname =>
      refine .pure fun heq => ?_
      rw [heq, h.nullFrame] at hname
      exact (Option.some.inj hname).symm
    · next hname =>
      have hne : target ≠ Frame.nullName := by
        rintro rfl
        cases hname.symm.trans h.nullFrame
      split
      · exact (addFrame_runs h hname).post fun _ _ _ _ heq => absurd heq hne
      · split
        · exact .pure fun heq => absurd heq hne
        · exact .raise

end Load

end FrameTable
