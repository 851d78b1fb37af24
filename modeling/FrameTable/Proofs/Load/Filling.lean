import FrameTable.Proofs.Catalog.Numbering
import FrameTable.Proofs.Load.Resolving
import FrameTable.Proofs.Load.Runs
import FrameTable.Proofs.Tables.Soundness

namespace FrameTable

inductive MiscField where
  | misc1
  | misc2
deriving DecidableEq, Repr

def MiscField.key : MiscField → String
  | .misc1 => "misc1"
  | .misc2 => "misc2"

namespace Frame

def misc (f : Frame) : MiscField → Int
  | .misc1 => f.misc1
  | .misc2 => f.misc2

inductive Field where
  | next
  | misc (m : MiscField)
  | args
deriving DecidableEq, Repr

def Agrees (f f' : Frame) : Field → Prop
  | .next => f'.next = f.next
  | .misc m => f'.misc m = f.misc m
  | .args => f'.args = f.args

def Unevaluated (f : Frame) : Prop :=
  ∀ args, f.args = some args → ∀ c ∈ args.cells, c.cached = none

theorem Unevaluated.of_args_eq_none {f : Frame} (h : f.args = none) : f.Unevaluated := by
  intro args hargs
  cases h.symm.trans hargs

structure Keeps (may : Field → Prop) (f f' : Frame) : Prop where
  agrees : ∀ field, ¬may field → f.Agrees f' field
  args : f'.args = f.args ∨ f'.Unevaluated

variable {may : Field → Prop} {f f' f'' : Frame}

theorem Agrees.trans {field : Field} (h : f.Agrees f' field) (h' : f'.Agrees f'' field) : f.Agrees f'' field := by
  cases field <;> exact Eq.trans h' h

theorem Keeps.of_eq (h : (f'.next, f'.misc1, f'.misc2, f'.args) = (f.next, f.misc1, f.misc2, f.args)) :
    f.Keeps may f' := by
  simp only [Prod.mk.injEq] at h
  obtain ⟨hnext, hmisc1, hmisc2, hargs⟩ := h
  refine ⟨fun field _ => ?_, .inl hargs⟩
  match field with
  | .next => exact hnext
  | .misc .misc1 => exact hmisc1
  | .misc .misc2 => exact hmisc2
  | .args => exact hargs

theorem Keeps.next {next : Nat} (h : may .next) : f.Keeps may { f with next } := by
  refine ⟨fun field hnot => ?_, .inl rfl⟩
  match field with
  | .next => exact absurd h hnot
  | .misc .misc1 => rfl
  | .misc .misc2 => rfl
  | .args => rfl

theorem Keeps.misc1 {misc1 : Int} (h : may (.misc .misc1)) : f.Keeps may { f with misc1 } := by
  refine ⟨fun field hnot => ?_, .inl rfl⟩
  match field with
  | .next => rfl
  | .misc .misc1 => exact absurd h hnot
  | .misc .misc2 => rfl
  | .args => rfl

theorem Keeps.misc2 {misc2 : Int} (h : may (.misc .misc2)) : f.Keeps may { f with misc2 } := by
  refine ⟨fun field hnot => ?_, .inl rfl⟩
  match field with
  | .next => rfl
  | .misc .misc1 => rfl
  | .misc .misc2 => exact absurd h hnot
  | .args => rfl

theorem Keeps.replace {values : List String} (h : may .args) :
    f.Keeps may { f with args := some ((f.args.getD .empty).replace values) } := by
  refine ⟨fun field hnot => ?_, .inr fun args hargs c hc => ?_⟩
  · match field with
    | .next => rfl
    | .misc .misc1 => rfl
    | .misc .misc2 => rfl
    | .args => exact absurd h hnot
  · obtain rfl := Option.some.inj hargs
    obtain ⟨text, -, rfl⟩ := List.mem_map.mp hc
    rfl

theorem Keeps.withBody {body : FrameBody} (h : ∀ field, field ≠ .args → may field) : f.Keeps may (f.withBody body) := by
  refine ⟨fun field hnot => ?_, .inl rfl⟩
  match field with
  | .next => exact absurd (h .next nofun) hnot
  | .misc m => exact absurd (h (.misc m) nofun) hnot
  | .args => rfl

theorem Keeps.trans (h : f.Keeps may f') (h' : f'.Keeps may f'') : f.Keeps may f'' where
  agrees field hnot := (h.agrees field hnot).trans (h'.agrees field hnot)
  args := by
    rcases h'.args with hsame | hfresh
    · rcases h.args with hsame' | hfresh
      · exact .inl (hsame.trans hsame')
      · exact .inr fun args hargs => hfresh args (hsame ▸ hargs)
    · exact .inr hfresh

end Frame

structure Tables.Indexed (t : Tables) : Prop where
  frames : t.frames.Consistent
  things : t.things.Consistent
  sounds : t.sounds.Consistent
  nullFrame : t.frames.slotNamed? Frame.nullName = some t.nullFrame
  nullSound : t.sounds.slotNamed? Sound.null.mnemonic = some Sound.nullSlot

theorem Tables.Ready.indexed {t : Tables} (h : t.Ready) : t.Indexed where
  frames := h.frames
  things := h.things
  sounds := h.sounds
  nullFrame := h.nullFrame
  nullSound := h.nullSound

namespace LoadState

variable {adds adds' : Prop} {may may' : Nat → Frame.Field → Prop} {σ σ' : LoadState}

structure Fills (adds : Prop) (may : Nat → Frame.Field → Prop) (σ σ' : LoadState) : Prop where
  indexed : σ.tables.Indexed → σ'.tables.Indexed
  frames : σ.tables.frames.Numbers σ'.tables.frames
  things : σ.tables.things.Numbers σ'.tables.things
  sounds : σ.tables.sounds.Numbers σ'.tables.sounds
  frameNames : ¬adds → ∀ name, σ'.tables.frames.slotNamed? name = σ.tables.frames.slotNamed? name
  thingNames : ∀ name, σ'.tables.things.slotNamed? name = σ.tables.things.slotNamed? name
  soundNames : ∀ name, σ'.tables.sounds.slotNamed? name = σ.tables.sounds.slotNamed? name
  nullFrame : σ'.tables.nullFrame = σ.tables.nullFrame
  kept : ∀ {i f}, σ.tables.frames.get? i = some f →
    ∃ f', σ'.tables.frames.get? i = some f' ∧ f.Keeps (may i) f'
  added : ∀ {i f'}, σ'.tables.frames.get? i = some f' → σ.tables.frames.get? i = none →
    (¬may i .next → f'.next = σ.tables.nullFrame) ∧ f'.Unevaluated
  warnings : ∃ added, σ'.warnings = σ.warnings ++ added

namespace Fills

theorem refl (σ : LoadState) : Fills adds may σ σ where
  indexed h := h
  frames := .refl _
  things := .refl _
  sounds := .refl _
  frameNames _ _ := rfl
  thingNames _ := rfl
  soundNames _ := rfl
  nullFrame := rfl
  kept hf := ⟨_, hf, .of_eq rfl⟩
  added hf hnone := by
    rw [hnone] at hf
    cases hf
  warnings := ⟨#[], (Array.append_empty).symm⟩

theorem trans {σ₁ σ₂ σ₃ : LoadState} (h : Fills adds may σ₁ σ₂) (h' : Fills adds may σ₂ σ₃) :
    Fills adds may σ₁ σ₃ where
  indexed hσ := h'.indexed (h.indexed hσ)
  frames := h.frames.trans h'.frames
  things := h.things.trans h'.things
  sounds := h.sounds.trans h'.sounds
  frameNames hnot name := (h'.frameNames hnot name).trans (h.frameNames hnot name)
  thingNames name := (h'.thingNames name).trans (h.thingNames name)
  soundNames name := (h'.soundNames name).trans (h.soundNames name)
  nullFrame := h'.nullFrame.trans h.nullFrame
  kept hf := by
    obtain ⟨f', hf', hkeeps⟩ := h.kept hf
    obtain ⟨f'', hf'', hkeeps'⟩ := h'.kept hf'
    exact ⟨f'', hf'', hkeeps.trans hkeeps'⟩
  added {i f''} hf'' hnone := by
    cases hmiddle : σ₂.tables.frames.get? i with
    | none =>
      obtain ⟨hnext, hargs⟩ := h'.added hf'' hmiddle
      exact ⟨fun hnot => (hnext hnot).trans h.nullFrame, hargs⟩
    | some f' =>
      obtain ⟨hnext, hargs⟩ := h.added hmiddle hnone
      obtain ⟨f₃, hf₃, hkeeps⟩ := h'.kept hmiddle
      obtain rfl := Option.some.inj (hf''.symm.trans hf₃)
      refine ⟨fun hnot => ?_, ?_⟩
      · have hsame : f''.next = f'.next := hkeeps.agrees .next hnot
        exact hsame.trans (hnext hnot)
      · rcases hkeeps.args with hsame | hfresh
        · exact fun args h => hargs args (hsame ▸ h)
        · exact hfresh
  warnings := by
    obtain ⟨added, hadded⟩ := h.warnings
    obtain ⟨added', hadded'⟩ := h'.warnings
    exact ⟨added ++ added', by rw [hadded', hadded, Array.append_assoc]⟩

instance : Std.Refl (Fills adds may) := ⟨refl⟩

instance : IsTrans LoadState (Fills adds may) := ⟨fun _ _ _ => trans⟩

theorem mono (h : Fills adds may σ σ') (hadds : adds → adds') (hmay : ∀ i field, may i field → may' i field) :
    Fills adds' may' σ σ' :=
  { h with
    frameNames := fun hnot => h.frameNames fun hadd => hnot (hadds hadd)
    kept := fun hf => by
      obtain ⟨f', hf', hkeeps⟩ := h.kept hf
      exact ⟨f', hf', fun field hnot => hkeeps.agrees field fun hfield => hnot (hmay _ _ hfield), hkeeps.args⟩
    added := fun hf hnone => by
      obtain ⟨hnext, hargs⟩ := h.added hf hnone
      exact ⟨fun hnot => hnext fun hfield => hnot (hmay _ _ hfield), hargs⟩ }

theorem warn (σ : LoadState) (warning : Warning) :
    Fills adds may σ { σ with warnings := σ.warnings.push warning } :=
  { (refl σ : Fills adds may σ σ) with warnings := ⟨#[warning], Array.push_eq_append⟩ }

theorem sprites (σ : LoadState) (sprites : Sprites) : Fills adds may σ { σ with tables.sprites := sprites } :=
  { (refl σ : Fills adds may σ σ) with indexed := fun h => { h with } }

theorem frameId (h : σ.tables.Indexed) {i : Nat} {f : Frame} (hf : σ.tables.frames.get? i = some f) :
    Fills adds may σ { σ with tables.frames := (σ.tables.frames.claimId i).2 } := by
  obtain ⟨hframes, hnumbers, horigin⟩ := h.frames.numbers_claimId hf
  exact
    { (refl σ : Fills adds may σ σ) with
      indexed := fun _ => { h with frames := hframes, nullFrame := hnumbers.names h.nullFrame }
      frames := hnumbers
      frameNames := fun _ name => σ.tables.frames.slotNamed?_claimId i name
      kept := fun hf' => by
        obtain ⟨id, hid⟩ := σ.tables.frames.get?_claimId i hf'
        exact ⟨_, hid, .of_eq rfl⟩
      added := fun hf' hnone => by
        obtain ⟨f', hf''⟩ := horigin hf'
        rw [hnone] at hf''
        cases hf'' }

theorem thingId (h : σ.tables.Indexed) {i : Nat} {e : Thing} (he : σ.tables.things.get? i = some e) :
    Fills adds may σ { σ with tables.things := (σ.tables.things.claimId i).2 } := by
  obtain ⟨hthings, hnumbers, -⟩ := h.things.numbers_claimId he
  exact
    { (refl σ : Fills adds may σ σ) with
      indexed := fun _ => { h with things := hthings }
      things := hnumbers
      thingNames := σ.tables.things.slotNamed?_claimId i }

theorem soundId (h : σ.tables.Indexed) {i : Nat} {e : Sound} (he : σ.tables.sounds.get? i = some e) :
    Fills adds may σ { σ with tables.sounds := (σ.tables.sounds.claimId i).2 } := by
  obtain ⟨hsounds, hnumbers, -⟩ := h.sounds.numbers_claimId he
  exact
    { (refl σ : Fills adds may σ σ) with
      indexed := fun _ => { h with sounds := hsounds, nullSound := hnumbers.names h.nullSound }
      sounds := hnumbers
      soundNames := σ.tables.sounds.slotNamed?_claimId i }

theorem addFrame (h : σ.tables.Indexed) (hadds : adds) {name : String} {i : Nat} {frames : Catalog Frame}
    (hnew : σ.tables.frames.slotNamed? (Load.placeholder σ.tables name).name = none)
    (hdefine : σ.tables.frames.define (Load.placeholder σ.tables name) = .ok (i, frames)) :
    Fills adds may σ { σ with tables.frames := frames } := by
  obtain ⟨hsize, hget⟩ := Catalog.get?_of_define hnew hdefine
  have hneg : (Load.placeholder σ.tables name).legacyId < 0 := Int.negSucc_lt_zero 0
  have hnumbers := h.frames.numbers_define hnew hneg hdefine
  exact
    { (refl σ : Fills adds may σ σ) with
      indexed := fun _ =>
        { h with frames := (h.frames.define hdefine).1, nullFrame := hnumbers.names h.nullFrame }
      frames := hnumbers
      frameNames := fun hnot => absurd hadds hnot
      kept := fun {j f} hf => by
        refine ⟨f, ?_, .of_eq rfl⟩
        rw [hget, if_neg (Nat.ne_of_lt (Catalog.lt_size_of_get? hf)), hf]
      added := fun {j f} hf hnone => by
        rw [hget] at hf
        split at hf
        · obtain rfl := Option.some.inj hf
          exact ⟨fun _ => rfl, nofun⟩
        · rw [hnone] at hf
          cases hf }

theorem edit (h : σ.tables.Indexed) {slot : Nat} {g : Frame → Frame}
    (hidentity : ∀ f, Catalog.identity (g f) = Catalog.identity f) (hkeeps : ∀ f : Frame, f.Keeps (may slot) (g f)) :
    Fills adds may σ { σ with tables.frames := σ.tables.frames.modify slot g } := by
  have hget : ∀ i, (σ.tables.frames.modify slot g).get? i =
      if slot = i then (σ.tables.frames.get? i).map g else σ.tables.frames.get? i :=
    fun i => Store.get?_modify _ _ _ _
  exact
    { (refl σ : Fills adds may σ σ) with
      indexed := fun _ => { h with frames := h.frames.modify hidentity }
      frames := Catalog.numbers_modify _ _ hidentity
      kept := fun {i f} hf => by
        rw [hget, hf]
        split
        · next hi => exact ⟨g f, rfl, hi ▸ hkeeps f⟩
        · exact ⟨f, rfl, .of_eq rfl⟩
      added := fun {i f} hf hnone => by
        rw [hget, hnone] at hf
        split at hf <;> cases hf }

end Fills

end LoadState

end FrameTable
