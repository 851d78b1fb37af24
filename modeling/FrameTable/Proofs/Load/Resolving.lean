import FrameTable.Load.Reference
import FrameTable.Proofs.Catalog.Evolution
import FrameTable.Proofs.Load.Acts

namespace FrameTable

def ReferencesFrame (token name : String) : Prop :=
  (∃ label target, Text.splitLabel? token = some (label, target) ∧ MiscLabel.ofName? label = some .frame ∧
    Text.same target name = true) ∨
  (Text.splitLabel? token = none ∧ miscNumber? token = none ∧ Text.same token name = true)

namespace Tables

variable {tokens : String → Prop} {t t' : Tables} {slot i : Nat} {f : Frame} {name token : String}

structure Resolves (tokens : String → Prop) (t t' : Tables) : Prop where
  frames_le : t.frames.size ≤ t'.frames.size
  record : ∀ {i f}, t.frames.get? i = some f → ∃ id, t'.frames.get? i = some { f with legacyId := id } ∧
    (id = f.legacyId ∨ ∃ token, tokens token)
  consistent : t.frames.Consistent → t'.frames.Consistent
  amends : t.frames.Consistent → t.frames.Amends [] t'.frames
  numbers : t.frames.Consistent → ∀ {i f f'}, t.frames.get? i = some f → t'.frames.get? i = some f' →
    f'.legacyId = f.legacyId ∨ ∃ token, tokens token ∧ ReferencesFrame token f.name

theorem resolves_of_frames_eq (h : t'.frames = t.frames) : Resolves tokens t t' where
  frames_le := Nat.le_of_eq (congrArg Catalog.size h.symm)
  record hf := ⟨_, h ▸ hf, .inl rfl⟩
  consistent hc := h ▸ hc
  amends _ := h ▸ .refl _ _
  numbers _ _ _ _ hf hf' := by
    rw [h, hf] at hf'
    exact .inl (Option.some.inj hf' ▸ rfl)

instance : Std.Refl (Resolves tokens) where
  refl _ := resolves_of_frames_eq rfl

instance : IsTrans Tables (Resolves tokens) where
  trans a b c h h' :=
    { frames_le := Nat.le_trans h.frames_le h'.frames_le
      record := fun {i f} hf => by
        obtain ⟨id, hb, hid⟩ := h.record hf
        obtain ⟨id', hc, hid'⟩ := h'.record hb
        refine ⟨id', hc, ?_⟩
        rcases hid' with rfl | htoken
        · exact hid
        · exact .inr htoken
      consistent := fun hc => h'.consistent (h.consistent hc)
      amends := fun hc => (h.amends hc).trans (h'.amends (h.consistent hc))
      numbers := fun hc {i f f''} hf hf'' => by
        obtain ⟨id, hb, -⟩ := h.record hf
        rcases h'.numbers (h.consistent hc) hb hf'' with hkept | hnumbered
        · rw [hkept]
          exact h.numbers hc hf hb
        · exact .inr hnumbered }

theorem Resolves.lt_size (h : Resolves tokens t t') (hslot : slot < t.frames.size) : slot < t'.frames.size :=
  Nat.lt_of_lt_of_le hslot h.frames_le

theorem resolves_claimId (htoken : tokens token) (hname : t.frames.slotNamed? name = some i)
    (hrefers : ∀ {other}, Text.same name other = true → ReferencesFrame token other) :
    Resolves tokens t { t with frames := (t.frames.claimId i).2 } where
  frames_le := Nat.le_of_eq (t.frames.size_claimId i).symm
  record hf := by
    obtain ⟨id, hf'⟩ := t.frames.get?_claimId i hf
    exact ⟨id, hf', .inr ⟨token, htoken⟩⟩
  consistent hc := by
    obtain ⟨f, hf, -⟩ := hc.slotNamed?_eq_some_iff.mp hname
    have hclaimed : _ ∧ t.frames.Amends [] _ ∧ _ := hc.amends_claimId hf
    exact hclaimed.1
  amends hc := by
    obtain ⟨f, hf, -⟩ := hc.slotNamed?_eq_some_iff.mp hname
    exact (hc.amends_claimId hf).2.1
  numbers hc {j g g'} hg hg' := by
    -- Only the record that the token refers to by name can get another id.
    obtain ⟨f, hf, hsame⟩ := hc.slotNamed?_eq_some_iff.mp hname
    by_cases hj : j = i
    · subst hj
      obtain rfl := Option.some.inj (hf.symm.trans hg)
      exact .inr ⟨token, htoken, hrefers (Text.same_comm _ _ ▸ hsame)⟩
    · rw [t.frames.get?_claimId_of_ne (Ne.symm hj), hg] at hg'
      exact .inl (Option.some.inj hg' ▸ rfl)

theorem resolves_addFrame {entry : Frame} {frames : Catalog Frame} (hdefine : t.frames.define entry = .ok (i, frames))
    (hnew : t.frames.slotNamed? entry.name = none) (hneg : entry.legacyId < 0) :
    Resolves tokens t { t with frames } := by
  obtain ⟨hsize, hget⟩ := Catalog.get?_of_define hnew hdefine
  have hold : ∀ {j g}, t.frames.get? j = some g → frames.get? j = some g := fun {j g} hg => by
    rw [hget, if_neg (Nat.ne_of_lt (Catalog.lt_size_of_get? hg)), hg]
  exact
    { frames_le := hsize ▸ Nat.le_succ _
      record := fun hg => ⟨_, hold hg, .inl rfl⟩
      consistent := fun hc => (hc.define hdefine).1
      amends := fun hc => hc.amends_define hnew hneg hdefine
      numbers := fun _ _ _ _ hg hg' => .inl (Option.some.inj (hg'.symm.trans (hold hg)) ▸ rfl) }

end Tables

namespace Load

open Tables (Resolves)

variable {tokens : String → Prop} {t : Tables} {slot i : Nat} {frame name token : String}

theorem run_claimId {ε : Type} [Record ε] (kind : Kind) (get : Tables → Catalog ε)
    (put : Tables → Catalog ε → Tables) (fallback : Tables → Int) (i : Nat) (t : Tables) (warnings : Array Warning) :
    (claimId kind get put fallback i).run ⟨t, warnings⟩ =
      match ((get t).claimId i).1 with
      | .ok number => (number, ⟨put t ((get t).claimId i).2, warnings⟩)
      | .error _ => (fallback t, ⟨put t ((get t).claimId i).2,
          warnings.push (.poolExhausted kind ((((get t).get? i).map Record.name).getD ""))⟩) := by
  cases hclaim : (get t).claimId i with
  | mk result catalog =>
    cases result <;> simp [claimId, tables, setTables, warn, hclaim] <;> rfl

theorem claimId_acts {ε : Type} [Record ε] {R : Tables → Tables → Prop} {kind : Kind} {get : Tables → Catalog ε}
    {put : Tables → Catalog ε → Tables} {fallback : Tables → Int} {catalog : Contents → Catalog ε}
    (hclaim : ∀ c, (get (t.withContents slot c)).claimId i = (((get t).claimId i).1, catalog c))
    (hput : ∀ c, put (t.withContents slot c) (catalog c) = (put t ((get t).claimId i).2).withContents slot c)
    (hname : ∀ c, ((get (t.withContents slot c)).get? i).map Record.name = ((get t).get? i).map Record.name)
    (hfallback : ∀ c, fallback (t.withContents slot c) = fallback t) (hR : R t (put t ((get t).claimId i).2)) :
    Update.Acts slot R t (claimId kind get put fallback i) fun _ act _ => act = id := by
  cases hresult : ((get t).claimId i).1 with
  | ok number =>
    refine ⟨number, _, #[], id, fun c warnings => ?_, hR, rfl⟩
    simp only [run_claimId, hclaim, hresult, hput, Array.append_empty, id]
  | error error =>
    let warning : Warning := .poolExhausted kind ((((get t).get? i).map Record.name).getD "")
    refine ⟨fallback t, _, #[warning], id, fun c warnings => ?_, hR, rfl⟩
    simp only [run_claimId, hclaim, hresult, hput, hname, hfallback, ← Array.push_eq_append, id, warning]

theorem frameValue_acts (htoken : tokens token) (hname : t.frames.slotNamed? name = some i)
    (hrefers : ∀ {other}, Text.same name other = true → ReferencesFrame token other) :
    Update.Acts slot (Resolves tokens) t (frameValue i) fun _ act _ => act = id := by
  refine claimId_acts (fun c => t.frames.claimId_modify slot i fun _ _ => rfl) (fun _ => rfl) (fun c => ?_)
    (fun _ => rfl) (Tables.resolves_claimId htoken hname hrefers)
  exact t.name_withContents slot c i

theorem thingValue_acts : Update.Acts slot (Resolves tokens) t (thingValue i) fun _ act _ => act = id :=
  claimId_acts (fun _ => rfl) (fun _ => rfl) (fun _ => rfl) (fun _ => rfl) (Tables.resolves_of_frames_eq rfl)

theorem soundValue_acts : Update.Acts slot (Resolves tokens) t (soundValue i) fun _ act _ => act = id :=
  claimId_acts (fun _ => rfl) (fun _ => rfl) (fun _ => rfl) (fun _ => rfl) (Tables.resolves_of_frames_eq rfl)

theorem stringValue_acts : Update.Acts slot (Resolves tokens) t (stringValue name) fun _ act _ => act = id := by
  refine .tables_bind (fun _ => rfl) ?_
  simp only
  split
  · exact .warn_bind (.pure rfl)
  · exact .pure rfl

theorem labelledValue_acts (htoken : tokens token) {label : MiscLabel}
    (hrefers : label = .frame → ∀ {other}, Text.same name other = true → ReferencesFrame token other) :
    Update.Acts slot (Resolves tokens) t (labelledValue label name) fun _ act _ => act = id := by
  refine .tables_bind (fun _ => rfl) ?_
  cases label with
  | frame =>
    cases hname : t.frames.slotNamed? name with
    | some i => exact frameValue_acts htoken hname (hrefers rfl)
    | none => exact .warn_bind (.pure rfl)
  | thing =>
    cases hname : t.things.slotNamed? name with
    | some i => exact thingValue_acts
    | none => exact .warn_bind (.pure rfl)
  | sound =>
    cases hname : t.sounds.slotNamed? name with
    | some i => exact soundValue_acts
    | none => exact .warn_bind soundValue_acts
  | flags word => exact .pure rfl
  | codePointer =>
    cases hname : CodePointer.find? name with
    | some position => exact .pure rfl
    | none => exact .warn_bind (.pure rfl)
  | string => exact stringValue_acts

theorem bareValue_acts (htoken : tokens token)
    (hrefers : ∀ {other}, Text.same token other = true → ReferencesFrame token other) :
    Update.Acts slot (Resolves tokens) t (bareValue token) fun _ act _ => act = id := by
  refine .tables_bind (fun _ => rfl) ?_
  split
  · exact thingValue_acts
  split
  · next i hname => exact frameValue_acts htoken hname hrefers
  split
  · exact soundValue_acts
  split
  · exact stringValue_acts
  split
  · exact .pure rfl
  · exact .warn_bind (.pure rfl)

theorem miscValue_acts (htoken : tokens token) :
    Update.Acts slot (Resolves tokens) t (miscValue token) fun _ act _ => act = id := by
  unfold miscValue
  split
  · exact .warn_bind (.pure rfl)
  · next label name _ hsplit =>
    split
    · next label' hlabel =>
      refine labelledValue_acts htoken fun hframe other hsame => .inl ⟨label, name, hsplit, ?_, hsame⟩
      rw [hlabel, hframe]
    · exact .warn_bind (.pure rfl)
  · next hsplit =>
    split
    · exact .pure rfl
    · next hnumber => exact bareValue_acts htoken fun hsame => .inr ⟨hsplit, hnumber, hsame⟩

theorem spriteNamed_acts_of {R : Tables → Tables → Prop} [Std.Refl R] (hR : ∀ sprites, R t { t with sprites }) :
    Update.Acts slot R t (spriteNamed frame name) fun _ act _ => act = id := by
  unfold spriteNamed
  split
  · exact .pure rfl
  cases hdefine : t.sprites.define name with
  | mk sprite sprites =>
    have hsprites : ∀ c, (t.withContents slot c).sprites.define name = (sprite, sprites) := fun _ => hdefine
    cases sprite with
    | some sprite =>
      refine ⟨sprite, { t with sprites }, #[], id, fun c warnings => ?_, hR sprites, rfl⟩
      simp [tables, setTables, hsprites]
      rfl
    | none =>
      refine .tables_bind (fun c => ?_) ?_
      · simp only [hsprites, hdefine]
      · simp only [hdefine]
        exact .warn_bind (.pure rfl)

theorem spriteNamed_acts : Update.Acts slot (Resolves tokens) t (spriteNamed frame name) fun _ act _ => act = id :=
  spriteNamed_acts_of fun _ => Tables.resolves_of_frames_eq rfl

def placeholder (t : Tables) (name : String) : Frame :=
  { index := t.frames.size, name, legacyId := -1, next := t.nullFrame }

theorem run_addFrame (frame name : String) (t : Tables) (warnings : Array Warning) :
    (addFrame frame name).run.run ⟨t, warnings⟩ =
      match t.frames.define (placeholder t name) with
      | .ok (i, frames) => (.ok i, ⟨{ t with frames }, warnings.push (.implicitFrame frame name)⟩)
      | .error error => (.error (.catalog error), ⟨t, warnings⟩) := by
  have hstep : (addFrame frame name).run.run ⟨t, warnings⟩ =
      (ofCatalog (t.frames.define (placeholder t name)) >>= fun added => do
        setTables { t with frames := added.2 }
        warn (.implicitFrame frame name)
        return added.1 : Load Nat).run.run ⟨t, warnings⟩ := rfl
  rw [hstep]
  cases t.frames.define (placeholder t name) <;> rfl

theorem run_addFrame_withContents (hslot : slot < t.frames.size) (hnew : t.frames.slotNamed? name = none) (c : Contents)
    (warnings : Array Warning) : (addFrame frame name).run.run ⟨t.withContents slot c, warnings⟩ =
      match t.frames.define (placeholder t name) with
      | .ok (i, frames) =>
        (.ok i, ⟨{ t with frames }.withContents slot c, warnings.push (.implicitFrame frame name)⟩)
      | .error error => (.error (.catalog error), ⟨t.withContents slot c, warnings⟩) := by
  have hdefine : (t.withContents slot c).frames.define (placeholder (t.withContents slot c) name) =
      (t.frames.define (placeholder t name)).map fun result =>
        (result.1, result.2.modify slot (·.withContents c)) := by
    rw [placeholder, Tables.size_withContents]
    exact t.frames.define_modify hslot (·.withContents c) hnew
  rw [run_addFrame, hdefine]
  cases t.frames.define (placeholder t name) <;> rfl

theorem addFrame_acts (hslot : slot < t.frames.size) (hnew : t.frames.slotNamed? name = none) :
    Acts slot (Resolves tokens) t (addFrame frame name) fun _ act _ => act = id := by
  cases hresult : t.frames.define (placeholder t name) with
  | error error =>
    refine ⟨.error (.catalog error), t, #[], id, fun c warnings => ?_, Std.Refl.refl t, nofun⟩
    rw [run_addFrame_withContents hslot hnew, hresult, Array.append_empty]
    rfl
  | ok result =>
    obtain ⟨i, frames⟩ := result
    have hneg : (placeholder t name).legacyId < 0 := Int.negSucc_lt_zero 0
    refine ⟨.ok i, { t with frames }, #[.implicitFrame frame name], id, fun c warnings => ?_,
      Tables.resolves_addFrame hresult hnew hneg, fun _ _ => rfl⟩
    rw [run_addFrame_withContents hslot hnew, hresult, ← Array.push_eq_append]
    rfl

end Load

theorem Successor.slot?_withContents (successor : Successor) (t : Tables) (slot : Nat) (c : Contents) (i : Nat) :
    successor.slot? (t.withContents slot c) i = successor.slot? t i := by
  cases successor with
  | next => simp only [slot?, Tables.size_withContents]
  | previous | this | null => rfl

namespace Load

open Tables (Resolves)

variable {tokens : String → Prop} {t : Tables} {slot : Nat} {frame target : String}

theorem nextFrame_acts (hslot : slot < t.frames.size) :
    Acts slot (Resolves tokens) t (nextFrame slot frame target) fun _ act _ => act = id := by
  refine .tables_bind (fun c => ?_) ?_
  · have hname : (t.withContents slot c).frames.slotNamed? target = t.frames.slotNamed? target := rfl
    have hnumber : ∀ n, (t.withContents slot c).frames.slotNumbered? n = t.frames.slotNumbered? n := fun _ => rfl
    simp only [Successor.slot?_withContents, hname, hnumber]
  split
  · split
    · exact .pure rfl
    · exact .raise
  · split
    · exact .pure rfl
    · next hname =>
      split
      · exact addFrame_acts hslot hname
      · split
        · exact .pure rfl
        · exact .raise

end Load

end FrameTable
