import FrameTable.Proofs.Load.Turns

namespace FrameTable

namespace Load

theorem run_addSprite (name : String) (σ : LoadState) :
    (addSprite name).run σ =
      match (σ.tables.sprites.define name).1 with
      | some _ => ((), { σ with tables.sprites := (σ.tables.sprites.define name).2 })
      | none => ((), { σ with warnings := σ.warnings.push (.invalidSpriteName name) }) := by
  rw [addSprite, run_update_tables_bind]
  split
  · next hdefine => rw [hdefine]; rfl
  · next hdefine => rw [hdefine]; rfl

def afterDefine {ε : Type} [Record ε] (σ : LoadState) (put : Catalog ε → LoadState) :
    Except CatalogError (Nat × Catalog ε) → Except LoadError Unit × LoadState
  | .ok (_, catalog) => (.ok (), put catalog)
  | .error error => (.error (.catalog error), σ)

theorem run_define {ε : Type} [Record ε] {σ : LoadState} (result : Except CatalogError (Nat × Catalog ε))
    (put : Catalog ε → Tables) :
    (ofCatalog result >>= fun added => liftM (setTables (put added.2)) : Load Unit).run.run σ =
      afterDefine σ (fun catalog => { σ with tables := put catalog }) result := by
  cases result <;> rfl

theorem run_addThing (s : Section) (σ : LoadState) :
    (addThing s).run.run σ =
      afterDefine σ (fun things => { σ with tables.things := things }) (σ.tables.things.define (.ofSection s)) :=
  run_define _ fun things => { σ.tables with things }

theorem run_addSound (s : Section) (σ : LoadState) :
    (addSound s).run.run σ =
      afterDefine σ (fun sounds => { σ with tables.sounds := sounds }) (σ.tables.sounds.define (.ofSection s)) :=
  run_define _ fun sounds => { σ.tables with sounds }

theorem run_addString (s : Section) (σ : LoadState) :
    (addString s).run.run σ =
      afterDefine σ (fun strings => { σ with tables.strings := strings }) (σ.tables.strings.define (.ofSection s)) :=
  run_define _ fun strings => { σ.tables with strings }

def checkNullFrame (frames : Catalog Frame) : Except LoadError Nat :=
  if frames.size = 0 then .error .noFrames
  else
    match frames.slotNamed? Frame.nullName with
    | some nullFrame => .ok nullFrame
    | none => .error .missingNullFrame

theorem run_allotFrames (sections : List Section) (first : Bool) (σ : LoadState) :
    (allotFrames sections first).run.run σ =
      match placeFrames σ.tables.frames sections with
      | .error error => (.error (.catalog error), σ)
      | .ok frames =>
        if first then
          match checkNullFrame frames with
          | .ok nullFrame => (.ok (), { σ with tables.frames := frames, tables.nullFrame := nullFrame })
          | .error error => (.error error, { σ with tables.frames := frames })
        else (.ok (), { σ with tables.frames := frames }) := by
  have hstep : (allotFrames sections first).run.run σ =
      (ofCatalog (placeFrames σ.tables.frames sections) >>= fun frames => do
        setTables { σ.tables with frames }
        if first then
          if frames.size = 0 then raise .noFrames
          match frames.slotNamed? Frame.nullName with
          | some nullFrame => setTables { σ.tables with frames, nullFrame }
          | none => raise .missingNullFrame : Load Unit).run.run σ := rfl
  rw [hstep]
  cases placeFrames σ.tables.frames sections with
  | error error => rfl
  | ok frames =>
    cases first with
    | false => rfl
    | true =>
      change (do
        if frames.size = 0 then raise .noFrames
        match frames.slotNamed? Frame.nullName with
        | some nullFrame => setTables { σ.tables with frames, nullFrame }
        | none => raise .missingNullFrame : Load Unit).run.run { σ with tables.frames := frames } = _
      simp only [checkNullFrame, if_true]
      by_cases hempty : frames.size = 0
      · simp only [if_pos hempty]
        rfl
      · simp only [if_neg hempty]
        cases frames.slotNamed? Frame.nullName <;> rfl

end Load

def Catalog.defineEach {ε : Type} [Record ε] (c : Catalog ε) : List ε → Except CatalogError (Catalog ε)
  | [] => .ok c
  | entry :: entries =>
    match c.define entry with
    | .ok (_, c) => c.defineEach entries
    | .error error => .error error

structure Gathers (b : Batch) (t t' : Tables) : Prop where
  things : t.things.defineEach (b.things.map .ofSection) = .ok t'.things
  sounds : t.sounds.defineEach (b.sounds.map .ofSection) = .ok t'.sounds
  strings : t.strings.defineEach (b.strings.map .ofSection) = .ok t'.strings
  frames : Load.placeFrames t.frames b.frames = .ok t'.frames

namespace Load

variable {σ σ' : LoadState} {b : Batch} {first : Bool}

theorem run_addSprites (names : List String) (σ : LoadState) :
    ∃ sprites warnings, (names.forM addSprite).run σ =
      ((), { σ with tables.sprites := sprites, warnings := warnings }) := by
  induction names generalizing σ with
  | nil => exact ⟨σ.tables.sprites, σ.warnings, rfl⟩
  | cons name names ih =>
    obtain ⟨sprites, warnings, hstep⟩ : ∃ sprites warnings, (addSprite name).run σ =
        ((), { σ with tables.sprites := sprites, warnings := warnings }) := by
      rw [run_addSprite]
      split
      · exact ⟨_, σ.warnings, rfl⟩
      · exact ⟨σ.tables.sprites, _, rfl⟩
    obtain ⟨sprites', warnings', hrest⟩ := ih { σ with tables.sprites := sprites, warnings := warnings }
    refine ⟨sprites', warnings', ?_⟩
    have hcons : ((name :: names).forM addSprite).run σ = (names.forM addSprite).run ((addSprite name).run σ).2 := rfl
    rw [hcons, hstep, hrest]

theorem forM_define_eq_ok {ε : Type} [Record ε] {add : Section → Load Unit} {entry : Section → ε}
    (get : LoadState → Catalog ε) (put : LoadState → Catalog ε → LoadState)
    (hadd : ∀ s σ, (add s).run.run σ = afterDefine σ (put σ) ((get σ).define (entry s)))
    (hget : ∀ σ c, get (put σ c) = c) (hput : ∀ σ c c', put (put σ c) c' = put σ c') (hsame : ∀ σ, put σ (get σ) = σ)
    {sections : List Section} (h : (sections.forM add).run.run σ = (.ok (), σ')) :
    (get σ).defineEach (sections.map entry) = .ok (get σ') ∧ σ' = put σ (get σ') := by
  induction sections generalizing σ with
  | nil =>
    obtain rfl : σ = σ' := (Prod.mk.inj h).2
    exact ⟨rfl, (hsame σ).symm⟩
  | cons s sections ih =>
    obtain ⟨_, σ₁, hs, hrest⟩ := run_bind_eq_ok h
    rw [hadd] at hs
    cases hdefine : (get σ).define (entry s) with
    | error error =>
      rw [hdefine] at hs
      cases hs
    | ok added =>
      rw [hdefine] at hs
      obtain rfl : put σ added.2 = σ₁ := (Prod.mk.inj hs).2
      obtain ⟨hdefined, hstate⟩ := ih hrest
      rw [hget] at hdefined
      refine ⟨?_, ?_⟩
      · rw [List.map_cons, Catalog.defineEach, hdefine]
        exact hdefined
      · rw [hput] at hstate
        exact hstate

theorem allotFrames_eq_ok {sections : List Section} (h : (allotFrames sections first).run.run σ = (.ok (), σ')) :
    ∃ frames nullFrame, placeFrames σ.tables.frames sections = .ok frames ∧
      σ' = { σ with tables.frames := frames, tables.nullFrame := nullFrame } := by
  rw [run_allotFrames] at h
  cases hplace : placeFrames σ.tables.frames sections with
  | error error =>
    rw [hplace] at h
    cases h
  | ok frames =>
    simp only [hplace] at h
    refine ⟨frames, ?_⟩
    split at h
    · cases hcheck : checkNullFrame frames with
      | error error =>
        rw [hcheck] at h
        cases h
      | ok nullFrame =>
        rw [hcheck] at h
        exact ⟨nullFrame, rfl, (Prod.mk.inj h).2.symm⟩
    · exact ⟨σ.tables.nullFrame, rfl, (Prod.mk.inj h).2.symm⟩

theorem passes_of_gather (h : (gather b first).run.run σ = (.ok (), σ')) :
    Gathers b σ.tables σ'.tables ∧ σ'.warnings = ((b.sprites.forM addSprite).run σ).2.warnings := by
  obtain ⟨_, σ₁, hsprites, h⟩ := run_bind_eq_ok h
  obtain ⟨_, σ₂, hthings, h⟩ := run_bind_eq_ok h
  obtain ⟨_, σ₃, hsounds, h⟩ := run_bind_eq_ok h
  obtain ⟨_, σ₄, hstrings, hframes⟩ := run_bind_eq_ok h
  obtain ⟨sprites, warnings, hrun⟩ := run_addSprites b.sprites σ
  obtain rfl : { σ with tables.sprites := sprites, warnings := warnings } = σ₁ := by
    have hlift : (liftM (b.sprites.forM addSprite) : Load Unit).run.run σ =
        (.ok ((b.sprites.forM addSprite).run σ).1, ((b.sprites.forM addSprite).run σ).2) := rfl
    rw [hlift, hrun] at hsprites
    exact (Prod.mk.inj hsprites).2
  obtain ⟨hdefineThings, hσ₂⟩ := forM_define_eq_ok (·.tables.things)
    (fun σ things => { σ with tables.things := things })
    run_addThing (fun _ _ => rfl) (fun _ _ _ => rfl) (fun _ => rfl) hthings
  obtain ⟨hdefineSounds, hσ₃⟩ := forM_define_eq_ok (·.tables.sounds)
    (fun σ sounds => { σ with tables.sounds := sounds })
    run_addSound (fun _ _ => rfl) (fun _ _ _ => rfl) (fun _ => rfl) hsounds
  obtain ⟨hdefineStrings, hσ₄⟩ := forM_define_eq_ok (·.tables.strings)
    (fun σ strings => { σ with tables.strings := strings })
    run_addString (fun _ _ => rfl) (fun _ _ _ => rfl) (fun _ => rfl) hstrings
  obtain ⟨frames, nullFrame, hplace, rfl⟩ := allotFrames_eq_ok hframes
  refine ⟨?_, by rw [hσ₄, hσ₃, hσ₂, hrun]⟩
  exact
    { things := by rw [hdefineThings, hσ₄, hσ₃]
      sounds := by rw [hσ₂] at hdefineSounds; rw [hdefineSounds, hσ₄]
      strings := by rw [hσ₃, hσ₂] at hdefineStrings; exact hdefineStrings
      frames := by rw [hσ₄, hσ₃, hσ₂] at hplace; exact hplace }

theorem gathers_of_gather (h : (gather b first).run.run σ = (.ok (), σ')) : Gathers b σ.tables σ'.tables :=
  (passes_of_gather h).1

theorem warnings_of_gather (h : (gather b first).run.run σ = (.ok (), σ')) :
    σ'.warnings = ((b.sprites.forM addSprite).run σ).2.warnings :=
  (passes_of_gather h).2

end Load

end FrameTable
