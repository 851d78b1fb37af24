import Mathlib.Data.Prod.Basic
import FrameTable.Library
import FrameTable.Proofs.Load.Defining

namespace FrameTable

structure Frame.KeepsId (tokens : String → Prop) (frames frames' : Catalog Frame) (slot : Nat) (f : Frame)
    (id : Int) : Prop where
  of_no_tokens : (∀ token, ¬tokens token) → id = f.legacyId
  of_consistent : frames.Consistent → id = f.legacyId ∨
    f.legacyId < 0 ∧ Catalog.Issued frames frames' slot id ∧ ∃ token, tokens token ∧ ReferencesFrame token f.name

theorem Tables.legacyId_of_get?_withContents {t : Tables} {slot i : Nat} {c : Contents} {g : Frame}
    (h : (t.withContents slot c).frames.get? i = some g) :
    ∃ f, t.frames.get? i = some f ∧ f.legacyId = g.legacyId := by
  rw [withContents, Catalog.get?, Catalog.modify, Store.get?_modify] at h
  split at h
  · obtain ⟨f, hf, rfl⟩ := Option.map_eq_some_iff.mp h
    exact ⟨f, hf, rfl⟩
  · exact ⟨g, h, rfl⟩

theorem Tables.Resolves.keepsId {tokens : String → Prop} {t t' : Tables} {slot : Nat} {f : Frame} {c : Contents}
    (h : Resolves tokens t t') (hf : t.frames.get? slot = some f) : ∃ id,
    t'.frames.get? slot = some { f with legacyId := id } ∧
      f.KeepsId tokens t.frames (t'.withContents slot c).frames slot id := by
  obtain ⟨id, hf', hid⟩ := h.record hf
  refine ⟨id, hf', fun hnone => ?_, fun hc => ?_⟩
  · rcases hid with hid | ⟨token, htoken⟩
    · exact hid
    · exact absurd htoken (hnone token)
  -- The id that a token gave it can only be a new one from the pool.
  rcases h.numbers hc hf hf' with hkept | hnumbered
  · exact .inl hkept
  have hnone : ¬Mentions [] f.name := fun ⟨_, hmem, _⟩ => nomatch hmem
  rcases (h.amends hc).record hf hnone with hsame | ⟨hneg, id', hf'', hnonneg, hle, hlt, hsole⟩
  · exact .inl (congrArg Frame.legacyId (Option.some.inj (hf'.symm.trans hsame)))
  · have hid' : id = id' := congrArg Frame.legacyId (Option.some.inj (hf'.symm.trans hf''))
    subst hid'
    refine .inr ⟨hneg, ⟨hnonneg, hle, hlt, fun {i g} hg hnumber => ?_⟩, hnumbered⟩
    obtain ⟨e, he, hsame⟩ := legacyId_of_get?_withContents hg
    exact hsole he (hsame.trans hnumber)

namespace Load

open Tables (Resolves)

variable {tokens : String → Prop} {slot : Nat} {f : Frame} {s : Section} {state state' : LoadState}

theorem Acts.exists_frame {x : Load Unit} {Q : Unit → (Contents → Contents) → Tables → Prop}
    (h : Acts slot (Resolves tokens) state.tables x Q) (hf : state.tables.frames.get? slot = some f)
    (hrun : x.run.run state = (.ok (), state')) : ∃ act id, (∃ t', Q () act t') ∧
      state'.tables.frames.get? slot = some { f.withContents (act f.contents) with legacyId := id } ∧
      f.KeepsId tokens state.tables.frames state'.tables.frames slot id := by
  obtain ⟨result, t', added, act, hx, hR, hQ⟩ := h
  -- Of all the contents that the step can be run from, these are the ones the frame has.
  have hstart : state = ⟨state.tables.withContents slot f.contents, state.warnings⟩ := by
    rw [Tables.withContents_of_get? hf]
  rw [hstart, hx] at hrun
  obtain ⟨rfl, rfl⟩ := Prod.mk.inj hrun
  obtain ⟨id, hf', hkeeps⟩ := hR.keepsId hf (c := act f.contents)
  exact ⟨act, id, ⟨t', hQ () rfl⟩, Tables.get?_withContents hf' _, hkeeps⟩

def fieldKeys : List String :=
  ["sprite", "spriteframe", "fullbright", "tics", "action", "nextframe", "args", "SKILL5FAST", "INTERPOLATE", "misc1",
    "misc2", "particle_event"]

theorem writeFields_congr {w : Writing} {frame : String} {s' : Section}
    (h : ∀ key ∈ fieldKeys, s'.value? key = s.value? key) :
    writeFields w slot frame s' = writeFields w slot frame s := by
  have hwrites : ∀ key ∈ fieldKeys, w.writes s' key = w.writes s key := by
    intro key hkey
    cases w with
    | definition => rfl
    | delta => exact congrArg Option.isSome (h key hkey)
  have htext : ∀ key ∈ fieldKeys, s'.text? key = s.text? key := fun key hkey => by
    rw [Section.text?, h key hkey, Section.text?]
  have hbool : ∀ key ∈ fieldKeys, s'.bool? key = s.bool? key := fun key hkey => by
    rw [Section.bool?, h key hkey, Section.bool?]
  have hlist : s'.list? "args" = s.list? "args" := by
    rw [Section.list?, h "args" (by decide), Section.list?]
  have htics : s'.number? "tics" = s.number? "tics" := by
    rw [Section.number?, h "tics" (by decide), Section.number?]
  have h₁ : writeSprite w slot frame s' = writeSprite w slot frame s := by
    rw [writeSprite, hwrites "sprite" (by decide), htext "sprite" (by decide), writeSprite]
  have h₂ : writeSpriteFrame w slot frame s' = writeSpriteFrame w slot frame s := by
    rw [writeSpriteFrame, hwrites "spriteframe" (by decide), h "spriteframe" (by decide), writeSpriteFrame]
  have h₃ : writeFullbright slot s' = writeFullbright slot s := by
    rw [writeFullbright, hbool "fullbright" (by decide), writeFullbright]
  have h₄ : writeTics w slot s' = writeTics w slot s := by
    rw [writeTics, hwrites "tics" (by decide), htics, writeTics]
  have h₅ : writeAction w slot frame s' = writeAction w slot frame s := by
    rw [writeAction, hwrites "action" (by decide), htext "action" (by decide), writeAction]
  have h₆ : writeNext w slot frame s' = writeNext w slot frame s := by
    rw [writeNext, hwrites "nextframe" (by decide), htext "nextframe" (by decide), writeNext]
  have h₇ : writtenArguments w s' = writtenArguments w s := by
    cases w <;> funext inline <;> simp only [writtenArguments, hlist]
  have h₈ : setFlags s' = setFlags s := by
    funext flags
    rw [setFlags, hbool "SKILL5FAST" (by decide), hbool "INTERPOLATE" (by decide), setFlags]
  have h₉ : writeMisc w slot frame s' = writeMisc w slot frame s := by
    simp only [writeMisc, writeMisc1, writeMisc2, writeParticleEvent, hwrites "misc1" (by decide),
      hwrites "misc2" (by decide), hwrites "particle_event" (by decide), htext "misc1" (by decide),
      htext "misc2" (by decide), htext "particle_event" (by decide)]
  simp only [writeFields, writeRest, h₁, h₂, h₃, h₄, h₅, h₆, h₇, h₈, h₉]

theorem amend_congr {s' : Section} (h : ∀ key ∈ fieldKeys, s'.value? key = s.value? key) :
    amend slot s' = amend slot s := by
  simp only [amend, writeFields_congr h]

end Load

structure Frame.KeepsUnwritten (s : Section) (f f' : Frame) : Prop where
  index : f'.index = f.index
  name : f'.name = f.name
  decorate : f'.flags.decorate = f.flags.decorate
  sprite : s.has "sprite" = false → f'.sprite = f.sprite
  tics : s.has "tics" = false → f'.tics = f.tics
  action : s.has "action" = false → f'.action = f.action
  next : s.has "nextframe" = false → f'.next = f.next
  args : s.has "args" = false → s.inlineArguments .delta = none → f'.args = f.args
  skill5Fast : s.has "SKILL5FAST" = false → f'.flags.skill5Fast = f.flags.skill5Fast
  interpolate : s.has "INTERPOLATE" = false → f'.flags.interpolate = f.flags.interpolate
  misc1 : s.has "misc1" = false → f'.misc1 = f.misc1
  misc2 : s.has "misc2" = false → f'.misc2 = f.misc2
  particleEvent : s.has "particle_event" = false → f'.particleEvent = f.particleEvent

theorem Section.value?_eq_none {s : Section} {key : String} (h : s.has key = false) : s.value? key = none :=
  Option.isNone_iff_eq_none.mp (Option.isSome_eq_false_iff.mp h)

theorem Frame.keepsUnwritten_afterFields (f : Frame) (s : Section) (r : Resolved) (id : Int) :
    f.KeepsUnwritten s { f.withContents (f.contents.afterFields .delta s r) with legacyId := id } := by
  have hbody := f.contents.toFrameBody_afterFields (w := .delta) (s := s) (r := r)
  have hflags := f.contents.flags_afterFields (w := .delta) (s := s) (r := r)
  have hargs := f.contents.args_afterFields (w := .delta) (s := s) (r := r)
  exact
    { index := rfl
      name := rfl
      decorate := (congrArg FrameFlags.decorate hflags).trans rfl
      sprite := fun h => (congrArg FrameBody.sprite hbody).trans (if_neg (ne_true_of_eq_false h))
      tics := fun h => (congrArg FrameBody.tics hbody).trans (if_neg (ne_true_of_eq_false h))
      action := fun h => (congrArg FrameBody.action hbody).trans (if_neg (ne_true_of_eq_false h))
      next := fun h => (congrArg FrameBody.next hbody).trans (if_neg (ne_true_of_eq_false h))
      args := fun h hinline => by
        have hnone : Load.writtenArguments .delta s (s.inlineArguments .delta) = none := by
          rw [Load.writtenArguments, hinline, Section.list?, Section.value?_eq_none h]
          rfl
        rw [hnone] at hargs
        exact hargs
      skill5Fast := fun h => (congrArg FrameFlags.skill5Fast hflags).trans (by
        simp only [Load.setFlags, Section.bool?, Section.value?_eq_none h]
        rfl)
      interpolate := fun h => (congrArg FrameFlags.interpolate hflags).trans (by
        simp only [Load.setFlags, Section.bool?, Section.value?_eq_none h]
        rfl)
      misc1 := fun h => (congrArg FrameBody.misc1 hbody).trans (if_neg (ne_true_of_eq_false h))
      misc2 := fun h => (congrArg FrameBody.misc2 hbody).trans (if_neg (ne_true_of_eq_false h))
      particleEvent := fun h => (congrArg FrameBody.particleEvent hbody).trans (if_neg (ne_true_of_eq_false h)) }

namespace Load

/-- A delta that goes through changes only what it writes and reads no `cmp`, `decorate` and `dehackednum`
fields. A definition that is left to the states of a thing writes only the flag that says so, the misc values
and the particle event. -/
theorem frame_footprint (hf : state.tables.frames.get? slot = some f) (s : Section) :
    (∀ state', (amend slot s).run.run state = (.ok (), state') → ∃ f', state'.tables.frames.get? slot = some f' ∧
      f.KeepsUnwritten s f' ∧
      f.KeepsId (s.WritesMisc .delta) state.tables.frames state'.tables.frames slot f'.legacyId) ∧
    (∀ s', (∀ key, ¬Mentions ["cmp", "decorate", "dehackednum"] key → s'.value? key = s.value? key) →
      amend slot s' = amend slot s) ∧
    (s.bool? "decorate" = some true → ∀ state', (define slot s).run.run state = (.ok (), state') →
      ∃ misc1 misc2 particleEvent legacyId, state'.tables.frames.get? slot =
        some { f with flags := { f.flags with decorate := true }, misc1, misc2, particleEvent, legacyId } ∧
      f.KeepsId (s.WritesMisc .definition) state.tables.frames state'.tables.frames slot legacyId) := by
  have hslot : slot < state.tables.frames.size := Catalog.lt_size_of_get? hf
  have hapart : ∀ key ∈ fieldKeys, ∀ title ∈ ["cmp", "decorate", "dehackednum"], ¬Text.same title key = true := by
    decide
  refine ⟨fun state' hrun => ?_, fun s' h => amend_congr fun key hkey => h key ?_, fun hdecorate state' hrun => ?_⟩
  · obtain ⟨act, id, ⟨t', r, -, rfl⟩, hf', hkeeps⟩ := (amend_acts hslot fun _ h => h).exists_frame hf hrun
    exact ⟨_, hf', f.keepsUnwritten_afterFields s r id, hkeeps⟩
  · exact fun ⟨title, htitle, hsame⟩ => hapart key hkey title htitle hsame
  · obtain ⟨act, id, ⟨t', m, rfl⟩, hf', hkeeps⟩ :=
      (define_decorate_acts hdecorate fun _ h => h).exists_frame hf hrun
    exact ⟨_, _, _, id, hf', hkeeps⟩

def pacing : Batch where
  frames := [{ title := "S_NULL", fields := .ofList [("decorate", .bool true)] },
    { title := "S_PACE", fields := .ofList [("cmp", .text "PLAY|B|*|4|Light0(1,2)|S_NULL")] }]

def pacingState : LoadState :=
  ((Library.new ⟨1, 1, 1, 1, 1⟩).load pacing).2.state

def slowing : Section where
  title := ""
  fields := .ofList [("misc1", .text "frame:S_PACE"), ("name", .text "S_PACE"), ("tics", .int 8)]

def slowingToo : Section where
  title := ""
  fields := .ofList [("cmp", .text "BLANK"), ("decorate", .bool true), ("dehackednum", .int 7),
    ("misc1", .text "frame:S_PACE"), ("name", .text "S_PACE"), ("tics", .int 8)]

theorem value?_slowingToo {key : String} (h : ¬Mentions ["cmp", "decorate", "dehackednum"] key) :
    slowingToo.value? key = slowing.value? key := by
  have hentries : slowingToo.fields.entries = ("cmp", .text "BLANK") :: ("decorate", .bool true) ::
      ("dehackednum", .int 7) :: slowing.fields.entries := by decide +kernel
  have hne : ∀ title ∈ ["cmp", "decorate", "dehackednum"], Text.same title key = false ∧ (title == key) = false := by
    intro title htitle
    have hsame : ¬Text.same title key = true := fun hsame => h ⟨title, htitle, hsame⟩
    refine ⟨Bool.eq_false_iff.mpr hsame, beq_eq_false_iff_ne.mpr fun heq => hsame ?_⟩
    exact heq ▸ Text.same_refl _
  have hcmp := hne "cmp" (by decide)
  have hdecorate := hne "decorate" (by decide)
  have hnumber := hne "dehackednum" (by decide)
  simp only [Section.value?, Fields.find?, hentries, List.find?_cons, hcmp, hdecorate, hnumber]

theorem frame_footprint_slowing :
    ((amend 1 slowing).run.run pacingState).1 = .ok () ∧
    ∃ f f', pacingState.tables.frames.get? 1 = some f ∧
      ((amend 1 slowing).run.run pacingState).2.tables.frames.get? 1 = some f' ∧
      (f.tics, f.legacyId) = (4, -1) ∧ (f'.tics, f'.legacyId) = (8, maxLegacyId) ∧
      f.KeepsUnwritten slowing f' ∧ amend 1 slowingToo = amend 1 slowing := by
  have hok : ((amend 1 slowing).run.run pacingState).1 = .ok () := by decide +kernel
  have hbefore : (pacingState.tables.frames.get? 1).map (fun f => (f.tics, f.legacyId)) = some (4, -1) := by
    decide +kernel
  have hafter : (((amend 1 slowing).run.run pacingState).2.tables.frames.get? 1).map
      (fun f => (f.tics, f.legacyId)) = some (8, maxLegacyId) := by decide +kernel
  obtain ⟨f, hf, hold⟩ := Option.map_eq_some_iff.mp hbefore
  obtain ⟨hamend, hother, -⟩ := frame_footprint hf slowing
  obtain ⟨f', hf', hkeeps, -⟩ := hamend _ (Prod.fst_eq_iff.mp hok)
  rw [hf'] at hafter
  exact ⟨hok, f, f', hf, hf', hold, Option.some.inj hafter, hkeeps, hother _ fun _ h => value?_slowingToo h⟩

end Load

end FrameTable
