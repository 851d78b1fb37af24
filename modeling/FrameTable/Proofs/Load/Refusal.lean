import FrameTable.Proofs.Load.Packing
import FrameTable.Proofs.Load.Simulation

namespace FrameTable

namespace HashIndex

variable {κ : Type} [IndexKey κ]

theorem key?_of_key?_erase {index : HashIndex κ} {slot other : Nat} {key : κ}
    (h : (index.erase slot).2.key? other = some key) : index.key? other = some key := by
  unfold erase at h
  split at h
  · exact h
  · split at h
    · exact h
    · rw [key?, link?_unlink] at h
      split at h
      · cases h
      · split at h
        · rw [Option.map_map] at h
          exact h
        · exact h

end HashIndex

namespace Catalog

variable {ε : Type} [Record ε] {c c' : Catalog ε} {entry : ε} {slot : Nat}

structure GrowsBy (added : List ε) (c c' : Catalog ε) : Prop where
  get? : ∀ i, c'.get? i = if i < c.size then c.get? i else added[i - c.size]?
  idOf? : ∀ {i id}, c'.directory.idOf? i = some id → c.directory.idOf? i = some id
  pool : c'.directory.pool = c.directory.pool

theorem growsBy_nil (c : Catalog ε) : c.GrowsBy [] c where
  get? i := by
    split
    · rfl
    · next hge =>
      rw [List.getElem?_nil]
      exact (c.store.get?_eq_none_iff i).mpr (Nat.le_of_not_lt hge)
  idOf? h := h
  pool := rfl

theorem directory_of_enlist (hget : c.get? slot = some entry) (hneg : Record.number entry < 0)
    (h : c.enlist slot = .ok c') : c'.directory.ids = (c.directory.ids.erase slot).2 ∧
      c'.directory.pool = c.directory.pool := by
  simp only [enlist, hget, bind, Except.bind, Except.mapError, pure, Except.pure] at h
  cases hadd : c.directory.addName slot (Record.name entry) with
  | error error => simp [hadd] at h
  | ok named =>
    obtain ⟨names, rfl⟩ := Directory.exists_names_of_addName hadd
    simp only [hadd, Directory.setId, hneg, if_true, bind, Except.bind, pure, Except.pure, Except.ok.injEq] at h
    exact h ▸ ⟨rfl, rfl⟩

theorem growsBy_define (hnew : c.slotNamed? (Record.name entry) = none) (hneg : Record.number entry < 0)
    (h : c.define entry = .ok (slot, c')) : c.GrowsBy [entry] c' := by
  obtain ⟨-, hget⟩ := get?_of_define hnew h
  have hdirectory : c'.directory.ids = (c.directory.ids.erase c.size).2 ∧ c'.directory.pool = c.directory.pool := by
    simp only [define, hnew, bind, Except.bind, Except.mapError] at h
    cases hpush : c.store.push entry with
    | error error => simp [hpush] at h
    | ok result =>
      obtain ⟨new, store⟩ := result
      obtain ⟨rfl, -, hentry⟩ := Store.get?_of_push hpush
      cases henlist : ({ c with store } : Catalog ε).enlist c.store.size with
      | error error => simp [hpush, henlist] at h
      | ok done =>
        simp only [hpush, henlist, pure, Except.pure, Except.ok.injEq, Prod.mk.injEq] at h
        obtain ⟨-, rfl⟩ := h
        have hget : ({ c with store } : Catalog ε).get? c.store.size = some entry := (hentry _).trans (if_pos rfl)
        exact directory_of_enlist (c := { c with store }) hget hneg henlist
  refine ⟨fun i => ?_, fun {i id} hid => ?_, hdirectory.2⟩
  · rw [hget]
    rcases Nat.lt_trichotomy i c.size with hlt | rfl | hgt
    · rw [if_neg (Nat.ne_of_lt hlt), if_pos hlt]
    · rw [if_pos rfl, if_neg (Nat.lt_irrefl _), Nat.sub_self]
      rfl
    · rw [if_neg (Nat.ne_of_gt hgt), if_neg (Nat.not_lt_of_gt hgt), List.getElem?_eq_none (by simp; omega)]
      exact (c.store.get?_eq_none_iff i).mpr (Nat.le_of_lt hgt)
  · rw [Directory.idOf?, hdirectory.1] at hid
    obtain ⟨key, hkey, rfl⟩ := Option.map_eq_some_iff.mp hid
    rw [Directory.idOf?, HashIndex.key?_of_key?_erase hkey, Option.map_some]

end Catalog

theorem Sprites.names_define (s : Sprites) (name : String) :
    ∃ added : List String, added.length ≤ 1 ∧ (s.define name).2.names = s.names ++ added.toArray := by
  unfold define
  split
  · exact ⟨[], Nat.zero_le _, Array.append_empty.symm⟩
  split
  · exact ⟨[], Nat.zero_le _, Array.append_empty.symm⟩
  split
  · exact ⟨[], Nat.zero_le _, Array.append_empty.symm⟩
  · exact ⟨[name], Nat.le_refl _, Array.push_eq_append⟩

namespace Tables

variable {t t' : Tables} {frames : Catalog Frame} {sprites : Sprites}

def AddsSprite (t : Tables) (sprites : Sprites) : Prop :=
  ∃ added : List String, added.length ≤ 1 ∧ sprites.names = t.sprites.names ++ added.toArray

def AddsPlaceholder (t : Tables) (frames : Catalog Frame) : Prop :=
  ∃ added : List Frame, added.length ≤ 1 ∧ (∀ f ∈ added, ∃ name, f = Load.placeholder t name) ∧
    t.frames.GrowsBy added frames

theorem addsSprite_same (t : Tables) : t.AddsSprite t.sprites :=
  ⟨[], Nat.zero_le _, Array.append_empty.symm⟩

theorem addsPlaceholder_same (t : Tables) : t.AddsPlaceholder t.frames :=
  ⟨[], Nat.zero_le _, fun _ hf => absurd hf List.not_mem_nil, t.frames.growsBy_nil⟩

structure Spares (t t' : Tables) : Prop where
  frames : t.AddsPlaceholder t'.frames
  things : t'.things = t.things
  sounds : t'.sounds = t.sounds
  strings : t'.strings = t.strings
  sprites : t.AddsSprite t'.sprites
  nullFrame : t'.nullFrame = t.nullFrame

theorem spares (hframes : t.AddsPlaceholder frames) (hsprites : t.AddsSprite sprites) :
    t.Spares { t with frames, sprites } :=
  ⟨hframes, rfl, rfl, rfl, hsprites, rfl⟩

end Tables

namespace Load

open Tables (AddsPlaceholder AddsSprite Spares)

variable {α β : Type} {P : LoadState → Prop} {σ τ : LoadState} {slot : Nat} {frame target text : String}

def FailsIn (P : LoadState → Prop) (σ : LoadState) (x : Load α) : Prop :=
  ∀ error τ, x.run.run σ = (.error error, τ) → P τ

namespace FailsIn

variable {x : Load α} {f : α → Load β}

theorem pure {a : α} : FailsIn P σ (pure a) := by
  intro error τ herror
  cases (Prod.mk.inj herror).1

theorem lift {step : Update α} : FailsIn P σ (liftM step : Load α) := by
  intro error τ herror
  cases (Prod.mk.inj herror).1

theorem bind (h : FailsIn P σ x) (hf : ∀ a τ, x.run.run σ = (.ok a, τ) → FailsIn P τ (f a)) :
    FailsIn P σ (x >>= f) := by
  intro error τ herror
  rw [ExceptT.run_bind, StateT.run_bind] at herror
  rcases hx : x.run.run σ with ⟨result, σ₁⟩
  rw [hx] at herror
  cases result with
  | error cause =>
    obtain ⟨-, rfl⟩ := Prod.mk.inj herror
    exact h cause σ₁ hx
  | ok a => exact hf a σ₁ hx error τ herror

theorem lift_bind {step : Update α} (h : ∀ a τ, FailsIn P τ (f a)) : FailsIn P σ (liftM step >>= f) :=
  .bind .lift fun a τ _ => h a τ

theorem tables_bind {f : Tables → Load α} (h : FailsIn P σ (f σ.tables)) : FailsIn P σ (liftM tables >>= f) :=
  h

theorem given_ofExcept_bind {text : Option String} {default : α} {value : String → Except LoadError α} (hσ : P σ)
    (h : ∀ a, FailsIn P σ (f a)) : FailsIn P σ (given text default (fun text => liftM (value text)) >>= f) := by
  cases text with
  | none => exact h default
  | some text =>
    have hrun : (liftM (value text) : Load α).run.run σ = (value text, σ) := by
      cases value text <;> rfl
    refine .bind (fun error τ herror => ?_) fun a τ hok => ?_
    · obtain ⟨-, rfl⟩ := Prod.mk.inj (hrun.symm.trans herror)
      exact hσ
    · obtain ⟨-, rfl⟩ := Prod.mk.inj (hrun.symm.trans hok)
      exact h a

theorem given_bind {text : Option String} {default : α} {step : String → Load α}
    (hstep : ∀ given, FailsIn P σ (step given))
    (h : ∀ a τ, τ = σ ∨ (∃ given, (step given).run.run σ = (.ok a, τ)) → FailsIn P τ (f a)) :
    FailsIn P σ (given text default step >>= f) := by
  cases text with
  | none => exact h default σ (.inl rfl)
  | some text => exact .bind (hstep text) fun a τ hrun => h a τ (.inr ⟨text, hrun⟩)

end FailsIn

theorem tables_spriteNamed (frame name : String) (σ : LoadState) :
    ∃ sprites, ((spriteNamed frame name).run σ).2.tables = { σ.tables with sprites } ∧ σ.tables.AddsSprite sprites := by
  by_cases hblank : Text.same name Sprites.blankName = true
  · refine ⟨σ.tables.sprites, ?_, σ.tables.addsSprite_same⟩
    simp only [spriteNamed, hblank, if_true]
    rfl
  · rw [run_spriteNamed hblank]
    split
    · exact ⟨_, rfl, σ.tables.sprites.names_define name⟩
    · exact ⟨_, rfl, σ.tables.addsSprite_same⟩

theorem tables_nextFrame {result : Except LoadError Nat} (h : (nextFrame slot frame target).run.run σ = (result, τ)) :
    ∃ frames, τ.tables = { σ.tables with frames } ∧ σ.tables.AddsPlaceholder frames := by
  have hsame : ∃ frames, σ.tables = { σ.tables with frames } ∧ σ.tables.AddsPlaceholder frames :=
    ⟨σ.tables.frames, rfl, σ.tables.addsPlaceholder_same⟩
  unfold nextFrame at h
  split at h
  · rw [run_tables_bind] at h
    split at h
    · exact (Prod.mk.inj h).2 ▸ hsame
    · exact (Prod.mk.inj h).2 ▸ hsame
  · rw [run_tables_bind] at h
    split at h
    · exact (Prod.mk.inj h).2 ▸ hsame
    · next hnew =>
      split at h
      · have hrun : (addFrame frame target).run.run σ = _ := run_addFrame frame target σ.tables σ.warnings
        rw [hrun] at h
        split at h
        · next i frames hdefine =>
          have hneg : (placeholder σ.tables target).legacyId < 0 := Int.negSucc_lt_zero 0
          refine ⟨frames, congrArg LoadState.tables (Prod.mk.inj h).2.symm, [placeholder σ.tables target], Nat.le_refl _,
            fun f hf => ⟨target, List.mem_singleton.mp hf⟩, Catalog.growsBy_define hnew hneg hdefine⟩
        · exact (Prod.mk.inj h).2 ▸ hsame
      · split at h
        · exact (Prod.mk.inj h).2 ▸ hsame
        · exact (Prod.mk.inj h).2 ▸ hsame

theorem packedBody_failsIn (slot : Nat) (frame : String) (p : PackedFrame) (σ : LoadState) :
    FailsIn (fun τ => σ.tables.Spares τ.tables) σ (packedBody slot frame p) := by
  refine .given_bind (fun _ => .lift) fun sprite σ₁ hsprite => ?_
  obtain ⟨sprites, hσ₁, hsprites⟩ : ∃ sprites, σ₁.tables = { σ.tables with sprites } ∧ σ.tables.AddsSprite sprites := by
    rcases hsprite with rfl | ⟨name, hrun⟩
    · exact ⟨_, rfl, σ₁.tables.addsSprite_same⟩
    · obtain ⟨-, rfl⟩ := Prod.mk.inj hrun
      exact tables_spriteNamed frame name σ
  have hsame : σ.tables.Spares σ₁.tables := hσ₁ ▸ Tables.spares σ.tables.addsPlaceholder_same hsprites
  refine .given_ofExcept_bind hsame fun number => .given_ofExcept_bind hsame fun action => .tables_bind ?_
  have hfollowing : ∀ {target result τ}, (nextFrame slot frame target).run.run σ₁ = (result, τ) →
      σ.tables.Spares τ.tables := by
    intro target result τ hrun
    obtain ⟨frames, hτ, hframes⟩ := tables_nextFrame hrun
    rw [hσ₁] at hframes hτ
    exact hτ ▸ Tables.spares hframes hsprites
  refine .given_bind (fun target error τ hrun => hfollowing hrun) fun next σ₂ hnext => ?_
  have hspares : σ.tables.Spares σ₂.tables := by
    rcases hnext with rfl | ⟨target, hrun⟩
    · exact hsame
    · exact hfollowing hrun
  -- The last step that can fail; the misc values come after it.
  refine .given_ofExcept_bind hspares fun event => ?_
  exact .given_bind (fun _ => .lift) fun misc1 _ _ => .given_bind (fun _ => .lift) fun misc2 _ _ => .pure

theorem writePacked_failsIn (slot : Nat) (frame text : String) (σ : LoadState) :
    FailsIn (fun τ => σ.tables.Spares τ.tables) σ (writePacked slot frame text) := by
  refine .bind (packedBody_failsIn slot frame (PackedFrame.parse text) σ) fun body τ _ => ?_
  refine .lift_bind fun _ _ => .lift_bind fun _ _ => ?_
  split
  · exact .lift
  · exact .pure

def undecorate (slot : Nat) (σ : LoadState) : LoadState :=
  { σ with tables.frames := σ.tables.frames.modify slot fun f => { f with flags.decorate := false } }

def nameIn (slot : Nat) (σ : LoadState) : String :=
  ((σ.tables.frames.get? slot).map (·.name)).getD ""

theorem define_of_packed {s : Section} (hplain : s.bool? "decorate" ≠ some true) (htext : s.text? "cmp" = some text) :
    (define slot s).run.run σ = (do
      writePacked slot (nameIn slot σ) text
      writeRest .delta slot (nameIn slot σ) s none : Load Unit).run.run (undecorate slot σ) := by
  simp only [define, hplain, htext, decide_false, if_false]
  rfl

/-- A packed definition that fails leaves its frame as it was, but for the flag that the frame is given by the states of
a thing. It numbers no record, and adds no more than a sprite and a frame that is there by name only. -/
theorem define_spares {s : Section} {error : LoadError} (hplain : s.bool? "decorate" ≠ some true)
    (htext : s.text? "cmp" = some text)
    (hfail : (writePacked slot (nameIn slot σ) text).run.run (undecorate slot σ) = (.error error, τ)) :
    (define slot s).run.run σ = (.error error, τ) ∧
    (∀ f, σ.tables.frames.get? slot = some f →
      τ.tables.frames.get? slot = some { f with flags.decorate := false }) ∧
    (undecorate slot σ).tables.Spares τ.tables := by
  have hspares := writePacked_failsIn slot (nameIn slot σ) text (undecorate slot σ) error τ hfail
  refine ⟨?_, fun f hf => ?_, hspares⟩
  · rw [define_of_packed hplain htext, ExceptT.run_bind, StateT.run_bind, hfail]
    rfl
  · obtain ⟨added, -, -, hgrows⟩ := hspares.frames
    have hget : (undecorate slot σ).tables.frames.get? slot = some { f with flags.decorate := false } := by
      rw [undecorate, Catalog.get?, Catalog.modify, Store.get?_modify, if_pos rfl]
      exact congrArg _ hf
    rw [hgrows.get?, if_pos (Catalog.lt_size_of_get? hget), hget]

def sparking : String := "LAMP|C|*|4|Light0|S_GLOW|sparks"

def sparked : Except LoadError Unit × LoadState :=
  (writePacked 1 "S_LAMP" sparking).run.run (undecorate 1 (allotted ["S_NULL", "S_LAMP"] true))

theorem define_spares_sparking :
    let σ := allotted ["S_NULL", "S_LAMP"] true
    let s : Section := { title := "S_LAMP", fields := Fields.empty.set "cmp" (.text sparking) }
    s.bool? "decorate" ≠ some true ∧ s.text? "cmp" = some sparking ∧
    (writePacked 1 (nameIn 1 σ) sparking).run.run (undecorate 1 σ) =
      (.error (.badParticleEvent "S_LAMP" "sparks"), sparked.2) ∧
    sparked.2.tables.sprites.names = #["BLANK", "LAMP"] ∧ sparked.2.tables.frames.size = 3 ∧
    (define 1 s).run.run σ = (.error (.badParticleEvent "S_LAMP" "sparks"), sparked.2) ∧
    (∀ f, σ.tables.frames.get? 1 = some f →
      sparked.2.tables.frames.get? 1 = some { f with flags.decorate := false }) ∧
    (undecorate 1 σ).tables.Spares sparked.2.tables := by
  intro σ s
  have hplain : s.bool? "decorate" ≠ some true := by decide +kernel
  have htext : s.text? "cmp" = some sparking := by decide +kernel
  have hname : nameIn 1 (allotted ["S_NULL", "S_LAMP"] true) = "S_LAMP" := by decide +kernel
  have herror : sparked.1 = .error (.badParticleEvent "S_LAMP" "sparks") := by decide +kernel
  have hsprites : sparked.2.tables.sprites.names = #["BLANK", "LAMP"] := by decide +kernel
  have hframes : sparked.2.tables.frames.size = 3 := by decide +kernel
  have hsparked : sparked = (.error (.badParticleEvent "S_LAMP" "sparks"), sparked.2) := Prod.ext herror rfl
  have hfail : (writePacked 1 (nameIn 1 σ) sparking).run.run (undecorate 1 σ) =
      (.error (.badParticleEvent "S_LAMP" "sparks"), sparked.2) := by
    rw [show nameIn 1 σ = "S_LAMP" from hname]
    exact hsparked
  exact ⟨hplain, htext, hfail, hsprites, hframes, define_spares hplain htext hfail⟩

end Load

end FrameTable
