import FrameTable.Proofs.Argument.Ledger
import FrameTable.Proofs.Argument.Reference
import FrameTable.Proofs.Library.Integrity
import FrameTable.Proofs.Library.Passes

/-!
Cached arguments and loads. A load forgets the evaluations of the arguments that it writes and no others, so what
was read before it can be read again after it.
-/

namespace FrameTable

theorem Tables.Redefines.precedes {b : Batch} {t t' : Tables} (h : Redefines false b t t') :
    t.resolver.Precedes t'.resolver where
  things := h.things.names
  frames := h.frames.names
  sounds := h.sounds.names
  strings := h.strings.names
  codePointer? := rfl
  unknownThing := rfl
  nullFrame := h.nullFrame rfl

theorem Tables.Amends.precedes {titles : List String} {t t' : Tables} (h : Amends titles t t') :
    t.resolver.Precedes t'.resolver where
  things := h.things.names
  frames := h.frames.names
  sounds := h.sounds.names
  strings hname := by
    rw [Tables.resolver, h.strings]
    exact hname
  codePointer? := rfl
  unknownThing := rfl
  nullFrame := h.nullFrame

namespace Library

open LoadState (Fills)

variable {sizes : IndexSizes} {l l' : Library} {b : Batch} {a : Accessor} {slot position i : Nat}
  {f f' : Frame} {c : Cell}

def cell? (l : Library) (slot position : Nat) : Option Cell :=
  (l.arguments? slot).bind (·.cells[position]?)

def value (l : Library) (a : Accessor) (slot position : Nat) (default : a.Value) : a.Value :=
  (l.readArgument (a.reader l.tables.resolver) slot position default).1

/-- The read gives something else than it would give if all evaluations were forgotten. -/
def Stale (l : Library) (a : Accessor) (slot position : Nat) (default : a.Value) : Prop :=
  l.value a slot position default ≠ l.forgetEvaluations.value a slot position default

theorem value_eq (l : Library) (a : Accessor) (slot position : Nat) (default : a.Value) :
    l.value a slot position default =
      ((l.cell? slot position).bind fun c => (c.read (a.reader l.tables.resolver)).1).getD default := by
  rw [value, readArgument, cell?]
  cases hargs : l.arguments? slot with
  | none => rfl
  | some args =>
    cases hc : args.cells[position]? with
    | none =>
      simp only [ArgumentList.read_of_none _ _ _ hc, Option.bind_some, hc]
      rfl
    | some c =>
      simp only [ArgumentList.read_of_some _ _ _ hc, Option.bind_some, hc]

theorem cell?_forgetEvaluations (l : Library) (slot position : Nat) :
    l.forgetEvaluations.cell? slot position = (l.cell? slot position).map Cell.forget := by
  have hframe : l.forgetEvaluations.frame? slot =
      (l.frame? slot).map fun f => { f with args := f.args.map ArgumentList.forgetAll } := Store.get?_map _ _ _
  rw [cell?, cell?, arguments?, arguments?, hframe]
  cases l.frame? slot with
  | none => rfl
  | some f =>
    cases hargs : f.args with
    | none => simp [hargs]
    | some args => simp [hargs, ArgumentList.forgetAll]

theorem value_forgetEvaluations (l : Library) (a : Accessor) (slot position : Nat) (default : a.Value) :
    l.forgetEvaluations.value a slot position default = ((l.cell? slot position).bind fun c =>
      (a.reader l.tables.resolver).answer? ((a.reader l.tables.resolver).evaluate c.text)).getD default := by
  have hresolver : l.forgetEvaluations.tables.resolver = l.tables.resolver := rfl
  rw [value_eq, cell?_forgetEvaluations, hresolver]
  cases l.cell? slot position with
  | none => rfl
  | some c =>
    have hread := Cell.read_of_tag_ne (a := a) (r := l.tables.resolver) (c := c.forget) nofun
    simp only [Option.map_some, Option.bind_some, hread]
    rfl

theorem Stale.exists_cached {default : a.Value} (h : l.Stale a slot position default) :
    ∃ c e, l.cell? slot position = some c ∧ c.cached = some e ∧ e.tag = a.tag ∧
      (a.reader l.tables.resolver).answer? e ≠
        (a.reader l.tables.resolver).answer? ((a.reader l.tables.resolver).evaluate c.text) ∧
      l.value a slot position default = ((a.reader l.tables.resolver).answer? e).getD default := by
  rw [Stale, value_forgetEvaluations, value_eq] at h
  rw [value_eq]
  cases hc : l.cell? slot position with
  | none =>
    rw [hc] at h
    exact absurd rfl h
  | some c =>
    rw [hc, Option.bind_some, Option.bind_some] at h
    by_cases htag : c.cached.map (·.tag) = some a.tag
    · obtain ⟨e, hcached, he⟩ := Option.map_eq_some_iff.mp htag
      rw [Cell.read_of_cached hcached he] at h
      refine ⟨c, e, rfl, hcached, he, fun hsame => h (hsame ▸ rfl), ?_⟩
      rw [Option.bind_some, Cell.read_of_cached hcached he]
    · rw [Cell.read_of_tag_ne htag] at h
      exact absurd rfl h

inductive Use : Library → Library → Prop
  | load (l : Library) (b : Batch) : Use l (l.load b).2
  | setArgument (l : Library) (slot position : Nat) (text : String) : Use l (l.setArgument slot position text).2
  | readArgument (l : Library) {a : Accessor} (ha : a.Offered) (slot position : Nat) (default : a.Value) :
      Use l (l.readArgument (a.reader l.tables.resolver) slot position default).2
  | forgetEvaluations (l : Library) : Use l l.forgetEvaluations
  | clearWarnings (l : Library) : Use l l.clearWarnings

def Used (sizes : IndexSizes) (l : Library) : Prop :=
  Relation.ReflTransGen Use (new sizes) l

theorem Use.step (h : Use l l') : Step l l' := by
  cases h with
  | load b => exact .load l b
  | setArgument slot position text => exact .setArgument l slot position text
  | readArgument ha slot position default => exact .readArgument l _ slot position default
  | forgetEvaluations => exact .forgetEvaluations l
  | clearWarnings => exact .clearWarnings l

def Cached (l : Library) : Prop :=
  ∀ slot args, l.arguments? slot = some args → ∀ c ∈ args.cells, c.EvaluatedBy l.tables.resolver

namespace Cached

theorem evaluatedBy (h : l.Cached) (hc : l.cell? slot position = some c) : c.EvaluatedBy l.tables.resolver := by
  obtain ⟨args, hargs, hget⟩ := Option.bind_eq_some_iff.mp hc
  exact h slot args hargs c (List.mem_of_getElem? hget)

theorem setArguments (h : l.Cached) (slot : Nat) {args : ArgumentList}
    (hargs : ∀ c ∈ args.cells, c.EvaluatedBy l.tables.resolver) : (l.setArguments slot args).Cached := by
  intro i args' hargs'
  obtain ⟨f', hf', hsome⟩ := Option.bind_eq_some_iff.mp hargs'
  rw [frame?_setArguments] at hf'
  split at hf'
  · obtain ⟨f, -, rfl⟩ := Option.map_eq_some_iff.mp hf'
    obtain rfl := Option.some.inj hsome
    exact hargs
  · exact h i args' (Option.bind_eq_some_iff.mpr ⟨f', hf', hsome⟩)

theorem readArgument (h : l.Cached) (ha : a.Offered) (slot position : Nat) (default : a.Value) :
    (l.readArgument (a.reader l.tables.resolver) slot position default).2.Cached := by
  unfold Library.readArgument
  split
  · exact h
  · next args hargs =>
    refine h.setArguments slot fun c hc => ?_
    cases hcell : args.cells[position]? with
    | none =>
      rw [ArgumentList.read_of_none _ _ _ hcell] at hc
      exact h slot args hargs c hc
    | some cell =>
      rw [ArgumentList.read_of_some _ _ _ hcell] at hc
      rcases List.mem_or_eq_of_mem_set hc with hold | rfl
      · exact h slot args hargs c hold
      · exact (h slot args hargs cell (List.mem_of_getElem? hcell)).read ha

theorem setArgument (h : l.Cached) (slot position : Nat) (text : String) :
    (l.setArgument slot position text).2.Cached := by
  unfold Library.setArgument
  split
  · exact h
  · next f hf =>
    have hold : ∀ c ∈ (f.args.getD .empty).cells, c.EvaluatedBy l.tables.resolver := by
      intro c hc
      cases hargs : f.args with
      | none =>
        rw [hargs] at hc
        cases hc
      | some args =>
        rw [hargs] at hc
        exact h slot args (Option.bind_eq_some_iff.mpr ⟨f, hf, hargs⟩) c hc
    have hcells := ((f.args.getD .empty).set_ledger position text).2
    simp only
    split
    · exact h.setArguments slot hold
    · next args hset =>
      rw [hset] at hcells
      refine h.setArguments slot fun c hc => ?_
      rcases hcells c hc with hmem | hnone
      · exact hold c hmem
      · exact .of_cached_eq_none hnone

theorem forgetEvaluations (l : Library) : l.forgetEvaluations.Cached := by
  intro i args hargs
  have hframe : l.forgetEvaluations.frame? i =
      (l.frame? i).map fun f => { f with args := f.args.map ArgumentList.forgetAll } := Store.get?_map _ _ _
  obtain ⟨f', hf', hsome⟩ := Option.bind_eq_some_iff.mp hargs
  rw [hframe] at hf'
  obtain ⟨f, -, rfl⟩ := Option.map_eq_some_iff.mp hf'
  obtain ⟨args, -, rfl⟩ := Option.map_eq_some_iff.mp hsome
  intro c hc
  obtain ⟨c', -, rfl⟩ := List.mem_map.mp hc
  exact .of_cached_eq_none rfl

end Cached

theorem args_gathered (h : l.Intact) (b : Batch) (hf' : (l.gathered b).tables.frames.get? i = some f') :
    (∃ f, l.frame? i = some f ∧ f'.args = f.args) ∨ f'.args = none := by
  rcases (h.gathered b).1.origin hf' with ⟨f, id, hf, rfl⟩ | ⟨-, s, id, rfl⟩
  · exact .inl ⟨f, hf, rfl⟩
  · exact .inr rfl

theorem args_load (h : l.Intact) (b : Batch) (hf' : (l.load b).2.frame? i = some f') :
    (∃ f, l.frame? i = some f ∧ f'.args = f.args) ∨ f'.Unevaluated := by
  have hkept : ∀ {f}, (l.gathered b).tables.frames.get? i = some f → f'.args = f.args →
      (∃ f, l.frame? i = some f ∧ f'.args = f.args) ∨ f'.Unevaluated := by
    intro f hf hsame
    rcases args_gathered h b hf with ⟨f₀, hf₀, hargs⟩ | hnone
    · exact .inl ⟨f₀, hf₀, hsame.trans hargs⟩
    · exact .inr (.of_args_eq_none (hsame.trans hnone))
  rcases l.load_cases b with ⟨error, -, hload⟩ | ⟨result, σ, phase, hgather, hfill, hload⟩
  · rw [hload, frame?, tables, abandon] at hf'
    split at hf'
    · exact hkept hf' rfl
    · cases hf'
  · obtain ⟨hfills, -⟩ := Load.fill_runs (h.ready_gathered b hgather).indexed b
    rw [show StateT.run (Load.fill b).run (l.gathered b) = (result, σ) from hfill] at hfills
    rw [hload] at hf'
    cases hold : (l.gathered b).tables.frames.get? i with
    | none => exact .inr (hfills.added hf' hold).2
    | some f =>
      obtain ⟨f₁, hf₁, hkeeps⟩ := hfills.kept hold
      obtain rfl := Option.some.inj (hf₁.symm.trans hf')
      rcases hkeeps.args with hsame | hfresh
      · exact hkept hold hsame
      · exact .inr hfresh

theorem precedes_load (h : l.Intact) (hinit : l.initialized = true) (b : Batch) :
    l.tables.resolver.Precedes (l.load b).2.tables.resolver := by
  obtain ⟨result, t, initialized, houtcome, -, htables, -⟩ := exists_outcome h b
  rw [htables]
  cases houtcome with
  | undone error hnew => cases hinit.symm.trans hnew
  | gathered error _ hgather => exact hgather.precedes
  | filled result hgather _ hfill =>
    rw [hinit] at hgather
    exact hgather.precedes.trans hfill.precedes

theorem Cached.load (h : l.Cached) (hintact : l.Intact) (b : Batch) : (l.load b).2.Cached := by
  intro i args hargs c hc
  obtain ⟨f', hf', hsome⟩ := Option.bind_eq_some_iff.mp hargs
  rcases args_load hintact b hf' with ⟨f, hf, hsame⟩ | hfresh
  · have hinit : l.initialized = true := by
      cases hinit : l.initialized with
      | false => cases (hintact.frame?_eq_none hinit i).symm.trans hf
      | true => rfl
    have hold : l.arguments? i = some args := Option.bind_eq_some_iff.mpr ⟨f, hf, hsame ▸ hsome⟩
    exact (h i args hold c hc).mono (precedes_load hintact hinit b)
  · exact .of_cached_eq_none (hfresh args hsome c hc)

theorem Used.cached (h : Used sizes l) : l.Intact ∧ l.Cached := by
  induction h with
  | refl => exact ⟨intact_new sizes, nofun⟩
  | tail _ huse ih =>
    obtain ⟨hintact, hcached⟩ := ih
    refine ⟨hintact.step huse.step, ?_⟩
    cases huse with
    | load b => exact hcached.load hintact b
    | setArgument slot position text => exact hcached.setArgument slot position text
    | readArgument ha slot position default => exact hcached.readArgument ha slot position default
    | forgetEvaluations => exact .forgetEvaluations _
    | clearWarnings => exact hcached

namespace Stale

variable {default : a.Value}

theorem load (hstale : (l.load b).2.Stale a slot position default) (h : l.Intact) (hinit : l.initialized = true) :
    (l.load b).2.arguments? slot = l.arguments? slot ∧
      (l.load b).2.value a slot position default = l.value a slot position default := by
  obtain ⟨c, e, hc, hcached, htag, -, hvalue⟩ := hstale.exists_cached
  obtain ⟨args, hargs, hget⟩ := Option.bind_eq_some_iff.mp hc
  obtain ⟨f', hf', hsome⟩ := Option.bind_eq_some_iff.mp hargs
  rcases args_load h b hf' with ⟨f, hf, hsame⟩ | hfresh
  · have hold : l.arguments? slot = some args := Option.bind_eq_some_iff.mpr ⟨f, hf, hsame ▸ hsome⟩
    have hcell : l.cell? slot position = some c := Option.bind_eq_some_iff.mpr ⟨args, hold, hget⟩
    refine ⟨hargs.trans hold.symm, ?_⟩
    rw [hvalue, value_eq, hcell, Option.bind_some, Cell.read_of_cached hcached htag,
      Accessor.answer?_of_precedes (precedes_load h hinit b)]
  · cases hcached.symm.trans (hfresh args hsome c (List.mem_of_getElem? hget))

theorem of_load (hstale : (l.load b).2.Stale a slot position default) (h : l.Intact) (hinit : l.initialized = true)
    (hsame : ∀ c, l.cell? slot position = some c →
      (a.reader (l.load b).2.tables.resolver).evaluate c.text = (a.reader l.tables.resolver).evaluate c.text) :
    l.Stale a slot position default := by
  obtain ⟨hargs, hvalue⟩ := hstale.load h hinit
  have hcell : (l.load b).2.cell? slot position = l.cell? slot position := by rw [cell?, hargs, cell?]
  have hfresh : (l.load b).2.forgetEvaluations.value a slot position default =
      l.forgetEvaluations.value a slot position default := by
    rw [value_forgetEvaluations, value_forgetEvaluations, hcell]
    cases hc : l.cell? slot position with
    | none => rfl
    | some c =>
      rw [Option.bind_some, Option.bind_some, hsame c hc, Accessor.answer?_of_precedes (precedes_load h hinit b)]
  rw [Stale, ← hvalue, ← hfresh]
  exact hstale

end Stale

theorem not_stale_of_mem_scalars (h : l.Cached) (ha : a ∈ Accessor.scalars) (default : a.Value) :
    ¬l.Stale a slot position default := by
  intro hstale
  obtain ⟨c, e, hc, hcached, htag, hne, -⟩ := hstale.exists_cached
  obtain ⟨r₀, hr₀, rfl⟩ := (h.evaluatedBy hc).exists_resolver hcached (.scalar ha) htag (Accessor.tag_ne_keyword ha)
  exact hne (congrArg _ (Accessor.evaluate_scalar hr₀ ha c.text).symm)

theorem value_of_stale_name (h : l.Cached) {k : Reference} {default : k.accessor.Value} {name : String}
    (hstale : l.Stale k.accessor slot position default) (hc : l.cell? slot position = some c)
    (htext : Operand.ofText c.text = .name name) :
    l.value k.accessor slot position default = k.fallback l.tables.resolver := by
  obtain ⟨c', e, hc', hcached, htag, hne, hvalue⟩ := hstale.exists_cached
  obtain rfl := Option.some.inj (hc.symm.trans hc')
  obtain ⟨r₀, hr₀, rfl⟩ := (h.evaluatedBy hc).exists_resolver hcached (.reference k) htag k.tag_ne_keyword
  have hnone : (k.lookup r₀).named? name = none := by
    by_contra hknown
    exact hne (congrArg _ (Accessor.evaluate_of_named hr₀ htext hknown).symm)
  rw [hvalue, Accessor.answer?_of_unnamed hr₀ htext hnone, Option.getD_some]

theorem stale_load_cause (h : l.Intact) (hinit : l.initialized = true) (ha : a.Offered) {default : a.Value}
    (hstale : (l.load b).2.Stale a slot position default) : l.Stale a slot position default ∨
      ∃ k c, a = Reference.accessor k ∧ l.cell? slot position = some c ∧ k.Open l.tables.resolver c.text := by
  have hprecedes := precedes_load h hinit b
  cases ha with
  | scalar ha => exact .inl (hstale.of_load h hinit fun c _ => Accessor.evaluate_scalar hprecedes ha c.text)
  | keyword keywords default => exact .inl (hstale.of_load h hinit fun _ _ => rfl)
  | reference k =>
    cases hc : l.cell? slot position with
    | none => exact .inl (hstale.of_load h hinit fun c hc' => nomatch hc.symm.trans hc')
    | some c =>
      by_cases hopen : k.Open l.tables.resolver c.text
      · exact .inr ⟨k, c, rfl, rfl, hopen⟩
      · obtain ⟨name, hname⟩ := not_forall.mp hopen
        obtain ⟨htext, hknown⟩ := Classical.not_imp.mp hname
        refine .inl (hstale.of_load h hinit fun c' hc' => ?_)
        obtain rfl := Option.some.inj (hc.symm.trans hc')
        exact Accessor.evaluate_of_named hprecedes htext hknown

/-- After a load an argument reads as if all evaluations had been forgotten, unless it is a reference by legacy id or
to a name that was not known before, or was stale already. What is read then is what was read before the load, and
it is the fallback if the reference is by name. -/
theorem Used.stale_load (h : Used sizes l) (hinit : l.initialized = true) (b : Batch) :
    (∀ a ∈ Accessor.scalars, ∀ slot position default, ¬(l.load b).2.Stale a slot position default) ∧
    (∀ a, a.Offered → ∀ slot position default, (l.load b).2.Stale a slot position default →
      (l.load b).2.arguments? slot = l.arguments? slot ∧
      (l.load b).2.value a slot position default = l.value a slot position default ∧
      (l.Stale a slot position default ∨
        ∃ k c, a = Reference.accessor k ∧ l.cell? slot position = some c ∧ k.Open l.tables.resolver c.text)) ∧
    (∀ (k : Reference) slot position default c name, (l.load b).2.Stale k.accessor slot position default →
      (l.load b).2.cell? slot position = some c → Operand.ofText c.text = .name name →
      (l.load b).2.value k.accessor slot position default = k.fallback (l.load b).2.tables.resolver) := by
  obtain ⟨hintact, hcached⟩ := h.cached
  have hload := hcached.load hintact b
  refine ⟨fun a ha slot position default => not_stale_of_mem_scalars hload ha default, ?_, ?_⟩
  · intro a ha slot position default hstale
    obtain ⟨hargs, hvalue⟩ := hstale.load hintact hinit
    exact ⟨hargs, hvalue, stale_load_cause hintact hinit ha hstale⟩
  · exact fun k slot position default c name hstale hc htext => value_of_stale_name hload hstale hc htext

def calling : Batch where
  frames := [{ title := "S_NULL", fields := .ofList [("decorate", .bool true)] },
    { title := "S_CALL", fields := .ofList [("cmp", .text "PLAY|A|*|4|Light0(Imp)|*")] }]

def introducing : Batch where
  things := [{ title := "Imp" }]

def callingLibrary : Library :=
  let l := ((new ⟨1, 1, 1, 1, 1⟩).load calling).2
  (l.readArgument (Accessor.thing.reader l.tables.resolver) 1 0 (0 : Nat)).2

theorem used_callingLibrary : Used ⟨1, 1, 1, 1, 1⟩ callingLibrary :=
  .tail (.single (.load _ calling)) (.readArgument _ (.reference .thing) 1 0 (0 : Nat))

instance : DecidableEq (Accessor.Value .thing) :=
  inferInstanceAs (DecidableEq Nat)

theorem stale_introducing : (callingLibrary.load introducing).2.Stale .thing 1 0 (0 : Nat) := by
  unfold Stale
  decide +kernel

theorem stale_load_introducing :
    (callingLibrary.load introducing).2.arguments? 1 = callingLibrary.arguments? 1 ∧
      (callingLibrary.load introducing).2.value .thing 1 0 (0 : Nat) = callingLibrary.value .thing 1 0 (0 : Nat) ∧
      ∀ position default, ¬(callingLibrary.load introducing).2.Stale .int 1 position default := by
  have hinit : callingLibrary.initialized = true := by decide +kernel
  obtain ⟨hscalar, hkept, -⟩ := used_callingLibrary.stale_load hinit introducing
  obtain ⟨hargs, hvalue, -⟩ := hkept .thing (.reference .thing) 1 0 (0 : Nat) stale_introducing
  exact ⟨hargs, hvalue, hscalar .int List.mem_cons_self 1⟩

theorem callingLibrary_stale : Used ⟨1, 1, 1, 1, 1⟩ callingLibrary ∧ callingLibrary.initialized = true ∧
    (callingLibrary.load introducing).2.Stale .thing 1 0 (0 : Nat) ∧
    ((callingLibrary.load introducing).2.readArgument
      (.thing (callingLibrary.load introducing).2.tables.resolver) 1 0 0).1 = Thing.unknownSlot ∧
    ((callingLibrary.load introducing).2.forgetEvaluations.readArgument
      (.thing (callingLibrary.load introducing).2.tables.resolver) 1 0 0).1 = 1 :=
  ⟨used_callingLibrary, by decide +kernel, stale_introducing, by decide +kernel, by decide +kernel⟩

end Library

end FrameTable
