import FrameTable.Proofs.Library.Handles
import FrameTable.Proofs.Library.Successor
import FrameTable.Proofs.Load.Given

/-!
How long a misc value that refers to a record stays good. The id that the record got from the pool is never given out
again, and the record has it until it is defined once more: a section without an id takes it away.
-/

namespace FrameTable.Library

open LoadState (Logged)

variable {sizes : IndexSizes} {earlier before since later rest : List Batch} {l : Library} {b b₀ : Batch} {k : Referable}
  {name : String} {i slot : Nat} {m : MiscField} {id : Int} {e e' : String × Int}

section Load

variable (h : l.Intact) (hok : (l.load b).1 = .ok ())
include h hok

omit h in
theorem gathers_of_load : Gathers b l.tables (l.gathered b).tables := by
  rcases l.load_cases b with ⟨error, -, hload⟩ | ⟨-, -, -, hgather, -, -⟩
  · rw [hload] at hok
    cases hok
  · exact Load.gathers_of_gather hgather

theorem identity?_gathered (he' : k.identity? (l.gathered b).tables i = some e') :
    (∃ s ∈ k.sections b, Text.same s.title e'.1 = true ∧ e'.2 = Load.frameId s) ∨
      k.identity? l.tables i = some e' ∧ ∀ s ∈ k.sections b, Text.same s.title e'.1 = false := by
  have hgathers := gathers_of_load hok
  cases k with
  | frame => exact (Load.givenBy_placeFrames h.sound.frames hgathers.frames).identity? he'
  | thing =>
    have hgiven := h.sound.things.givenBy_defineEach (fun _ => rfl) (fun _ => rfl) hgathers.things
    exact hgiven.identity? he'
  | sound =>
    have hgiven := h.sound.sounds.givenBy_defineEach (fun _ => rfl) (fun _ => rfl) hgathers.sounds
    exact hgiven.identity? he'

theorem identity?_load (he : k.identity? l.tables i = some e)
    (hnone : ∀ s ∈ k.sections b, Text.same s.title e.1 = false) :
    ∃ e', k.identity? (l.load b).2.tables i = some e' ∧ e'.1 = e.1 ∧ (0 ≤ e.2 → e'.2 = e.2) := by
  have hgathered : k.identity? (l.gathered b).tables i = some e := by
    have hredefines := (h.gathered b).2.1
    cases k with
    | frame => exact hredefines.frames.identity? he hnone
    | thing => exact hredefines.things.identity? he hnone
    | sound => exact hredefines.sounds.identity? he hnone
  exact (h.completes b hok).fills.identity? hgathered

theorem slotNamed?_load (hname : k.slotNamed? l.tables name = some i) :
    k.slotNamed? (l.load b).2.tables name = some i := by
  have hredefines := (h.gathered b).2.1
  have hfills := (h.completes b hok).fills
  cases k with
  | frame => exact hfills.frames.names (hredefines.frames.names hname)
  | thing => exact hfills.things.names (hredefines.things.names hname)
  | sound => exact hfills.sounds.names (hredefines.sounds.names hname)

omit hok in
theorem cursor_gathered (b : Batch) (k : Referable) : k.cursor (l.gathered b).tables = k.cursor l.tables := by
  have hredefines := (h.gathered b).2.1
  cases k with
  | frame => exact congrArg IdPool.cursor hredefines.frames.pool
  | thing => exact congrArg IdPool.cursor hredefines.things.pool
  | sound => exact congrArg IdPool.cursor hredefines.sounds.pool

theorem cursor_load_le (k : Referable) : k.cursor (l.load b).2.tables ≤ k.cursor l.tables := by
  rw [← cursor_gathered h b k]
  exact (h.completes b hok).fills.cursor_le k

theorem holder_load (hid : 0 ≤ id) (hspent : k.cursor l.tables < id)
    (he' : k.identity? (l.load b).2.tables i = some e') (hsame : e'.2 = id) :
    (∃ s ∈ k.sections b, Text.same s.title e'.1 = true ∧ Load.frameId s = id) ∨
      k.identity? l.tables i = some e' ∧ ∀ s ∈ k.sections b, Text.same s.title e'.1 = false := by
  have hgathered := (h.completes b hok).fills.holder (cursor_gathered h b k ▸ hspent) hid he' hsame
  refine (identity?_gathered h hok hgathered).imp_left ?_
  rintro ⟨s, hs, htitle, hgiven⟩
  exact ⟨s, hs, htitle, hgiven.symm.trans hsame⟩

end Load

structure Draws (l : Library) (b : Batch) (k : Referable) (name : String) (i : Nat) : Prop where
  named : k.slotNamed? (l.load b).2.tables name = some i
  before : ∀ e, k.identity? (l.gathered b).tables i = some e → e.2 < 0
  holds : ∃ id, 0 ≤ id ∧ k.Holds (l.load b).2.tables i id

/-- The load sets the misc field of the frame in `slot` to the id of the record in slot `i`, for a token that has the
name of the record. -/
def Stores (l : Library) (b : Batch) (slot : Nat) (m : MiscField) (k : Referable) (name : String) (i : Nat) (id : Int) :
    Prop :=
  ∃ token σ f, LastSet l b slot m token σ ∧ Refers token k name ∧ k.slotNamed? σ.tables name = some i ∧
    (∀ e, k.identity? (l.load b).2.tables i = some e →
      ¬Logged l.state (l.load b).2.state (.poolExhausted k.kind e.1)) ∧
    (l.load b).2.frame? slot = some f ∧ f.misc m = id

def Unshared (k : Referable) (name : String) (id : Int) (batches : List Batch) : Prop :=
  ∀ b ∈ batches, ∀ s ∈ k.sections b, Load.frameId s = id → Text.same s.title name = true

structure Lives (k : Referable) (name : String) (i : Nat) (id : Int) (l : Library) (rest : List Batch) : Prop where
  indexed : l.tables.Indexed
  named : k.slotNamed? l.tables name = some i
  spent : k.cursor l.tables < id
  holds_iff : k.Holds l.tables i id ↔ ∀ b ∈ rest, ¬b.Defines k name
  sole : Unshared k name id rest → ∀ j, k.Holds l.tables j id → j = i

theorem Draws.lives (h : l.Intact) (hok : (l.load b).1 = .ok ()) (hdraws : Draws l b k name i) (hid : 0 ≤ id)
    (hholds : k.Holds (l.load b).2.tables i id) : Lives k name i id (l.load b).2 [] := by
  have hload := h.completes b hok
  obtain ⟨e, he, rfl⟩ := hholds
  obtain ⟨-, hsole⟩ := hload.fills.sole hload.indexed hdraws.before he hid
  refine ⟨hload.indexed, hdraws.named, hload.fills.cursor_lt hdraws.before he hid, ?_, fun _ j => ?_⟩
  · exact ⟨fun _ => nofun, fun _ => ⟨e, he, rfl⟩⟩
  · rintro ⟨e', he', hsame⟩
    exact hsole j e' he' hsame

theorem Lives.load (hlives : Lives k name i id l rest) (h : l.Intact) (hok : (l.load b).1 = .ok ()) (hid : 0 ≤ id)
    (hnone : ∀ s ∈ k.sections b, Text.same s.title name = true → Load.frameId s < 0) :
    Lives k name i id (l.load b).2 (rest ++ [b]) := by
  have hindexed := (h.completes b hok).indexed
  have hnamed := slotNamed?_load h hok hlives.named
  refine ⟨hindexed, hnamed, Int.lt_of_le_of_lt (cursor_load_le h hok k) hlives.spent, ?_, fun hunshared j => ?_⟩
  · rw [List.forall_mem_append, List.forall_mem_singleton, ← hlives.holds_iff]
    constructor
    -- The pool is below the id already, so that the record cannot have got it in this load.
    · rintro ⟨e, he, hheld⟩
      have hsame := (Referable.same_iff hindexed hnamed he).mpr rfl
      rcases holder_load h hok hid hlives.spent he hheld with ⟨s, hs, htitle, hgiven⟩ | ⟨hold, hnot⟩
      · have := hnone s hs (Text.same_trans htitle hsame)
        omega
      · refine ⟨⟨e, hold, hheld⟩, fun ⟨s, hs, htitle⟩ => Bool.false_ne_true ((hnot s hs).symm.trans ?_)⟩
        exact Text.same_trans htitle (Text.same_comm _ _ ▸ hsame)
    · rintro ⟨⟨e, he, rfl⟩, hnot⟩
      have hsame := (Referable.same_iff hlives.indexed hlives.named he).mpr rfl
      have hother : ∀ s ∈ k.sections b, Text.same s.title e.1 = false := fun s hs =>
        Bool.eq_false_iff.mpr fun htitle => hnot ⟨s, hs, Text.same_trans htitle hsame⟩
      obtain ⟨e', he', -, hkept⟩ := identity?_load h hok he hother
      exact ⟨e', he', hkept hid⟩
  · rintro ⟨e, he, hheld⟩
    rw [Unshared, List.forall_mem_append, List.forall_mem_singleton] at hunshared
    rcases holder_load h hok hid hlives.spent he hheld with ⟨s, hs, htitle, hgiven⟩ | ⟨hold, -⟩
    · have hsame := hunshared.2 s hs hgiven
      exact ((Referable.same_iff hindexed hnamed he).mp (Text.same_trans (Text.same_comm _ _ ▸ htitle) hsame)).symm
    · exact hlives.sole hunshared.1 j ⟨e, hold, hheld⟩

theorem lives_loadAll (h : AllLoad sizes (earlier ++ b₀ :: rest)) (hdraws : Draws (loadAll sizes earlier) b₀ k name i)
    (hid : 0 ≤ id) (hholds : k.Holds ((loadAll sizes earlier).load b₀).2.tables i id)
    (hnone : ∀ b ∈ rest, ∀ s ∈ k.sections b, Text.same s.title name = true → Load.frameId s < 0) :
    Lives k name i id (loadAll sizes (earlier ++ b₀ :: rest)) rest := by
  induction rest using List.reverseRecOn with
  | nil =>
    rw [loadAll_concat]
    exact hdraws.lives (intact_loadAll sizes earlier) (h earlier b₀ [] rfl) hid hholds
  | append_singleton rest b ih =>
    rw [← List.cons_append, ← List.append_assoc] at h ⊢
    rw [List.forall_mem_append, List.forall_mem_singleton] at hnone
    obtain ⟨hbefore, hok⟩ := allLoad_concat_iff.mp h
    rw [loadAll_concat]
    exact (ih hbefore hnone.1).load (intact_loadAll sizes _) hok hid hnone.2

/-- A misc value that was stored for a record with an id from the pool stays the id of the record exactly as long as
no section defines the record again, if those that do give it no id. Unless another record is given the id, the
value leads back to the record until then, and nowhere from then on. -/
theorem stored_holds_iff (h : AllLoad sizes (before ++ b :: later)) (hsplit : earlier ++ b₀ :: since = before ++ [b])
    (hdraws : Draws (loadAll sizes earlier) b₀ k name i) (hsince : ∀ b' ∈ since, ¬b'.Defines k name)
    (hstores : Stores (loadAll sizes before) b slot m k name i id)
    (hnone : ∀ b' ∈ later, ∀ s ∈ k.sections b', Text.same s.title name = true → Load.frameId s < 0) :
    (k.Holds (loadAll sizes (before ++ b :: later)).tables i id ↔ ∀ b' ∈ later, ¬b'.Defines k name) ∧
      (Unshared k name id (since ++ later) →
        ((∀ b' ∈ later, ¬b'.Defines k name) →
          k.slotNumbered? (loadAll sizes (before ++ b :: later)).tables id = some i) ∧
        ((∃ b' ∈ later, b'.Defines k name) →
          k.slotNumbered? (loadAll sizes (before ++ b :: later)).tables id = none)) := by
  obtain ⟨token, σ, f, hset, hrefers, hname, hlogged, hf, rfl⟩ := hstores
  obtain ⟨f', hf', e, he, hvalue⟩ :=
    hset.settles (intact_loadAll sizes before) (h before b later rfl) hrefers hname
  obtain rfl := Option.some.inj (hf.symm.trans hf')
  obtain ⟨-, hvalue⟩ := hvalue.resolve_right (hlogged e he)
  have hrun : before ++ b :: later = earlier ++ b₀ :: (since ++ later) := by
    rw [← List.cons_append, ← List.append_assoc, hsplit, List.append_assoc, List.singleton_append]
  have hall : AllLoad sizes ((earlier ++ b₀ :: since) ++ later) := by
    rw [List.append_assoc, List.cons_append, ← hrun]
    exact h
  have hstored := hall.of_append
  -- The record still has the id from the pool when the misc value is stored.
  obtain ⟨id, hnonneg, hdrawn⟩ := hdraws.holds
  have hsection : ∀ b' ∈ since, ∀ s ∈ k.sections b', Text.same s.title name = true → Load.frameId s < 0 :=
    fun b' hb' s hs hsame => absurd ⟨s, hs, hsame⟩ (hsince b' hb')
  obtain ⟨e', he', hsame⟩ := (lives_loadAll hstored hdraws hnonneg hdrawn hsection).holds_iff.mpr hsince
  rw [hsplit, loadAll_concat] at he'
  obtain rfl := Option.some.inj (he.symm.trans he')
  obtain rfl : id = f.misc m := hsame.symm.trans hvalue
  rw [hrun] at h ⊢
  have hlives := lives_loadAll h hdraws hnonneg hdrawn (List.forall_mem_append.mpr ⟨hsection, hnone⟩)
  have hholds : k.Holds (loadAll sizes (earlier ++ b₀ :: (since ++ later))).tables i (f.misc m) ↔
      ∀ b' ∈ later, ¬b'.Defines k name := by
    rw [hlives.holds_iff, List.forall_mem_append]
    exact and_iff_right hsince
  refine ⟨hholds, fun hunshared => ⟨fun hnot => ?_, fun ⟨b', hb', hdefines⟩ => ?_⟩⟩
  · exact Referable.slotNumbered?_eq_some hlives.indexed hnonneg (hholds.mpr hnot) (hlives.sole hunshared)
  · refine Referable.slotNumbered?_eq_none hlives.indexed fun j hj => ?_
    obtain rfl := hlives.sole hunshared j hj
    exact hholds.mp hj b' hb' hdefines

def summoning : Batch where
  things := [{ title := "Imp" }]
  frames := [decorated "S_NULL", walkTo "thing:Imp"]

def passing : Batch where
  things := [{ title := "Demon" }]

def resummoning : Batch where
  things := [{ title := "Imp" }]

theorem allLoad_summoning :
    AllLoad ⟨1, 1, 1, 1, 1⟩ [summoning, passing] ∧ AllLoad ⟨1, 1, 1, 1, 1⟩ [summoning, resummoning] := by
  have hfirst : AllLoad ⟨1, 1, 1, 1, 1⟩ ([] ++ [summoning]) :=
    allLoad_concat_iff.mpr ⟨allLoad_nil _, by decide +kernel⟩
  have hpassing : AllLoad ⟨1, 1, 1, 1, 1⟩ ([summoning] ++ [passing]) :=
    allLoad_concat_iff.mpr ⟨hfirst, by decide +kernel⟩
  have hagain : AllLoad ⟨1, 1, 1, 1, 1⟩ ([summoning] ++ [resummoning]) :=
    allLoad_concat_iff.mpr ⟨hfirst, by decide +kernel⟩
  exact ⟨hpassing, hagain⟩

theorem draws_summoning : Draws (new ⟨1, 1, 1, 1, 1⟩) summoning .thing "Imp" 1 where
  named := by decide +kernel
  before e he := by
    have hfirst : Referable.thing.identity? ((new ⟨1, 1, 1, 1, 1⟩).gathered summoning).tables 1 = some ("Imp", -1) := by
      decide +kernel
    obtain rfl := Option.some.inj (hfirst.symm.trans he)
    decide
  holds := ⟨maxLegacyId, by decide, ("Imp", maxLegacyId), by decide +kernel, rfl⟩

theorem stores_summoning : Stores (new ⟨1, 1, 1, 1, 1⟩) summoning 1 .misc1 .thing "Imp" 1 maxLegacyId := by
  have hok : ((new ⟨1, 1, 1, 1, 1⟩).load summoning).1 = .ok () := by decide +kernel
  have hload := (intact_new ⟨1, 1, 1, 1, 1⟩).completes summoning hok
  have hset : LastSet (new ⟨1, 1, 1, 1, 1⟩) summoning 1 .misc1 "thing:Imp"
      ((new ⟨1, 1, 1, 1, 1⟩).load summoning).2.state := by
    refine ⟨[⟨.definition, decorated "S_NULL"⟩], ⟨.definition, walkTo "thing:Imp"⟩, [], "S_WALK", rfl, hload.turns, rfl,
      by decide +kernel, by decide +kernel, ?_⟩
    rintro ⟨turn, hturn, -⟩
    cases hturn
  have hrefers : Refers "thing:Imp" .thing "Imp" := ⟨"thing", by decide +kernel, by decide, by decide +kernel⟩
  have hmisc : (((new ⟨1, 1, 1, 1, 1⟩).load summoning).2.frame? 1).map (·.misc .misc1) = some maxLegacyId := by
    decide +kernel
  obtain ⟨f, hf, hvalue⟩ := Option.map_eq_some_iff.mp hmisc
  refine ⟨"thing:Imp", _, f, hset, hrefers, by decide +kernel, ?_, hf, hvalue⟩
  rintro e - ⟨added, hadded, hmem⟩
  have hnone : ((new ⟨1, 1, 1, 1, 1⟩).load summoning).2.state.warnings = #[] := by decide +kernel
  obtain rfl : added = #[] := Array.empty_append.symm.trans (hadded.symm.trans hnone)
  exact Array.not_mem_empty _ hmem

theorem stored_holds_iff_summoning :
    (loadAll ⟨1, 1, 1, 1, 1⟩ [summoning, passing]).tables.things.slotNumbered? maxLegacyId = some 1 ∧
      (loadAll ⟨1, 1, 1, 1, 1⟩ [summoning, resummoning]).tables.things.slotNumbered? maxLegacyId = none := by
  have hsplit : [] ++ summoning :: [] = [] ++ [summoning] := rfl
  have hnone : ∀ b ∈ [passing, resummoning], ∀ s ∈ Referable.thing.sections b, Load.frameId s < 0 := by decide +kernel
  have hpassing := stored_holds_iff allLoad_summoning.1 hsplit draws_summoning nofun stores_summoning fun b hb s hs _ =>
    hnone b (List.mem_singleton.mp hb ▸ List.mem_cons_self) s hs
  have hagain := stored_holds_iff allLoad_summoning.2 hsplit draws_summoning nofun stores_summoning fun b hb s hs _ =>
    hnone b (List.mem_cons_of_mem _ hb) s hs
  have hother : ∀ b' ∈ [passing], ¬b'.Defines .thing "Imp" := by
    intro b' hb' ⟨s, hs, hsame⟩
    obtain rfl := List.mem_singleton.mp hb'
    obtain rfl := List.mem_singleton.mp hs
    exact absurd hsame (by decide +kernel)
  have hunshared : ∀ batches ⊆ [passing, resummoning], Unshared .thing "Imp" maxLegacyId batches :=
    fun batches hsub b hb s hs hid => absurd (hnone b (hsub hb) s hs) (by rw [hid]; decide)
  refine ⟨(hpassing.2 (hunshared _ (by simp))).1 hother, (hagain.2 (hunshared _ (by simp))).2 ?_⟩
  exact ⟨resummoning, List.mem_singleton_self _, { title := "Imp" }, List.mem_singleton_self _, Text.same_refl _⟩

theorem resummoning_dangling : AllLoad ⟨1, 1, 1, 1, 1⟩ [summoning, resummoning] ∧
    Draws (new ⟨1, 1, 1, 1, 1⟩) summoning .thing "Imp" 1 ∧
    Stores (new ⟨1, 1, 1, 1, 1⟩) summoning 1 .misc1 .thing "Imp" 1 maxLegacyId ∧
    (∀ s ∈ resummoning.things, s.value? "dehackednum" = none) ∧
    ((loadAll ⟨1, 1, 1, 1, 1⟩ [summoning, resummoning]).frame? 1).map (·.misc1) = some maxLegacyId ∧
    (loadAll ⟨1, 1, 1, 1, 1⟩ [summoning, resummoning]).tables.things.get? 1 = some ⟨"Imp", -1⟩ ∧
    (loadAll ⟨1, 1, 1, 1, 1⟩ [summoning, resummoning]).tables.things.slotNumbered? maxLegacyId = none :=
  ⟨allLoad_summoning.2, draws_summoning, stores_summoning, by decide +kernel, by decide +kernel, by decide +kernel,
    by decide +kernel⟩

end FrameTable.Library
