import FrameTable.Library
import FrameTable.Proofs.Argument.Accessor
import FrameTable.Proofs.Load.Alike

namespace FrameTable

structure CatalogView (ε : Type) [Record ε] where
  store : Store ε (Record.width ε)
  named? : String → Option Nat
  numbered? : Int → Option Nat
  pool : IdPool

def Catalog.view {ε : Type} [Record ε] (c : Catalog ε) : CatalogView ε where
  store := c.store
  named? := c.slotNamed?
  numbered? := c.slotNumbered?
  pool := c.directory.pool

theorem Catalog.Alike.view_eq {ε : Type} [Record ε] {c d : Catalog ε} (h : c.Alike d) : c.view = d.view := by
  rw [view, view, h.store, funext h.slotNamed?_eq, funext h.slotNumbered?_eq, h.directory.pool]

namespace Library

structure View where
  phase : Phase
  warnings : Array Warning
  frames : CatalogView Frame
  things : CatalogView Thing
  sounds : CatalogView Sound
  strings : CatalogView Message
  sprites : Array String
  spriteNamed? : String → Option Nat
  nullFrame? : Option Nat
  frameNumbered? : Int → Option Nat
  argumentCount : Nat → Nat
  evaluations : Nat

def view (l : Library) : View where
  phase := l.phase
  warnings := l.warnings
  frames := l.tables.frames.view
  things := l.tables.things.view
  sounds := l.tables.sounds.view
  strings := l.tables.strings.view
  sprites := l.tables.sprites.names
  spriteNamed? := l.tables.sprites.slotNamed?
  nullFrame? := l.nullFrame?
  frameNumbered? := l.slotNumbered?
  argumentCount := l.argumentCount
  evaluations := l.evaluations

inductive Request where
  | load (b : Batch)
  | setArgument (slot position : Nat) (text : String)
  | readArgument (a : Accessor) (slot position : Nat) (default : a.Value)
  | forgetEvaluations
  | clearWarnings

inductive Reply where
  | loaded (result : Except LoadError Unit)
  | set (result : Except ArgumentError Unit)
  | value (a : Accessor) (value : a.Value)
  | done

def answer (l : Library) : Request → Reply × Library
  | .load b => (.loaded (l.load b).1, (l.load b).2)
  | .setArgument slot position text => (.set (l.setArgument slot position text).1, (l.setArgument slot position text).2)
  | .readArgument a slot position default =>
    let read := l.readArgument (a.reader l.tables.resolver) slot position default
    (.value a read.1, read.2)
  | .forgetEvaluations => (.done, l.forgetEvaluations)
  | .clearWarnings => (.done, l.clearWarnings)

def transcript (l : Library) : List Request → List (Reply × View)
  | [] => []
  | request :: requests =>
    ((l.answer request).1, (l.answer request).2.view) :: transcript (l.answer request).2 requests

structure Alike (l l' : Library) : Prop where
  state : l.state.Alike l'.state
  phase : l.phase = l'.phase
  initialized : l.initialized = l'.initialized

theorem alike_new (sizes sizes' : IndexSizes) : (new sizes).Alike (new sizes') where
  state := ⟨Tables.alike_initial sizes sizes', rfl⟩
  phase := rfl
  initialized := rfl

namespace Alike

variable {l l' : Library}

theorem nullFrame?_eq (h : l.Alike l') : l.nullFrame? = l'.nullFrame? := by
  rw [Library.nullFrame?, Library.nullFrame?, h.initialized, tables, h.state.tables.nullFrame]
  rfl

theorem frame?_eq (h : l.Alike l') (slot : Nat) : l.frame? slot = l'.frame? slot :=
  h.state.tables.frames.get?_eq slot

theorem view_eq (h : l.Alike l') : l.view = l'.view := by
  have htables := h.state.tables
  have hnumbered : l.slotNumbered? = l'.slotNumbered? := by
    funext number
    rw [Library.slotNumbered?, Library.slotNumbered?, h.nullFrame?_eq]
    exact congrArg (Option.map · _) (funext fun null => congrArg (·.getD null) (htables.frames.slotNumbered?_eq number))
  have hcount : l.argumentCount = l'.argumentCount := funext fun slot => by
    rw [Library.argumentCount, Library.argumentCount, h.frame?_eq]
  have hevaluations : l.evaluations = l'.evaluations := by
    rw [Library.evaluations, Library.evaluations, tables, htables.frames.store]
    rfl
  have hwarnings : l.warnings = l'.warnings := h.state.warnings
  have hframes : l.tables.frames.view = l'.tables.frames.view := htables.frames.view_eq
  have hthings : l.tables.things.view = l'.tables.things.view := htables.things.view_eq
  have hsounds : l.tables.sounds.view = l'.tables.sounds.view := htables.sounds.view_eq
  have hstrings : l.tables.strings.view = l'.tables.strings.view := htables.strings.view_eq
  have hsprites : l.tables.sprites.names = l'.tables.sprites.names := htables.sprites.names
  have hspriteNamed : l.tables.sprites.slotNamed? = l'.tables.sprites.slotNamed? :=
    funext htables.sprites.slotNamed?_eq
  rw [view, view, h.phase, hwarnings, hframes, hthings, hsounds, hstrings, hsprites, hspriteNamed, h.nullFrame?_eq,
    hnumbered, hcount, hevaluations]

theorem editFrames (h : l.Alike l') {f : Catalog Frame → Catalog Frame}
    (hf : ∀ c d : Catalog Frame, c.Alike d → (f c).Alike (f d)) : (l.editFrames f).Alike (l'.editFrames f) :=
  { h with state := ⟨{ h.state.tables with frames := hf _ _ h.state.tables.frames }, h.state.warnings⟩ }

theorem setArguments (h : l.Alike l') (slot : Nat) (args : ArgumentList) :
    (l.setArguments slot args).Alike (l'.setArguments slot args) :=
  h.editFrames fun _ _ hframes => hframes.modify slot _

theorem setArgument (h : l.Alike l') (slot position : Nat) (text : String) :
    (l.setArgument slot position text).1 = (l'.setArgument slot position text).1 ∧
      (l.setArgument slot position text).2.Alike (l'.setArgument slot position text).2 := by
  unfold Library.setArgument
  rw [← h.frame?_eq]
  split
  · exact ⟨rfl, h⟩
  · simp only
    split
    · exact ⟨rfl, h.setArguments slot _⟩
    · exact ⟨rfl, h.setArguments slot _⟩

theorem readArgument {α : Type} (h : l.Alike l') (r : Reader α) (slot position : Nat) (default : α) :
    (l.readArgument r slot position default).1 = (l'.readArgument r slot position default).1 ∧
      (l.readArgument r slot position default).2.Alike (l'.readArgument r slot position default).2 := by
  have hargs : l.arguments? slot = l'.arguments? slot := congrArg (Option.bind · _) (h.frame?_eq slot)
  unfold Library.readArgument
  rw [← hargs]
  split
  · exact ⟨rfl, h⟩
  · exact ⟨rfl, h.setArguments slot _⟩

theorem abandon (h : l.Alike l') {σ τ : LoadState} (hstate : σ.Alike τ) : (l.abandon σ).Alike (l'.abandon τ) where
  state := by
    unfold Library.abandon
    rw [h.initialized]
    cases l'.initialized with
    | true => exact hstate
    | false => exact ⟨Tables.alike_initial _ _, hstate.warnings⟩
  phase := rfl
  initialized := h.initialized

theorem load (h : l.Alike l') (b : Batch) :
    (l.load b).1 = (l'.load b).1 ∧ (l.load b).2.Alike (l'.load b).2 := by
  obtain ⟨hgathered, hσ⟩ := Load.gather_agrees h.state b (!l.initialized)
  unfold Library.load
  rw [← h.initialized]
  rcases hl : (Load.gather b (!l.initialized)).run.run l.state with ⟨gathered, σ⟩
  rcases hl' : (Load.gather b (!l.initialized)).run.run l'.state with ⟨gathered', σ'⟩
  rw [hl, hl'] at hgathered hσ
  obtain rfl : gathered = gathered' := hgathered
  cases gathered with
  | error error => exact ⟨rfl, h.abandon hσ⟩
  | ok value =>
    obtain ⟨hfilled, hτ⟩ := Load.fill_agrees Load.simulation_alike hσ b
    rcases hf : (Load.fill b).run.run σ with ⟨filled, τ⟩
    rcases hf' : (Load.fill b).run.run σ' with ⟨filled', τ'⟩
    rw [hf, hf'] at hfilled hτ
    obtain rfl : filled = filled' := hfilled
    simp only [hf, hf']
    cases filled with
    | error error => exact ⟨rfl, hτ, rfl, rfl⟩
    | ok value => exact ⟨rfl, hτ, rfl, rfl⟩

theorem answer (h : l.Alike l') (request : Request) :
    (l.answer request).1 = (l'.answer request).1 ∧ (l.answer request).2.Alike (l'.answer request).2 := by
  cases request with
  | load b =>
    obtain ⟨hresult, hl⟩ := h.load b
    exact ⟨congrArg Reply.loaded hresult, hl⟩
  | setArgument slot position text =>
    obtain ⟨hresult, hl⟩ := h.setArgument slot position text
    exact ⟨congrArg Reply.set hresult, hl⟩
  | readArgument a slot position default =>
    have hresolver : l.tables.resolver = l'.tables.resolver := h.state.tables.resolver_eq
    obtain ⟨hresult, hl⟩ := h.readArgument (a.reader l.tables.resolver) slot position default
    simp only [Library.answer, ← hresolver]
    exact ⟨congrArg (Reply.value a) hresult, hl⟩
  | forgetEvaluations => exact ⟨rfl, h.editFrames fun _ _ hframes => hframes.map _⟩
  | clearWarnings => exact ⟨rfl, ⟨h.state.tables, rfl⟩, h.phase, h.initialized⟩

theorem transcript_eq (h : l.Alike l') (requests : List Request) : l.transcript requests = l'.transcript requests := by
  induction requests generalizing l l' with
  | nil => rfl
  | cons request requests ih =>
    obtain ⟨hreply, hnext⟩ := h.answer request
    rw [transcript, transcript, hreply, hnext.view_eq, ih hnext]

end Alike

/-- A library looks and behaves the same for all numbers of chains, zero among them: whatever batches are loaded and
arguments set and read, each request has the same reply, and the same is seen after it. -/
theorem transcript_new_eq (sizes sizes' : IndexSizes) (requests : List Request) :
    (new sizes).view = (new sizes').view ∧ (new sizes).transcript requests = (new sizes').transcript requests :=
  ⟨(alike_new sizes sizes').view_eq, (alike_new sizes sizes').transcript_eq requests⟩

end Library

end FrameTable
