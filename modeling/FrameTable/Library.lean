import FrameTable.Load.Batch

/-!
A library of frames. Batches are loaded into it one after the other; frames are looked up by name and legacy
id, and their arguments are read as typed values. A load that fails keeps what it has done, except that until
the frames of a first load have their slots a failure leaves the tables as they were at the start.
-/

namespace FrameTable

inductive Phase where
  | idle
  | applied
deriving DecidableEq, Repr

def Phase.word : Phase → String
  | .idle => "idle"
  | .applied => "applied"

structure Library where
  sizes : IndexSizes
  state : LoadState
  phase : Phase := .idle
  initialized : Bool := false

namespace Library

def new (sizes : IndexSizes) : Library where
  sizes := sizes
  state := { tables := .initial sizes }

def tables (l : Library) : Tables := l.state.tables

def warnings (l : Library) : Array Warning := l.state.warnings

def clearWarnings (l : Library) : Library :=
  { l with state := { l.state with warnings := #[] } }

def abandon (l : Library) (state : LoadState) : Library :=
  { l with
    state := if l.initialized then state else { state with tables := .initial l.sizes }
    phase := .idle }

def load (l : Library) (b : Batch) : Except LoadError Unit × Library :=
  match (Load.gather b (!l.initialized)).run.run l.state with
  | (.error error, state) => (.error error, l.abandon state)
  | (.ok (), state) =>
    match (Load.fill b).run.run state with
    | (.error error, state) => (.error error, { l with state, phase := .idle, initialized := true })
    | (.ok (), state) => (.ok (), { l with state, phase := .applied, initialized := true })

def frame? (l : Library) (slot : Nat) : Option Frame := l.tables.frames.get? slot

def frameCount (l : Library) : Nat := l.tables.frames.size

def slotNamed? (l : Library) (name : String) : Option Nat := l.tables.frames.slotNamed? name

def nullFrame? (l : Library) : Option Nat :=
  if l.initialized then some l.tables.nullFrame else none

def slotNumbered? (l : Library) (number : Int) : Option Nat :=
  l.nullFrame?.map fun null => (l.tables.frames.slotNumbered? number).getD null

def arguments? (l : Library) (slot : Nat) : Option ArgumentList :=
  (l.frame? slot).bind (·.args)

def argumentCount (l : Library) (slot : Nat) : Nat :=
  ((l.frame? slot).map Frame.argumentCount).getD 0

def editFrames (l : Library) (f : Catalog Frame → Catalog Frame) : Library :=
  { l with state.tables.frames := f l.state.tables.frames }

def setArguments (l : Library) (slot : Nat) (args : ArgumentList) : Library :=
  l.editFrames (·.modify slot fun f => { f with args := some args })

def readArgument {α : Type} (l : Library) (r : Reader α) (slot position : Nat) (default : α) : α × Library :=
  match l.arguments? slot with
  | none => (default, l)
  | some args =>
    let (value, args) := args.read r position default
    (value, l.setArguments slot args)

def setArgument (l : Library) (slot position : Nat) (text : String) : Except ArgumentError Unit × Library :=
  match l.frame? slot with
  | none => (.error (.unknownFrame slot), l)
  | some frame =>
    let args := frame.args.getD .empty
    match args.set position text with
    | .error error => (.error error, l.setArguments slot args)
    | .ok args => (.ok (), l.setArguments slot args)

def forgetEvaluations (l : Library) : Library :=
  l.editFrames (·.map fun f => { f with args := f.args.map ArgumentList.forgetAll })

def evaluations (l : Library) : Nat :=
  l.tables.frames.store.items.foldl (fun total f => total + f.evaluations) 0

end Library

end FrameTable
