import Mathlib.Data.List.Basic
import FrameTable.Tables
import FrameTable.Proofs.Argument.Accessor

namespace FrameTable

inductive ArgumentRequest where
  | push (text : String)
  | set (position : Nat) (text : String)
  | setInt (position : Nat) (value : Int)
  | clear
  | forget (position : Nat)
  | forgetAll
  | read (a : Accessor) (position : Nat) (default : a.Value)
  | texts
  | evaluations

inductive ArgumentReply where
  | done
  | pushed (taken : Bool)
  | set (result : Except ArgumentError Unit)
  | value (a : Accessor) (value : a.Value)
  | texts (texts : List String)
  | evaluations (count : Nat)

def ArgumentRequest.run {σ : Type} (answer : σ → ArgumentRequest → ArgumentReply × σ) (state : σ) :
    List ArgumentRequest → List ArgumentReply × σ
  | [] => ([], state)
  | request :: requests =>
    let (reply, state) := answer state request
    let (replies, state) := run answer state requests
    (reply :: replies, state)

def ArgumentRequest.accessor? : ArgumentRequest → Option Accessor
  | .read a _ _ => some a
  | _ => none

def OneAccessor (requests : List ArgumentRequest) : Prop :=
  ∀ a ∈ requests.filterMap (·.accessor?), ∀ b ∈ requests.filterMap (·.accessor?), a.tag = b.tag → a = b

structure Note where
  text : String := ""
  last : Option Tag := none

def Note.blank : Note := {}

def Note.forget (n : Note) : Note := { n with last := none }

structure Ledger where
  notes : List Note
  evaluations : Nat := 0

namespace Ledger

def ofTexts (texts : List String) : Ledger where
  notes := (texts.take maxArguments).map fun text => { text }

def texts (m : Ledger) : List String := m.notes.map (·.text)

def set (m : Ledger) (position : Nat) (text : String) : ArgumentReply × Ledger :=
  if position < maxArguments then
    (.set (.ok ()), { m with
      notes := (m.notes ++ List.replicate (position + 1 - m.notes.length) Note.blank).set position { text } })
  else (.set (.error (.outOfCapacity position)), m)

def value (r : Resolver) (m : Ledger) (a : Accessor) (position : Nat) (default : a.Value) : a.Value :=
  ((ArgumentList.ofTexts m.texts).read (a.reader r) position default).1

def read (r : Resolver) (m : Ledger) (a : Accessor) (position : Nat) (default : a.Value) : ArgumentReply × Ledger :=
  match m.notes[position]? with
  | none => (.value a default, m)
  | some note => (.value a (m.value r a position default),
      if note.last = some a.tag then m
      else { notes := m.notes.set position { note with last := some a.tag }, evaluations := m.evaluations + 1 })

def answer (r : Resolver) (m : Ledger) : ArgumentRequest → ArgumentReply × Ledger
  | .push text =>
    if m.notes.length < maxArguments then (.pushed true, { m with notes := m.notes ++ [{ text }] })
    else (.pushed false, m)
  | .set position text => m.set position text
  | .setInt position value => m.set position (toString value)
  | .clear => (.done, { m with notes := [] })
  | .forget position => (.done, { m with notes := m.notes.modify position Note.forget })
  | .forgetAll => (.done, { m with notes := m.notes.map Note.forget })
  | .read a position default => m.read r a position default
  | .texts => (.texts m.texts, m)
  | .evaluations => (.evaluations m.evaluations, m)

end Ledger

def Cell.note (c : Cell) : Note where
  text := c.text
  last := c.cached.map (·.tag)

namespace ArgumentList

def ledger (l : ArgumentList) : Ledger where
  notes := l.cells.map Cell.note
  evaluations := l.evaluations

def answerSet (l : ArgumentList) (result : Except ArgumentError ArgumentList) : ArgumentReply × ArgumentList :=
  match result with
  | .ok l => (.set (.ok ()), l)
  | .error error => (.set (.error error), l)

def answer (r : Resolver) (l : ArgumentList) : ArgumentRequest → ArgumentReply × ArgumentList
  | .push text => (.pushed (l.push text).1, (l.push text).2)
  | .set position text => l.answerSet (l.set position text)
  | .setInt position value => l.answerSet (l.setInt position value)
  | .clear => (.done, l.clear)
  | .forget position => (.done, l.forget position)
  | .forgetAll => (.done, l.forgetAll)
  | .read a position default =>
    (.value a (l.read (a.reader r) position default).1, (l.read (a.reader r) position default).2)
  | .texts => (.texts l.texts, l)
  | .evaluations => (.evaluations l.evaluations, l)

variable {r : Resolver} {used : Accessor → Prop} {l : ArgumentList} {a : Accessor}

def Evaluated (r : Resolver) (used : Accessor → Prop) (l : ArgumentList) : Prop :=
  ∀ c ∈ l.cells, ∀ e, c.cached = some e → ∃ a, used a ∧ e = (a.reader r).evaluate c.text

theorem texts_ledger (l : ArgumentList) : l.ledger.texts = l.texts := by
  simp only [Ledger.texts, ledger, List.map_map, texts]
  rfl

theorem ledger_ofTexts (texts : List String) : (ofTexts texts).ledger = .ofTexts texts := by
  simp only [ledger, ofTexts, replace, List.map_map, Ledger.ofTexts]
  rfl

theorem cells_ofTexts_texts (l : ArgumentList) : (ofTexts l.texts).cells = l.cells.map Cell.forget := by
  have hlength : l.texts.length ≤ maxArguments := by
    rw [texts, List.length_map]
    exact l.length_le
  change ((l.texts.take maxArguments).map fun text => ({ text } : Cell)) = _
  rw [List.take_of_length_le hlength, texts, List.map_map]
  rfl

theorem evaluated_ofTexts (texts : List String) : (ofTexts texts).Evaluated r used := by
  intro c hc e he
  obtain ⟨text, -, rfl⟩ := List.mem_map.mp hc
  cases he

section Read

variable {α : Type} (l : ArgumentList) (reader : Reader α) {position : Nat} (default : α)

theorem read_of_none (hnone : l.cells[position]? = none) : l.read reader position default = (default, l) := by
  rw [ArgumentList.read, hnone]

theorem read_of_some {c : Cell} (hc : l.cells[position]? = some c) : l.read reader position default =
    ((c.read reader).1.getD default,
      { cells := l.cells.set position (c.read reader).2.1
        evaluations := if (c.read reader).2.2 then l.evaluations + 1 else l.evaluations
        length_le := by simpa using l.length_le }) := by
  rw [ArgumentList.read, hc]

end Read

theorem value_ledger (l : ArgumentList) (position : Nat) (default : a.Value) : l.ledger.value r a position default =
    (l.cells[position]?.bind fun c => (a.reader r).answer? ((a.reader r).evaluate c.text)).getD default := by
  have hcells : (ofTexts l.texts).cells[position]? = l.cells[position]?.map Cell.forget := by
    rw [cells_ofTexts_texts, List.getElem?_map]
  rw [Ledger.value, texts_ledger]
  cases hc : l.cells[position]? with
  | none =>
    rw [hc] at hcells
    rw [read_of_none _ _ _ hcells]
    rfl
  | some c =>
    rw [hc] at hcells
    rw [read_of_some _ _ _ hcells, Cell.read_of_tag_ne (c := c.forget) nofun]
    rfl

theorem read_ledger (h : l.Evaluated r used) (ha : used a) (honly : ∀ b, used b → b.tag = a.tag → b = a)
    (position : Nat) (default : a.Value) :
    l.ledger.read r a position default = (.value a (l.read (a.reader r) position default).1,
        (l.read (a.reader r) position default).2.ledger) ∧
      (l.read (a.reader r) position default).2.Evaluated r used := by
  have hnote : l.ledger.notes[position]? = l.cells[position]?.map Cell.note := List.getElem?_map ..
  rw [Ledger.read, hnote, value_ledger]
  cases hc : l.cells[position]? with
  | none =>
    rw [read_of_none _ _ _ hc]
    exact ⟨rfl, h⟩
  | some c =>
    have hmem : c ∈ l.cells := List.mem_of_getElem? hc
    rw [read_of_some _ _ _ hc]
    by_cases htag : c.cached.map (·.tag) = some a.tag
    · -- The evaluation in the cell is the one that its text has now.
      obtain ⟨e, hcached, he⟩ := Option.map_eq_some_iff.mp htag
      obtain ⟨b, hb, rfl⟩ := h c hmem e hcached
      obtain rfl := honly b hb ((b.tag_evaluate r c.text).symm.trans he)
      have hset : l.cells.set position c = l.cells := by
        obtain ⟨hlt, hget⟩ := List.getElem?_eq_some_iff.mp hc
        rw [← hget]
        exact List.set_getElem_self hlt
      simp only [Cell.read_of_cached hcached he, hset, Option.map_some, Cell.note, htag, if_true]
      exact ⟨rfl, h⟩
    · simp only [Cell.read_of_tag_ne htag, Option.map_some, Cell.note, htag, if_false]
      refine ⟨?_, fun c' hc' e he => ?_⟩
      · simp only [ledger, List.map_set, Cell.note, Option.map_some, a.tag_evaluate, if_true]
        rfl
      · rcases List.mem_or_eq_of_mem_set hc' with hold | rfl
        · exact h c' hold e he
        · exact ⟨a, ha, (Option.some.inj he).symm⟩

section Edit

variable (l) (position : Nat) (text : String)

theorem Evaluated.of_mem {l l' : ArgumentList} (h : l.Evaluated r used)
    (hcells : ∀ c ∈ l'.cells, c ∈ l.cells ∨ c.cached = none) : l'.Evaluated r used := by
  intro c hc e he
  rcases hcells c hc with hold | hnone
  · exact h c hold e he
  · rw [hnone] at he
    cases he

theorem length_notes : l.ledger.notes.length = l.cells.length :=
  List.length_map _

theorem push_ledger : l.ledger.answer r (.push text) = (.pushed (l.push text).1, (l.push text).2.ledger) ∧
    ∀ c ∈ (l.push text).2.cells, c ∈ l.cells ∨ c.cached = none := by
  rw [Ledger.answer, length_notes, ArgumentList.push]
  by_cases hlt : l.cells.length < maxArguments
  · rw [if_pos hlt, dif_pos (show l.size < maxArguments from hlt)]
    refine ⟨?_, fun c hc => ?_⟩
    · simp only [ledger, List.map_append, List.map_singleton]
      rfl
    · rcases List.mem_append.mp hc with hold | hnew
      · exact .inl hold
      · exact .inr (List.mem_singleton.mp hnew ▸ rfl)
  · rw [if_neg hlt, dif_neg (show ¬l.size < maxArguments from hlt)]
    exact ⟨rfl, fun _ => .inl⟩

theorem set_ledger : l.ledger.set position text =
      ((l.answerSet (l.set position text)).1, (l.answerSet (l.set position text)).2.ledger) ∧
    ∀ c ∈ (l.answerSet (l.set position text)).2.cells, c ∈ l.cells ∨ c.cached = none := by
  rw [Ledger.set, length_notes, ArgumentList.set]
  by_cases hlt : position < maxArguments
  · rw [if_pos hlt, dif_pos hlt]
    refine ⟨?_, fun c hc => ?_⟩
    · simp only [answerSet, ledger, List.map_set, List.map_append, List.map_replicate]
      rfl
    · rcases List.mem_or_eq_of_mem_set hc with hold | rfl
      · refine (List.mem_append.mp hold).imp_right fun hblank => ?_
        rw [List.eq_of_mem_replicate hblank]
        rfl
      · exact .inr rfl
  · rw [if_neg hlt, dif_neg hlt]
    exact ⟨rfl, fun _ => .inl⟩

theorem forget_ledger : l.ledger.notes.modify position Note.forget = (l.forget position).ledger.notes ∧
    ∀ c ∈ (l.forget position).cells, c ∈ l.cells ∨ c.cached = none := by
  refine ⟨List.ext_getElem? fun i => ?_, fun c hc => ?_⟩
  · simp only [ledger, forget, List.getElem?_modify, List.getElem?_map]
    split
    · cases l.cells[i]? <;> rfl
    · simp
  · obtain ⟨i, hi⟩ := List.mem_iff_getElem?.mp hc
    rw [forget, List.getElem?_modify] at hi
    obtain ⟨c', hc', rfl⟩ := Option.map_eq_some_iff.mp hi
    split
    · exact .inr rfl
    · exact .inl (List.mem_of_getElem? hc')

theorem forgetAll_ledger : l.ledger.notes.map Note.forget = l.forgetAll.ledger.notes ∧
    ∀ c ∈ l.forgetAll.cells, c ∈ l.cells ∨ c.cached = none := by
  refine ⟨?_, fun c hc => ?_⟩
  · simp only [ledger, forgetAll, List.map_map]
    rfl
  · obtain ⟨c', -, rfl⟩ := List.mem_map.mp hc
    exact .inr rfl

end Edit

theorem answer_ledger (h : l.Evaluated r used) (honly : ∀ a b, used a → used b → a.tag = b.tag → a = b)
    (request : ArgumentRequest) (hused : ∀ a, request.accessor? = some a → used a) :
    l.ledger.answer r request = ((l.answer r request).1, (l.answer r request).2.ledger) ∧
      (l.answer r request).2.Evaluated r used := by
  cases request with
  | push text =>
    obtain ⟨hanswer, hcells⟩ := l.push_ledger text
    exact ⟨hanswer, h.of_mem hcells⟩
  | set position text =>
    obtain ⟨hanswer, hcells⟩ := l.set_ledger position text
    exact ⟨hanswer, h.of_mem hcells⟩
  | setInt position value =>
    obtain ⟨hanswer, hcells⟩ := l.set_ledger position (toString value)
    exact ⟨hanswer, h.of_mem hcells⟩
  | clear => exact ⟨rfl, h.of_mem nofun⟩
  | forget position =>
    obtain ⟨hnotes, hcells⟩ := l.forget_ledger position
    exact ⟨congrArg (fun notes => (ArgumentReply.done, Ledger.mk notes l.evaluations)) hnotes, h.of_mem hcells⟩
  | forgetAll =>
    obtain ⟨hnotes, hcells⟩ := l.forgetAll_ledger
    exact ⟨congrArg (fun notes => (ArgumentReply.done, Ledger.mk notes l.evaluations)) hnotes, h.of_mem hcells⟩
  | read a position default =>
    have ha := hused a rfl
    exact l.read_ledger h ha (fun b hb htag => honly b a hb ha htag) position default
  | texts => exact ⟨congrArg (fun texts => (ArgumentReply.texts texts, l.ledger)) l.texts_ledger, h⟩
  | evaluations => exact ⟨rfl, h⟩

theorem run_ledger (h : l.Evaluated r used) (honly : ∀ a b, used a → used b → a.tag = b.tag → a = b)
    (requests : List ArgumentRequest) (hused : ∀ a ∈ requests.filterMap (·.accessor?), used a) :
    ArgumentRequest.run (Ledger.answer r) l.ledger requests =
      ((ArgumentRequest.run (answer r) l requests).1, (ArgumentRequest.run (answer r) l requests).2.ledger) := by
  induction requests generalizing l with
  | nil => rfl
  | cons request requests ih =>
    have hhead : ∀ a, request.accessor? = some a → used a := fun a ha =>
      hused a (List.mem_filterMap.mpr ⟨request, List.mem_cons_self, ha⟩)
    have htail : ∀ a ∈ requests.filterMap (·.accessor?), used a := fun a ha => by
      obtain ⟨other, hmem, hother⟩ := List.mem_filterMap.mp ha
      exact hused a (List.mem_filterMap.mpr ⟨other, List.mem_cons_of_mem _ hmem, hother⟩)
    obtain ⟨hanswer, hnext⟩ := answer_ledger h honly request hhead
    simp only [ArgumentRequest.run, hanswer, ih hnext htail]

/-- Caching cannot be seen but in the count of evaluations: a list made from `texts` gives the replies of a ledger,
whose reads ask a list that has evaluated nothing, and has its texts and its count in the end. -/
theorem run_ofTexts_eq_ledger (r : Resolver) (texts : List String) (requests : List ArgumentRequest)
    (h : OneAccessor requests) :
    let list := ArgumentRequest.run (answer r) (.ofTexts texts) requests
    let ledger := ArgumentRequest.run (Ledger.answer r) (.ofTexts texts) requests
    list.1 = ledger.1 ∧ list.2.texts = ledger.2.texts ∧ list.2.evaluations = ledger.2.evaluations := by
  intro list ledger
  have hrun : ledger = (list.1, list.2.ledger) := by
    have hstart : (ofTexts texts).Evaluated r (· ∈ requests.filterMap (·.accessor?)) := evaluated_ofTexts texts
    have hledger := run_ledger hstart (fun a b ha hb htag => h a ha b hb htag) requests fun _ => id
    rwa [ledger_ofTexts] at hledger
  rw [hrun, texts_ledger]
  exact ⟨rfl, rfl, rfl⟩

def rereading : List ArgumentRequest :=
  [.read .int 0 (0 : Int), .read .int 0 (0 : Int), .read .thing 0 (0 : Nat), .read .int 0 (0 : Int), .set 2 "7",
    .read .int 2 (0 : Int), .read .int 3 (-1 : Int), .texts]

theorem run_rereading :
    let r := (Tables.initial ⟨1, 1, 1, 1, 1⟩).resolver
    let list := ArgumentRequest.run (answer r) (.ofTexts ["12"]) rereading
    OneAccessor rereading ∧ list.1 = (ArgumentRequest.run (Ledger.answer r) (.ofTexts ["12"]) rereading).1 ∧
      list.2.texts = ["12", "", "7"] ∧ list.2.evaluations = 4 := by
  intro r list
  have hone : OneAccessor rereading := by
    unfold OneAccessor
    decide
  exact ⟨hone, (run_ofTexts_eq_ledger r ["12"] rereading hone).1, by decide +kernel, by decide +kernel⟩

end ArgumentList

end FrameTable
