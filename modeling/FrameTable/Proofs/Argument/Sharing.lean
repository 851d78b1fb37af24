import Mathlib.Data.List.Basic
import FrameTable.Proofs.Argument.Edit
import FrameTable.Proofs.Argument.Meaning

/-!
What earlier reads do to an answer. A cell keeps the evaluation of the last accessor that had to evaluate it, and
an accessor with the same tag answers from that one. So the answer is the documented one exactly when that
evaluation does not lead the accessor astray.
-/

namespace FrameTable

structure Watch where
  size : Nat
  evaluator? : Option Accessor := none

namespace Watch

def write (w : Watch) (position i : Nat) : Watch :=
  if i < maxArguments then
    { size := max w.size (i + 1), evaluator? := if i = position then none else w.evaluator? }
  else w

def next (position : Nat) (w : Watch) : ArgumentRequest → Watch
  | .push _ => if w.size < maxArguments then { w with size := w.size + 1 } else w
  | .set i _ => w.write position i
  | .setInt i _ => w.write position i
  | .clear => { size := 0 }
  | .forget i => if i = position then { w with evaluator? := none } else w
  | .forgetAll => { w with evaluator? := none }
  | .read a i _ =>
    if i = position ∧ i < w.size ∧ w.evaluator?.map (·.tag) ≠ some a.tag then { w with evaluator? := some a } else w
  | .texts => w
  | .evaluations => w

end Watch

def ArgumentRequest.evaluator? (texts : List String) (requests : List ArgumentRequest) (position : Nat) :
    Option Accessor :=
  (requests.foldl (Watch.next position) { size := (texts.take maxArguments).length }).evaluator?

namespace ArgumentList

variable {r : Resolver} {l l' : ArgumentList} {w : Watch} {position i : Nat} {text : String} {a : Accessor}

structure Watched (r : Resolver) (position : Nat) (w : Watch) (l : ArgumentList) : Prop where
  size_eq : l.size = w.size
  beyond : w.size ≤ position → w.evaluator? = none
  cached : ∀ c, l.cells[position]? = some c → c.cached = w.evaluator?.map fun a => (a.reader r).evaluate c.text

theorem watched_ofTexts (r : Resolver) (texts : List String) (position : Nat) :
    Watched r position { size := (texts.take maxArguments).length } (ofTexts texts) where
  size_eq := List.length_map _
  beyond _ := rfl
  cached c hc := by
    obtain ⟨text, -, rfl⟩ := List.mem_map.mp (List.mem_of_getElem? hc)
    rfl

namespace Watched

theorem push (h : Watched r position w l) (text : String) :
    Watched r position (w.next position (.push text)) (l.push text).2 := by
  rw [Watch.next, ← h.size_eq]
  by_cases hlt : l.size < maxArguments
  · have hcells := l.cells_push text hlt
    rw [if_pos hlt]
    refine ⟨(congrArg List.length hcells).trans List.length_append, fun hle => h.beyond ?_, fun c hc => ?_⟩
    · exact Nat.le_of_succ_le (h.size_eq ▸ hle)
    · rw [hcells] at hc
      rcases Nat.lt_trichotomy position l.cells.length with hin | heq | hout
      · rw [List.getElem?_append_left hin] at hc
        exact h.cached c hc
      · rw [List.getElem?_append_right (Nat.le_of_eq heq.symm), heq, Nat.sub_self] at hc
        obtain rfl : { text } = c := Option.some.inj hc
        rw [h.beyond (by rw [← h.size_eq]; exact Nat.le_of_eq heq.symm)]
        rfl
      · rw [List.getElem?_eq_none (by rw [List.length_append]; exact hout)] at hc
        cases hc
  · rw [if_neg hlt, l.push_of_le text (Nat.le_of_not_lt hlt)]
    exact h

theorem write (h : Watched r position w l) (i : Nat) (text : String) :
    Watched r position (w.write position i) (l.answerSet (l.set i text)).2 := by
  rw [Watch.write]
  by_cases hlt : i < maxArguments
  · obtain ⟨new, hset, hnew⟩ := l.exists_set text hlt
    rw [if_pos hlt, hset]
    change Watched r position _ new
    have hsize := hnew.size_eq
    rw [h.size_eq] at hsize
    by_cases hi : i = position
    · subst hi
      rw [if_pos rfl]
      refine ⟨hsize, fun _ => rfl, fun c hc => ?_⟩
      obtain rfl : { text } = c := Option.some.inj (hnew.cell.symm.trans hc)
      rfl
    · rw [if_neg hi]
      refine ⟨hsize, fun hle => h.beyond (Nat.le_trans (Nat.le_max_left ..) hle), fun c hc => ?_⟩
      obtain ⟨hin, -⟩ := List.getElem?_eq_some_iff.mp hc
      obtain rfl := Option.some.inj ((hnew.other position hin (Ne.symm hi)).symm.trans hc)
      cases hold : l.cells[position]? with
      | none =>
        rw [h.beyond (by rw [← h.size_eq]; exact List.getElem?_eq_none_iff.mp hold)]
        rfl
      | some c => exact h.cached c hold
  · rw [if_neg hlt, l.set_eq_error text (Nat.le_of_not_lt hlt)]
    exact h

theorem forget (h : Watched r position w l) (i : Nat) :
    Watched r position (w.next position (.forget i)) (l.forget i) := by
  have hsize : (l.forget i).size = w.size := (List.length_modify ..).trans h.size_eq
  have hcell : (l.forget i).cells[position]? = (fun c => if i = position then c.forget else c) <$> l.cells[position]? :=
    List.getElem?_modify ..
  rw [Watch.next]
  by_cases hi : i = position
  · rw [if_pos hi]
    refine ⟨hsize, fun _ => rfl, fun c hc => ?_⟩
    obtain ⟨c', -, rfl⟩ := Option.map_eq_some_iff.mp (hcell.symm.trans hc)
    rw [if_pos hi]
    rfl
  · rw [if_neg hi]
    refine ⟨hsize, h.beyond, fun c hc => ?_⟩
    obtain ⟨c', hc', rfl⟩ := Option.map_eq_some_iff.mp (hcell.symm.trans hc)
    rw [if_neg hi]
    exact h.cached c' hc'

theorem forgetAll (h : Watched r position w l) : Watched r position (w.next position .forgetAll) l.forgetAll := by
  refine ⟨(List.length_map _).trans h.size_eq, fun _ => rfl, fun c hc => ?_⟩
  obtain ⟨c', -, rfl⟩ := List.mem_map.mp (List.mem_of_getElem? hc)
  rfl

theorem read (h : Watched r position w l) (a : Accessor) (i : Nat) (default : a.Value) :
    Watched r position (w.next position (.read a i default)) (l.read (a.reader r) i default).2 := by
  rw [Watch.next, ← h.size_eq]
  cases hc : l.cells[i]? with
  | none =>
    have hle : l.size ≤ i := List.getElem?_eq_none_iff.mp hc
    rw [read_of_none _ _ _ hc, if_neg fun hread => Nat.not_lt_of_le hle hread.2.1]
    exact h
  | some c =>
    obtain ⟨hin, -⟩ := List.getElem?_eq_some_iff.mp hc
    rw [read_of_some _ _ _ hc]
    have hsize (c' : Cell) : (l.cells.set i c').length = w.size := (List.length_set ..).trans h.size_eq
    by_cases hi : i = position
    · subst hi
      have hcached := h.cached c hc
      have htag : c.cached.map (·.tag) = w.evaluator?.map (·.tag) := by
        rw [hcached, Option.map_map]
        exact congrArg (w.evaluator?.map ·) (funext fun b => b.tag_evaluate r c.text)
      by_cases hsame : w.evaluator?.map (·.tag) = some a.tag
      · obtain ⟨e, he, hetag⟩ := Option.map_eq_some_iff.mp (htag.trans hsame)
        rw [if_neg fun hread => hread.2.2 hsame, Cell.read_of_cached he hetag]
        refine ⟨hsize c, h.beyond, fun c' hc' => ?_⟩
        obtain rfl := Option.some.inj ((List.getElem?_set_self hin).symm.trans hc')
        exact hcached
      · rw [if_pos ⟨rfl, hin, hsame⟩, Cell.read_of_tag_ne (htag ▸ hsame)]
        refine ⟨List.length_set .., fun hle => absurd hin (Nat.not_lt_of_le hle), fun c' hc' => ?_⟩
        obtain rfl := Option.some.inj ((List.getElem?_set_self hin).symm.trans hc')
        rfl
    · rw [if_neg fun hread => hi hread.1]
      exact ⟨hsize _, h.beyond, fun c' hc' => h.cached c' ((List.getElem?_set_ne hi).symm.trans hc')⟩

theorem answer (h : Watched r position w l) (request : ArgumentRequest) :
    Watched r position (w.next position request) (l.answer r request).2 := by
  cases request with
  | push text => exact h.push text
  | set i text => exact h.write i text
  | setInt i value => exact h.write i (toString value)
  | clear => exact ⟨rfl, fun _ => rfl, nofun⟩
  | forget i => exact h.forget i
  | forgetAll => exact h.forgetAll
  | read a i default => exact h.read a i default
  | texts => exact h
  | evaluations => exact h

theorem run (h : Watched r position w l) (requests : List ArgumentRequest) :
    Watched r position (requests.foldl (Watch.next position) w)
      (ArgumentRequest.run (ArgumentList.answer r) l requests).2 := by
  induction requests generalizing l w with
  | nil => exact h
  | cons request requests ih => exact ih (h.answer request)

end Watched

def meaning (r : Resolver) (l : ArgumentList) (k : HandleReader) (position : Nat) (default : k.accessor.Value) :
    k.accessor.Value :=
  ((l.text? position).map fun text => k.meaning r text).getD default

def answerAfter (r : Resolver) (texts : List String) (requests : List ArgumentRequest) (k : HandleReader)
    (position : Nat) (default : k.accessor.Value) : k.accessor.Value :=
  ((ArgumentRequest.run (answer r) (.ofTexts texts) requests).2.read (k.accessor.reader r) position default).1

variable {k : HandleReader} {c : Cell}

theorem read_of_tag_ne (default : k.accessor.Value) (hc : l.cells[position]? = some c)
    (htag : c.cached.map (·.tag) ≠ some k.accessor.tag) :
    (l.read (k.accessor.reader r) position default).1 = k.meaning r c.text := by
  rw [read_of_some _ _ _ hc, Cell.read_of_tag_ne htag, HandleReader.answer?_evaluate rfl, Option.getD_some,
    HandleReader.answer_stored]

theorem read_of_evaluated {j : HandleReader} (default : k.accessor.Value) (hc : l.cells[position]? = some c)
    (hcached : c.cached = some ((j.accessor.reader r).evaluate c.text)) (htag : j.accessor.tag = k.accessor.tag) :
    (l.read (k.accessor.reader r) position default).1 = k.answer r (j.stored r c.text) := by
  rw [read_of_some _ _ _ hc, Cell.read_of_cached hcached ((j.accessor.tag_evaluate r c.text).trans htag),
    HandleReader.answer?_evaluate htag, Option.getD_some]

theorem read_ofTexts_eq_meaning (r : Resolver) (l : ArgumentList) (k : HandleReader) (position : Nat)
    (default : k.accessor.Value) :
    ((ofTexts l.texts).read (k.accessor.reader r) position default).1 = l.meaning r k position default := by
  have hcells : (ofTexts l.texts).cells[position]? = l.cells[position]?.map Cell.forget := by
    rw [cells_ofTexts_texts, List.getElem?_map]
  rw [meaning, text?]
  cases hc : l.cells[position]? with
  | none =>
    rw [hc] at hcells
    rw [read_of_none _ _ _ hcells]
    rfl
  | some c =>
    rw [hc] at hcells
    exact read_of_tag_ne (c := c.forget) default hcells nofun

/-- A list that has evaluated nothing gives the documented answer, and so does any other list exactly when the last
evaluation at the position does not mislead the reader. -/
theorem answerAfter_eq_meaning_iff (r : Resolver) (texts : List String) (requests : List ArgumentRequest)
    (k : HandleReader) (position : Nat) (default : k.accessor.Value) :
    let l := (ArgumentRequest.run (answer r) (.ofTexts texts) requests).2
    answerAfter r l.texts [] k position default = l.meaning r k position default ∧
      (answerAfter r texts requests k position default = l.meaning r k position default ↔
        ∀ text, l.text? position = some text → ∀ j : HandleReader,
          ArgumentRequest.evaluator? texts requests position = some j.accessor → ¬j.Misleads k r text) := by
  intro l
  refine ⟨read_ofTexts_eq_meaning r l k position default, ?_⟩
  have hwatched := (watched_ofTexts r texts position).run requests
  change (l.read (k.accessor.reader r) position default).1 = _ ↔ _
  rw [meaning, text?]
  cases hc : l.cells[position]? with
  | none =>
    rw [read_of_none _ _ _ hc]
    exact iff_of_true rfl nofun
  | some c =>
    simp only [Option.map_some, Option.getD_some, Option.some.injEq, forall_eq']
    have hcached : c.cached = (ArgumentRequest.evaluator? texts requests position).map fun a =>
        (a.reader r).evaluate c.text := hwatched.cached c hc
    cases heval : ArgumentRequest.evaluator? texts requests position with
    | none =>
      rw [heval] at hcached
      exact iff_of_true (read_of_tag_ne default hc (hcached ▸ nofun)) nofun
    | some a =>
      rw [heval] at hcached
      by_cases htag : a.tag = k.accessor.tag
      · obtain ⟨j, rfl⟩ := HandleReader.exists_of_tag htag
        rw [read_of_evaluated default hc hcached htag, HandleReader.answer_stored_eq_iff htag]
        simp only [Option.some.injEq, HandleReader.accessor_inj, forall_eq']
      · refine iff_of_true (read_of_tag_ne default hc ?_) fun j hj hmisleads => htag ?_
        · rw [hcached, Option.map_some, Option.map_some, a.tag_evaluate]
          exact fun hsame => htag (Option.some.inj hsame)
        · rw [Option.some.inj hj, hmisleads.tag_eq]

def fallingBack : List ArgumentRequest :=
  [.read .thing 0 (0 : Nat), .read .frame 1 (0 : Nat)]

def answersAfter (requests : List ArgumentRequest) : Option Nat × Option Nat × Int :=
  let r := (Tables.initial ⟨1, 1, 1, 1, 1⟩).resolver
  let texts := ["Nope", "-5"]
  (answerAfter r texts requests .positiveThing 0 none, answerAfter r texts requests .knownFrame 1 none,
    answerAfter r texts requests .frameOrOffset 1 (-1 : Int))

theorem answersAfter_fallingBack :
    answersAfter [] = (none, none, -5) ∧ answersAfter fallingBack = (some 0, some 0, 0) := by
  decide +kernel

end ArgumentList

end FrameTable
