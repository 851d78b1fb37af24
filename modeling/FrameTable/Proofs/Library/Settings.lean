import FrameTable.Proofs.Argument.Edit
import FrameTable.Proofs.Library.Integrity

namespace FrameTable

namespace Library

variable {l : Library} {slot position : Nat} {text : String} {f : Frame}

theorem setArguments_of_args {args : ArgumentList} (hf : l.frame? slot = some f) (hargs : f.args = some args) :
    l.setArguments slot args = l := by
  have hstore : l.state.tables.frames.store.modify slot (fun f => { f with args := some args }) =
      l.state.tables.frames.store := Store.modify_eq_self fun g hg => by
    obtain rfl := Option.some.inj (hf.symm.trans hg)
    exact hargs ▸ rfl
  rw [setArguments, editFrames, Catalog.modify, hstore]

theorem setArguments_ne_self (args : ArgumentList) (hf : l.frame? slot = some f) (hargs : f.args = none) :
    l.setArguments slot args ≠ l := by
  intro h
  have hframe := l.frame?_setArguments slot args slot
  rw [h, hf, if_pos rfl] at hframe
  have hsome : f.args = some args := congrArg Frame.args (Option.some.inj hframe)
  cases hargs.symm.trans hsome

theorem setArgument_of_lt (text : String) (hf : l.frame? slot = some f) (h : position < maxArguments) :
    ∃ args, (f.args.getD .empty).Written position text args ∧
      l.setArgument slot position text = (.ok (), l.setArguments slot args) := by
  obtain ⟨args, hset, hwritten⟩ := (f.args.getD .empty).exists_set text h
  refine ⟨args, hwritten, ?_⟩
  simp only [setArgument, hf, hset]

theorem setArgument_of_ge (text : String) (hf : l.frame? slot = some f) (h : maxArguments ≤ position) :
    l.setArgument slot position text =
      (.error (.outOfCapacity position), l.setArguments slot (f.args.getD .empty)) := by
  simp only [setArgument, hf, ArgumentList.set_eq_error _ text h]

def AllOrNothing (l : Library) (slot position : Nat) (text : String) : Prop :=
  match l.setArgument slot position text with
  | (.error _, l') => l' = l
  | (.ok (), l') => ∃ f args, l.frame? slot = some f ∧ (f.args.getD .empty).Written position text args ∧
      l' = l.setArguments slot args

theorem allOrNothing_iff_of_ge (text : String) (hf : l.frame? slot = some f) (h : maxArguments ≤ position) :
    l.AllOrNothing slot position text ↔ f.args ≠ none := by
  rw [AllOrNothing, setArgument_of_ge text hf h]
  refine ⟨fun hsame hargs => setArguments_ne_self _ hf hargs hsame, fun hargs => ?_⟩
  obtain ⟨args, hargs⟩ := Option.ne_none_iff_exists'.mp hargs
  exact setArguments_of_args hf (by rw [hargs, Option.getD_some])

/-- There is an error for a frame that does not exist and for a position past the last one. Only the error for a
frame without a list leaves something behind, an empty list. -/
theorem setArgument_allOrNothing (l : Library) (slot position : Nat) (text : String) :
    ((l.setArgument slot position text).1 =
      if l.frame? slot = none then .error (.unknownFrame slot)
      else if position < maxArguments then .ok () else .error (.outOfCapacity position)) ∧
    (l.AllOrNothing slot position text ↔
      ∀ f, l.frame? slot = some f → f.args = none → position < maxArguments) ∧
    ∀ f, l.frame? slot = some f → f.args = none → maxArguments ≤ position →
      (l.setArgument slot position text).2 = l.setArguments slot .empty := by
  cases hf : l.frame? slot with
  | none =>
    have hset : l.setArgument slot position text = (.error (.unknownFrame slot), l) := by simp only [setArgument, hf]
    simp [AllOrNothing, hset]
  | some f =>
    rcases Nat.lt_or_ge position maxArguments with hlt | hge
    · obtain ⟨args, hwritten, hset⟩ := setArgument_of_lt text hf hlt
      have hall : l.AllOrNothing slot position text := by
        rw [AllOrNothing, hset]
        exact ⟨f, args, hf, hwritten, rfl⟩
      simp [hset, hall, hlt, Nat.not_le_of_lt hlt]
    · -- The list is stored before the position is looked at, which shows only where there was none.
      have hset := setArgument_of_ge text hf hge
      have hall := allOrNothing_iff_of_ge text hf hge
      refine ⟨?_, ?_, ?_⟩
      · rw [hset, if_neg (Option.some_ne_none f), if_neg (Nat.not_lt_of_le hge)]
      · simp [hall, Nat.not_lt_of_le hge]
      · rintro g hg hargs -
        obtain rfl := Option.some.inj hg
        rw [hset, hargs, Option.getD_none]

theorem not_allOrNothing (text : String) (hframe : (l.frame? slot).isSome = true)
    (hargs : (l.arguments? slot).isNone = true) (h : maxArguments ≤ position) :
    ¬l.AllOrNothing slot position text := by
  obtain ⟨f, hf⟩ := Option.isSome_iff_exists.mp hframe
  have hnone : f.args = none := by simpa [arguments?, hf] using hargs
  exact fun hall => (allOrNothing_iff_of_ge text hf h).mp hall hnone

def listless : Batch where
  frames := [{ title := Frame.nullName, fields := .ofList [("decorate", .bool true)] }]

def listlessLibrary : Library :=
  ((new ⟨1, 1, 1, 1, 1⟩).load listless).2

theorem listlessLibrary_overfull :
    Reachable ⟨1, 1, 1, 1, 1⟩ listlessLibrary ∧
      (listlessLibrary.setArgument 0 16 "x").1 = .error (.outOfCapacity 16) ∧
      (listlessLibrary.arguments? 0).map (·.texts) = none ∧
      ((listlessLibrary.setArgument 0 16 "x").2.arguments? 0).map (·.texts) = some [] ∧
      ¬listlessLibrary.AllOrNothing 0 16 "x" :=
  ⟨.single (.load _ _), by decide +kernel, by decide +kernel, by decide +kernel,
    not_allOrNothing "x" (by decide +kernel) (by decide +kernel) (Nat.le_refl _)⟩

end Library

end FrameTable
