import FrameTable.Proofs.Index.Alike
import FrameTable.Proofs.Load.Acts

/-!
Two programs side by side. They run on tables that differ only in the contents of one frame. A step that both of
them take, without a look at these contents, keeps them side by side; each can also write to the contents and
record a warning by itself, as long as the contents and the warnings are the same in the end.
-/

namespace FrameTable

variable {α β γ : Type} {slot : Nat} {t : Tables} {c d : Contents} {owed : List Warning} {σ τ : LoadState}

structure LoadState.Matches (σ τ : LoadState) : Prop where
  tables : σ.tables = τ.tables
  warnings : σ.warnings.toList.Perm τ.warnings.toList

/-- The tables differ at most in the contents `c` and `d` of a frame; the second run has recorded the warnings of
the first one and those still `owed`. -/
structure LoadState.Coupled (slot : Nat) (t : Tables) (c d : Contents) (owed : List Warning) (σ τ : LoadState) :
    Prop where
  first : σ.tables = t.withContents slot c
  second : τ.tables = t.withContents slot d
  warnings : (σ.warnings.toList ++ owed).Perm τ.warnings.toList

namespace Load

open LoadState (Coupled Matches)

def outcome (x : Load α) (σ : LoadState) : Except LoadError LoadState :=
  (x.run.run σ).1.map fun _ => (x.run.run σ).2

theorem outcome_bind_ok {x : Load α} {a : α} (h : x.run.run σ = (.ok a, τ)) (f : α → Load β) :
    (x >>= f).outcome σ = (f a).outcome τ := by
  rw [outcome, ExceptT.run_bind, StateT.run_bind, h]
  rfl

theorem outcome_bind_error {x : Load α} {error : LoadError} (h : x.run.run σ = (.error error, τ)) (f : α → Load β) :
    (x >>= f).outcome σ = .error error := by
  rw [outcome, ExceptT.run_bind, StateT.run_bind, h]
  rfl

theorem run_lift {step : Update α} {a : α} (h : step.run σ = (a, τ)) :
    (liftM step : Load α).run.run σ = (.ok a, τ) := by
  have hlift : (liftM step : Load α).run.run σ = (.ok (step.run σ).1, (step.run σ).2) := rfl
  rw [hlift, h]

section Writes

variable {warnings : Array Warning} {f : Frame} {step : Update Unit} {act : Contents → Contents}

theorem outcome_writes_bind {added : List Warning} (hstep : step.Writes slot act added) (x : Unit → Load α) :
    (liftM step >>= x : Load α).outcome ⟨t.withContents slot c, warnings⟩ =
      (x ()).outcome ⟨t.withContents slot (act c), warnings ++ added.toArray⟩ :=
  outcome_bind_ok (run_lift (hstep t c warnings)) x

theorem outcome_quiet_bind (hstep : step.Writes slot act []) (x : Unit → Load α) :
    (liftM step >>= x : Load α).outcome ⟨t.withContents slot c, warnings⟩ =
      (x ()).outcome ⟨t.withContents slot (act c), warnings⟩ := by
  rw [outcome_writes_bind hstep, Array.append_empty]

theorem outcome_nameOf_bind (hf : t.frames.get? slot = some f) (x : String → Load α) :
    (liftM (nameOf slot) >>= x : Load α).outcome ⟨t, warnings⟩ =
      (x f.name).outcome ⟨t.withContents slot f.contents, warnings⟩ := by
  rw [Tables.withContents_of_get? hf]
  have hname : ((t.frames.get? slot).map (·.name)).getD "" = f.name := by rw [hf]; rfl
  rw [← hname]
  rfl

end Writes

def Meet (slot : Nat) (t : Tables) (c d : Contents) (owed : List Warning) (x : Load α) (y : Load β) : Prop :=
  ∀ σ τ, Coupled slot t c d owed σ τ → Outcomes Matches (x.outcome σ) (y.outcome τ)

namespace Meet

variable {x : Load α} {y : Load β}

theorem pure {a : α} {b : β} : Meet slot t c c [] (pure a) (pure b) := by
  intro σ τ ⟨hfirst, hsecond, hwarnings⟩
  rw [List.append_nil] at hwarnings
  exact .ok ⟨hfirst.trans hsecond.symm, hwarnings⟩

theorem both_nameOf_bind {i : Nat} {f : String → Load α} {g : String → Load β}
    (h : ∀ name, Meet slot t c d owed (f name) (g name)) :
    Meet slot t c d owed (liftM (nameOf i) >>= f) (liftM (nameOf i) >>= g) := by
  intro σ τ hcoupled
  have hname : (τ.tables.frames.get? i).map (·.name) = (σ.tables.frames.get? i).map (·.name) := by
    rw [hcoupled.first, hcoupled.second, Tables.name_withContents, Tables.name_withContents]
  have hσ : (liftM (nameOf i) : Load String).run.run σ = (.ok (((σ.tables.frames.get? i).map (·.name)).getD ""), σ) := rfl
  have hτ : (liftM (nameOf i) : Load String).run.run τ = (.ok (((τ.tables.frames.get? i).map (·.name)).getD ""), τ) := rfl
  rw [outcome_bind_ok hσ, outcome_bind_ok hτ, hname]
  exact h _ σ τ hcoupled

theorem both_bind {R : Tables → Tables → Prop} {step : Load γ} {f : γ → Load α} {g : γ → Load β}
    (hstep : Acts slot R t step fun _ act _ => act = id)
    (h : ∀ a t', R t t' → Meet slot t' c d owed (f a) (g a)) : Meet slot t c d owed (step >>= f) (step >>= g) := by
  intro ⟨_, warnings⟩ ⟨_, warnings'⟩ ⟨hfirst, hsecond, hwarnings⟩
  obtain rfl : _ = t.withContents slot c := hfirst
  obtain rfl : _ = t.withContents slot d := hsecond
  obtain ⟨result, t', added, act, hrun, hR, hact⟩ := hstep
  cases result with
  | error error =>
    rw [outcome_bind_error (hrun c warnings), outcome_bind_error (hrun d warnings')]
    exact .error error
  | ok a =>
    obtain rfl := hact a rfl
    rw [outcome_bind_ok (hrun c warnings), outcome_bind_ok (hrun d warnings')]
    refine h a t' hR _ _ ⟨rfl, rfl, ?_⟩
    rw [Array.toList_append, Array.toList_append, List.append_assoc]
    have hmoved : (added.toList ++ owed).Perm (owed ++ added.toList) := List.perm_append_comm
    refine (hmoved.append_left warnings.toList).trans ?_
    rw [← List.append_assoc]
    exact hwarnings.append_right added.toList

theorem first_bind {step : Update Unit} {act : Contents → Contents} {added : List Warning} {f : Unit → Load α}
    (hstep : Update.Writes slot step act added) (h : Meet slot t (act c) d owed (f ()) y) :
    Meet slot t c d (added ++ owed) (liftM step >>= f) y := by
  intro ⟨_, warnings⟩ τ ⟨hfirst, hsecond, hwarnings⟩
  obtain rfl : _ = t.withContents slot c := hfirst
  rw [outcome_writes_bind hstep]
  exact h _ _ ⟨rfl, hsecond, by simpa using hwarnings⟩

theorem second_bind {step : Update Unit} {act : Contents → Contents} {added : List Warning} {f : Unit → Load β}
    (hstep : Update.Writes slot step act added) (h : Meet slot t c (act d) (owed ++ added) x (f ())) :
    Meet slot t c d owed x (liftM step >>= f) := by
  intro σ ⟨_, warnings⟩ ⟨hfirst, hsecond, hwarnings⟩
  obtain rfl : _ = t.withContents slot d := hsecond
  rw [outcome_writes_bind hstep]
  refine h _ _ ⟨hfirst, rfl, ?_⟩
  simpa using hwarnings.append_right added

theorem first_settling_bind {step : Update Unit} {act : Contents → Contents} {f : Unit → Load α}
    (hstep : step.Writes slot act owed) (h : Meet slot t (act c) d [] (f ()) y) :
    Meet slot t c d owed (liftM step >>= f) y := by
  rw [← List.append_nil owed]
  exact first_bind hstep h

theorem first_quiet_bind {step : Update Unit} {act : Contents → Contents} {f : Unit → Load α}
    (hstep : step.Writes slot act []) (h : Meet slot t (act c) d owed (f ()) y) :
    Meet slot t c d owed (liftM step >>= f) y :=
  first_bind hstep h

theorem second_quiet_bind {step : Update Unit} {act : Contents → Contents} {f : Unit → Load β}
    (hstep : step.Writes slot act []) (h : Meet slot t c (act d) owed x (f ())) :
    Meet slot t c d owed x (liftM step >>= f) := by
  rw [← List.append_nil owed] at h
  exact second_bind hstep h

theorem first_tables_bind {f : Tables → Load α} (h : Meet slot t c d owed (f (t.withContents slot c)) y) :
    Meet slot t c d owed (liftM tables >>= f) y := by
  intro σ τ hcoupled
  rw [outcome, run_tables_bind, hcoupled.first]
  exact h σ τ hcoupled

theorem second_value_bind {step : Load γ} {a : γ} {f : γ → Load β}
    (hstep : ∀ warnings, step.run.run ⟨t.withContents slot d, warnings⟩ = (.ok a, ⟨t.withContents slot d, warnings⟩))
    (h : Meet slot t c d owed x (f a)) : Meet slot t c d owed x (step >>= f) := by
  intro σ ⟨_, warnings⟩ ⟨hfirst, hsecond, hwarnings⟩
  obtain rfl : _ = t.withContents slot d := hsecond
  rw [outcome_bind_ok (hstep warnings)]
  exact h _ _ ⟨hfirst, rfl, hwarnings⟩

end Meet

def Fails (error : LoadError) (x : Load α) : Prop :=
  ∀ σ, x.outcome σ = .error error

theorem Fails.bind {error : LoadError} {step : Update γ} {f : γ → Load β} (h : ∀ a, Fails error (f a)) :
    Fails error (liftM step >>= f) := by
  intro σ
  have hrun : (liftM step : Load γ).run.run σ = (.ok (step.run σ).1, (step.run σ).2) := rfl
  rw [outcome_bind_ok hrun]
  exact h _ _

theorem Fails.raise_bind {error : LoadError} {f : γ → Load β} : Fails error (liftM (Except.error error) >>= f) :=
  fun _ => outcome_bind_error rfl f

theorem Meet.raise {error : LoadError} (h : Fails error y) : Meet slot t c d owed (raise error : Load α) y := by
  intro σ τ _
  rw [h τ]
  exact .error error

end Load

end FrameTable
