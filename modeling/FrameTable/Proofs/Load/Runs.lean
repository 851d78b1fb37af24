import Mathlib.Order.Defs.Unbundled
import FrameTable.Load.Frame

namespace FrameTable

variable {α β : Type} {R R' : LoadState → LoadState → Prop} {σ : LoadState}

def Update.Runs (R : LoadState → LoadState → Prop) (σ : LoadState) (x : Update α) (Q : α → LoadState → Prop) : Prop :=
  R σ (x.run σ).2 ∧ Q (x.run σ).1 (x.run σ).2

def Load.Runs (R : LoadState → LoadState → Prop) (σ : LoadState) (x : Load α) (Q : α → LoadState → Prop) : Prop :=
  Update.Runs R σ x.run fun result σ' => ∀ a, result = .ok a → Q a σ'

namespace Update.Runs

variable {x : Update α} {f : α → Update β} {P Q : α → LoadState → Prop}

theorem imp (h : Runs R σ x P) (hR : ∀ σ', R σ σ' → R' σ σ') (hQ : ∀ a σ', R σ σ' → P a σ' → Q a σ') :
    Runs R' σ x Q :=
  ⟨hR _ h.1, hQ _ _ h.1 h.2⟩

theorem post (h : Runs R σ x P) (hQ : ∀ a σ', R σ σ' → P a σ' → Q a σ') : Runs R σ x Q :=
  h.imp (fun _ => id) hQ

theorem tables_bind {f : Tables → Update α} (h : Runs R σ (f σ.tables) Q) : Runs R σ (Load.tables >>= f) Q := h

theorem warn {warning : Warning} {Q : Unit → LoadState → Prop}
    (hR : R σ { σ with warnings := σ.warnings.push warning })
    (h : Q () { σ with warnings := σ.warnings.push warning }) : Runs R σ (Load.warn warning) Q :=
  ⟨hR, h⟩

theorem edit {slot : Nat} {g : Frame → Frame} {Q : Unit → LoadState → Prop}
    (hR : R σ { σ with tables.frames := σ.tables.frames.modify slot g })
    (h : Q () { σ with tables.frames := σ.tables.frames.modify slot g }) : Runs R σ (Load.edit slot g) Q :=
  ⟨hR, h⟩

theorem pure [Std.Refl R] {a : α} (h : Q a σ) : Runs R σ (pure a) Q :=
  ⟨Std.Refl.refl σ, h⟩

theorem bind [IsTrans LoadState R] {Q : β → LoadState → Prop} (h : Runs R σ x P)
    (hf : ∀ a σ', R σ σ' → P a σ' → Runs R σ' (f a) Q) : Runs R σ (x >>= f) Q := by
  obtain ⟨hR, hP⟩ := h
  obtain ⟨hR', hQ⟩ := hf _ _ hR hP
  exact ⟨IsTrans.trans _ _ _ hR hR', hQ⟩

end Update.Runs

namespace Load.Runs

variable {x : Load α} {f : α → Load β} {P Q : α → LoadState → Prop}

theorem imp (h : Runs R σ x P) (hR : ∀ σ', R σ σ' → R' σ σ') (hQ : ∀ a σ', R σ σ' → P a σ' → Q a σ') :
    Runs R' σ x Q :=
  Update.Runs.imp h hR fun _ σ' hσ hP a ha => hQ a σ' hσ (hP a ha)

theorem post (h : Runs R σ x P) (hQ : ∀ a σ', R σ σ' → P a σ' → Q a σ') : Runs R σ x Q :=
  h.imp (fun _ => id) hQ

theorem lift {x : Update α} (h : Update.Runs R σ x Q) : Runs R σ (liftM x) Q := by
  refine ⟨h.1, fun a ha => ?_⟩
  cases ha
  exact h.2

theorem tables_bind {f : Tables → Load α} (h : Runs R σ (f σ.tables) Q) : Runs R σ (liftM Load.tables >>= f) Q := h

theorem nameOf_bind {slot : Nat} {f : String → Load α}
    (h : Runs R σ (f (((σ.tables.frames.get? slot).map (·.name)).getD "")) Q) :
    Runs R σ (liftM (Load.nameOf slot) >>= f) Q := h

theorem ok (h : Runs R σ x Q) {a : α} {σ' : LoadState} (hx : x.run.run σ = (.ok a, σ')) : R σ σ' ∧ Q a σ' := by
  obtain ⟨hR, hQ⟩ := h
  rw [show StateT.run x.run σ = (.ok a, σ') from hx] at hR hQ
  exact ⟨hR, hQ a rfl⟩

section Refl

variable [Std.Refl R]

theorem pure {a : α} (h : Q a σ) : Runs R σ (pure a) Q :=
  Update.Runs.pure fun _ hb => Except.ok.inj hb ▸ h

theorem raise {error : LoadError} : Runs R σ (raise error : Load α) Q :=
  Update.Runs.pure fun _ hb => by cases hb

theorem raise_bind {error : LoadError} {f : β → Load α} : Runs R σ (Load.raise error >>= f) Q :=
  Update.Runs.pure fun _ hb => by cases hb

theorem ofExcept {result : Except LoadError α} : Runs R σ (liftM result) fun _ _ => True := by
  cases result with
  | error error => exact raise
  | ok a => exact pure trivial

theorem given {text : Option String} {default : α} {value : String → Load α} (hnone : text = none → Q default σ)
    (hsome : ∀ given, text = some given → Runs R σ (value given) Q) : Runs R σ (given text default value) Q := by
  cases text with
  | some given => exact hsome given rfl
  | none => exact pure (hnone rfl)

end Refl

theorem bind [Std.Refl R] [IsTrans LoadState R] {Q : β → LoadState → Prop} (h : Runs R σ x P)
    (hf : ∀ a σ', R σ σ' → P a σ' → Runs R σ' (f a) Q) : Runs R σ (x >>= f) Q := by
  rw [Runs, ExceptT.run_bind]
  refine Update.Runs.bind h fun result σ' hR hP => ?_
  cases result with
  | error error => exact Update.Runs.pure fun _ hb => by cases hb
  | ok a => exact hf a σ' hR (hP a rfl)

theorem bind_within [Std.Refl R] [IsTrans LoadState R] {Q : β → LoadState → Prop} (h : Runs R' σ x P)
    (hR : ∀ σ', R' σ σ' → R σ σ') (hf : ∀ a σ', R' σ σ' → P a σ' → Runs R σ' (f a) Q) : Runs R σ (x >>= f) Q :=
  .bind (h.imp hR fun _ _ hσ hP => And.intro hσ hP) fun a σ' _ ⟨hσ, hP⟩ => hf a σ' hσ hP

end Load.Runs

end FrameTable
