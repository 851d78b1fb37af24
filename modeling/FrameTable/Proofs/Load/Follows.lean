import Mathlib.Order.Defs.Unbundled
import FrameTable.Load.Basic

namespace FrameTable

variable {α β : Type} {R : Tables → Tables → Prop} {t : Tables}

def Update.Follows (R : Tables → Tables → Prop) (t : Tables) (x : Update α) (Q : α → Tables → Prop) : Prop :=
  ∃ a t' added, (∀ warnings, x.run ⟨t, warnings⟩ = (a, ⟨t', warnings ++ added⟩)) ∧ R t t' ∧ Q a t'

def Load.Follows (R : Tables → Tables → Prop) (t : Tables) (x : Load α) (Q : α → Tables → Prop) : Prop :=
  Update.Follows R t x.run fun result t' => ∀ a, result = .ok a → Q a t'

namespace Update.Follows

variable {x : Update α} {f : α → Update β} {P Q : α → Tables → Prop}

theorem setTables {t' : Tables} {Q : Unit → Tables → Prop} (hR : R t t') (h : Q () t') :
    Follows R t (Load.setTables t') Q :=
  ⟨(), t', #[], fun _ => by rw [Array.append_empty]; rfl, hR, h⟩

theorem tables_bind {f : Tables → Update α} (h : Follows R t (f t) Q) : Follows R t (Load.tables >>= f) Q := by
  obtain ⟨a, t', added, hx, hR, hQ⟩ := h
  exact ⟨a, t', added, hx, hR, hQ⟩

theorem warn_bind {warning : Warning} {f : Unit → Update α} (h : Follows R t (f ()) Q) :
    Follows R t (Load.warn warning >>= f) Q := by
  obtain ⟨a, t', added, hx, hR, hQ⟩ := h
  refine ⟨a, t', #[warning] ++ added, fun warnings => ?_, hR, hQ⟩
  rw [← Array.append_assoc, ← Array.push_eq_append]
  exact hx _

theorem edit {slot : Nat} {f : Frame → Frame} {Q : Unit → Tables → Prop}
    (hR : R t { t with frames := t.frames.modify slot f })
    (h : Q () { t with frames := t.frames.modify slot f }) : Follows R t (Load.edit slot f) Q :=
  tables_bind (setTables hR h)

section Refl

variable [Std.Refl R]

theorem pure {a : α} (h : Q a t) : Follows R t (pure a) Q :=
  ⟨a, t, #[], fun _ => by rw [Array.append_empty]; rfl, Std.Refl.refl t, h⟩

theorem warn {warning : Warning} {Q : Unit → Tables → Prop} (h : Q () t) :
    Follows R t (Load.warn warning) Q :=
  ⟨(), t, #[warning], fun _ => by rw [← Array.push_eq_append]; rfl, Std.Refl.refl t, h⟩

end Refl

section Trans

variable [IsTrans Tables R]

theorem bind {Q : β → Tables → Prop} (h : Follows R t x P)
    (hf : ∀ a t', R t t' → P a t' → Follows R t' (f a) Q) : Follows R t (x >>= f) Q := by
  obtain ⟨a, t', added, hx, hR, hP⟩ := h
  obtain ⟨b, t'', added', hy, hR', hQ⟩ := hf a t' hR hP
  refine ⟨b, t'', added ++ added', fun warnings => ?_, IsTrans.trans _ _ _ hR hR', hQ⟩
  rw [StateT.run_bind, hx, ← Array.append_assoc]
  exact hy _

theorem setTables_bind {t' : Tables} {f : Unit → Update α} (hR : R t t') (h : Follows R t' (f ()) Q) :
    Follows R t (Load.setTables t' >>= f) Q := by
  obtain ⟨a, t'', added, hx, hR', hQ⟩ := h
  exact ⟨a, t'', added, hx, IsTrans.trans _ _ _ hR hR', hQ⟩

theorem forM [Std.Refl R] {I : Tables → Prop} {f : α → Update Unit} {items : List α}
    (hstep : ∀ item ∈ items, ∀ t, I t → Follows R t (f item) fun _ t' => I t') (h : I t) :
    Follows R t (items.forM f) fun _ t' => I t' := by
  induction items generalizing t with
  | nil => exact pure h
  | cons item items ih =>
    rw [List.forM]
    refine bind (hstep item List.mem_cons_self t h) fun _ t' _ h' => ?_
    exact ih (fun other hmem => hstep other (List.mem_cons_of_mem _ hmem)) h'

end Trans

end Update.Follows

namespace Load.Follows

variable {x : Load α} {f : α → Load β} {P Q : α → Tables → Prop}

theorem lift {x : Update α} (h : Update.Follows R t x Q) : Follows R t (liftM x) Q := by
  obtain ⟨a, t', added, hx, hR, hQ⟩ := h
  refine ⟨.ok a, t', added, fun warnings => ?_, hR, fun b hb => ?_⟩
  · exact congrArg (fun outcome => (Except.ok outcome.1, outcome.2)) (hx warnings)
  · cases hb
    exact hQ

theorem tables_bind {f : Tables → Load α} (h : Follows R t (f t) Q) :
    Follows R t (liftM Load.tables >>= f) Q := by
  obtain ⟨a, t', added, hx, hR, hQ⟩ := h
  exact ⟨a, t', added, hx, hR, hQ⟩

theorem nameOf_bind {slot : Nat} {f : String → Load α} (h : ∀ name, Follows R t (f name) Q) :
    Follows R t (liftM (Load.nameOf slot) >>= f) Q := by
  obtain ⟨a, t', added, hx, hR, hQ⟩ := h (((t.frames.get? slot).map (·.name)).getD "")
  exact ⟨a, t', added, hx, hR, hQ⟩

theorem warn_bind {warning : Warning} {f : Unit → Load α} (h : Follows R t (f ()) Q) :
    Follows R t (liftM (Load.warn warning) >>= f) Q :=
  Update.Follows.warn_bind h

theorem setTables_bind [IsTrans Tables R] {t' : Tables} {f : Unit → Load α} (hR : R t t')
    (h : Follows R t' (f ()) Q) : Follows R t (liftM (Load.setTables t') >>= f) Q :=
  Update.Follows.setTables_bind hR h

section Refl

variable [Std.Refl R]

theorem pure {a : α} (h : Q a t) : Follows R t (pure a) Q :=
  Update.Follows.pure fun _ hb => Except.ok.inj hb ▸ h

theorem raise {error : LoadError} : Follows R t (raise error : Load α) Q :=
  Update.Follows.pure fun _ hb => by cases hb

theorem raise_bind {error : LoadError} {f : β → Load α} : Follows R t (Load.raise error >>= f) Q :=
  Update.Follows.pure fun _ hb => by cases hb

theorem ofExcept_bind {result : Except LoadError β} {f : β → Load α}
    (h : ∀ b, result = .ok b → Follows R t (f b) Q) : Follows R t (liftM result >>= f) Q := by
  cases result with
  | error error => exact raise
  | ok b => exact h b rfl

theorem ofCatalog_bind {result : Except CatalogError β} {f : β → Load α}
    (h : ∀ b, result = .ok b → Follows R t (f b) Q) : Follows R t (ofCatalog result >>= f) Q := by
  cases result with
  | error error => exact raise
  | ok b => exact h b rfl

end Refl

section Trans

variable [Std.Refl R] [IsTrans Tables R]

theorem bind {Q : β → Tables → Prop} (h : Follows R t x P)
    (hf : ∀ a t', R t t' → P a t' → Follows R t' (f a) Q) : Follows R t (x >>= f) Q := by
  rw [Follows, ExceptT.run_bind]
  refine Update.Follows.bind h fun result t' hR hP => ?_
  cases result with
  | error error => exact Update.Follows.pure fun _ hb => by cases hb
  | ok a => exact hf a t' hR (hP a rfl)

theorem forM {I : Tables → Prop} {f : α → Load Unit} {items : List α}
    (hstep : ∀ item ∈ items, ∀ t, I t → Follows R t (f item) fun _ t' => I t') (h : I t) :
    Follows R t (items.forM f) fun _ t' => I t' := by
  induction items generalizing t with
  | nil => exact pure h
  | cons item items ih =>
    rw [List.forM]
    refine bind (hstep item List.mem_cons_self t h) fun _ t' _ h' => ?_
    exact ih (fun other hmem => hstep other (List.mem_cons_of_mem _ hmem)) h'

end Trans

end Load.Follows

end FrameTable
