import Mathlib.Order.Defs.Unbundled
import FrameTable.Load.Basic
import FrameTable.Proofs.Frame.Contents

namespace FrameTable

variable {α β : Type} {slot : Nat} {R : Tables → Tables → Prop} {t : Tables}

def Update.Acts (slot : Nat) (R : Tables → Tables → Prop) (t : Tables) (x : Update α)
    (Q : α → (Contents → Contents) → Tables → Prop) : Prop :=
  ∃ a t' added act, (∀ c warnings,
    x.run ⟨t.withContents slot c, warnings⟩ = (a, ⟨t'.withContents slot (act c), warnings ++ added⟩)) ∧
    R t t' ∧ Q a act t'

def Load.Acts (slot : Nat) (R : Tables → Tables → Prop) (t : Tables) (x : Load α)
    (Q : α → (Contents → Contents) → Tables → Prop) : Prop :=
  Update.Acts slot R t x.run fun result act t' => ∀ a, result = .ok a → Q a act t'

theorem Load.run_update_tables_bind {σ : LoadState} {f : Tables → Update α} :
    (Load.tables >>= f).run σ = (f σ.tables).run σ := rfl

theorem Load.run_tables_bind {σ : LoadState} {f : Tables → Load α} :
    (liftM Load.tables >>= f : Load α).run.run σ = (f σ.tables).run.run σ := rfl

def Update.Writes (slot : Nat) (step : Update Unit) (act : Contents → Contents) (added : List Warning) : Prop :=
  ∀ (t : Tables) c warnings, step.run ⟨t.withContents slot c, warnings⟩ =
    ((), ⟨t.withContents slot (act c), warnings ++ added.toArray⟩)

theorem Load.writes_edit {g : Frame → Frame} (act : Contents → Contents)
    (hg : ∀ (f : Frame) c, g (f.withContents c) = f.withContents (act c)) :
    Update.Writes slot (Load.edit slot g) act [] := by
  intro t c warnings
  have hframes : (t.withContents slot c).frames.modify slot g = (t.withContents slot (act c)).frames := by
    rw [Tables.modify_withContents]
    exact congrArg _ (funext fun f => hg f c)
  rw [Array.append_empty]
  exact congrArg (fun frames => ((), LoadState.mk { t with frames } warnings)) hframes

namespace Update.Acts

variable {x : Update α} {f : α → Update β} {P Q : α → (Contents → Contents) → Tables → Prop}

theorem mono (h : Acts slot R t x P) (hPQ : ∀ a act t', P a act t' → Q a act t') : Acts slot R t x Q := by
  obtain ⟨a, t', added, act, hx, hR, hP⟩ := h
  exact ⟨a, t', added, act, hx, hR, hPQ a act t' hP⟩

theorem tables_bind {f : Tables → Update α} (hf : ∀ c, f (t.withContents slot c) = f t)
    (h : Acts slot R t (f t) Q) : Acts slot R t (Load.tables >>= f) Q := by
  obtain ⟨a, t', added, act, hx, hR, hQ⟩ := h
  refine ⟨a, t', added, act, fun c warnings => ?_, hR, hQ⟩
  have hstep : (Load.tables >>= f).run ⟨t.withContents slot c, warnings⟩ =
      (f (t.withContents slot c)).run ⟨t.withContents slot c, warnings⟩ := rfl
  rw [hstep, hf, hx]

theorem warn_bind {warning : Warning} {f : Unit → Update α} (h : Acts slot R t (f ()) Q) :
    Acts slot R t (Load.warn warning >>= f) Q := by
  obtain ⟨a, t', added, act, hx, hR, hQ⟩ := h
  refine ⟨a, t', #[warning] ++ added, act, fun c warnings => ?_, hR, hQ⟩
  rw [← Array.append_assoc, ← Array.push_eq_append]
  exact hx c _

section Refl

variable [Std.Refl R]

theorem pure {a : α} (h : Q a id t) : Acts slot R t (pure a) Q :=
  ⟨a, t, #[], id, fun _ _ => by rw [Array.append_empty]; rfl, Std.Refl.refl t, h⟩

theorem warn {warning : Warning} {Q : Unit → (Contents → Contents) → Tables → Prop} (h : Q () id t) :
    Acts slot R t (Load.warn warning) Q :=
  ⟨(), t, #[warning], id, fun _ _ => by rw [← Array.push_eq_append]; rfl, Std.Refl.refl t, h⟩

theorem of_writes {step : Update Unit} {act : Contents → Contents} {added : List Warning}
    {Q : Unit → (Contents → Contents) → Tables → Prop} (hstep : Writes slot step act added) (h : Q () act t) :
    Acts slot R t step Q :=
  ⟨(), t, added.toArray, act, hstep t, Std.Refl.refl t, h⟩

theorem edit {g : Frame → Frame} (act : Contents → Contents) {Q : Unit → (Contents → Contents) → Tables → Prop}
    (hg : ∀ (f : Frame) c, g (f.withContents c) = f.withContents (act c)) (h : Q () act t) :
    Acts slot R t (Load.edit slot g) Q :=
  of_writes (Load.writes_edit act hg) h

end Refl

theorem bind [IsTrans Tables R] {Q : β → (Contents → Contents) → Tables → Prop} (h : Acts slot R t x P)
    (hf : ∀ a act t', R t t' → P a act t' → Acts slot R t' (f a) fun b act' t'' => Q b (act' ∘ act) t'') :
    Acts slot R t (x >>= f) Q := by
  obtain ⟨a, t', added, act, hx, hR, hP⟩ := h
  obtain ⟨b, t'', added', act', hy, hR', hQ⟩ := hf a act t' hR hP
  refine ⟨b, t'', added ++ added', act' ∘ act, fun c warnings => ?_, IsTrans.trans _ _ _ hR hR', hQ⟩
  rw [StateT.run_bind, hx, ← Array.append_assoc]
  exact hy _ _

theorem edit_bind [Std.Refl R] [IsTrans Tables R] {g : Frame → Frame} (act : Contents → Contents) {f : Unit → Update β}
    {Q : β → (Contents → Contents) → Tables → Prop}
    (hg : ∀ (f : Frame) c, g (f.withContents c) = f.withContents (act c))
    (h : Acts slot R t (f ()) fun b act' t' => Q b (act' ∘ act) t') : Acts slot R t (Load.edit slot g >>= f) Q := by
  have hedit : Acts slot R t (Load.edit slot g) fun _ act' t' => act' = act ∧ t' = t := .edit act hg ⟨rfl, rfl⟩
  refine .bind hedit fun _ act' t' _ ⟨hact, ht⟩ => ?_
  rw [hact, ht]
  exact h

theorem bind_edit [Std.Refl R] [IsTrans Tables R] {x : Update β} {g : β → Frame → Frame}
    (write : β → Contents → Contents)
    (hg : ∀ b (f : Frame) c, g b (f.withContents c) = f.withContents (write b c))
    (h : Acts slot R t x fun _ act _ => act = id) :
    Acts slot R t (x >>= fun b => Load.edit slot (g b)) fun _ act _ => ∃ b, act = write b := by
  refine .bind h fun b act t' _ hact => ?_
  rw [hact]
  exact .edit (write b) (hg b) ⟨b, rfl⟩

end Update.Acts

namespace Load.Acts

variable {x : Load α} {f : α → Load β} {P Q : α → (Contents → Contents) → Tables → Prop}

theorem mono (h : Acts slot R t x P) (hPQ : ∀ a act t', P a act t' → Q a act t') : Acts slot R t x Q :=
  Update.Acts.mono h fun _ act t' hP a ha => hPQ a act t' (hP a ha)

theorem lift {x : Update α} (h : Update.Acts slot R t x Q) : Acts slot R t (liftM x) Q := by
  obtain ⟨a, t', added, act, hx, hR, hQ⟩ := h
  refine ⟨.ok a, t', added, act, fun c warnings => ?_, hR, fun b hb => ?_⟩
  · exact congrArg (fun outcome => (Except.ok outcome.1, outcome.2)) (hx c warnings)
  · cases hb
    exact hQ

theorem tables_bind {f : Tables → Load α} (hf : ∀ c, f (t.withContents slot c) = f t)
    (h : Acts slot R t (f t) Q) : Acts slot R t (liftM Load.tables >>= f) Q :=
  Update.Acts.tables_bind (f := fun t => (f t).run) (fun c => congrArg ExceptT.run (hf c)) h

theorem nameOf_bind {i : Nat} {f : String → Load α}
    (h : Acts slot R t (f (((t.frames.get? i).map (·.name)).getD "")) Q) :
    Acts slot R t (liftM (Load.nameOf i) >>= f) Q := by
  obtain ⟨a, t', added, act, hx, hR, hQ⟩ := h
  refine ⟨a, t', added, act, fun c warnings => ?_, hR, hQ⟩
  rw [← hx, ← t.name_withContents slot c]
  rfl

section Refl

variable [Std.Refl R]

theorem pure {a : α} (h : Q a id t) : Acts slot R t (pure a) Q :=
  Update.Acts.pure fun _ hb => Except.ok.inj hb ▸ h

theorem raise {error : LoadError} : Acts slot R t (raise error : Load α) Q :=
  Update.Acts.pure fun _ hb => by cases hb

theorem ofExcept_bind {result : Except LoadError β} {f : β → Load α}
    (h : ∀ b, result = .ok b → Acts slot R t (f b) Q) : Acts slot R t (liftM result >>= f) Q := by
  cases result with
  | error error => exact raise
  | ok b => exact h b rfl

end Refl

theorem bind [Std.Refl R] [IsTrans Tables R] {Q : β → (Contents → Contents) → Tables → Prop}
    (h : Acts slot R t x P)
    (hf : ∀ a act t', R t t' → P a act t' → Acts slot R t' (f a) fun b act' t'' => Q b (act' ∘ act) t'') :
    Acts slot R t (x >>= f) Q := by
  rw [Acts, ExceptT.run_bind]
  refine Update.Acts.bind h fun result act t' hR hP => ?_
  cases result with
  | error error => exact Update.Acts.pure fun _ hb => by cases hb
  | ok a => exact hf a act t' hR (hP a rfl)

theorem edit_bind [Std.Refl R] [IsTrans Tables R] {g : Frame → Frame} (act : Contents → Contents) {f : Unit → Load β}
    {Q : β → (Contents → Contents) → Tables → Prop}
    (hg : ∀ (f : Frame) c, g (f.withContents c) = f.withContents (act c))
    (h : Acts slot R t (f ()) fun b act' t' => Q b (act' ∘ act) t') :
    Acts slot R t (liftM (Load.edit slot g) >>= f) Q :=
  Update.Acts.edit_bind act (f := fun u => (f u).run) hg h

theorem bind_edit [Std.Refl R] [IsTrans Tables R] {x : Load β} {g : β → Frame → Frame}
    (write : β → Contents → Contents)
    (hg : ∀ b (f : Frame) c, g b (f.withContents c) = f.withContents (write b c))
    (h : Acts slot R t x fun _ act _ => act = id) :
    Acts slot R t (x >>= fun b => liftM (Load.edit slot (g b))) fun _ act _ => ∃ b, act = write b := by
  refine .bind h fun b act t' _ hact => .lift ?_
  rw [hact]
  exact .edit (write b) (hg b) ⟨b, rfl⟩

end Load.Acts

end FrameTable
