import FrameTable.Proofs.Load.Gather

namespace FrameTable

structure Tables.Places (t t' : Tables) : Prop where
  size_le : t.frames.size ≤ t'.frames.size
  origin : ∀ {i f'}, t'.frames.get? i = some f' →
    (∃ f id, t.frames.get? i = some f ∧ f' = { f with legacyId := id }) ∨
      t.frames.size ≤ i ∧ ∃ s id, f' = { Load.emptyFrame i s with legacyId := id }

namespace Tables.Places

variable {t t' : Tables} {i : Nat} {f : Frame}

theorem of_eq (h : t'.frames = t.frames) : t.Places t' where
  size_le := h ▸ Nat.le_refl _
  origin hf := .inl ⟨_, _, h ▸ hf, rfl⟩

instance : Std.Refl Places := ⟨fun _ => .of_eq rfl⟩

instance : IsTrans Tables Places where
  trans _ _ _ h h' := by
    refine ⟨Nat.le_trans h.size_le h'.size_le, fun hf'' => ?_⟩
    rcases h'.origin hf'' with ⟨f', id, hf', rfl⟩ | ⟨hle, s, id, rfl⟩
    · rcases h.origin hf' with ⟨f, id', hf, rfl⟩ | ⟨hle, s, id', rfl⟩
      · exact .inl ⟨f, id, hf, rfl⟩
      · exact .inr ⟨hle, s, id, rfl⟩
    · exact .inr ⟨Nat.le_trans h.size_le hle, s, id, rfl⟩

theorem kept (h : t.Places t') (hf : t.frames.get? i = some f) :
    ∃ id, t'.frames.get? i = some { f with legacyId := id } := by
  have hlt : i < t.frames.size := Catalog.lt_size_of_get? hf
  obtain ⟨f', hf'⟩ := Store.exists_get? (Nat.lt_of_lt_of_le hlt h.size_le)
  rcases h.origin hf' with ⟨f₁, id, hf₁, rfl⟩ | ⟨hle, -⟩
  · obtain rfl := Option.some.inj (hf.symm.trans hf₁)
    exact ⟨id, hf'⟩
  · omega

end Tables.Places

namespace Load

open Tables (Places)

variable {first : Bool} {b : Batch} {t : Tables} {s : Section} {sections : List Section} {name : String}

theorem addSprite_places (h : t.frames.Consistent) :
    Update.Follows Places t (addSprite name) fun _ t' => t'.frames.Consistent := by
  refine .tables_bind ?_
  split
  · exact .setTables (.of_eq rfl) h
  · exact .warn h

theorem addThing_places (h : t.frames.Consistent) : Follows Places t (addThing s) fun _ t' => t'.frames.Consistent :=
  .tables_bind (.ofCatalog_bind fun _ _ => .lift (.setTables (.of_eq rfl) h))

theorem addSound_places (h : t.frames.Consistent) : Follows Places t (addSound s) fun _ t' => t'.frames.Consistent :=
  .tables_bind (.ofCatalog_bind fun _ _ => .lift (.setTables (.of_eq rfl) h))

theorem addString_places (h : t.frames.Consistent) : Follows Places t (addString s) fun _ t' => t'.frames.Consistent :=
  .tables_bind (.ofCatalog_bind fun _ _ => .lift (.setTables (.of_eq rfl) h))

theorem allotFrames_places (h : t.frames.Consistent) :
    Follows Places t (allotFrames sections first) fun _ _ => True := by
  refine .tables_bind (.ofCatalog_bind fun frames hplace => ?_)
  obtain ⟨-, hsize, -, horigin⟩ := placeFrames_eq_ok h hplace
  have hplaces : Places t { t with frames } := ⟨hsize, horigin⟩
  refine .setTables_bind hplaces ?_
  cases first with
  | false => exact .pure trivial
  | true =>
    simp only [if_true]
    by_cases hempty : frames.size = 0
    · simp only [if_pos hempty]
      exact .raise_bind
    · simp only [if_neg hempty]
      split
      · exact .lift (.setTables (.of_eq rfl) trivial)
      · exact .raise

theorem gather_places (first : Bool) (b : Batch) (h : t.frames.Consistent) :
    Follows Places t (gather b first) fun _ _ => True := by
  refine .bind (.lift (.forM (fun _ _ _ h => addSprite_places h) h)) fun _ t _ h => ?_
  refine .bind (.forM (fun _ _ _ h => addThing_places h) h) fun _ t _ h => ?_
  refine .bind (.forM (fun _ _ _ h => addSound_places h) h) fun _ t _ h => ?_
  refine .bind (.forM (fun _ _ _ h => addString_places h) h) fun _ t _ h => ?_
  exact allotFrames_places h

end Load

end FrameTable
