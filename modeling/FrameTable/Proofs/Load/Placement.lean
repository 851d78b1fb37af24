import FrameTable.Load.Batch
import FrameTable.Proofs.Catalog.Evolution

namespace FrameTable

namespace Load

variable {c c' : Catalog Frame} {s : Section} {sections : List Section} {first slot : Nat}

theorem firstOfEachTitle_filter {p : Section → Bool}
    (hp : ∀ {s s' : Section}, Text.same s.title s'.title = true → p s = p s') (sections : List Section) :
    firstOfEachTitle (sections.filter p) = (firstOfEachTitle sections).filter p := by
  induction sections with
  | nil => rfl
  | cons s sections ih =>
    by_cases hs : p s = true
    · rw [List.filter_cons_of_pos hs, firstOfEachTitle, firstOfEachTitle, List.filter_cons_of_pos hs, ih]
      simp only [List.filter_filter, Bool.and_comm]
    · rw [List.filter_cons_of_neg hs, firstOfEachTitle, List.filter_cons_of_neg hs, ih, List.filter_filter]
      refine List.filter_congr fun later _ => ?_
      cases hsame : Text.same s.title later.title with
      | true => simpa [hp hsame] using hs
      | false => simp

theorem newFrames_cons_of_known (h : c.slotNamed? s.title = some slot) :
    newFrames c (s :: sections) = newFrames c sections := by
  simp [newFrames, h]

theorem newFrames_cons_of_new (h : c.slotNamed? s.title = none) :
    newFrames c (s :: sections) =
      s :: (newFrames c sections).filter fun later => !Text.same s.title later.title := by
  simp [newFrames, h, firstOfEachTitle]

theorem newFrames_of_enlisted
    (hfind : ∀ name, c'.slotNamed? name = if Text.same s.title name then some slot else c.slotNamed? name) :
    newFrames c' sections =
      (newFrames c sections).filter fun later => !Text.same s.title later.title := by
  have hfilter : sections.filter (fun later => (c'.slotNamed? later.title).isNone) =
      (sections.filter fun later => (c.slotNamed? later.title).isNone).filter
        fun later => !Text.same s.title later.title := by
    rw [List.filter_filter]
    refine List.filter_congr fun later _ => ?_
    rw [hfind]
    cases Text.same s.title later.title <;> simp
  rw [newFrames, newFrames, hfilter, firstOfEachTitle_filter]
  intro a b hab
  have hsame : Text.same s.title a.title = Text.same s.title b.title := by
    rw [Text.same_comm, Text.same_congr hab, Text.same_comm]
  rw [hsame]

theorem newFrames_congr (h : ∀ name, c'.slotNamed? name = c.slotNamed? name) :
    newFrames c' sections = newFrames c sections := by
  simp only [newFrames, h]

structure Reserved (c : Catalog Frame) (first : Nat) (sections : List Section) : Prop where
  enlisted : c.EnlistedTo (min first c.size)
  fresh : ∀ {i f}, first ≤ i → c.get? i = some f →
    ∃ s, (newFrames c sections)[i - first]? = some s ∧ f = emptyFrame i s

def Renumbers (titles : List String) (c c' : Catalog Frame) : Prop :=
  c'.size = c.size ∧ c'.directory.pool = c.directory.pool ∧ ∀ {i f'}, c'.get? i = some f' →
    ∃ f, c.get? i = some f ∧ (f' = f ∨ Mentions titles f.name ∧ ∃ id, f' = { f with legacyId := id })

theorem Renumbers.refl (titles : List String) (c : Catalog Frame) : Renumbers titles c c :=
  ⟨rfl, rfl, fun h => ⟨_, h, .inl rfl⟩⟩

theorem Renumbers.trans {titles : List String} {a b c : Catalog Frame} (h : Renumbers titles a b)
    (h' : Renumbers titles b c) : Renumbers titles a c := by
  refine ⟨h'.1.trans h.1, h'.2.1.trans h.2.1, fun hi => ?_⟩
  obtain ⟨f', hf', hsecond⟩ := h'.2.2 hi
  obtain ⟨f, hf, hfirst⟩ := h.2.2 hf'
  refine ⟨f, hf, ?_⟩
  rcases hfirst with rfl | ⟨hmem, id, rfl⟩
  · exact hsecond
  · rcases hsecond with rfl | ⟨-, id', rfl⟩
    · exact .inr ⟨hmem, id, rfl⟩
    · exact .inr ⟨hmem, id', rfl⟩

theorem Renumbers.mono {titles titles' : List String} (hsub : titles ⊆ titles') (h : Renumbers titles c c') :
    Renumbers titles' c c' := by
  refine ⟨h.1, h.2.1, fun hi => ?_⟩
  obtain ⟨f, hf, hcase⟩ := h.2.2 hi
  exact ⟨f, hf, hcase.imp_right fun ⟨hmem, hid⟩ => ⟨hmem.mono hsub, hid⟩⟩

namespace Reserved

theorem setId (h : Reserved c first (s :: sections)) (hknown : c.slotNamed? s.title = some slot) (id : Int) :
    ∃ c', c.setId slot id = .ok c' ∧ Reserved c' first sections ∧ Renumbers [s.title] c c' := by
  obtain ⟨hlt, f, hf, hsame⟩ := h.enlisted.slotNamed?_iff_lt.mp hknown
  obtain ⟨c', hset, henlisted, hsize, hnames, hpool, hget⟩ := h.enlisted.exists_setId_eq_ok hlt hf id
  have hfind : ∀ name, c'.slotNamed? name = c.slotNamed? name := by
    intro name
    simp only [Catalog.slotNamed?, Directory.slotNamed?, hnames]
  refine ⟨c', hset, ⟨hsize ▸ henlisted, fun {i f'} hi hf' => ?_⟩, hsize, hpool, fun {i f'} hf' => ?_⟩
  · have hne : slot ≠ i := by omega
    rw [hget, if_neg hne] at hf'
    obtain ⟨s', hs', rfl⟩ := h.fresh hi hf'
    rw [newFrames_cons_of_known hknown] at hs'
    exact ⟨s', by rw [newFrames_congr hfind]; exact hs', rfl⟩
  · rw [hget] at hf'
    split at hf'
    · next hi =>
      subst hi
      obtain ⟨f₁, hf₁, rfl⟩ := Option.map_eq_some_iff.mp hf'
      obtain rfl : f = f₁ := Option.some.inj (hf.symm.trans hf₁)
      exact ⟨f, hf, .inr ⟨⟨s.title, List.mem_singleton.mpr rfl, Text.same_comm _ _ ▸ hsame⟩, id, rfl⟩⟩
    · exact ⟨f', hf', .inl rfl⟩

theorem enlist (h : Reserved c first (s :: sections)) (hnew : c.slotNamed? s.title = none) :
    ∃ c', c.enlist first = .ok c' ∧ Reserved c' (first + 1) sections ∧ Renumbers [s.title] c c' := by
  cases hf : c.get? first with
  | none =>
    have hle : c.size ≤ first := (Store.get?_eq_none_iff _ _).mp hf
    refine ⟨c, by simp [Catalog.enlist, hf, pure, Except.pure], ⟨?_, fun {i f} hi hf' => ?_⟩, .refl _ c⟩
    · have hmin : min (first + 1) c.size = min first c.size := by omega
      rw [hmin]
      exact h.enlisted
    · have := Catalog.lt_size_of_get? hf'
      omega
  | some f =>
    have hlt : first < c.size := Catalog.lt_size_of_get? hf
    have hmin : min first c.size = first := Nat.min_eq_left (Nat.le_of_lt hlt)
    obtain ⟨s', hs', rfl⟩ := h.fresh (Nat.le_refl _) hf
    obtain rfl : s = s' := by
      rw [newFrames_cons_of_new hnew, Nat.sub_self] at hs'
      exact Option.some.inj hs'
    have henlisted : c.EnlistedTo first := hmin ▸ h.enlisted
    obtain ⟨directory, henlist, hpool, hnext, hfind⟩ := henlisted.exists_enlist_eq_ok hf hnew
    refine ⟨_, henlist, ⟨?_, fun {i f'} hi hf' => ?_⟩, rfl, hpool, fun hf' => ⟨_, hf', .inl rfl⟩⟩
    · have hmin : min (first + 1) (Catalog.size { c with directory }) = first + 1 := Nat.min_eq_left hlt
      rw [hmin]
      exact hnext
    · obtain ⟨s', hs', rfl⟩ := h.fresh (Nat.le_of_succ_le hi) hf'
      have hsub : i - first = i - (first + 1) + 1 := by omega
      rw [newFrames_cons_of_new hnew, hsub, List.getElem?_cons_succ] at hs'
      have hrest : newFrames { c with directory } sections =
          (newFrames c sections).filter fun later => !Text.same s.title later.title :=
        newFrames_of_enlisted hfind
      exact ⟨s', hrest ▸ hs', rfl⟩

theorem consistent (h : Reserved c first []) : c.Consistent := by
  have hle : c.size ≤ first := by
    rcases Nat.lt_or_ge first c.size with hlt | hge
    · obtain ⟨f, hf⟩ := Store.exists_get? hlt
      obtain ⟨s, hs, -⟩ := h.fresh (Nat.le_refl _) hf
      cases hs
    · exact hge
  rw [Catalog.Consistent, ← Nat.min_eq_right hle]
  exact h.enlisted

end Reserved

theorem exists_enlistFrames_eq_ok (h : Reserved c first sections) :
    ∃ c', enlistFrames c first sections = .ok c' ∧ c'.Consistent ∧ Renumbers (sections.map (·.title)) c c' := by
  induction sections generalizing c first with
  | nil => exact ⟨c, rfl, h.consistent, .refl _ c⟩
  | cons s sections ih =>
    have hhead : [s.title] ⊆ (s :: sections).map (·.title) := by simp
    have htail : sections.map (·.title) ⊆ (s :: sections).map (·.title) := List.subset_cons_self _ _
    cases hname : c.slotNamed? s.title with
    | some slot =>
      -- The title was met before, here or in an earlier batch: only the id of its frame can change.
      obtain ⟨c₁, hset, hreserved, hrenumbers⟩ := h.setId hname (frameId s)
      by_cases hid : (c.get? slot).map (·.legacyId) = some (frameId s)
      · have hrest : Reserved c first sections :=
          ⟨h.enlisted, by rw [← newFrames_cons_of_known hname]; exact h.fresh⟩
        obtain ⟨c', hc', hconsistent, htrans⟩ := ih hrest
        exact ⟨c', by simp only [enlistFrames, hname, if_pos hid, hc'], hconsistent, htrans.mono htail⟩
      · obtain ⟨c', hc', hconsistent, htrans⟩ := ih hreserved
        refine ⟨c', ?_, hconsistent, (hrenumbers.mono hhead).trans (htrans.mono htail)⟩
        simp only [enlistFrames, hname, if_neg hid, hset, bind, Except.bind, hc']
    | none =>
      obtain ⟨c₁, henlist, hreserved, hrenumbers⟩ := h.enlist hname
      obtain ⟨c', hc', hconsistent, htrans⟩ := ih hreserved
      refine ⟨c', ?_, hconsistent, (hrenumbers.mono hhead).trans (htrans.mono htail)⟩
      simp only [enlistFrames, hname, henlist, bind, Except.bind, hc']

def reservedFrame (c : Catalog Frame) (sections : List Section) (slot : Nat) : Frame :=
  emptyFrame slot ((newFrames c sections)[slot - c.size]?.getD { title := "" })

theorem reserved_of_reserve (h : c.Consistent) {last : Nat} {reserved : Catalog Frame}
    (hreserve : c.reserve (newFrames c sections).length.toUInt64 (reservedFrame c sections) =
      .ok ((first, last), reserved)) :
    first = c.size ∧ Reserved reserved c.size sections ∧ reserved.directory = c.directory ∧ c.size ≤ reserved.size ∧
      (∀ i < c.size, reserved.get? i = c.get? i) ∧
      ∀ {i f}, c.size ≤ i → reserved.get? i = some f → ∃ s, f = emptyFrame i s := by
  obtain ⟨hdirectory, rfl, hsize, hget⟩ := Catalog.get?_of_reserve hreserve
  have hold : ∀ i < c.size, reserved.get? i = c.get? i := fun i hi => by rw [hget, if_pos hi]
  have hnew : ∀ {i f}, c.size ≤ i → reserved.get? i = some f →
      ∃ s, (newFrames c sections)[i - c.size]? = some s ∧ f = emptyFrame i s := by
    intro i f hi hf
    rw [hget, if_neg (Nat.not_lt.mpr hi)] at hf
    split at hf
    · next hlt =>
      -- The number of titles is cut to a word, so there may be fewer frames than titles.
      have hword : (newFrames c sections).length.toUInt64.toNat ≤ (newFrames c sections).length := by
        rw [Nat.toUInt64, UInt64.toNat_ofNat']
        exact Nat.mod_le _ _
      have hlength : i - c.size < (newFrames c sections).length := by omega
      rw [reservedFrame, List.getElem?_eq_getElem hlength] at hf
      exact ⟨_, List.getElem?_eq_getElem hlength, (Option.some.inj hf).symm⟩
    · cases hf
  have hreserved : Reserved reserved c.size sections := by
    have hmin : min c.size reserved.size = c.size := Nat.min_eq_left (by omega)
    refine ⟨?_, fun hi hf => ?_⟩
    · rw [hmin]
      exact h.congr (by rw [hdirectory]) (by rw [hdirectory]) fun i hi => by rw [hold i hi]
    · have hsame : newFrames reserved sections = newFrames c sections :=
        newFrames_congr fun name => by simp only [Catalog.slotNamed?, hdirectory]
      exact hsame ▸ hnew hi hf
  refine ⟨rfl, hreserved, hdirectory, by omega, hold, fun hi hf => ?_⟩
  obtain ⟨s, -, hempty⟩ := hnew hi hf
  exact ⟨s, hempty⟩

theorem reserve_of_placeFrames (hplace : placeFrames c sections = .ok c') :
    (newFrames c sections).length * titleWidth ≤ Store.maxBytes ∧ ∃ first last reserved,
      c.reserve (newFrames c sections).length.toUInt64 (reservedFrame c sections) = .ok ((first, last), reserved) ∧
        enlistFrames reserved first sections = .ok c' := by
  simp only [placeFrames, bind, Except.bind] at hplace
  split at hplace
  · cases hplace
  next hroom =>
  split at hplace
  · cases hplace
  next result hreserve =>
  exact ⟨Nat.le_of_not_lt hroom, result.1.1, result.1.2, result.2, hreserve, hplace⟩

theorem exists_reserved_of_placeFrames (h : c.Consistent) (hplace : placeFrames c sections = .ok c') :
    ∃ reserved, Reserved reserved c.size sections ∧ enlistFrames reserved c.size sections = .ok c' ∧
      reserved.directory = c.directory ∧ c.size ≤ reserved.size ∧
      (∀ i < c.size, reserved.get? i = c.get? i) ∧
      ∀ {i f}, c.size ≤ i → reserved.get? i = some f → ∃ s, f = emptyFrame i s := by
  obtain ⟨-, first, last, reserved, hreserve, henlist⟩ := reserve_of_placeFrames hplace
  obtain ⟨rfl, hreserved, hrest⟩ := reserved_of_reserve h hreserve
  exact ⟨reserved, hreserved, henlist, hrest⟩

theorem redefines_of_renumbers {titles : List String} {reserved : Catalog Frame} (h : c.Consistent)
    (h' : c'.Consistent) (hdirectory : reserved.directory = c.directory) (hsize : c.size ≤ reserved.size)
    (hold : ∀ i < c.size, reserved.get? i = c.get? i) (hrenumbers : Renumbers titles reserved c') :
    c.Redefines titles c' := by
  obtain ⟨hsize', hpool, horigin⟩ := hrenumbers
  have hkept : ∀ {i f}, c.get? i = some f → ∃ f', c'.get? i = some f' ∧
      (f' = f ∨ Mentions titles f.name ∧ ∃ id, f' = { f with legacyId := id }) := by
    intro i f hf
    have hi : i < c.size := Catalog.lt_size_of_get? hf
    have hi' : i < c'.size := by omega
    obtain ⟨f', hf'⟩ := Store.exists_get? hi'
    obtain ⟨f₁, hf₁, hcase⟩ := horigin hf'
    rw [hold i hi, hf] at hf₁
    exact ⟨f', hf', Option.some.inj hf₁ ▸ hcase⟩
  refine ⟨h.keepsNames h' ?_, ?_, ?_⟩
  · intro i f hf
    obtain ⟨f', hf', rfl | ⟨-, id, rfl⟩⟩ := hkept hf
    · exact ⟨_, hf', Text.same_refl _⟩
    · exact ⟨_, hf', Text.same_refl _⟩
  · intro i f hf hnot
    obtain ⟨f', hf', rfl | ⟨hmem, -⟩⟩ := hkept hf
    · exact hf'
    · exact absurd hmem hnot
  · rw [hpool, hdirectory]

theorem placeFrames_eq_ok (h : c.Consistent) (hplace : placeFrames c sections = .ok c') :
    c'.Consistent ∧ c.size ≤ c'.size ∧ c.Redefines (sections.map (·.title)) c' ∧
      ∀ {i f'}, c'.get? i = some f' → (∃ f id, c.get? i = some f ∧ f' = { f with legacyId := id }) ∨
        c.size ≤ i ∧ ∃ s id, f' = { emptyFrame i s with legacyId := id } := by
  obtain ⟨reserved, hreserved, henlist, hdirectory, hsize, hold, hnew⟩ := exists_reserved_of_placeFrames h hplace
  obtain ⟨c₁, henlist₁, hconsistent, hrenumbers⟩ := exists_enlistFrames_eq_ok hreserved
  obtain rfl : c₁ = c' := Except.ok.inj (henlist₁.symm.trans henlist)
  refine ⟨hconsistent, hrenumbers.1 ▸ hsize, ?_, ?_⟩
  · exact redefines_of_renumbers h hconsistent hdirectory hsize hold hrenumbers
  intro i f' hf'
  obtain ⟨f, hf, hcase⟩ := hrenumbers.2.2 hf'
  obtain ⟨id, rfl⟩ : ∃ id, f' = { f with legacyId := id } := by
    rcases hcase with rfl | ⟨-, hid⟩
    · exact ⟨f'.legacyId, rfl⟩
    · exact hid
  rcases Nat.lt_or_ge i c.size with hlt | hge
  · exact .inl ⟨f, id, hold i hlt ▸ hf, rfl⟩
  · obtain ⟨s, rfl⟩ := hnew hge hf
    exact .inr ⟨hge, s, id, rfl⟩

end Load

end FrameTable
