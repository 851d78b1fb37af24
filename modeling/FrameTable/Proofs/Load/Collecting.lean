import FrameTable.Proofs.Catalog.Room
import FrameTable.Proofs.Load.Given

namespace FrameTable

namespace Load

variable {c c' : Catalog Frame} {sections : List Section} {first : Nat}

def newTitles (c : Catalog Frame) (sections : List Section) : List String :=
  ((sections.map (·.title)).filter fun title => (c.slotNamed? title).isNone).eraseDupsBy Text.same

theorem map_title_firstOfEachTitle (sections : List Section) :
    (firstOfEachTitle sections).map (·.title) = (sections.map (·.title)).eraseDupsBy Text.same := by
  induction hlength : sections.length using Nat.strongRecOn generalizing sections with
  | ind n ih =>
    cases sections with
    | nil => rfl
    | cons s sections =>
      have hcongr : ∀ {a b : Section}, Text.same a.title b.title = true →
          (!Text.same s.title a.title) = !Text.same s.title b.title := by
        intro a b hab
        rw [Text.same_comm s.title, Text.same_comm s.title, Text.same_congr hab]
      have hshorter : (sections.filter fun later => !Text.same s.title later.title).length < n := by
        have := List.length_filter_le (fun later : Section => !Text.same s.title later.title) sections
        simp only [List.length_cons] at hlength
        omega
      rw [firstOfEachTitle, ← firstOfEachTitle_filter hcongr, List.map_cons, List.map_cons, List.eraseDupsBy_cons,
        ih _ hshorter _ rfl, List.filter_map]
      congr 3
      refine List.filter_congr fun later _ => ?_
      simp [Text.same_comm s.title]

theorem map_title_newFrames (c : Catalog Frame) (sections : List Section) :
    (newFrames c sections).map (·.title) = newTitles c sections := by
  rw [newFrames, map_title_firstOfEachTitle, newTitles, List.filter_map]
  rfl

theorem length_newFrames (c : Catalog Frame) (sections : List Section) :
    (newFrames c sections).length = (newTitles c sections).length := by
  rw [← map_title_newFrames, List.length_map]

theorem mem_of_mem_firstOfEachTitle {s : Section} (h : s ∈ firstOfEachTitle sections) : s ∈ sections := by
  induction sections with
  | nil => cases h
  | cons s' sections ih =>
    rcases List.mem_cons.mp h with rfl | hrest
    · exact List.mem_cons_self
    · exact List.mem_cons_of_mem _ (ih (List.mem_filter.mp hrest).1)

theorem exists_mem_firstOfEachTitle {s : Section} (h : s ∈ sections) :
    ∃ first ∈ firstOfEachTitle sections, Text.same first.title s.title = true := by
  induction sections with
  | nil => cases h
  | cons s' sections ih =>
    by_cases hsame : Text.same s'.title s.title = true
    · exact ⟨s', List.mem_cons_self, hsame⟩
    rcases List.mem_cons.mp h with rfl | hrest
    · exact absurd (Text.same_refl _) hsame
    obtain ⟨first, hfirst, hsame'⟩ := ih hrest
    refine ⟨first, List.mem_cons_of_mem _ (List.mem_filter.mpr ⟨hfirst, ?_⟩), hsame'⟩
    simp only [Bool.not_eq_true', Bool.eq_false_iff]
    exact fun hcross => hsame (Text.same_trans hcross hsame')

theorem toNat_length_newFrames (h : (newFrames c sections).length * titleWidth ≤ Store.maxBytes) :
    (newFrames c sections).length.toUInt64.toNat = (newFrames c sections).length := by
  rw [titleWidth, Store.maxBytes] at h
  exact UInt64.toNat_ofNat_of_lt' (by rw [UInt64.size]; omega)

theorem room_enlistFrames (h : c.Fits) (hok : enlistFrames c first sections = .ok c') :
    c'.size = c.size ∧ c'.Fits := by
  induction sections generalizing c first with
  | nil =>
    obtain rfl : c = c' := Except.ok.inj hok
    exact ⟨rfl, h⟩
  | cons s sections ih =>
    simp only [enlistFrames, bind, Except.bind] at hok
    split at hok
    · split at hok
      · exact ih h hok
      · split at hok
        · cases hok
        · next c₁ hset =>
          obtain ⟨hsize, hfits⟩ := ih (h.setId hset) hok
          exact ⟨hsize.trans (Catalog.size_setId hset), hfits⟩
    · split at hok
      · cases hok
      · next c₁ henlist =>
        obtain ⟨hsize, hfits⟩ := ih (h.enlist henlist) hok
        exact ⟨hsize.trans (congrArg Store.size (Catalog.store_enlist henlist)), hfits⟩

theorem room_placeFrames (h : c.Fits) (hplace : placeFrames c sections = .ok c') :
    c'.size = c.size + (newTitles c sections).length ∧ c'.Fits := by
  obtain ⟨hroom, start, last, reserved, hreserve, henlist⟩ := reserve_of_placeFrames hplace
  have hcount := toNat_length_newFrames hroom
  obtain ⟨-, -, hreserved, -⟩ := Catalog.get?_of_reserve hreserve
  obtain ⟨hsize, hfits⟩ := room_enlistFrames (Catalog.Fits.reserve h hreserve) henlist
  exact ⟨by rw [hsize, hreserved, hcount, length_newFrames], hfits⟩

def Cramped (c : Catalog Frame) (sections : List Section) : Prop :=
  Store.maxBytes < (c.store.allocated.toNat + 2 * (newTitles c sections).length + Store.margin.toNat) *
    (Record.width Frame).toNat

theorem placeFrames_eq_error (h : c.Consistent) (hfits : c.Fits) {error : CatalogError}
    (hplace : placeFrames c sections = .error error) :
    (∃ requested, error = .store (.outOfMemory requested)) ∧ sections ≠ [] ∧ Cramped c sections := by
  have hwidth : (Record.width Frame).toNat = 128 := rfl
  simp only [placeFrames, bind, Except.bind] at hplace
  rw [Cramped, ← length_newFrames]
  split at hplace
  · next hroom =>
    refine ⟨⟨_, (Except.error.inj hplace).symm⟩, ?_, ?_⟩
    · rintro rfl
      cases hroom
    · rw [titleWidth] at hroom
      rw [hwidth]
      omega
  next hroom =>
  have hcount := toNat_length_newFrames (Nat.le_of_not_lt hroom)
  split at hplace
  · next error' hreserve =>
    obtain rfl := Except.error.inj hplace
    have hword : c.store.planned (newFrames c sections).length.toUInt64.toNat < UInt64.size := by
      have hallocated : c.store.allocated.toNat ≤ Store.maxBytes := Store.Fits.allocated_le hfits Record.width_pos
      rw [Store.Fits.planned_lt_iff hfits Record.width_pos, hcount, UInt64.size]
      rw [titleWidth, Store.maxBytes] at hroom
      rw [Store.maxBytes] at hallocated
      omega
    obtain ⟨rfl, hpos, hbytes⟩ := Catalog.reserve_eq_error hfits hword hreserve
    refine ⟨⟨_, rfl⟩, ?_, hcount ▸ hbytes⟩
    rintro rfl
    exact hpos rfl
  · next result hreserve =>
    -- The slots are there, and enlisting them goes through.
    obtain ⟨⟨start, last⟩, reserved⟩ := result
    obtain ⟨hstart, hreserved, -⟩ := reserved_of_reserve h hreserve
    obtain ⟨c', hok, -⟩ := exists_enlistFrames_eq_ok hreserved
    simp only [hstart, hok] at hplace
    cases hplace

theorem mem_of_mem_newTitles {title : String} (h : title ∈ newTitles c sections) :
    ∃ s ∈ sections, s.title = title := by
  rw [← map_title_newFrames] at h
  obtain ⟨s, hs, rfl⟩ := List.mem_map.mp h
  exact ⟨s, (List.mem_filter.mp (mem_of_mem_firstOfEachTitle hs)).1, rfl⟩

theorem exists_mem_newTitles {s : Section} (hs : s ∈ sections) (hnew : c.slotNamed? s.title = none) :
    ∃ title ∈ newTitles c sections, Text.same title s.title = true := by
  have hmem : s ∈ sections.filter fun s => (c.slotNamed? s.title).isNone := List.mem_filter.mpr ⟨hs, by simp [hnew]⟩
  obtain ⟨first, hfirst, hsame⟩ := exists_mem_firstOfEachTitle hmem
  exact ⟨first.title, map_title_newFrames c sections ▸ List.mem_map_of_mem hfirst, hsame⟩

def writtenId (s : Section) : Int :=
  match s.value? "dehackednum" with
  | some (.int id) => if -2147483648 ≤ id ∧ id ≤ 2147483647 then id else -1
  | some (.bool value) => if value then 1 else 0
  | _ => -1

theorem frameId_eq_writtenId (s : Section) : frameId s = writtenId s := by
  unfold frameId writtenId Section.legacyId Section.int?
  cases s.value? "dehackednum" with
  | none => rfl
  | some value =>
    cases value with
    | int id =>
      by_cases hid : -2147483648 ≤ id ∧ id ≤ 2147483647 <;> simp [FieldValue.int?, Option.filter, Number.fits_iff, hid]
    | bool value => cases value <;> rfl
    | text value => rfl
    | list items => rfl

structure Collected (sections : List Section) (c c' : Catalog Frame) : Prop where
  size : c'.size = c.size + (newTitles c sections).length
  kept : ∀ {i f}, c.get? i = some f → ∃ id, c'.get? i = some { f with legacyId := id } ∧
    ((∀ s ∈ sections, Text.same s.title f.name = false) → id = f.legacyId)
  added : ∀ {k title}, (newTitles c sections)[k]? = some title →
    ∃ id, c'.get? (c.size + k) = some { index := c.size + k, name := title, legacyId := id }
  named : ∀ {i f name}, c'.get? i = some f → (c'.slotNamed? name = some i ↔ Text.same f.name name = true)
  written : ∀ {i f earlier s later}, c'.get? i = some f → sections = earlier ++ s :: later →
    Text.same s.title f.name = true → (∀ other ∈ later, Text.same other.title f.name = false) →
    f.legacyId = writtenId s
  numbered : ∀ {i f id}, c'.get? i = some f → (i ∈ c'.directory.ids.slots ⟨id⟩ ↔ 0 ≤ id ∧ f.legacyId = id)

theorem get?_added (h : c.Consistent) (hfits : c.Fits) (hplace : placeFrames c sections = .ok c') {k : Nat}
    {title : String} (htitle : (newTitles c sections)[k]? = some title) :
    ∃ id, c'.get? (c.size + k) = some { index := c.size + k, name := title, legacyId := id } := by
  obtain ⟨reserved, hreserved, henlist, hdirectory, -⟩ := exists_reserved_of_placeFrames h hplace
  obtain ⟨c₁, henlist₁, -, -, -, horigin⟩ := exists_enlistFrames_eq_ok hreserved
  obtain rfl : c₁ = c' := Except.ok.inj (henlist₁.symm.trans henlist)
  have hlt : c.size + k < c₁.size := by
    obtain ⟨hk, -⟩ := List.getElem?_eq_some_iff.mp htitle
    rw [(room_placeFrames hfits hplace).1]
    omega
  obtain ⟨f', hf'⟩ := Store.exists_get? hlt
  obtain ⟨f, hf, hcase⟩ := horigin hf'
  have hsame : newFrames reserved sections = newFrames c sections :=
    newFrames_congr fun name => by simp only [Catalog.slotNamed?, hdirectory]
  obtain ⟨s, hs, rfl⟩ := hreserved.fresh (Nat.le_add_right _ _) hf
  rw [hsame, Nat.add_sub_cancel_left] at hs
  obtain rfl : s.title = title := by
    rw [← map_title_newFrames, List.getElem?_map, hs] at htitle
    exact Option.some.inj htitle
  rcases hcase with rfl | ⟨-, id, rfl⟩
  · exact ⟨frameId s, hf'⟩
  · exact ⟨id, hf'⟩

theorem collected_placeFrames (h : c.Consistent) (hfits : c.Fits) (hplace : placeFrames c sections = .ok c') :
    Collected sections c c' := by
  obtain ⟨hconsistent, -, hredefines, horigin⟩ := placeFrames_eq_ok h hplace
  have hsize := (room_placeFrames hfits hplace).1
  refine
    { size := hsize
      kept := fun {i f} hf => ?_
      added := fun {k title} htitle => ?_
      named := fun {i f name} hf => ?_
      written := fun {i f earlier s later} hf hsections hsame hlater => ?_
      numbered := fun {i f id} hf => ?_ }
  · have hi : i < c.size := Catalog.lt_size_of_get? hf
    have hi' : i < c'.size := by omega
    obtain ⟨f', hf'⟩ := Store.exists_get? hi'
    rcases horigin hf' with ⟨old, id, hold, rfl⟩ | ⟨hge, -⟩
    · obtain rfl := Option.some.inj (hf.symm.trans hold)
      refine ⟨id, hf', fun hnone => ?_⟩
      have hkept : c'.get? i = some f := hredefines.record hf fun ⟨title, hmem, hsame⟩ => by
        obtain ⟨s, hs, rfl⟩ := List.mem_map.mp hmem
        cases (hnone s hs).symm.trans hsame
      exact congrArg Frame.legacyId (Option.some.inj (hf'.symm.trans hkept))
    · omega
  · exact get?_added h hfits hplace htitle
  · rw [hconsistent.slotNamed?_eq_some_iff]
    constructor
    · rintro ⟨f', hf', hsame⟩
      rwa [Option.some.inj (hf.symm.trans hf')]
    · exact fun hsame => ⟨f, hf, hsame⟩
  · rw [← frameId_eq_writtenId]
    rcases lastGives_placeFrames h hplace hf with hlast | ⟨-, hnone⟩
    · exact hlast.eq_frameId hsections hsame hlater
    · have hmem : s ∈ sections := hsections ▸ List.mem_append_right _ List.mem_cons_self
      cases (hnone s hmem).symm.trans hsame
  · rw [hconsistent.mem_slots_ids_iff]
    constructor
    · rintro ⟨hnonneg, f', hf', hid⟩
      rw [Option.some.inj (hf.symm.trans hf')]
      exact ⟨hnonneg, hid⟩
    · exact fun ⟨hnonneg, hid⟩ => ⟨hnonneg, f, hf, hid⟩

namespace Collected

variable {name : String}

theorem exists_slotNamed? (h : Collected sections c c') (hc : c.Consistent) {s : Section} (hs : s ∈ sections) :
    ∃ slot, c'.slotNamed? s.title = some slot := by
  cases hname : c.slotNamed? s.title with
  | some slot =>
    obtain ⟨f, hf, hsame⟩ := hc.slotNamed?_eq_some_iff.mp hname
    obtain ⟨id, hf', -⟩ := h.kept hf
    exact ⟨slot, (h.named hf').mpr hsame⟩
  | none =>
    obtain ⟨title, htitle, hsame⟩ := exists_mem_newTitles hs hname
    obtain ⟨k, hk⟩ := List.mem_iff_getElem?.mp htitle
    obtain ⟨id, hf⟩ := h.added hk
    exact ⟨c.size + k, (h.named hf).mpr hsame⟩

theorem origin (h : Collected sections c c') (hc : c.Consistent) (hc' : c'.Consistent) {slot : Nat}
    (hname : c'.slotNamed? name = some slot) :
    c.slotNamed? name = some slot ∨ ∃ s ∈ sections, Text.same s.title name = true := by
  obtain ⟨f', hf', hsame⟩ := hc'.slotNamed?_eq_some_iff.mp hname
  rcases Nat.lt_or_ge slot c.size with hlt | hge
  · obtain ⟨f, hf⟩ := Store.exists_get? hlt
    obtain ⟨id, hkept, -⟩ := h.kept hf
    obtain rfl := Option.some.inj (hf'.symm.trans hkept)
    exact .inl (hc.slotNamed?_eq_some_iff.mpr ⟨f, hf, hsame⟩)
  · have hlt : slot - c.size < (newTitles c sections).length := by
      have := Catalog.lt_size_of_get? hf'
      rw [h.size] at this
      omega
    have htitle := List.getElem?_eq_getElem hlt
    obtain ⟨id, hadded⟩ := h.added htitle
    rw [Nat.add_sub_cancel' hge] at hadded
    obtain rfl := Option.some.inj (hf'.symm.trans hadded)
    obtain ⟨s, hs, htitle⟩ := mem_of_mem_newTitles (List.getElem_mem hlt)
    exact .inr ⟨s, hs, by rw [htitle]; exact hsame⟩

theorem size_eq_zero_iff (h : Collected sections c c') (hc : c.Consistent) (hc' : c'.Consistent)
    (hempty : c.size = 0) : c'.size = 0 ↔ sections = [] := by
  constructor
  · intro hsize
    cases sections with
    | nil => rfl
    | cons s sections =>
      obtain ⟨slot, hslot⟩ := h.exists_slotNamed? hc List.mem_cons_self
      have := hc'.lt_of_slotNamed? hslot
      omega
  · rintro rfl
    rw [h.size, hempty]
    rfl

theorem checkNullFrame_cases (h : Collected sections c c') (hc : c.Consistent) (hc' : c'.Consistent)
    (hempty : c.size = 0) :
    (checkNullFrame c' = .error .noFrames ∧ sections = []) ∨
    (checkNullFrame c' = .error .missingNullFrame ∧ sections ≠ [] ∧
      ∀ s ∈ sections, Text.same s.title Frame.nullName = false) ∨
    ((∃ nullFrame, checkNullFrame c' = .ok nullFrame) ∧ ∃ s ∈ sections, Text.same s.title Frame.nullName = true) := by
  have hsize := h.size_eq_zero_iff hc hc' hempty
  by_cases hzero : c'.size = 0
  · exact .inl ⟨by rw [checkNullFrame, if_pos hzero], hsize.mp hzero⟩
  rw [checkNullFrame, if_neg hzero]
  cases hnull : c'.slotNamed? Frame.nullName with
  | none =>
    refine .inr (.inl ⟨rfl, fun hnil => hzero (hsize.mpr hnil), fun s hs => Bool.eq_false_iff.mpr fun hsame => ?_⟩)
    obtain ⟨slot, hslot⟩ := h.exists_slotNamed? hc hs
    obtain ⟨f, hf, hsame'⟩ := hc'.slotNamed?_eq_some_iff.mp hslot
    rw [(h.named hf).mpr (Text.same_trans hsame' hsame)] at hnull
    cases hnull
  | some nullFrame =>
    refine .inr (.inr ⟨⟨nullFrame, rfl⟩, (h.origin hc hc' hnull).resolve_left fun hold => ?_⟩)
    have := hc.lt_of_slotNamed? hold
    omega

end Collected

section Allot

variable {σ σ' : LoadState} {result : Except LoadError Unit} {first : Bool}

/-- Collecting goes through or says what is missing in a first load; otherwise memory has run out. -/
theorem allotFrames_collects (h : σ.tables.frames.Consistent) (hfits : σ.tables.frames.Fits)
    (hrun : (allotFrames sections first).run.run σ = (result, σ')) :
    (result = .ok () → Collected sections σ.tables.frames σ'.tables.frames ∧ ∃ nullFrame,
      σ' = { σ with tables.frames := σ'.tables.frames, tables.nullFrame := nullFrame }) ∧
    (first = true → σ.tables.frames.size = 0 →
      (result = .error .noFrames ↔ sections = []) ∧
      ((result = .error .missingNullFrame ↔
          sections ≠ [] ∧ ∀ s ∈ sections, Text.same s.title Frame.nullName = false) ∨
        Cramped σ.tables.frames sections ∧
          ∃ requested, result = .error (.catalog (.store (.outOfMemory requested))))) := by
  rw [run_allotFrames] at hrun
  cases hplace : placeFrames σ.tables.frames sections with
  | error error =>
    obtain ⟨⟨requested, rfl⟩, hsections, hcramped⟩ := placeFrames_eq_error h hfits hplace
    simp only [hplace] at hrun
    obtain ⟨rfl, rfl⟩ := Prod.mk.inj hrun
    refine ⟨nofun, fun _ _ => ⟨by simp [hsections], .inr ⟨hcramped, requested, rfl⟩⟩⟩
  | ok frames =>
    have hcollected := collected_placeFrames h hfits hplace
    have hframes := (placeFrames_eq_ok h hplace).1
    simp only [hplace] at hrun
    cases first with
    | false =>
      obtain ⟨rfl, rfl⟩ := Prod.mk.inj hrun
      exact ⟨fun _ => ⟨hcollected, σ.tables.nullFrame, rfl⟩, nofun⟩
    | true =>
      simp only [if_true] at hrun
      constructor
      · rintro rfl
        cases hcheck : checkNullFrame frames with
        | error error =>
          rw [hcheck] at hrun
          cases hrun
        | ok nullFrame =>
          rw [hcheck] at hrun
          obtain rfl := (Prod.mk.inj hrun).2
          exact ⟨hcollected, nullFrame, rfl⟩
      · intro _ hempty
        rcases hcollected.checkNullFrame_cases h hframes hempty with ⟨hcheck, rfl⟩ | ⟨hcheck, hsome, hnone⟩ |
          ⟨⟨nullFrame, hcheck⟩, s, hs, hsame⟩
        all_goals
          rw [hcheck] at hrun
          obtain rfl := (Prod.mk.inj hrun).1.symm
        · simp
        · simp only [Except.error.injEq, reduceCtorEq, false_iff, true_iff]
          exact ⟨hsome, .inl ⟨hsome, hnone⟩⟩
        · refine ⟨iff_of_false nofun (List.ne_nil_of_mem hs), .inl (iff_of_false nofun fun ⟨_, hnone⟩ => ?_)⟩
          cases (hnone s hs).symm.trans hsame

def retitled : List Section :=
  [{ title := "S_Null" }, { title := "S_RUN", fields := .ofList [("dehackednum", .int 7)] },
    { title := "s_null", fields := .ofList [("dehackednum", .bool true)] },
    { title := "s_run", fields := .ofList [("dehackednum", .int 2147483648)] }]

def beforeRetitled : LoadState where
  tables := .initial ⟨1, 1, 1, 1, 1⟩

theorem allotFrames_collects_retitled :
    beforeRetitled.tables.frames.Consistent ∧ beforeRetitled.tables.frames.Fits ∧
      ∃ σ', (allotFrames retitled true).run.run beforeRetitled = (.ok (), σ') ∧
        Collected retitled beforeRetitled.tables.frames σ'.tables.frames ∧
        newTitles beforeRetitled.tables.frames retitled = ["S_Null", "S_RUN"] ∧
        σ'.tables.frames.store.items.toList.map (·.legacyId) = [1, -1] := by
  have hconsistent : beforeRetitled.tables.frames.Consistent := Catalog.consistent_empty _
  have hfits : beforeRetitled.tables.frames.Fits := Store.fits_empty
  obtain ⟨σ', hσ'⟩ : ∃ σ', σ' = ((allotFrames retitled true).run.run beforeRetitled).2 := ⟨_, rfl⟩
  have hrun : (allotFrames retitled true).run.run beforeRetitled = (.ok (), σ') := by
    rw [hσ']
    exact Prod.ext (by decide +kernel) rfl
  obtain ⟨hcollected, -⟩ := (allotFrames_collects hconsistent hfits hrun).1 rfl
  exact ⟨hconsistent, hfits, σ', hrun, hcollected, by decide +kernel, by rw [hσ']; decide +kernel⟩

end Allot

end Load

end FrameTable
