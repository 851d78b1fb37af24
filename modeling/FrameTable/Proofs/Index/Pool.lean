import Mathlib.Order.Bounds.Basic
import FrameTable.Index.IdPool
import FrameTable.Number.Integer

namespace FrameTable

namespace IdPool

variable {pool : IdPool} {inUse : Int → Bool} {calls : List (Int → Bool)} {id : Int}

theorem allocate_cases (pool : IdPool) (inUse : Int → Bool) :
    (∃ id, pool.allocate inUse = (.ok id, { cursor := id - 1 }) ∧ 0 ≤ id ∧ id ≤ pool.cursor ∧ inUse id = false ∧
      ∀ i, id < i → i ≤ pool.cursor → inUse i = true) ∨
    ∃ dry : IdPool, pool.allocate inUse = (.error .exhausted, dry) ∧ dry.cursor < 0 ∧ dry.cursor ≤ pool.cursor ∧
      ∀ i, 0 ≤ i → i ≤ pool.cursor → inUse i = true := by
  by_cases hdry : pool.exhausted = true
  · have hneg : pool.cursor < 0 := of_decide_eq_true hdry
    refine .inr ⟨pool, by rw [allocate, if_pos hdry], hneg, Int.le_refl _, fun i hi hle => ?_⟩
    omega
  · have hnonneg : 0 ≤ pool.cursor := Int.not_lt.mp fun hneg => hdry (decide_eq_true hneg)
    rw [allocate, if_neg hdry]
    cases hfree : greatestFree? (fun n => inUse n) pool.cursor.toNat with
    | some id =>
      obtain ⟨hle, hunused, habove⟩ := greatestFree?_eq_some hfree
      refine .inl ⟨id, rfl, Int.natCast_nonneg id, by omega, hunused, fun i hlt hi => ?_⟩
      have hused := habove i.toNat (by omega) (by omega)
      rwa [Int.toNat_of_nonneg (by omega)] at hused
    | none =>
      refine .inr ⟨{ cursor := -2 }, rfl, by decide, Int.le_trans (by decide) hnonneg, fun i hi hle => ?_⟩
      have hused := greatestFree?_eq_none_iff.mp hfree i.toNat (by omega)
      rwa [Int.toNat_of_nonneg hi] at hused

theorem allocate_of_dry (hdry : pool.cursor < 0) (inUse : Int → Bool) :
    pool.allocate inUse = (.error .exhausted, pool) :=
  if_pos (decide_eq_true hdry)

def free (pool : IdPool) (inUse : Int → Bool) : Set Int :=
  {id | 0 ≤ id ∧ id ≤ pool.cursor ∧ inUse id = false}

theorem allocate_cases_free (pool : IdPool) (inUse : Int → Bool) :
    (∃ id, pool.allocate inUse = (.ok id, { cursor := id - 1 }) ∧ IsGreatest (pool.free inUse) id) ∨
    ∃ dry : IdPool, pool.allocate inUse = (.error .exhausted, dry) ∧ pool.free inUse = ∅ := by
  rcases pool.allocate_cases inUse with ⟨id, hallocate, hnonneg, hle, hunused, habove⟩ | ⟨dry, hallocate, -, -, hused⟩
  · refine .inl ⟨id, hallocate, ⟨hnonneg, hle, hunused⟩, fun i hi => Int.not_lt.mp fun hlt => ?_⟩
    exact Bool.false_ne_true (hi.2.2.symm.trans (habove i hlt hi.2.1))
  · refine .inr ⟨dry, hallocate, Set.eq_empty_iff_forall_notMem.mpr fun i hi => ?_⟩
    exact Bool.false_ne_true (hi.2.2.symm.trans (hused i hi.1 hi.2.1))

structure Serves (pool : IdPool) (inUse : Int → Bool) : Prop where
  ok_iff : ∀ id, (pool.allocate inUse).1 = .ok id ↔ IsGreatest (pool.free inUse) id
  cursor_of_ok : ∀ id, (pool.allocate inUse).1 = .ok id → (pool.allocate inUse).2.cursor = id - 1
  exhausted_iff : (pool.allocate inUse).1 = .error .exhausted ↔ pool.free inUse = ∅

theorem serves (pool : IdPool) (inUse : Int → Bool) : pool.Serves inUse := by
  rcases pool.allocate_cases_free inUse with ⟨id, hallocate, hgreatest⟩ | ⟨dry, hallocate, hempty⟩
  · refine ⟨fun other => ?_, fun other hok => ?_, ?_⟩
    · rw [hallocate]
      exact ⟨fun hok => Except.ok.inj hok ▸ hgreatest, fun h => congrArg _ (hgreatest.unique h)⟩
    · rw [hallocate] at hok ⊢
      exact congrArg (· - 1) (Except.ok.inj hok)
    · rw [hallocate]
      exact iff_of_false nofun fun hempty => Set.notMem_empty id (hempty ▸ hgreatest.1)
  · refine ⟨fun id => ?_, fun id hok => ?_, ?_⟩
    · rw [hallocate]
      exact iff_of_false nofun fun h => Set.notMem_empty id (hempty ▸ h.1)
    · rw [hallocate] at hok
      cases hok
    · rw [hallocate]
      exact iff_of_true rfl hempty

def after (pool : IdPool) (calls : List (Int → Bool)) : IdPool :=
  calls.foldl (fun pool inUse => (pool.allocate inUse).2) pool

def results (pool : IdPool) : List (Int → Bool) → List (Except PoolError Int)
  | [] => []
  | inUse :: calls => (pool.allocate inUse).1 :: (pool.allocate inUse).2.results calls

def issued (pool : IdPool) (calls : List (Int → Bool)) : List Int :=
  (pool.results calls).filterMap Except.toOption

theorem after_cons (pool : IdPool) (inUse : Int → Bool) (calls : List (Int → Bool)) :
    pool.after (inUse :: calls) = (pool.allocate inUse).2.after calls :=
  rfl

theorem issued_cons_of_ok {next : IdPool} (h : pool.allocate inUse = (.ok id, next)) (calls : List (Int → Bool)) :
    pool.issued (inUse :: calls) = id :: next.issued calls := by
  rw [issued, results, h]
  rfl

theorem issued_cons_of_error {next : IdPool} {error : PoolError} (h : pool.allocate inUse = (.error error, next))
    (calls : List (Int → Bool)) : pool.issued (inUse :: calls) = next.issued calls := by
  rw [issued, results, h]
  rfl

theorem issued_le (pool : IdPool) (calls : List (Int → Bool)) : ∀ id ∈ pool.issued calls, id ≤ pool.cursor := by
  induction calls generalizing pool with
  | nil => nofun
  | cons inUse calls ih =>
    intro id hid
    rcases pool.allocate_cases inUse with ⟨first, hallocate, -, hle, -⟩ | ⟨dry, hallocate, -, hle, -⟩
    · rw [issued_cons_of_ok hallocate] at hid
      rcases List.mem_cons.mp hid with rfl | hlater
      · exact hle
      · have hbelow : id ≤ first - 1 := ih _ id hlater
        omega
    · rw [issued_cons_of_error hallocate] at hid
      exact Int.le_trans (ih dry id hid) hle

theorem pairwise_issued (pool : IdPool) (calls : List (Int → Bool)) : (pool.issued calls).Pairwise (· > ·) := by
  induction calls generalizing pool with
  | nil => exact .nil
  | cons inUse calls ih =>
    rcases pool.allocate_cases inUse with ⟨id, hallocate, -⟩ | ⟨dry, hallocate, -⟩
    · rw [issued_cons_of_ok hallocate]
      refine List.pairwise_cons.mpr ⟨fun later hlater => ?_, ih _⟩
      have hbelow : later ≤ id - 1 := issued_le _ calls later hlater
      omega
    · rw [issued_cons_of_error hallocate]
      exact ih dry

theorem issued_or_inUse_of_passed (pool : IdPool) (calls : List (Int → Bool)) (hnonneg : 0 ≤ id)
    (hpassed : (pool.after calls).cursor < id) (hle : id ≤ pool.cursor) :
    id ∈ pool.issued calls ∨ ∃ inUse ∈ calls, inUse id = true := by
  induction calls generalizing pool with
  | nil => exact absurd hle (Int.not_le.mpr hpassed)
  | cons inUse calls ih =>
    rw [after_cons] at hpassed
    rcases pool.allocate_cases inUse with ⟨first, hallocate, -, -, -, habove⟩ | ⟨dry, -, -, -, hused⟩
    · rw [hallocate] at hpassed
      rw [issued_cons_of_ok hallocate]
      rcases Int.lt_trichotomy id first with hlt | rfl | hgt
      · refine (ih { cursor := first - 1 } hpassed (Int.le_sub_one_of_lt hlt)).imp (List.mem_cons_of_mem first) ?_
        exact fun ⟨later, hmem, hlater⟩ => ⟨later, List.mem_cons_of_mem inUse hmem, hlater⟩
      · exact .inl List.mem_cons_self
      · exact .inr ⟨inUse, List.mem_cons_self, habove id hgt hle⟩
    · exact .inr ⟨inUse, List.mem_cons_self, hused id hnonneg hle⟩

theorem run_of_dry (hdry : pool.cursor < 0) (calls : List (Int → Bool)) :
    pool.results calls = List.replicate calls.length (.error .exhausted) ∧ pool.after calls = pool := by
  induction calls with
  | nil => exact ⟨rfl, rfl⟩
  | cons inUse calls ih =>
    rw [results, after_cons, allocate_of_dry hdry, ih.1]
    exact ⟨rfl, ih.2⟩

theorem cursor_lt_of_exhausted (h : (pool.allocate inUse).1 = .error .exhausted) :
    (pool.allocate inUse).2.cursor < 0 := by
  rcases pool.allocate_cases inUse with ⟨id, hallocate, -⟩ | ⟨dry, hallocate, hneg, -⟩ <;> rw [hallocate] at h ⊢
  · exact absurd h nofun
  · exact hneg

theorem cursor_after_le (pool : IdPool) (calls : List (Int → Bool)) : (pool.after calls).cursor ≤ pool.cursor := by
  induction calls generalizing pool with
  | nil => exact Int.le_refl _
  | cons inUse calls ih =>
    rw [after_cons]
    refine Int.le_trans (ih _) ?_
    rcases pool.allocate_cases inUse with ⟨id, hallocate, -, hle, -⟩ | ⟨dry, hallocate, -, hle, -⟩ <;> rw [hallocate]
    · exact Int.le_trans (Int.sub_le_self id (by decide)) hle
    · exact hle

theorem allocate_natCast (inUse : Int → Bool) (cursor : Nat) :
    IdPool.allocate { cursor } inUse =
      match greatestFree? (fun n => inUse n) cursor with
      | some id => (.ok id, { cursor := id - 1 })
      | none => (.error .exhausted, { cursor := -2 }) :=
  if_neg fun hdry => Int.not_lt.mpr (Int.natCast_nonneg cursor) (of_decide_eq_true hdry)

theorem allocate_of_unused {cursor : Nat} (h : inUse cursor = false) :
    IdPool.allocate { cursor } inUse = (.ok cursor, { cursor := cursor - 1 }) := by
  have hfree : greatestFree? (fun n => inUse n) cursor = some cursor := by
    cases cursor <;> exact if_neg (Bool.eq_false_iff.mp h)
  rw [allocate_natCast, hfree]

theorem allocate_succ_of_inUse {cursor : Nat} (h : inUse (cursor + 1 : Nat) = true) :
    IdPool.allocate { cursor := (cursor + 1 : Nat) } inUse = IdPool.allocate { cursor } inUse := by
  rw [allocate_natCast, allocate_natCast, greatestFree?, if_pos h]

theorem allocate_zero_of_inUse (h : inUse (0 : Nat) = true) :
    IdPool.allocate { cursor := (0 : Nat) } inUse = (.error .exhausted, { cursor := -2 }) := by
  rw [allocate_natCast, greatestFree?, if_pos h]

/-- The search with a cursor of 32 bits. It goes one down before its old value is looked at; `none` stands for a step
that it cannot make. -/
def countDown? (inUse : Int → Bool) (cursor : Int) : Option (Except PoolError Int × IdPool) :=
  if Number.fits (cursor - 1) then
    if cursor < 0 then some (.error .exhausted, { cursor := cursor - 1 })
    else if inUse cursor then countDown? inUse (cursor - 1)
    else some (.ok cursor, { cursor := cursor - 1 })
  else none
termination_by (cursor + 1).toNat

theorem countDown?_of_nonneg (inUse : Int → Bool) {cursor : Int} (hnonneg : 0 ≤ cursor) (hle : cursor ≤ maxLegacyId) :
    countDown? inUse cursor =
      if inUse cursor then countDown? inUse (cursor - 1) else some (.ok cursor, { cursor := cursor - 1 }) := by
  rw [maxLegacyId] at hle
  rw [countDown?, if_pos (Number.fits_iff.mpr (by omega)), if_neg (Int.not_lt.mpr hnonneg)]

theorem countDown?_natCast (inUse : Int → Bool) (cursor : Nat) (hle : cursor ≤ maxLegacyId) :
    countDown? inUse cursor = some (IdPool.allocate { cursor } inUse) := by
  induction cursor with
  | zero =>
    rw [countDown?_of_nonneg inUse (Int.natCast_nonneg _) hle]
    cases hused : inUse (0 : Nat) with
    | false => rw [allocate_of_unused hused, if_neg Bool.false_ne_true]
    | true =>
      -- The last step is from -1, which is no candidate any more.
      rw [allocate_zero_of_inUse hused, if_pos rfl, countDown?, if_pos (by decide), if_pos (by decide)]
      rfl
  | succ cursor ih =>
    rw [countDown?_of_nonneg inUse (Int.natCast_nonneg _) hle]
    cases hused : inUse (cursor + 1 : Nat) with
    | false => rw [allocate_of_unused hused, if_neg Bool.false_ne_true]
    | true =>
      have hpred : ((cursor + 1 : Nat) : Int) - 1 = cursor := by omega
      rw [allocate_succ_of_inUse hused, if_pos rfl, hpred]
      exact ih (by omega)

def checkedAllocate? (pool : IdPool) (inUse : Int → Bool) : Option (Except PoolError Int × IdPool) :=
  if pool.exhausted then some (.error .exhausted, pool) else countDown? inUse pool.cursor

theorem checkedAllocate?_eq (hle : pool.cursor ≤ maxLegacyId) (inUse : Int → Bool) :
    pool.checkedAllocate? inUse = some (pool.allocate inUse) := by
  by_cases hdry : pool.cursor < 0
  · rw [allocate_of_dry hdry]
    exact if_pos (decide_eq_true hdry)
  · have hcursor : (pool.cursor.toNat : Int) = pool.cursor := Int.toNat_of_nonneg (Int.not_lt.mp hdry)
    have hcount := countDown?_natCast inUse pool.cursor.toNat (hcursor ▸ hle)
    rw [hcursor] at hcount
    exact (if_neg fun hexhausted => hdry (of_decide_eq_true hexhausted)).trans hcount

/-- A run of calls from any cursor of 32 bits. Each call gives out the greatest free id, or there is none; its count
down does not leave 32 bits. The ids of a run go down, those that they pass were in use, and a refusal is final. -/
theorem run_countsDown (start : Int32) (calls : List (Int → Bool)) :
    let pool : IdPool := { cursor := start.toInt }
    let reached := pool.after calls
    (∀ inUse, reached.Serves inUse ∧ reached.checkedAllocate? inUse = some (reached.allocate inUse)) ∧
    (pool.issued calls).Pairwise (· > ·) ∧
    (∀ id, 0 ≤ id → reached.cursor < id → id ≤ pool.cursor →
      id ∈ pool.issued calls ∨ ∃ inUse ∈ calls, inUse id = true) ∧
    ∀ inUse, (reached.allocate inUse).1 = .error .exhausted → ∀ later,
      let dry := (reached.allocate inUse).2
      dry.results later = List.replicate later.length (.error .exhausted) ∧ dry.after later = dry := by
  intro pool reached
  have hstart : pool.cursor ≤ maxLegacyId := start.toInt_le
  have hreached : reached.cursor ≤ maxLegacyId := Int.le_trans (pool.cursor_after_le calls) hstart
  refine ⟨fun inUse => ⟨reached.serves inUse, checkedAllocate?_eq hreached inUse⟩, pool.pairwise_issued calls,
    fun id hnonneg hpassed hle => pool.issued_or_inUse_of_passed calls hnonneg hpassed hle,
    fun inUse hexhausted later => run_of_dry (cursor_lt_of_exhausted hexhausted) later⟩

example : IdPool.results { cursor := 4 } [(· == 4), (· % 2 == 0), (· == 0), fun _ => false] =
    [.ok 3, .ok 1, .error .exhausted, .error .exhausted] := rfl

end IdPool

end FrameTable
