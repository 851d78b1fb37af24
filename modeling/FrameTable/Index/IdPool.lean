/-!
Automatic legacy ids. A pool hands out ids from its cursor downward, skipping those in use, so that
automatic ids stay clear of the small numbers that definitions write.
-/

namespace FrameTable

def maxLegacyId : Int :=
  2147483647

structure IdPool where
  cursor : Int := maxLegacyId
deriving DecidableEq, Repr

inductive PoolError where
  | exhausted
deriving DecidableEq, Repr

def PoolError.message : PoolError → String
  | .exhausted => "legacy id pool exhausted"

def greatestFree? (inUse : Nat → Bool) : Nat → Option Nat
  | 0 => if inUse 0 then none else some 0
  | n + 1 => if inUse (n + 1) then greatestFree? inUse n else some (n + 1)

theorem greatestFree?_eq_none_iff {inUse : Nat → Bool} {n : Nat} :
    greatestFree? inUse n = none ↔ ∀ i ≤ n, inUse i = true := by
  induction n with
  | zero => simp [greatestFree?]
  | succ n ih =>
    by_cases h : inUse (n + 1) = true
    · simp only [greatestFree?, h, if_true, ih]
      refine ⟨fun hall i hi => ?_, fun hall i hi => hall i (by omega)⟩
      rcases Nat.lt_or_eq_of_le hi with hlt | rfl
      · exact hall i (by omega)
      · exact h
    · simp only [greatestFree?, h]
      exact ⟨by simp, fun hall => absurd (hall _ (Nat.le_refl _)) h⟩

theorem greatestFree?_eq_some {inUse : Nat → Bool} {n id : Nat} (h : greatestFree? inUse n = some id) :
    id ≤ n ∧ inUse id = false ∧ ∀ i, id < i → i ≤ n → inUse i = true := by
  induction n with
  | zero =>
    simp only [greatestFree?] at h
    split at h
    · cases h
    · next hfree =>
      cases h
      exact ⟨Nat.le_refl _, by simpa using hfree, fun i hlo hhi => by omega⟩
  | succ n ih =>
    simp only [greatestFree?] at h
    split at h
    · next hused =>
      obtain ⟨hle, hfree, hall⟩ := ih h
      refine ⟨Nat.le_succ_of_le hle, hfree, fun i hlo hhi => ?_⟩
      rcases Nat.lt_or_eq_of_le hhi with hlt | rfl
      · exact hall i hlo (Nat.le_of_lt_succ hlt)
      · exact hused
    · next hfree =>
      cases h
      exact ⟨Nat.le_refl _, by simpa using hfree, fun i hlo hhi => by omega⟩

namespace IdPool

def exhausted (pool : IdPool) : Bool :=
  pool.cursor < 0

/-- Hands out the greatest free id from the cursor down. A search that finds none leaves the cursor past
the end; a dry pool stays as it is. -/
def allocate (pool : IdPool) (inUse : Int → Bool) : Except PoolError Int × IdPool :=
  if pool.exhausted then (.error .exhausted, pool)
  else
    match greatestFree? (fun n => inUse n) pool.cursor.toNat with
    | some id => (.ok id, { cursor := id - 1 })
    | none => (.error .exhausted, { cursor := -2 })

end IdPool

end FrameTable
