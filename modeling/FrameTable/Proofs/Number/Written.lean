import Mathlib.Tactic.IntervalCases
import FrameTable.Proofs.Number.Numeral

namespace FrameTable.Number

section Digits

variable {radix n : Nat}

theorem digitValue_digitChar (h : n < 16) : digitValue (Nat.digitChar n) = n := by
  interval_cases n <;> rfl

theorem toDigits_induction {p : Nat → List Char → Prop} (hlow : 1 < radix)
    (hlast : ∀ n < radix, p n [Nat.digitChar n])
    (hmore : ∀ n ≥ radix, p (n / radix) (Nat.toDigits radix (n / radix)) →
      p n (Nat.toDigits radix (n / radix) ++ [Nat.digitChar (n % radix)])) (n : Nat) : p n (Nat.toDigits radix n) := by
  induction n using Nat.strongRecOn with
  | ind n ih =>
    rw [Nat.toDigits_eq_if hlow]
    split
    · next hlt => exact hlast n hlt
    · next hle =>
      have hdiv : n / radix < n := Nat.div_lt_self (by omega) hlow
      exact hmore n (Nat.le_of_not_lt hle) (ih _ hdiv)

theorem digitsValue_toDigits (hlow : 1 < radix) (hhigh : radix ≤ 16) (n : Nat) :
    digitsValue radix (Nat.toDigits radix n) = n := by
  refine toDigits_induction (p := fun n digits => digitsValue radix digits = n) hlow (fun n hlt => ?_)
    (fun n hle ih => ?_) n
  · simp [digitsValue, digitValue_digitChar (Nat.lt_of_lt_of_le hlt hhigh)]
  · have hmod : n % radix < radix := Nat.mod_lt n (by omega)
    rw [digitsValue_append_singleton, ih, digitValue_digitChar (Nat.lt_of_lt_of_le hmod hhigh), Nat.div_add_mod']

theorem isDigit_of_mem_toDigits (hlow : 1 < radix) (hhigh : radix ≤ 16) (n : Nat) :
    ∀ c ∈ Nat.toDigits radix n, isDigit radix c := by
  have hdigit : ∀ n < radix, isDigit radix (Nat.digitChar n) := fun n hlt => by
    rw [isDigit, digitValue_digitChar (Nat.lt_of_lt_of_le hlt hhigh)]
    exact decide_eq_true hlt
  refine toDigits_induction (p := fun _ digits => ∀ c ∈ digits, isDigit radix c) hlow (fun n hlt => ?_)
    (fun n hle ih => ?_) n
  · exact List.forall_mem_singleton.mpr (hdigit n hlt)
  · exact List.forall_mem_append.mpr ⟨ih, List.forall_mem_singleton.mpr (hdigit _ (Nat.mod_lt n (by omega)))⟩

theorem head?_toDigits_ne_zero (hlow : 1 < radix) (hhigh : radix ≤ 16) (n : Nat) :
    0 < n → (Nat.toDigits radix n).head? ≠ some '0' := by
  refine toDigits_induction (p := fun n digits => 0 < n → digits.head? ≠ some '0') hlow (fun n hlt hpos hzero => ?_)
    (fun n hle ih _ => ?_) n
  · have hvalue := digitValue_digitChar (Nat.lt_of_lt_of_le hlt hhigh)
    rw [Option.some.inj hzero] at hvalue
    exact absurd hvalue (Nat.ne_of_lt hpos)
  · rw [List.head?_append, Option.or_of_isSome (List.isSome_head?.mpr Nat.toDigits_ne_nil)]
    exact ih (Nat.div_pos hle (by omega))

end Digits

inductive Base where
  | decimal
  | octal
  | hexadecimal
deriving DecidableEq, Repr

theorem Numeral.of_radix {sign body digits : List Char} {negative : Bool} {radix magnitude : Nat}
    (hsign : Sign negative sign) (hradix : Radix radix body digits) (hne : digits ≠ [])
    (hdigits : ∀ c ∈ digits, isDigit radix c) (hvalue : digitsValue radix digits = magnitude) :
    Numeral (sign ++ body) (signed negative magnitude) := by
  subst hvalue
  have hblanks : ∀ c ∈ ([] : List Char), isBlank c := by simp
  exact .written hblanks hsign hradix hne hdigits

namespace Base

def radix : Base → Nat
  | .decimal => 10
  | .octal => 8
  | .hexadecimal => 16

def mark : Base → List Char
  | .decimal => []
  | .octal => ['0']
  | .hexadecimal => ['0', 'x']

def write (b : Base) (magnitude : Nat) : List Char :=
  b.mark ++ Nat.toDigits b.radix magnitude

theorem one_lt_radix (b : Base) : 1 < b.radix := by
  cases b <;> decide

theorem radix_le (b : Base) : b.radix ≤ 16 := by
  cases b <;> decide

theorem numeral_write (b : Base) {negative : Bool} {sign : List Char} (hsign : Sign negative sign) (magnitude : Nat) :
    Numeral (sign ++ b.write magnitude) (signed negative magnitude) := by
  have hvalue := digitsValue_toDigits b.one_lt_radix b.radix_le magnitude
  have hdigits := isDigit_of_mem_toDigits b.one_lt_radix b.radix_le magnitude
  have hne : Nat.toDigits b.radix magnitude ≠ [] := Nat.toDigits_ne_nil
  cases b with
  | decimal =>
    rcases Nat.eq_zero_or_pos magnitude with rfl | hpos
    · -- A single zero is an octal numeral.
      exact .of_radix hsign (.octal []) (by simp) (List.forall_mem_singleton.mpr (by decide)) rfl
    · have hzero := head?_toDigits_ne_zero (one_lt_radix .decimal) (radix_le .decimal) magnitude hpos
      exact .of_radix hsign (.decimal hzero) hne hdigits hvalue
  | octal =>
    have hdigits : ∀ c ∈ '0' :: Nat.toDigits 8 magnitude, isDigit 8 c :=
      List.forall_mem_cons.mpr ⟨by decide, hdigits⟩
    exact .of_radix hsign (.octal _) (List.cons_ne_nil _ _) hdigits hvalue
  | hexadecimal => exact .of_radix hsign (.hexadecimal (.inl rfl) _) hne hdigits hvalue

end Base

def writtenSign (value : Int) : List Char :=
  if value < 0 then ['-'] else []

theorem sign_writtenSign (value : Int) : Sign (decide (value < 0)) (writtenSign value) := by
  unfold writtenSign
  split
  · next hneg => exact decide_eq_true hneg ▸ .minus
  · next hpos => exact decide_eq_false hpos ▸ .none

theorem signed_natAbs (value : Int) : signed (decide (value < 0)) value.natAbs = value := by
  unfold signed
  split
  · next hneg =>
    have := of_decide_eq_true hneg
    omega
  · next hpos =>
    have := of_decide_eq_false (Bool.eq_false_iff.mpr hpos)
    omega

theorem toList_toString (value : Int) :
    (toString value).toList = writtenSign value ++ Base.decimal.write value.natAbs := by
  have hwrite (n : Nat) : n.repr.toList = Base.decimal.write n := by
    rw [Nat.repr_eq_ofList_toDigits, String.toList_ofList]
    rfl
  rw [Int.toString_eq_repr, Int.repr_eq_if, writtenSign]
  rcases Int.lt_or_le value 0 with hneg | hpos
  · have habs : (-value).toNat = value.natAbs := by omega
    rw [if_neg (Int.not_le.mpr hneg), if_pos hneg, String.toList_append, hwrite, habs]
    rfl
  · have habs : value.toNat = value.natAbs := by omega
    rw [if_pos hpos, if_neg (Int.not_lt.mpr hpos), hwrite, habs]
    rfl

theorem numeral_toString (value : Int) : Numeral (toString value).toList value := by
  have hnumeral := Base.decimal.numeral_write (sign_writtenSign value) value.natAbs
  rwa [signed_natAbs, ← toList_toString] at hnumeral

end FrameTable.Number
