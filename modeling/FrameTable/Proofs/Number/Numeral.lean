import Mathlib.Data.List.TakeWhile
import FrameTable.Proofs.Number.Magnitude

namespace FrameTable.Number

inductive Sign : Bool → List Char → Prop
  | none : Sign false []
  | plus : Sign false ['+']
  | minus : Sign true ['-']

inductive Radix : Nat → List Char → List Char → Prop
  | decimal {digits : List Char} (h : digits.head? ≠ some '0') : Radix 10 digits digits
  | octal (digits : List Char) : Radix 8 ('0' :: digits) ('0' :: digits)
  | hexadecimal {x : Char} (h : x = 'x' ∨ x = 'X') (digits : List Char) : Radix 16 ('0' :: x :: digits) digits

inductive Numeral : List Char → Int → Prop
  | empty : Numeral [] 0
  | written {blanks sign body digits : List Char} {negative : Bool} {radix : Nat} (hblanks : ∀ c ∈ blanks, isBlank c)
      (hsign : Sign negative sign) (hradix : Radix radix body digits) (hne : digits ≠ [])
      (hdigits : ∀ c ∈ digits, isDigit radix c) :
      Numeral (blanks ++ (sign ++ body)) (signed negative (digitsValue radix digits))

variable {text body digits : List Char} {radix : Nat} {c : Char} {value : Int}

theorem isDigit_mono (h : isDigit radix c) (hradix : radix ≤ 16) : isDigit 16 c :=
  decide_eq_true (Nat.lt_of_lt_of_le (of_decide_eq_true h) hradix)

theorem isBlank_of_isDigit (h : isDigit 16 c) : isBlank c = false := by
  refine Bool.eq_false_iff.mpr fun hblank => ?_
  simp only [isBlank, Bool.or_eq_true, decide_eq_true_eq] at hblank
  rcases hblank with (((rfl | rfl) | rfl) | rfl) | rfl <;> revert h <;> decide

theorem Radix.pos (h : Radix radix body digits) : 0 < radix := by
  cases h <;> decide

theorem splitRadix_of_radix (h : Radix radix body digits) (hne : digits ≠ [])
    (hdigits : ∀ c ∈ digits, isDigit radix c) : splitRadix body = (radix, digits) := by
  cases h with
  | decimal hzero =>
    unfold splitRadix
    split
    · exact absurd rfl hzero
    · exact absurd rfl hzero
    · rfl
  | octal digits =>
    match digits with
    | [] => rfl
    | [_] => rfl
    | x :: d :: rest =>
      -- An octal digit is never the `x` of a hexadecimal numeral.
      have hx : ¬(x = 'x' ∨ x = 'X') := by
        rintro (rfl | rfl)
        · exact absurd (hdigits 'x' (by simp)) (by decide)
        · exact absurd (hdigits 'X' (by simp)) (by decide)
      rw [splitRadix, if_neg fun h => hx h.1]
  | @hexadecimal x hx digits =>
    match digits with
    | [] => exact absurd rfl hne
    | d :: rest => rw [splitRadix, if_pos ⟨hx, hdigits d List.mem_cons_self⟩]

theorem radix_splitRadix (body : List Char) : Radix (splitRadix body).1 body (splitRadix body).2 := by
  unfold splitRadix
  split
  · next x d rest =>
    split
    · next h => exact .hexadecimal h.1 _
    · exact .octal _
  · exact .octal _
  · next hlong hshort =>
    refine .decimal fun hzero => ?_
    obtain ⟨rest, rfl⟩ := List.head?_eq_some_iff.mp hzero
    exact hshort rest rfl

theorem Radix.exists_digit (h : Radix radix body digits) (hne : digits ≠ []) (hdigits : ∀ c ∈ digits, isDigit radix c) :
    ∃ c rest, body = c :: rest ∧ isDigit 16 c := by
  cases h with
  | decimal =>
    obtain ⟨c, rest, rfl⟩ := List.exists_cons_of_ne_nil hne
    exact ⟨c, rest, rfl, isDigit_mono (hdigits c List.mem_cons_self) (by decide)⟩
  | octal rest => exact ⟨'0', rest, rfl, by decide⟩
  | hexadecimal => exact ⟨'0', _, rfl, by decide⟩

theorem splitSign_of_sign {negative : Bool} {sign : List Char} (h : Sign negative sign) (hc : isDigit 16 c)
    (rest : List Char) : splitSign (sign ++ c :: rest) = (negative, c :: rest) := by
  cases h with
  | none =>
    unfold splitSign
    split
    · next heq =>
      obtain ⟨rfl, -⟩ := List.cons.inj heq
      exact absurd hc (by decide)
    · next heq =>
      obtain ⟨rfl, -⟩ := List.cons.inj heq
      exact absurd hc (by decide)
    · rfl
  | plus => rfl
  | minus => rfl

theorem sign_splitSign (text : List Char) :
    ∃ sign, Sign (splitSign text).1 sign ∧ text = sign ++ (splitSign text).2 := by
  unfold splitSign
  split
  · exact ⟨['-'], .minus, rfl⟩
  · exact ⟨['+'], .plus, rfl⟩
  · exact ⟨[], .none, rfl⟩

theorem dropWhile_isBlank {blanks sign : List Char} {negative : Bool} (hblanks : ∀ c ∈ blanks, isBlank c)
    (hsign : Sign negative sign) (hc : isDigit 16 c) (rest : List Char) :
    (blanks ++ (sign ++ c :: rest)).dropWhile isBlank = sign ++ c :: rest := by
  have hnot : (sign ++ c :: rest).dropWhile isBlank = sign ++ c :: rest := by
    cases hsign with
    | none => exact List.dropWhile_cons_of_neg (by rw [isBlank_of_isDigit hc]; decide)
    | plus => rfl
    | minus => rfl
  rw [List.dropWhile_append_of_pos hblanks, hnot]

theorem scanInteger_of_numeral (h : Numeral text value) : scanInteger text = (clamp64 value, []) := by
  cases h with
  | empty => rfl
  | @written blanks sign body digits negative radix hblanks hsign hradix hne hdigits =>
    obtain ⟨c, rest, rfl, hc⟩ := hradix.exists_digit hne hdigits
    have hrun : digits.takeWhile (isDigit radix) = digits := List.takeWhile_eq_self_iff.mpr hdigits
    have hnone : digits.dropWhile (isDigit radix) = [] := List.dropWhile_eq_nil_iff.mpr hdigits
    simp only [scanInteger, dropWhile_isBlank hblanks hsign hc, splitSign_of_sign hsign hc,
      splitRadix_of_radix hradix hne hdigits, hrun, hnone, List.isEmpty_iff, if_neg hne,
      Magnitude.toInt_ofDigits hradix.pos]

theorem readInteger_of_numeral {text : String} (h : Numeral text.toList value) :
    readInteger text = (clamp64 value, "") := by
  simp only [readInteger, scanInteger_of_numeral h, String.ofList_nil]

theorem exists_numeral_of_scanInteger (h : scanInteger text = (value, [])) :
    ∃ v, Numeral text v ∧ value = clamp64 v := by
  obtain ⟨sign, hsign, hbody⟩ := sign_splitSign (text.dropWhile isBlank)
  cases hsplit : splitSign (text.dropWhile isBlank) with
  | mk negative body =>
    have hradix := radix_splitRadix body
    simp only [scanInteger, hsplit] at h
    simp only [hsplit] at hsign hbody
    cases hsplit : splitRadix body with
    | mk radix digits =>
      simp only [hsplit] at h hradix
      split at h
      · obtain ⟨rfl, rfl⟩ := Prod.mk.inj h
        exact ⟨0, .empty, rfl⟩
      · next hrun =>
        obtain ⟨hvalue, hnone⟩ := Prod.mk.inj h
        have hdigits := List.dropWhile_eq_nil_iff.mp hnone
        rw [List.takeWhile_eq_self_iff.mpr hdigits] at hrun hvalue
        rw [Magnitude.toInt_ofDigits hradix.pos] at hvalue
        have htext : text = text.takeWhile isBlank ++ (sign ++ body) := by
          rw [← hbody, List.takeWhile_append_dropWhile]
        refine ⟨_, ?_, hvalue.symm⟩
        rw [htext]
        exact .written (fun c hc => List.mem_takeWhile_imp hc) hsign hradix (mt List.isEmpty_iff.mpr hrun) hdigits

theorem wholeInteger?_eq_some_iff {text : String} :
    wholeInteger? text = some value ↔ ∃ v, Numeral text.toList v ∧ value = clamp64 v := by
  constructor
  · intro h
    cases hscan : scanInteger text.toList with
    | mk scanned rest =>
      simp only [wholeInteger?, hscan, Option.ite_none_right_eq_some, Option.some.injEq, List.isEmpty_iff] at h
      obtain ⟨rfl, rfl⟩ := h
      exact exists_numeral_of_scanInteger hscan
  · rintro ⟨v, hnumeral, rfl⟩
    rw [wholeInteger?, scanInteger_of_numeral hnumeral]
    rfl

theorem numeral_of_wholeInteger? {text : String} (h : wholeInteger? text = some value)
    (hlow : -9223372036854775808 < value) (hhigh : value < 9223372036854775807) : Numeral text.toList value := by
  obtain ⟨v, hnumeral, hvalue⟩ := wholeInteger?_eq_some_iff.mp h
  obtain rfl : value = v := by
    simp only [clamp64, clamp] at hvalue
    omega
  exact hnumeral

end FrameTable.Number
