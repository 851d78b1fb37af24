import FrameTable.Number.Decimal
import FrameTable.Proofs.Number.Front

namespace FrameTable.Number.Decimal

variable {text blanks number mantissa exponentText whole fraction rest : List Char} {negative : Bool} {exponent : Int}
  {d : Decimal} {c : Char}

inductive MantissaText : List Char → List Char → List Char → Prop
  | digits {whole : List Char} (hne : whole ≠ []) (hwhole : ∀ c ∈ whole, isDecimalDigit c) : MantissaText whole whole []
  | pointed {whole fraction : List Char} (hne : whole ++ fraction ≠ []) (hwhole : ∀ c ∈ whole, isDecimalDigit c)
      (hfraction : ∀ c ∈ fraction, isDecimalDigit c) : MantissaText (whole ++ '.' :: fraction) whole fraction

inductive ExponentText : List Char → Int → Prop
  | none : ExponentText [] 0
  | marked {mark : Char} {sign digits : List Char} {negative : Bool} (hmark : mark = 'e' ∨ mark = 'E')
      (hsign : Sign negative sign) (hne : digits ≠ []) (hdigits : ∀ c ∈ digits, isDecimalDigit c) :
      ExponentText (mark :: (sign ++ digits)) (signed negative (digitsValue 10 digits))

inductive Written : List Char → Decimal → Prop
  | intro {sign mantissa exponentText whole fraction : List Char} {negative : Bool} {exponent : Int}
      (hsign : Sign negative sign) (hmantissa : MantissaText mantissa whole fraction)
      (hexponent : ExponentText exponentText exponent) :
      Written (sign ++ (mantissa ++ exponentText)) { negative, whole, fraction, exponent }

def DecimalFront (front : List Char) : Prop :=
  ∃ blanks number d, front = blanks ++ number ∧ (∀ c ∈ blanks, isBlank c) ∧ Written number d

theorem isExponentMark_iff : isExponentMark c ↔ c = 'e' ∨ c = 'E' := by
  simp [isExponentMark]

def isMantissaChar (c : Char) : Bool :=
  isDecimalDigit c || c = '.'

theorem isMantissaChar_of_mem {s : List Char} (h : ∀ c ∈ s, isDecimalDigit c) (hc : c ∈ s) : isMantissaChar c := by
  simp [isMantissaChar, h c hc]

theorem isMantissaChar_eq_false :
    ∀ c ∈ ['-', '+', ' ', '\t', '\n', '\x0c', '\r', 'e', 'E'], isMantissaChar c = false := by
  simp only [List.forall_mem_cons, List.not_mem_nil, false_implies, implies_true, and_true]
  decide

theorem not_mem_of_isMantissaChar (h : isMantissaChar c) :
    c ∉ ['-', '+', ' ', '\t', '\n', '\x0c', '\r', 'e', 'E'] := fun hc => by
  rw [isMantissaChar_eq_false c hc] at h
  cases h

theorem MantissaText.forall_mem (h : MantissaText mantissa whole fraction) : ∀ c ∈ mantissa, isMantissaChar c := by
  cases h with
  | digits hne hwhole => exact fun c hc => isMantissaChar_of_mem hwhole hc
  | pointed hne hwhole hfraction =>
    intro c hc
    rcases List.mem_append.mp hc with hc | hc
    · exact isMantissaChar_of_mem hwhole hc
    · rcases List.mem_cons.mp hc with rfl | hc
      · rfl
      · exact isMantissaChar_of_mem hfraction hc

theorem MantissaText.ne_nil (h : MantissaText mantissa whole fraction) : mantissa ≠ [] := by
  cases h with
  | digits hne => exact hne
  | pointed => simp

theorem isMantissaChar_of_mem_head? {s : List Char} (hne : s ≠ []) (h : ∀ c ∈ s, isMantissaChar c)
    (hc : c ∈ (s ++ rest).head?) : isMantissaChar c := by
  obtain ⟨d, s, rfl⟩ := List.exists_cons_of_ne_nil hne
  obtain rfl := Option.some.inj hc
  exact h d List.mem_cons_self

theorem ne_sign_of_isMantissaChar (h : isMantissaChar c) : c ≠ '-' ∧ c ≠ '+' := by
  have hnot := not_mem_of_isMantissaChar h
  simp only [List.mem_cons, not_or] at hnot
  exact ⟨hnot.1, hnot.2.1⟩

theorem isBlank_of_isMantissaChar (h : isMantissaChar c) : isBlank c = false := by
  have hnot := not_mem_of_isMantissaChar h
  simp only [List.mem_cons, not_or] at hnot
  simp [isBlank, hnot]

theorem splitOffSign_of_sign {sign : List Char} (hsign : Sign negative sign)
    (hrest : ∀ c ∈ rest.head?, c ≠ '-' ∧ c ≠ '+') : splitOffSign (sign ++ rest) = (sign, rest) := by
  cases hsign with
  | none =>
    change splitOffSign rest = ([], rest)
    unfold splitOffSign
    split
    · exact absurd rfl (hrest '-' rfl).1
    · exact absurd rfl (hrest '+' rfl).2
    · rfl
  | plus => rfl
  | minus => rfl

theorem sign_splitOffSign (text : List Char) :
    (∃ negative, Sign negative (splitOffSign text).1) ∧ text = (splitOffSign text).1 ++ (splitOffSign text).2 := by
  unfold splitOffSign
  split
  · exact ⟨⟨_, .minus⟩, rfl⟩
  · exact ⟨⟨_, .plus⟩, rfl⟩
  · exact ⟨⟨_, .none⟩, rfl⟩

theorem splitOffMantissa_pointed (hwhole : ∀ c ∈ whole, isDecimalDigit c) (rest : List Char) :
    splitOffMantissa (whole ++ '.' :: rest) =
      if whole = [] ∧ rest.takeWhile isDecimalDigit = [] then ([], whole ++ '.' :: rest)
      else (whole ++ '.' :: rest.takeWhile isDecimalDigit, rest.dropWhile isDecimalDigit) := by
  have hpoint : isDecimalDigit '.' = false := by decide
  simp [splitOffMantissa, List.takeWhile_append_of_pos hwhole, List.dropWhile_append_of_pos hwhole, hpoint]

theorem splitOffMantissa_digits (hwhole : ∀ c ∈ whole, isDecimalDigit c)
    (hrest : ∀ c ∈ rest.head?, isDecimalDigit c = false ∧ c ≠ '.') :
    splitOffMantissa (whole ++ rest) = (whole, rest) := by
  have hrun := longestRun_iff.mp ⟨rfl, hwhole, fun c hc => (hrest c hc).1⟩
  simp only [splitOffMantissa, ← hrun.1, ← hrun.2]
  split
  · exact absurd rfl (hrest '.' rfl).2
  · rfl

theorem exists_digits (text : List Char) : ∃ whole rest, text = whole ++ rest ∧ (∀ c ∈ whole, isDecimalDigit c) ∧
    ((∃ tail, rest = '.' :: tail) ∨ ∀ c ∈ rest.head?, isDecimalDigit c = false ∧ c ≠ '.') := by
  have hrun : LongestRun isDecimalDigit text _ _ := longestRun_iff.mpr ⟨rfl, rfl⟩
  refine ⟨_, _, hrun.append.symm, hrun.run, ?_⟩
  by_cases hpoint : (text.dropWhile isDecimalDigit).head? = some '.'
  · exact .inl (List.head?_eq_some_iff.mp hpoint)
  · exact .inr fun c hc => ⟨hrun.rest c hc, fun h => hpoint (h ▸ hc)⟩

theorem mantissaText_splitOffMantissa (text : List Char) :
    text = (splitOffMantissa text).1 ++ (splitOffMantissa text).2 ∧
      ((splitOffMantissa text).1 ≠ [] → ∃ whole fraction, MantissaText (splitOffMantissa text).1 whole fraction) := by
  obtain ⟨whole, rest, rfl, hwhole, ⟨tail, rfl⟩ | hrest⟩ := exists_digits text
  · rw [splitOffMantissa_pointed hwhole]
    split
    · exact ⟨rfl, fun hne => absurd rfl hne⟩
    · next hne =>
      refine ⟨by simp, fun _ => ⟨whole, _, .pointed ?_ hwhole fun c hc => List.mem_takeWhile_imp hc⟩⟩
      rwa [ne_eq, List.append_eq_nil_iff]
  · rw [splitOffMantissa_digits hwhole hrest]
    exact ⟨rfl, fun hne => ⟨whole, [], .digits hne hwhole⟩⟩

theorem MantissaText.splitOffMantissa_eq (h : MantissaText mantissa whole fraction)
    (hrest : ∀ c ∈ rest.head?, isMantissaChar c = false) : splitOffMantissa (mantissa ++ rest) = (mantissa, rest) := by
  have hrest : ∀ c ∈ rest.head?, isDecimalDigit c = false ∧ c ≠ '.' := fun c hc => by
    simpa [isMantissaChar] using hrest c hc
  cases h with
  | digits hne hwhole => exact splitOffMantissa_digits hwhole hrest
  | pointed hne hwhole hfraction =>
    have hrun := longestRun_iff.mp ⟨rfl, hfraction, fun c hc => (hrest c hc).1⟩
    rw [List.append_assoc, List.cons_append, splitOffMantissa_pointed hwhole, ← hrun.1, ← hrun.2,
      if_neg (by rwa [← List.append_eq_nil_iff])]

theorem MantissaText.length_le (h : MantissaText mantissa whole fraction) (rest : List Char) :
    mantissa.length ≤ (splitOffMantissa (mantissa ++ rest)).1.length := by
  cases h with
  | digits hne hwhole =>
    obtain ⟨more, rest, rfl, hmore, hrest⟩ := exists_digits rest
    have hall : ∀ c ∈ mantissa ++ more, isDecimalDigit c := List.forall_mem_append.mpr ⟨hwhole, hmore⟩
    rw [← List.append_assoc]
    rcases hrest with ⟨tail, rfl⟩ | hrest
    · rw [splitOffMantissa_pointed hall, if_neg (by simp [hne])]
      simp only [List.length_append]
      omega
    · rw [splitOffMantissa_digits hall hrest]
      simp
  | pointed hne hwhole hfraction =>
    rw [List.append_assoc, List.cons_append, splitOffMantissa_pointed hwhole, List.takeWhile_append_of_pos hfraction,
      if_neg (by simp_all)]
    simp only [List.length_append, List.length_cons]
    omega

theorem exponentText_splitOffExponent (text : List Char) :
    text = (splitOffExponent text).1 ++ (splitOffExponent text).2 ∧
      ∃ exponent, ExponentText (splitOffExponent text).1 exponent := by
  cases text with
  | nil => exact ⟨rfl, 0, .none⟩
  | cons mark tail =>
    obtain ⟨⟨negative, hsign⟩, htail⟩ := sign_splitOffSign tail
    simp only [splitOffExponent]
    split
    · next h =>
      simp only [Bool.and_eq_true, Bool.not_eq_true', List.isEmpty_eq_false_iff, isExponentMark_iff] at h
      refine ⟨?_, _, .marked h.1 hsign h.2 fun c hc => List.mem_takeWhile_imp hc⟩
      simpa using htail
    · exact ⟨rfl, 0, .none⟩

theorem ExponentText.length_le (h : ExponentText exponentText exponent) (rest : List Char) :
    exponentText.length ≤ (splitOffExponent (exponentText ++ rest)).1.length := by
  cases h with
  | none => exact Nat.zero_le _
  | @marked mark sign digits negative hmark hsign hne hdigits =>
    have hhead : ∀ c ∈ (digits ++ rest).head?, c ≠ '-' ∧ c ≠ '+' := fun c hc => ne_sign_of_isMantissaChar
      (isMantissaChar_of_mem_head? hne (fun d hd => isMantissaChar_of_mem hdigits hd) hc)
    rw [List.cons_append, List.append_assoc, splitOffExponent]
    simp only [splitOffSign_of_sign hsign hhead]
    simp [isExponentMark_iff.mpr hmark, List.takeWhile_append_of_pos hdigits, hne]

theorem ExponentText.head (h : ExponentText exponentText exponent) (hne : exponentText ≠ []) :
    ∀ c ∈ (exponentText ++ rest).head?, isExponentMark c := by
  cases h with
  | none => exact absurd rfl hne
  | marked hmark =>
    rintro c ⟨⟩
    exact isExponentMark_iff.mpr hmark

theorem isMantissaChar_of_isExponentMark (h : isExponentMark c) : isMantissaChar c = false := by
  rcases isExponentMark_iff.mp h with rfl | rfl <;> decide

theorem MantissaText.add_length_le (hmantissa : MantissaText mantissa whole fraction)
    (hexponent : ExponentText exponentText exponent) (rest : List Char) :
    mantissa.length + exponentText.length ≤ (splitOffMantissa (mantissa ++ (exponentText ++ rest))).1.length +
      (splitOffExponent (splitOffMantissa (mantissa ++ (exponentText ++ rest))).2).1.length := by
  by_cases hne : exponentText = []
  · subst hne
    exact Nat.le_add_right_of_le (hmantissa.length_le rest)
  · -- The mark of the exponent stops the mantissa where it should.
    have hstop : ∀ c ∈ (exponentText ++ rest).head?, isMantissaChar c = false := fun c hc =>
      isMantissaChar_of_isExponentMark (hexponent.head hne c hc)
    rw [hmantissa.splitOffMantissa_eq hstop]
    exact Nat.add_le_add_left (hexponent.length_le rest) _

theorem scan_eq (text : List Char) : scan text =
    let body := splitOffSign (text.dropWhile isBlank)
    let mantissa := splitOffMantissa body.2
    let exponent := splitOffExponent mantissa.2
    if mantissa.1 = [] then none else some (body.1 ++ (mantissa.1 ++ exponent.1), exponent.2) := by
  simp only [scan, List.isEmpty_iff]

theorem Written.length_le (h : Written number d) (hblanks : ∀ c ∈ blanks, isBlank c) (rest : List Char) :
    (blanks ++ (number ++ rest)).takeWhile isBlank = blanks ∧
      ∃ taken left, scan (blanks ++ (number ++ rest)) = some (taken, left) ∧ number.length ≤ taken.length := by
  obtain @⟨sign, mantissa, exponentText, whole, fraction, negative, exponent, hsign, hmantissa, hexponent⟩ := h
  have hhead : ∀ c ∈ (mantissa ++ (exponentText ++ rest)).head?, isMantissaChar c := fun c hc =>
    isMantissaChar_of_mem_head? hmantissa.ne_nil hmantissa.forall_mem hc
  have hstart : ∀ c ∈ (sign ++ (mantissa ++ (exponentText ++ rest))).head?, isBlank c = false := by
    cases hsign with
    | none => exact fun c hc => isBlank_of_isMantissaChar (hhead c hc)
    | plus => rintro c ⟨⟩; decide
    | minus => rintro c ⟨⟩; decide
  have hrun := longestRun_iff.mp ⟨rfl, hblanks, hstart⟩
  have hne : (splitOffMantissa (mantissa ++ (exponentText ++ rest))).1 ≠ [] := by
    have hpos := List.length_pos_iff.mpr hmantissa.ne_nil
    exact List.length_pos_iff.mp (Nat.lt_of_lt_of_le hpos (hmantissa.length_le (exponentText ++ rest)))
  have hscan := scan_eq (blanks ++ (sign ++ (mantissa ++ (exponentText ++ rest))))
  simp only [← hrun.2, splitOffSign_of_sign hsign fun c hc => ne_sign_of_isMantissaChar (hhead c hc),
    if_neg hne] at hscan
  have hlength := hmantissa.add_length_le hexponent rest
  simp only [List.append_assoc]
  refine ⟨hrun.1.symm, _, _, hscan, ?_⟩
  simp only [List.length_append]
  omega

theorem scan_sound (h : scan text = some (number, rest)) :
    text = text.takeWhile isBlank ++ (number ++ rest) ∧ ∃ d, Written number d := by
  rw [scan_eq] at h
  simp only [Option.ite_none_left_eq_some, Option.some.injEq, Prod.mk.injEq] at h
  obtain ⟨hne, rfl, rfl⟩ := h
  obtain ⟨⟨negative, hsign⟩, hbody⟩ := sign_splitOffSign (text.dropWhile isBlank)
  obtain ⟨hmantissa, hwritten⟩ := mantissaText_splitOffMantissa (splitOffSign (text.dropWhile isBlank)).2
  obtain ⟨hexponent, exponent, hexponentText⟩ :=
    exponentText_splitOffExponent (splitOffMantissa (splitOffSign (text.dropWhile isBlank)).2).2
  obtain ⟨whole, fraction, hmantissaText⟩ := hwritten hne
  refine ⟨?_, _, .intro hsign hmantissaText hexponentText⟩
  rw [List.append_assoc, List.append_assoc, ← hexponent, ← hmantissa, ← hbody, List.takeWhile_append_dropWhile]

theorem scan_eq_none (h : scan text = none) {front : List Char} (hfront : front <+: text) : ¬DecimalFront front := by
  rintro ⟨blanks, number, d, rfl, hblanks, hwritten⟩
  obtain ⟨left, rfl⟩ := hfront
  obtain ⟨-, taken, rest, htaken, -⟩ := hwritten.length_le hblanks left
  rw [List.append_assoc, htaken] at h
  cases h

theorem exponent?_of_text (h : ExponentText exponentText exponent) : exponent? exponentText = some exponent := by
  cases h with
  | none => rfl
  | @marked mark sign digits negative hmark hsign hne hdigits =>
    have hhead : ∀ c ∈ digits.head?, c ≠ '-' ∧ c ≠ '+' := fun c hc =>
      ne_sign_of_isMantissaChar (isMantissaChar_of_mem hdigits (List.mem_of_mem_head? hc))
    simp only [exponent?, signedText_iff.mp (.of_sign hsign hhead)]
    simp [hne, List.all_eq_true.mpr hdigits]

theorem MantissaText.parts (h : MantissaText mantissa whole fraction) :
    mantissa.takeWhile (· != '.') = whole ∧ (mantissa.dropWhile (· != '.')).drop 1 = fraction ∧
      whole ++ fraction ≠ [] ∧ ∀ c ∈ whole ++ fraction, isDecimalDigit c := by
  have hpoint {s : List Char} (hs : ∀ c ∈ s, isDecimalDigit c) : ∀ c ∈ s, (c != '.') = true := by
    intro c hc
    have hdigit := (isDecimalDigit_iff.mp (hs c hc)).1
    exact bne_iff_ne.mpr fun h => absurd (h ▸ hdigit) (by decide)
  cases h with
  | digits hne hwhole =>
    have hpoint := hpoint hwhole
    refine ⟨List.takeWhile_eq_self_iff.mpr hpoint, ?_, ?_⟩
    · rw [List.dropWhile_eq_nil_iff.mpr hpoint, List.drop_nil]
    · rw [List.append_nil]
      exact ⟨hne, hwhole⟩
  | pointed hne hwhole hfraction =>
    have hpoint := hpoint hwhole
    refine ⟨?_, ?_, hne, List.forall_mem_append.mpr ⟨hwhole, hfraction⟩⟩
    · rw [List.takeWhile_append_of_pos hpoint, List.takeWhile_cons_of_neg (by decide), List.append_nil]
    · rw [List.dropWhile_append_of_pos hpoint, List.dropWhile_cons_of_neg (by decide), List.drop_succ_cons,
        List.drop_zero]

theorem ofText?_of_written (h : Written number d) : ofText? number = some d := by
  obtain @⟨sign, mantissa, exponentText, whole, fraction, negative, exponent, hsign, hmantissa, hexponent⟩ := h
  obtain ⟨hwhole, hfraction, hne, hdigits⟩ := hmantissa.parts
  have hhead : ∀ c ∈ (mantissa ++ exponentText).head?, c ≠ '-' ∧ c ≠ '+' := fun c hc =>
    ne_sign_of_isMantissaChar (isMantissaChar_of_mem_head? hmantissa.ne_nil hmantissa.forall_mem hc)
  have hrun : LongestRun (fun c => !isExponentMark c) (mantissa ++ exponentText) mantissa exponentText := by
    refine ⟨rfl, fun c hc => ?_, fun c hc => ?_⟩
    · have hchar := hmantissa.forall_mem c hc
      exact Bool.not_eq_true' _ ▸ Bool.eq_false_iff.mpr fun h => by simp [isMantissaChar_of_isExponentMark h] at hchar
    · have hne : exponentText ≠ [] := by rintro rfl; cases hc
      rw [← List.append_nil exponentText] at hc
      simp [hexponent.head hne c hc]
  obtain ⟨hrun, hrest⟩ := longestRun_iff.mp hrun
  simp only [ofText?, signedText_iff.mp (.of_sign hsign hhead), ← hrun, ← hrest, hwhole, hfraction,
    exponent?_of_text hexponent]
  simp [hne, List.all_eq_true.mpr hdigits]

theorem exponentText_of_exponent? (h : exponent? exponentText = some exponent)
    (hmark : ∀ c ∈ exponentText.head?, isExponentMark c) : ExponentText exponentText exponent := by
  cases exponentText with
  | nil =>
    obtain rfl := Option.some.inj h
    exact .none
  | cons mark written =>
    obtain ⟨sign, hsign, hwritten⟩ := sign_splitSign written
    simp only [exponent?, Option.ite_none_right_eq_some, Option.some.injEq, Bool.and_eq_true, Bool.not_eq_true',
      List.isEmpty_eq_false_iff, List.all_eq_true] at h
    obtain ⟨⟨hne, hdigits⟩, rfl⟩ := h
    have htext := ExponentText.marked (isExponentMark_iff.mp (hmark mark rfl)) hsign hne hdigits
    rwa [← hwritten] at htext

theorem mantissaText_of_parts (hne : mantissa.takeWhile (· != '.') ++ (mantissa.dropWhile (· != '.')).drop 1 ≠ [])
    (hdigits : ∀ c ∈ mantissa.takeWhile (· != '.') ++ (mantissa.dropWhile (· != '.')).drop 1, isDecimalDigit c) :
    MantissaText mantissa (mantissa.takeWhile (· != '.')) ((mantissa.dropWhile (· != '.')).drop 1) := by
  obtain ⟨hwhole, hfraction⟩ := List.forall_mem_append.mp hdigits
  have hrun : LongestRun (· != '.') mantissa _ _ := longestRun_iff.mpr ⟨rfl, rfl⟩
  have happend := hrun.append
  have hrest := hrun.rest
  generalize mantissa.takeWhile (· != '.') = whole at *
  generalize mantissa.dropWhile (· != '.') = rest at *
  subst happend
  cases rest with
  | nil => simpa using MantissaText.digits (by simpa using hne) hwhole
  | cons point fraction =>
    obtain rfl : point = '.' := by simpa using hrest point rfl
    exact .pointed hne hwhole hfraction

theorem ofText?_eq_some_iff : ofText? number = some d ↔ Written number d := by
  refine ⟨fun h => ?_, ofText?_of_written⟩
  obtain ⟨sign, hsign, hnumber⟩ := sign_splitSign number
  have hrun : LongestRun (fun c => !isExponentMark c) (splitSign number).2 _ _ := longestRun_iff.mpr ⟨rfl, rfl⟩
  simp only [ofText?, Option.ite_none_left_eq_some, Option.map_eq_some_iff, Bool.or_eq_true, not_or,
    Bool.not_eq_true', List.isEmpty_iff, Bool.not_eq_false, List.all_eq_true] at h
  obtain ⟨⟨hne, hdigits⟩, exponent, hexponent, rfl⟩ := h
  have hexponentText := exponentText_of_exponent? hexponent fun c hc => by simpa using hrun.rest c hc
  have hwritten := Written.intro hsign (mantissaText_of_parts hne hdigits) hexponentText
  rwa [hrun.append, ← hnumber] at hwritten

end FrameTable.Number.Decimal

namespace FrameTable.Number

open Decimal

/-- What is taken from a text is its longest front that is a decimal with blanks before it, and the value is that of
the decimal; a text without such a front is left whole. -/
theorem readDecimal_longest (text : String) :
    (∃ blanks number rest d, text.toList = blanks ++ (number ++ rest) ∧ (∀ c ∈ blanks, isBlank c) ∧
      Written number d ∧ ofText? number = some d ∧ readDecimal text = (d.toFloat, String.ofList rest) ∧
      ∀ front, front <+: text.toList → DecimalFront front → front.length ≤ (blanks ++ number).length) ∨
    (∀ front, front <+: text.toList → ¬DecimalFront front) ∧ readDecimal text = (0, text) := by
  cases hscan : scan text.toList with
  | none => exact .inr ⟨fun front hfront => scan_eq_none hscan hfront, by rw [readDecimal, hscan]⟩
  | some result =>
    obtain ⟨number, rest⟩ := result
    obtain ⟨htext, d, hwritten⟩ := scan_sound hscan
    have hread := ofText?_eq_some_iff.mpr hwritten
    refine .inl ⟨_, number, rest, d, htext, fun c hc => List.mem_takeWhile_imp hc, hwritten, hread, ?_, ?_⟩
    · simp [readDecimal, hscan, hread]
    · rintro front ⟨left, hleft⟩ ⟨blanks, number', d', rfl, hblanks, hwritten'⟩
      obtain ⟨hrun, taken, left', htaken, hle⟩ := hwritten'.length_le hblanks left
      rw [← List.append_assoc, hleft] at htaken hrun
      obtain ⟨rfl, -⟩ := Prod.mk.inj (Option.some.inj (htaken.symm.trans hscan))
      rw [hrun, List.length_append, List.length_append]
      omega

end FrameTable.Number
