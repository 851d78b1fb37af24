import FrameTable.Proofs.Number.Written

namespace FrameTable.Number

variable {text body digits run rest : List Char} {negative : Bool} {radix : Nat}

structure LongestRun (p : Char → Bool) (text run rest : List Char) : Prop where
  append : run ++ rest = text
  run : ∀ c ∈ run, p c
  rest : ∀ c ∈ rest.head?, p c = false

inductive SignedText : List Char → Bool → List Char → Prop
  | minus (body : List Char) : SignedText ('-' :: body) true body
  | plus (body : List Char) : SignedText ('+' :: body) false body
  | bare {body : List Char} (h : ∀ c ∈ body.head?, c ≠ '-' ∧ c ≠ '+') : SignedText body false body

inductive BasedText : List Char → Nat → List Char → Prop
  | hexadecimal {x d : Char} (hx : x = 'x' ∨ x = 'X') (hd : isDigit 16 d) (rest : List Char) :
    BasedText ('0' :: x :: d :: rest) 16 (d :: rest)
  | octal {rest : List Char} (h : ∀ x d tail, rest = x :: d :: tail → ¬((x = 'x' ∨ x = 'X') ∧ isDigit 16 d)) :
    BasedText ('0' :: rest) 8 ('0' :: rest)
  | decimal {body : List Char} (h : body.head? ≠ some '0') : BasedText body 10 body

@[ext]
structure IntegerParts where
  negative : Bool
  radix : Nat
  run : List Char
  rest : List Char

namespace IntegerParts

def Of (p : IntegerParts) (text : List Char) : Prop :=
  ∃ blanks signedText body digits, LongestRun isBlank text blanks signedText ∧
    SignedText signedText p.negative body ∧ BasedText body p.radix digits ∧
    LongestRun (isDigit p.radix) digits p.run p.rest

def result (p : IntegerParts) (text : String) : Int × String :=
  if p.run = [] then (0, text)
  else (clamp64 (signed p.negative (digitsValue p.radix p.run)), String.ofList p.rest)

end IntegerParts

theorem longestRun_iff {p : Char → Bool} :
    LongestRun p text run rest ↔ run = text.takeWhile p ∧ rest = text.dropWhile p := by
  constructor
  · rintro ⟨rfl, hrun, hrest⟩
    rw [List.takeWhile_append_of_pos hrun, List.dropWhile_append_of_pos hrun]
    cases rest with
    | nil => simp
    | cons c rest => simp [hrest c rfl]
  · rintro ⟨rfl, rfl⟩
    refine ⟨List.takeWhile_append_dropWhile, fun c hc => List.mem_takeWhile_imp hc, fun c hc => ?_⟩
    have hnot := List.head?_dropWhile_not p text
    rwa [Option.mem_def.mp hc] at hnot

theorem signedText_iff : SignedText text negative body ↔ splitSign text = (negative, body) := by
  constructor
  · rintro (_ | _ | h)
    · rfl
    · rfl
    · unfold splitSign
      split
      · exact absurd rfl (h '-' rfl).1
      · exact absurd rfl (h '+' rfl).2
      · rfl
  · unfold splitSign
    split <;> rintro ⟨⟩
    · exact .minus _
    · exact .plus _
    · next hminus hplus =>
      refine .bare fun c hc => ?_
      obtain ⟨rest, rfl⟩ := List.head?_eq_some_iff.mp hc
      exact ⟨fun h => hminus rest (h ▸ rfl), fun h => hplus rest (h ▸ rfl)⟩

theorem basedText_iff : BasedText body radix digits ↔ splitRadix body = (radix, digits) := by
  constructor
  · rintro (⟨hx, hd, rest⟩ | h | h)
    · rw [splitRadix, if_pos ⟨hx, hd⟩]
    · unfold splitRadix
      split
      · next heq =>
        obtain ⟨-, rfl⟩ := List.cons.inj heq
        rw [if_neg (h _ _ _ rfl), heq]
      · next heq => rw [heq]
      · next hnone => exact absurd rfl (hnone _)
    · unfold splitRadix
      split
      · exact absurd rfl h
      · exact absurd rfl h
      · rfl
  · unfold splitRadix
    split
    · next x d rest =>
      split
      · next h =>
        rintro ⟨⟩
        exact .hexadecimal h.1 h.2 rest
      · next h =>
        rintro ⟨⟩
        refine .octal fun x' d' tail heq => ?_
        cases heq
        exact h
    · next rest hlong =>
      rintro ⟨⟩
      exact .octal fun x d tail heq => absurd heq (hlong x d tail)
    · next hshort =>
      rintro ⟨⟩
      refine .decimal fun hzero => ?_
      obtain ⟨rest, rfl⟩ := List.head?_eq_some_iff.mp hzero
      exact hshort rest rfl

theorem SignedText.of_sign {sign : List Char} (hsign : Sign negative sign) (h : ∀ c ∈ body.head?, c ≠ '-' ∧ c ≠ '+') :
    SignedText (sign ++ body) negative body := by
  cases hsign with
  | none => exact .bare h
  | plus => exact .plus body
  | minus => exact .minus body

theorem SignedText.suffix (h : SignedText text negative body) : body <:+ text := by
  cases h with
  | minus => exact List.suffix_cons _ _
  | plus => exact List.suffix_cons _ _
  | bare => exact List.suffix_refl _

theorem BasedText.suffix (h : BasedText body radix digits) : digits <:+ body := by
  cases h with
  | hexadecimal hx hd rest => exact (List.suffix_cons _ _).trans (List.suffix_cons _ _)
  | octal => exact List.suffix_refl _
  | decimal => exact List.suffix_refl _

theorem BasedText.pos (h : BasedText body radix digits) : 0 < radix := by
  cases h <;> decide

namespace IntegerParts

variable {p q : IntegerParts}

theorem exists_of (text : List Char) : ∃ p : IntegerParts, p.Of text := by
  let signedText := text.dropWhile isBlank
  let body := (splitSign signedText).2
  let radix := (splitRadix body).1
  let digits := (splitRadix body).2
  exact ⟨⟨(splitSign signedText).1, radix, digits.takeWhile (isDigit radix), digits.dropWhile (isDigit radix)⟩,
    _, signedText, body, digits, longestRun_iff.mpr ⟨rfl, rfl⟩, signedText_iff.mpr rfl, basedText_iff.mpr rfl,
    longestRun_iff.mpr ⟨rfl, rfl⟩⟩

theorem Of.unique (hp : p.Of text) (hq : q.Of text) : q = p := by
  obtain ⟨_, _, _, _, hblanks, hsigned, hbased, hrun⟩ := hp
  obtain ⟨_, _, _, _, hblanks', hsigned', hbased', hrun'⟩ := hq
  rw [longestRun_iff] at hblanks hblanks' hrun hrun'
  obtain ⟨-, rfl⟩ := hblanks
  obtain ⟨-, rfl⟩ := hblanks'
  obtain ⟨hnegative, rfl⟩ := Prod.mk.inj ((signedText_iff.mp hsigned).symm.trans (signedText_iff.mp hsigned'))
  obtain ⟨hradix, rfl⟩ := Prod.mk.inj ((basedText_iff.mp hbased).symm.trans (basedText_iff.mp hbased'))
  rw [hradix] at hrun
  exact IntegerParts.ext hnegative.symm hradix.symm (hrun'.1.trans hrun.1.symm) (hrun'.2.trans hrun.2.symm)

theorem Of.suffix (h : p.Of text) : p.rest <:+ text := by
  obtain ⟨_, _, _, _, hblanks, hsigned, hbased, hrun⟩ := h
  have hrest : p.rest <:+ _ := hrun.append ▸ List.suffix_append _ _
  have hsignedText : _ <:+ text := hblanks.append ▸ List.suffix_append _ _
  exact ((hrest.trans hbased.suffix).trans hsigned.suffix).trans hsignedText

theorem Of.readInteger_eq {text : String} (h : p.Of text.toList) : readInteger text = p.result text := by
  obtain ⟨_, _, _, _, hblanks, hsigned, hbased, hrun⟩ := h
  rw [longestRun_iff] at hblanks hrun
  obtain ⟨-, rfl⟩ := hblanks
  simp only [readInteger, scanInteger, signedText_iff.mp hsigned, basedText_iff.mp hbased, ← hrun.1, ← hrun.2,
    Magnitude.toInt_ofDigits hbased.pos, List.isEmpty_iff, result]
  split
  · simp
  · rfl

end IntegerParts

/-- What is read is the number that the longest run of digits stands for, clamped to 64 bits, and exactly the text
after that run; without a digit it is zero and the whole text. Every number of 64 bits is read from each of its
numerals, and it has one in every base. -/
theorem readInteger_maximal :
    (∀ text : String, ∃ p : IntegerParts, p.Of text.toList ∧ (∀ q : IntegerParts, q.Of text.toList → q = p) ∧
      p.rest <:+ text.toList ∧ readInteger text = p.result text) ∧
    ∀ value : Int, -9223372036854775808 ≤ value → value ≤ 9223372036854775807 →
      (∀ text : String, Numeral text.toList value → readInteger text = (value, "")) ∧
      ∀ (b : Base) (negative : Bool) (sign : List Char), Sign negative sign → signed negative value.natAbs = value →
        readInteger (String.ofList (sign ++ b.write value.natAbs)) = (value, "") := by
  refine ⟨fun text => ?_, fun value hlow hhigh => ?_⟩
  · obtain ⟨p, hp⟩ := IntegerParts.exists_of text.toList
    exact ⟨p, hp, fun q hq => hp.unique hq, hp.suffix, hp.readInteger_eq⟩
  · have hread (text : String) (h : Numeral text.toList value) : readInteger text = (value, "") := by
      rw [readInteger_of_numeral h, clamp64, clamp_eq_self hlow hhigh]
    refine ⟨hread, fun b negative sign hsign hvalue => hread _ ?_⟩
    have hnumeral := b.numeral_write hsign value.natAbs
    rw [String.toList_ofList]
    rwa [hvalue] at hnumeral

end FrameTable.Number
