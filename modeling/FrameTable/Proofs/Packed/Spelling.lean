import Mathlib.Data.List.Basic
import FrameTable.Packed.Printer

namespace FrameTable.Packed

def isField : Option Char → List Char → Bool
  | q, [] => q.isNone
  | some q, c :: rest => isField (if c = q then none else some q) rest
  | none, c :: rest =>
    if isQuote c then isField (some c) rest
    else !(isSeparator c || c = '(' || c = ')') && isField none rest

structure Spelling where
  chars : List Char
  isField : Packed.isField none chars = true
  nonblank : chars.any (!isBlank ·) = true

def Scan.before (s t : Scan) : Scan where
  chars := s.chars ++ t.chars
  quoted := s.quoted || t.quoted
  cursor := t.cursor

theorem isBlank_of_isQuote {c : Char} (h : isQuote c = true) : isBlank c = false := by
  simp only [isQuote, Bool.or_eq_true, decide_eq_true_eq] at h
  rcases h with rfl | rfl <;> rfl

theorem scan_append {q : Option Char} {chars : List Char} (h : isField q chars = true)
    (call opened closed : Bool) (rest : List Char) :
    scan call opened closed q (chars ++ rest) =
      (scan false false false q chars).before (scan call opened closed none rest) := by
  fun_induction isField q chars with
  | case1 q =>
    obtain rfl := Option.isNone_iff_eq_none.mp h
    simp [scan, Scan.before]
  | case2 q c chars ih =>
    specialize ih h
    by_cases hc : c = q
    · simpa [scan, hc] using ih
    · simp only [hc, if_false] at ih
      simp [scan, hc, ih, Scan.before, Scan.push]
  | case3 c chars hquote ih =>
    simp [scan, isBlank_of_isQuote hquote, hquote, ih h, Scan.before, Scan.quote]
  | case4 c chars hquote ih =>
    simp only [Bool.and_eq_true, Bool.not_eq_true', Bool.or_eq_false_iff, decide_eq_false_iff_not] at h
    obtain ⟨⟨⟨hseparator, hopen⟩, hclose⟩, hrest⟩ := h
    by_cases hblank : isBlank c = true
    · simp [scan, hblank, ih hrest]
    · simp [scan, hblank, hquote, hseparator, hopen, hclose, ih hrest, Scan.before, Scan.push]

theorem chars_scan_of_not_quoted {chars : List Char} (h : isField none chars = true)
    (hquoted : (scan false false false none chars).quoted = false) :
    (scan false false false none chars).chars = chars.filter (!isBlank ·) := by
  induction chars with
  | nil => rfl
  | cons c chars ih =>
    by_cases hquote : isQuote c = true
    · simp [scan, isBlank_of_isQuote hquote, hquote, Scan.quote] at hquoted
    simp only [isField, hquote, if_neg, Bool.false_eq_true, not_false_eq_true, Bool.and_eq_true,
      Bool.not_eq_true', Bool.or_eq_false_iff] at h
    obtain ⟨⟨⟨hseparator, -⟩, -⟩, hrest⟩ := h
    by_cases hblank : isBlank c = true
    · simp only [scan, hblank, if_true] at hquoted ⊢
      simpa [hblank] using ih hrest hquoted
    · simp only [scan, hblank, hquote, hseparator, Scan.push, Bool.false_eq_true, and_false,
        if_false] at hquoted ⊢
      rw [List.filter_cons_of_pos (by simpa using hblank), ih hrest hquoted]

namespace Spelling

def token (s : Spelling) : Token :=
  (scan false false false none s.chars).token

def value? (s : Spelling) : Option String :=
  if s.token.isDefault then none else some s.token.text

theorem chars_ne_nil (s : Spelling) : s.chars ≠ [] := by
  intro h
  have := s.nonblank
  simp [h] at this

theorem token_ne_empty (s : Spelling) : s.token ≠ ⟨"", false⟩ := by
  intro h
  obtain ⟨htext, hquoted⟩ := Token.mk.inj h
  have hchars : s.chars.filter (!isBlank ·) = [] := by
    rw [← chars_scan_of_not_quoted s.isField hquoted]
    exact String.ofList_eq_empty_iff.mp htext
  obtain ⟨c, hmem, hc⟩ := List.any_eq_true.mp s.nonblank
  exact List.filter_eq_nil_iff.mp hchars c hmem hc

variable (s : Spelling) {call opened closed : Bool} {rest : List Char}

theorem next?_eq (after : Scan) (hafter : scan call opened closed none rest = after)
    (hnil : after.chars = []) (hplain : after.quoted = false) :
    Cursor.next? call ⟨s.chars ++ rest, opened, closed⟩ = some (s.token, after.cursor) := by
  have hne : (s.chars ++ rest).isEmpty = false := by simp [s.chars_ne_nil]
  simp only [Cursor.next?, hne, Bool.false_eq_true, if_false, scan_append s.isField, hafter,
    Scan.before, Scan.token, hnil, hplain, List.append_nil, Bool.or_false, token]

theorem next?_separator {c : Char} (hc : isSeparator c = true) :
    Cursor.next? call ⟨s.chars ++ c :: rest, opened, closed⟩ = some (s.token, ⟨rest, opened, closed⟩) := by
  refine s.next?_eq ⟨[], false, ⟨rest, opened, closed⟩⟩ ?_ rfl rfl
  simp only [isSeparator, Bool.or_eq_true, decide_eq_true_eq] at hc
  rcases hc with rfl | rfl <;> simp [scan, isBlank, isQuote, isSeparator]

theorem next?_last : Cursor.next? call ⟨s.chars, opened, closed⟩ = some (s.token, ⟨[], opened, closed⟩) := by
  have hend : scan call opened closed none [] = ⟨[], false, ⟨[], opened, closed⟩⟩ := rfl
  simpa using s.next?_eq _ hend rfl rfl

theorem next?_open :
    Cursor.next? true ⟨s.chars ++ '(' :: rest, opened, closed⟩ = some (s.token, ⟨rest, true, closed⟩) := by
  refine s.next?_eq ⟨[], false, ⟨rest, true, closed⟩⟩ ?_ rfl rfl
  simp [scan, isBlank, isQuote, isSeparator]

theorem next?_close :
    Cursor.next? true ⟨s.chars ++ ')' :: '|' :: rest, true, closed⟩ = some (s.token, ⟨rest, true, true⟩) := by
  refine s.next?_eq ⟨[], false, ⟨rest, true, true⟩⟩ ?_ rfl rfl
  simp [scan, isBlank, isQuote, isSeparator]

end Spelling

end FrameTable.Packed
