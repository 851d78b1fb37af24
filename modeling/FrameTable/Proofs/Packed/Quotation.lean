import Mathlib.Data.List.Forall2
import FrameTable.Packed.Call
import FrameTable.Proofs.Packed.Layout

namespace FrameTable

namespace Packed

variable {q : Char} {text chars rest : List Char}

/-- The second text is the first one in quotes: one or more pieces, none with its own quote inside. -/
inductive Quotes : List Char → List Char → Prop where
  | piece {q : Char} {text : List Char} (hquote : isQuote q = true) (hfree : q ∉ text) :
    Quotes text (q :: text ++ [q])
  | append {text text' chars chars' : List Char} (first : Quotes text chars) (second : Quotes text' chars') :
    Quotes (text ++ text') (chars ++ chars')

theorem isField_append {q : Option Char} (h : isField q chars = true) (hrest : isField none rest = true) :
    isField q (chars ++ rest) = true := by
  fun_induction isField q chars with
  | case1 q =>
    obtain rfl := Option.isNone_iff_eq_none.mp h
    exact hrest
  | case2 q c chars ih => simpa [isField] using ih h
  | case3 c chars hquote ih => simpa [isField, hquote] using ih h
  | case4 c chars hquote ih =>
    obtain ⟨hplain, hchars⟩ := Bool.and_eq_true_iff.mp h
    rw [List.cons_append, isField, if_neg hquote, hplain, ih hchars]
    rfl

theorem isField_piece (hfree : q ∉ text) : isField (some q) (text ++ [q]) = true := by
  induction text with
  | nil => simp [isField]
  | cons c text ih =>
    obtain ⟨hc, hfree⟩ := List.ne_and_not_mem_of_not_mem_cons hfree
    rw [List.cons_append, isField, if_neg (Ne.symm hc)]
    exact ih hfree

theorem scan_piece (hfree : q ∉ text) :
    scan false false false (some q) (text ++ [q]) = ⟨text, false, ⟨[], false, false⟩⟩ := by
  induction text with
  | nil => simp [scan]
  | cons c text ih =>
    obtain ⟨hc, hfree⟩ := List.ne_and_not_mem_of_not_mem_cons hfree
    rw [List.cons_append, scan, if_neg (Ne.symm hc), ih hfree]
    rfl

namespace Quotes

theorem isField (h : Quotes text chars) : Packed.isField none chars = true := by
  induction h with
  | piece hquote hfree => simpa [Packed.isField, hquote] using isField_piece hfree
  | append _ _ ih ih' => exact isField_append ih ih'

theorem nonblank (h : Quotes text chars) : chars.any (!isBlank ·) = true := by
  induction h with
  | piece hquote => simp [isBlank_of_isQuote hquote]
  | append _ _ ih => rw [List.any_append, ih, Bool.true_or]

theorem scan (h : Quotes text chars) :
    Packed.scan false false false none chars = ⟨text, true, ⟨[], false, false⟩⟩ := by
  induction h with
  | piece hquote hfree =>
    simp [Packed.scan, isBlank_of_isQuote hquote, hquote, scan_piece hfree, Scan.quote]
  | append first second ih ih' =>
    rw [scan_append first.isField, ih, ih']
    rfl

end Quotes

theorem quotes_quote (text : String) : Quotes text.toList (quote text) := by
  have hpieces : ∀ rest before : List Char, '"' ∉ before →
      Quotes (before ++ rest) ('"' :: (before ++ rest.flatMap quoteChar) ++ ['"']) := by
    intro rest
    induction rest with
    | nil =>
      intro before hbefore
      simpa using Quotes.piece (q := '"') rfl hbefore
    | cons c rest ih =>
      intro before hbefore
      by_cases hc : c = '"'
      · subst hc
        have hdouble := Quotes.piece (q := '"') rfl hbefore
        have hsingle : Quotes ['"'] _ := .piece (q := '\'') rfl (by decide)
        simpa [quoteChar] using hdouble.append (hsingle.append (ih [] List.not_mem_nil))
      · have hnext : '"' ∉ before ++ [c] := by simp [hbefore, Ne.symm hc]
        simpa [quoteChar, hc] using ih (before ++ [c]) hnext
  exact hpieces text.toList [] List.not_mem_nil

def isPlain (c : Char) : Bool := !(isBlank c || isQuote c || isSeparator c || c = '(' || c = ')')

theorem scan_plain {call opened closed : Bool} (h : chars.all isPlain = true) :
    scan call opened closed none chars = ⟨chars, false, ⟨[], opened, closed⟩⟩ := by
  induction chars with
  | nil => rfl
  | cons c chars ih =>
    obtain ⟨hc, hchars⟩ := Bool.and_eq_true_iff.mp h
    simp only [isPlain, Bool.not_eq_true', Bool.or_eq_false_iff, decide_eq_false_iff_not] at hc
    obtain ⟨⟨⟨⟨hblank, hquote⟩, hseparator⟩, hopen⟩, hclose⟩ := hc
    simp [scan, hblank, hquote, hseparator, hopen, hclose, ih hchars, Scan.push]

theorem Call.parse_of_plain {text : String} (h : text.toList.all isPlain = true) : Call.parse text = ⟨text, none⟩ := by
  by_cases hempty : text = ""
  · rw [hempty]
    rfl
  · have hrest : text.toList.isEmpty = false := by simpa using hempty
    simp [Call.parse, Cursor.start, Cursor.next?, hrest, scan_plain h, Scan.token]

namespace Spelling

variable {s : Spelling} {value : Option String} {text : String}

def Writes (s : Spelling) : Option String → Prop
  | none => s.chars = ['*']
  | some text => Quotes text.toList s.chars

theorem token_eq (h : Quotes text.toList s.chars) : s.token = ⟨text, true⟩ := by
  rw [token, h.scan, Scan.token, String.ofList_toList]

theorem Writes.value?_eq (h : s.Writes value) : s.value? = value := by
  cases value with
  | none =>
    have hchars : s.chars = ['*'] := h
    have htoken : s.token = ⟨"*", false⟩ := by rw [token, hchars]; rfl
    rw [value?, htoken]
    rfl
  | some text =>
    rw [value?, token_eq h]
    rfl

def quoted (text : String) : Spelling where
  chars := quote text
  isField := (quotes_quote text).isField
  nonblank := (quotes_quote text).nonblank

def ofValue : Option String → Spelling
  | none => ⟨['*'], rfl, rfl⟩
  | some text => quoted text

theorem writes_ofValue (value : Option String) : (ofValue value).Writes value := by
  cases value with
  | none => rfl
  | some text => exact quotes_quote text

end Spelling

end Packed

open Packed

structure FrameTexts where
  sprite : Option String := none
  spriteFrame : Option String := none
  fullbright : Option String := none
  tics : Option String := none
  action : Option String := none
  nextframe : Option String := none
  particleEvent : Option String := none
  misc1 : Option String := none
  misc2 : Option String := none
  args : List String := []

def FrameTexts.meaning (v : FrameTexts) : PackedFrame where
  sprite := v.sprite
  frame := v.spriteFrame
  fullbright := v.fullbright
  tics := v.tics
  action := v.action
  nextframe := v.nextframe
  particleEvent := v.particleEvent
  misc1 := v.misc1
  misc2 := v.misc2
  args := (v.args.map Text.dropLabel).take maxArguments
  dropped := v.args.length - maxArguments

namespace SpelledFrame

structure Writes (w : SpelledFrame) (v : FrameTexts) : Prop where
  sprite : w.sprite.Writes v.sprite
  frame : w.frame.Writes v.spriteFrame
  fullbright : w.fullbright.Writes v.fullbright
  tics : w.tics.Writes v.tics
  action : w.action.Writes v.action
  nextframe : w.nextframe.Writes v.nextframe
  particleEvent : w.particleEvent.Writes v.particleEvent
  misc1 : w.misc1.Writes v.misc1
  misc2 : w.misc2.Writes v.misc2
  args : List.Forall₂ (fun s text => Quotes text.toList s.chars) w.args v.args

variable {w : SpelledFrame} {v : FrameTexts}

theorem map_argument {spellings : List Spelling} {texts : List String}
    (h : List.Forall₂ (fun s text => Quotes text.toList s.chars) spellings texts) :
    (spellings.map fun s => argument s.token) = texts.map Text.dropLabel := by
  induction h with
  | nil => rfl
  | cons hquotes _ ih =>
    rw [List.map_cons, List.map_cons, ih, Spelling.token_eq hquotes]
    rfl

theorem Writes.meaning_eq (h : w.Writes v) : w.meaning = v.meaning := by
  rw [meaning, FrameTexts.meaning, map_argument h.args, h.args.length_eq, h.sprite.value?_eq, h.frame.value?_eq,
    h.fullbright.value?_eq, h.tics.value?_eq, h.action.value?_eq, h.nextframe.value?_eq, h.particleEvent.value?_eq,
    h.misc1.value?_eq, h.misc2.value?_eq]

theorem Writes.parse_called (h : w.Writes v) : PackedFrame.parse w.called = v.meaning :=
  (SpelledFrame.parse_called w).trans h.meaning_eq

def ofTexts (v : FrameTexts) : SpelledFrame where
  sprite := .ofValue v.sprite
  frame := .ofValue v.spriteFrame
  fullbright := .ofValue v.fullbright
  tics := .ofValue v.tics
  action := .ofValue v.action
  nextframe := .ofValue v.nextframe
  particleEvent := .ofValue v.particleEvent
  misc1 := .ofValue v.misc1
  misc2 := .ofValue v.misc2
  args := v.args.map .quoted

theorem writes_ofTexts (v : FrameTexts) : (ofTexts v).Writes v where
  sprite := Spelling.writes_ofValue _
  frame := Spelling.writes_ofValue _
  fullbright := Spelling.writes_ofValue _
  tics := Spelling.writes_ofValue _
  action := Spelling.writes_ofValue _
  nextframe := Spelling.writes_ofValue _
  particleEvent := Spelling.writes_ofValue _
  misc1 := Spelling.writes_ofValue _
  misc2 := Spelling.writes_ofValue _
  args := List.forall₂_map_left_iff.mpr (List.forall₂_same.mpr fun text _ => quotes_quote text)

end SpelledFrame

end FrameTable
