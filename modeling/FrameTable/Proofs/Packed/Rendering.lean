import FrameTable.Proofs.Packed.Quotation

namespace FrameTable

open Packed

namespace Packed.Spelling

variable {s : Spelling} {text : String}

def WritesArgument (s : Spelling) (text : String) : Prop :=
  Quotes (':' :: text.toList) s.chars ∨ ∃ chars, Quotes text.toList chars ∧ s.chars = ':' :: chars

theorem WritesArgument.token_eq (h : s.WritesArgument text) : s.token = ⟨String.ofList (':' :: text.toList), true⟩ := by
  rcases h with hquotes | ⟨chars, hquotes, hchars⟩
  · rw [token, hquotes.scan, Scan.token]
  · rw [token, hchars, scan, if_neg (by decide), if_neg (by decide), if_neg (by decide), if_neg (by decide),
      if_neg (by decide), hquotes.scan]
    rfl

theorem WritesArgument.argument_eq (h : s.WritesArgument text) : argument s.token = text := by
  have hlabel : Text.dropLabel (String.ofList (':' :: text.toList)) = text := by
    simp [Text.dropLabel, Text.splitLabel?]
  rw [h.token_eq, argument]
  exact hlabel

theorem map_argument {spellings : List Spelling} {texts : List String}
    (h : List.Forall₂ WritesArgument spellings texts) : (spellings.map fun s => argument s.token) = texts := by
  induction h with
  | nil => rfl
  | cons hwrites _ ih => rw [List.map_cons, hwrites.argument_eq, ih]

theorem isField_writeArgument (text : String) : Packed.isField none (writeArgument text) = true :=
  (quotes_quote text).isField

theorem nonblank_writeArgument (text : String) : (writeArgument text).any (!isBlank ·) = true := rfl

def labelled (text : String) : Spelling where
  chars := writeArgument text
  isField := isField_writeArgument text
  nonblank := nonblank_writeArgument text

theorem writesArgument_labelled (text : String) : (labelled text).WritesArgument text :=
  .inr ⟨quote text, quotes_quote text, rfl⟩

theorem chars_ofValue (value : Option String) : (ofValue value).chars = writeValue value := by
  cases value <;> rfl

end Packed.Spelling

structure PackedFrame.Writable (p : PackedFrame) : Prop where
  args_le : p.args.length ≤ maxArguments
  dropped : p.dropped = 0
  extra : p.extra = 0

def PackedFrame.texts (p : PackedFrame) : FrameTexts where
  sprite := p.sprite
  spriteFrame := p.frame
  fullbright := p.fullbright
  tics := p.tics
  action := p.action
  nextframe := p.nextframe
  particleEvent := p.particleEvent
  misc1 := p.misc1
  misc2 := p.misc2

namespace SpelledFrame

structure Renders (w : SpelledFrame) (p : PackedFrame) : Prop where
  texts : { w with args := [] }.Writes p.texts
  args : List.Forall₂ Spelling.WritesArgument w.args p.args

variable {w : SpelledFrame} {p : PackedFrame}

theorem Renders.meaning_eq (h : w.Renders p) (hp : p.Writable) : w.meaning = p := by
  have hdropped : w.args.length - maxArguments = p.dropped := by
    rw [h.args.length_eq, hp.dropped]
    exact Nat.sub_eq_zero_of_le hp.args_le
  calc
    w.meaning = { { w with args := [] }.meaning with
        args := (w.args.map fun s => argument s.token).take maxArguments
        dropped := w.args.length - maxArguments } := rfl
    _ = { p.texts.meaning with args := p.args, dropped := p.dropped, extra := p.extra } := by
      rw [h.texts.meaning_eq, Spelling.map_argument h.args, List.take_of_length_le hp.args_le, hdropped, hp.extra]
      rfl
    _ = p := rfl

def ofFrame (p : PackedFrame) : SpelledFrame :=
  { ofTexts p.texts with args := p.args.map .labelled }

theorem renders_ofFrame (p : PackedFrame) : (ofFrame p).Renders p where
  texts := writes_ofTexts p.texts
  args := List.forall₂_map_left_iff.mpr (List.forall₂_same.mpr fun text _ => Spelling.writesArgument_labelled text)

theorem chars_labelled (texts : List String) :
    (texts.map Spelling.labelled).map (·.chars) = texts.map writeArgument := by
  rw [List.map_map]
  rfl

theorem called_ofFrame (p : PackedFrame) : (ofFrame p).called = p.print := by
  simp only [called, leading, following, ofFrame, ofTexts, PackedFrame.texts, PackedFrame.print, PackedFrame.leading,
    PackedFrame.following, List.map_cons, List.map_nil, Spelling.chars_ofValue, chars_labelled]

theorem trailing_ofFrame (p : PackedFrame) : (ofFrame p).trailing = p.printTrailing := by
  simp only [trailing, leading, following, ofFrame, ofTexts, PackedFrame.texts, PackedFrame.printTrailing,
    PackedFrame.leading, PackedFrame.following, List.map_cons, List.map_nil, Spelling.chars_ofValue, chars_labelled]

end SpelledFrame

namespace PackedFrame

inductive Written (p : PackedFrame) : String → Prop where
  | called {w : SpelledFrame} (hrenders : w.Renders p) : Written p w.called
  | trailing {w : SpelledFrame} (hrenders : w.Renders p) (hargs : p.args.length ≤ trailingArguments) :
    Written p w.trailing

theorem Written.parse_eq {p : PackedFrame} {text : String} (h : p.Written text) (hp : p.Writable) :
    PackedFrame.parse text = p := by
  cases h with
  | called hrenders => rw [SpelledFrame.parse_called, hrenders.meaning_eq hp]
  | trailing hrenders hargs =>
    have hroom : _ ≤ trailingArguments := hrenders.args.length_eq ▸ hargs
    rw [SpelledFrame.parse_trailing _ hroom, hrenders.meaning_eq hp]

theorem written_print (p : PackedFrame) : p.Written p.print :=
  SpelledFrame.called_ofFrame p ▸ .called (SpelledFrame.renders_ofFrame p)

theorem written_printTrailing {p : PackedFrame} (h : p.args.length ≤ trailingArguments) :
    p.Written p.printTrailing :=
  SpelledFrame.trailing_ofFrame p ▸ .trailing (SpelledFrame.renders_ofFrame p) h

/-- Every frame can be written, in the second layout if there is room, and any writing of it reads back as the frame
and writes no other. -/
theorem reads_back {p : PackedFrame} (hp : p.Writable) :
    p.Written p.print ∧
      (p.args.length ≤ trailingArguments → p.Written p.printTrailing) ∧
      ∀ text, p.Written text →
        PackedFrame.parse text = p ∧ ∀ q : PackedFrame, q.Writable → q.Written text → q = p := by
  refine ⟨written_print p, written_printTrailing, fun text hwritten => ⟨hwritten.parse_eq hp, ?_⟩⟩
  intro q hq hsame
  exact (hsame.parse_eq hq).symm.trans (hwritten.parse_eq hp)

def tangled : PackedFrame where
  sprite := some "*"
  frame := some ""
  tics := some "'8' | \"9\""
  action := some "Bite(*, x)"
  particleEvent := some "a:b\t"
  args := ["", "*", ":", "frame:S_RUN", "(\"'|,')"]

theorem reads_back_tangled :
    tangled.Writable ∧
      tangled.print = "\"*\"|\"\"|*|\"'8' | \"'\"'\"9\"'\"'\"\"|\"Bite(*, x)\"" ++
        "(:\"\",:\"*\",:\":\",:\"frame:S_RUN\",:\"(\"'\"'\"'|,')\")|*|\"a:b\t\"|*|*" ∧
      PackedFrame.parse tangled.print = tangled ∧
      tangled.args.length ≤ trailingArguments ∧
      PackedFrame.parse tangled.printTrailing = tangled :=
  have hwritable : tangled.Writable := ⟨by decide, rfl, rfl⟩
  have ⟨hprint, htrailing, hread⟩ := reads_back hwritable
  ⟨hwritable, by decide +kernel, (hread _ hprint).1, by decide, (hread _ (htrailing (by decide))).1⟩

end PackedFrame

end FrameTable
