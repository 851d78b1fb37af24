import FrameTable.Catalog.CodePointer
import FrameTable.Proofs.Packed.Pieces
import FrameTable.Proofs.Packed.Quotation

namespace FrameTable

open Packed

variable {name : String} {position : Nat} {chars inner : List Char} {opened closed : Bool}

namespace Packed

def Segment.isInner (s : Segment) : Bool := s.isClosed && s.isOrdinary true

theorem Segment.isTaken_of_isInner {s : Segment} {tail : List Char} (h : s.isInner = true)
    (hseparator : s.isSeparator = false) : s.IsTaken true tail := by
  obtain ⟨hclosed, hordinary⟩ := Bool.and_eq_true_iff.mp h
  exact ⟨hseparator, hordinary, .inr hclosed⟩

def argumentTokens (inner : List Char) : List Token :=
  match (pieces inner).map pieceToken with
  | [⟨"", false⟩] => []
  | tokens => tokens

theorem dropLabel_eq_argument_iff (token : Token) :
    Text.dropLabel token.text = argument token ↔ token.isDefault = false := by
  cases hdefault : token.isDefault with
  | false => simp [argument, hdefault]
  | true =>
    have htext : token.text = "*" := eq_of_beq (Bool.and_eq_true_iff.mp hdefault).2
    simp [argument, hdefault, htext, Text.dropLabel, Text.splitLabel?]

theorem arguments_inner (h : ∀ s ∈ segments inner, s.isInner = true) :
    Cursor.arguments ⟨inner ++ [')'], true, false⟩ = ((pieces inner).map pieceToken, ⟨[], true, true⟩) := by
  have hne : ∀ text : List Char, text ++ [')'] ≠ [] := fun _ => List.append_ne_nil_of_right_ne_nil _ (by decide)
  induction inner using piece_induction with
  | last text hlast =>
    have hscan : scan true true false none (text ++ [')']) = _ :=
      scan_taken rfl fun s hs => Segment.isTaken_of_isInner (h s hs) (hlast s hs)
    rw [arguments_of_next? rfl (Cursor.next?_of_scan (hne text) hscan), arguments_of_closed rfl,
      pieces_of_notMem hlast]
    rfl
  | more text piece c after hsegments hpiece hc ih =>
    have hrest : ∀ s ∈ segments (after.flatMap Segment.chars), s.isInner = true := by
      rw [segments_after hsegments]
      exact fun s hs => h s (by rw [hsegments]; exact List.mem_append_right _ (List.mem_cons_of_mem _ hs))
    have hscan : scan true true false none (text ++ [')']) = _ := scan_separator hsegments hc fun s hs =>
      Segment.isTaken_of_isInner (h s (by rw [hsegments]; exact List.mem_append_left _ hs)) (hpiece s hs)
    rw [arguments_of_next? rfl (Cursor.next?_of_scan (hne text) hscan), ih hrest,
      pieces_of_separator hpiece hc hsegments]
    rfl

theorem callArguments_inner (h : ∀ s ∈ segments inner, s.isInner = true) :
    Cursor.callArguments ⟨inner ++ [')'], true, false⟩ = (argumentTokens inner, ⟨[], true, true⟩) := by
  rw [Cursor.callArguments, arguments_inner h, argumentTokens]
  split
  · next hblank =>
    obtain ⟨htokens, rfl⟩ := Prod.mk.inj hblank
    rw [htokens]
    rfl
  · next hother =>
    split
    · next htokens => exact absurd (congrArg (·, _) htokens) (hother _)
    · rfl

theorem isField_of_plain (h : chars.all isPlain = true) : isField none chars = true := by
  induction chars with
  | nil => rfl
  | cons c chars ih =>
    obtain ⟨hc, hchars⟩ := Bool.and_eq_true_iff.mp h
    simp only [isPlain, Bool.not_eq_true', Bool.or_eq_false_iff, decide_eq_false_iff_not] at hc
    obtain ⟨⟨⟨⟨-, hquote⟩, hseparator⟩, hopen⟩, hclose⟩ := hc
    simp [isField, hquote, hseparator, hopen, hclose, ih hchars]

def isLetter (c : Char) : Bool := isPlain c && c != '*'

theorem isLetter_of_toUpper {c : Char} (h : c.toUpper.isAlphanum = true) : isLetter c = true := by
  by_contra hc
  simp only [isLetter, isPlain, isBlank, isQuote, isSeparator, Bool.and_eq_true, bne_iff_ne, not_and_or, not_not,
    Bool.not_eq_true', Bool.not_eq_false, Bool.or_eq_true, decide_eq_true_eq] at hc
  rcases hc with (((((rfl | rfl) | rfl | rfl) | rfl | rfl) | rfl) | rfl) | rfl <;> cases h

end Packed

namespace CodePointer

theorem alphanum_mnemonics :
    ∀ letters ∈ mnemonics.map Text.foldCase, letters ≠ [] ∧ letters.all Char.isAlphanum = true := by
  decide +kernel

theorem letters_bare (h : find? name = some position) :
    (bare name).toList ≠ [] ∧ (bare name).toList.all isLetter = true := by
  obtain ⟨hlt, hsame, -⟩ := List.findIdx?_eq_some_iff_getElem.mp h
  obtain ⟨hne, hall⟩ := alphanum_mnemonics _ (List.mem_map_of_mem (List.getElem_mem hlt))
  rw [Text.same_iff.mp hsame, Text.foldCase] at hne hall
  rw [List.all_map] at hall
  refine ⟨fun hnil => hne (by rw [hnil, List.map_nil]), List.all_eq_true.mpr fun c hc => ?_⟩
  exact isLetter_of_toUpper (List.all_eq_true.mp hall c hc)

theorem letters_of_find? (h : find? name = some position) :
    name.toList ≠ [] ∧ name.toList.all isLetter = true := by
  have hbare := letters_bare h
  unfold bare at hbare
  split at hbare
  · next a c rest hname =>
    split at hbare
    · next ha =>
      have hletter : isLetter a = true := by rcases ha with rfl | rfl <;> rfl
      rw [String.toList_ofList] at hbare
      rw [hname, List.all_cons, hletter, List.all_cons]
      exact ⟨List.cons_ne_nil _ _, hbare.2⟩
    · exact hbare
  · exact hbare

theorem isPlain_of_find? (h : find? name = some position) : name.toList.all isPlain = true :=
  List.all_eq_true.mpr fun c hc => (Bool.and_eq_true_iff.mp (List.all_eq_true.mp (letters_of_find? h).2 c hc)).1

theorem nonblank_of_find? (h : find? name = some position) : name.toList.any (!isBlank ·) = true := by
  obtain ⟨c, hc⟩ := List.exists_mem_of_ne_nil _ (letters_of_find? h).1
  have hplain := List.all_eq_true.mp (isPlain_of_find? h) c hc
  simp only [isPlain, Bool.not_eq_true', Bool.or_eq_false_iff] at hplain
  exact List.any_eq_true.mpr ⟨c, hc, by simp [hplain]⟩

def spelling (h : find? name = some position) : Spelling where
  chars := name.toList
  isField := isField_of_plain (isPlain_of_find? h)
  nonblank := nonblank_of_find? h

theorem token_spelling (h : find? name = some position) : (spelling h).token = ⟨name, false⟩ := by
  have hscan : scan false false false none name.toList = _ := scan_plain (isPlain_of_find? h)
  rw [Spelling.token, show (spelling h).chars = name.toList from rfl, hscan, Scan.token, String.ofList_toList]

theorem value?_spelling (h : find? name = some position) : (spelling h).value? = some name := by
  have hname : name ≠ "*" := by
    rintro rfl
    exact absurd (letters_of_find? h).2 (by decide)
  simp [Spelling.value?, token_spelling h, Token.isDefault, hname]

end CodePointer

open CodePointer (spelling token_spelling value?_spelling)

def callText (name : String) (inner : List Char) : String :=
  String.ofList (name.toList ++ '(' :: (inner ++ [')']))

def packedCall (name : String) (inner : List Char) : String :=
  "*|*|*|*|" ++ callText name inner

theorem Packed.Call.parse_callText (hname : CodePointer.find? name = some position)
    (hinner : ∀ s ∈ segments inner, s.isInner = true) :
    Call.parse (callText name inner) = ⟨name, some ((argumentTokens inner).map (·.text))⟩ := by
  have hnext : (Cursor.start (callText name inner)).next? true =
      some (⟨name, false⟩, ⟨inner ++ [')'], true, false⟩) := by
    rw [Cursor.start, callText, String.toList_ofList, ← token_spelling hname]
    exact (spelling hname).next?_open
  simp only [Call.parse, hnext, callArguments_inner hinner, if_true]

theorem PackedFrame.parse_packedCall (hname : CodePointer.find? name = some position)
    (hinner : ∀ s ∈ segments inner, s.isInner = true) : PackedFrame.parse (packedCall name inner) =
      { action := some name
        args := ((argumentTokens inner).map argument).take maxArguments
        dropped := (argumentTokens inner).length - maxArguments } := by
  let star : Spelling := .ofValue none
  -- Four stars and the name are fields like others; the list takes up all the rest.
  have htext : (packedCall name inner).toList = separate '|' (List.replicate 4 star.chars ++
      [(spelling hname).chars ++ '(' :: (inner ++ [')'])]) := by
    simp [packedCall, callText, separate, star, Spelling.ofValue, spelling]
  have hstar : star.value? = none := rfl
  have hend : ∀ call, (value call).run ⟨[], true, true⟩ = pure (none, ⟨[], true, true⟩) := fun _ => rfl
  simp only [PackedFrame.parse, PackedFrame.read, Cursor.start, htext, List.replicate, List.cons_append,
    List.nil_append, StateT.run_bind, run_value_separate, pure_bind, separate_singleton,
    run_value (spelling hname).next?_open]
  simp [callArguments_inner hinner, hend, hstar, fields_nil, value?_spelling hname]
  rfl

end FrameTable
