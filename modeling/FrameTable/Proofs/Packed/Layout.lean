import FrameTable.Proofs.Packed.Spelling

namespace FrameTable

namespace Packed

variable {call opened closed : Bool} {s : Spelling} {separator : Char}

theorem separate_cons (separator : Char) (first second : List Char) (fields : List (List Char)) :
    separate separator (first :: second :: fields) =
      first ++ separator :: separate separator (second :: fields) := by
  rw [separate, List.intercalate_cons_cons, List.append_assoc]
  rfl

theorem separate_singleton (separator : Char) (field : List Char) : separate separator [field] = field :=
  List.intercalate_singleton

theorem separate_nil (separator : Char) : separate separator [] = [] := rfl

theorem next?_separate (hseparator : isSeparator separator = true) (fields : List (List Char)) :
    Cursor.next? call ⟨separate separator (s.chars :: fields), opened, closed⟩ =
      some (s.token, ⟨separate separator fields, opened, closed⟩) := by
  cases fields with
  | nil =>
    rw [separate_singleton]
    exact s.next?_last
  | cons field fields =>
    rw [separate_cons]
    exact s.next?_separator hseparator

theorem run_next {cursor after : Cursor} {token : Token} (h : cursor.next? call = some (token, after)) :
    (next call).run cursor = pure (some token, after) := by
  simp only [next, StateT.run, h]
  rfl

theorem run_value {cursor after : Cursor} (h : cursor.next? call = some (s.token, after)) :
    (value call).run cursor = pure (s.value?, after) := by
  simp only [value, StateT.run_bind, run_next h, pure_bind]
  cases hdefault : s.token.isDefault <;> simp [Spelling.value?, Option.filter, hdefault]

theorem run_value_separate (fields : List (List Char)) :
    (value call).run ⟨separate '|' (s.chars :: fields), opened, closed⟩ =
      pure (s.value?, ⟨separate '|' fields, opened, closed⟩) :=
  run_value (next?_separate rfl fields)

theorem run_upTo {args : List Spelling} {n : Nat} (h : args.length ≤ n) :
    (upTo n).run ⟨separate '|' (args.map (·.chars)), opened, closed⟩ =
      pure (args.map (·.token), ⟨[], opened, closed⟩) := by
  induction args generalizing n with
  | nil => cases n <;> rfl
  | cons s args ih =>
    obtain ⟨n, rfl⟩ := Nat.exists_eq_succ_of_ne_zero (Nat.ne_of_gt (Nat.lt_of_lt_of_le (Nat.succ_pos _) h))
    have hnext : Cursor.next? false ⟨separate '|' (s.chars :: args.map (·.chars)), opened, closed⟩ =
        some (s.token, ⟨separate '|' (args.map (·.chars)), opened, closed⟩) := next?_separate rfl _
    simp only [upTo, List.map_cons, StateT.run_bind, run_next hnext, pure_bind]
    simp [ih (Nat.le_of_succ_le_succ h)]

theorem arguments_of_closed {cursor : Cursor} (h : cursor.closed = true) : cursor.arguments = ([], cursor) := by
  rw [Cursor.arguments, if_pos h]

theorem arguments_of_next? {cursor after : Cursor} {token : Token} (hopen : cursor.closed = false)
    (h : cursor.next? true = some (token, after)) :
    cursor.arguments = (token :: after.arguments.1, after.arguments.2) := by
  rw [Cursor.arguments, hopen, if_neg Bool.false_ne_true]
  split
  · next hnone => cases hnone.symm.trans h
  · next hsome =>
    cases hsome.symm.trans h
    rfl

theorem arguments_eq {s : Spelling} (args : List Spelling) (rest : List Char) :
    Cursor.arguments ⟨separate ',' ((s :: args).map (·.chars)) ++ ')' :: '|' :: rest, true, false⟩ =
      ((s :: args).map (·.token), ⟨rest, true, true⟩) := by
  induction args generalizing s with
  | nil =>
    rw [List.map_singleton, separate_singleton, arguments_of_next? rfl s.next?_close, arguments_of_closed rfl]
    rfl
  | cons next args ih =>
    rw [List.map_cons, List.map_cons, separate_cons, List.append_assoc, List.cons_append,
      arguments_of_next? rfl (s.next?_separator rfl), ← List.map_cons, ih]
    rfl

theorem callArguments_eq (args : List Spelling) (rest : List Char) :
    Cursor.callArguments ⟨separate ',' (args.map (·.chars)) ++ ')' :: '|' :: rest, true, false⟩ =
      (args.map (·.token), ⟨rest, true, true⟩) := by
  cases args with
  | nil =>
    have hnext : Cursor.next? true ⟨')' :: '|' :: rest, true, false⟩ = some (⟨"", false⟩, ⟨rest, true, true⟩) := by
      simp [Cursor.next?, scan, isBlank, isQuote, isSeparator, Scan.token]
    simp only [Cursor.callArguments, List.map_nil, separate, List.intercalate_nil, List.nil_append,
      arguments_of_next? rfl hnext, arguments_of_closed]
  | cons s args =>
    -- Every argument has something in it, so the list is not taken for the empty one.
    rw [Cursor.callArguments, arguments_eq]
    split
    · next heq =>
      obtain ⟨hargs, -⟩ := Prod.mk.inj heq
      rw [List.map_cons, List.cons.injEq] at hargs
      exact absurd hargs.1 s.token_ne_empty
    · rfl

theorem fields_nil (mode : Nat → Bool) (n : Nat) : Cursor.fields mode n ⟨[], opened, closed⟩ = [] := by
  rw [Cursor.fields]
  rfl

end Packed

open Packed

structure SpelledFrame where
  sprite : Spelling
  frame : Spelling
  fullbright : Spelling
  tics : Spelling
  action : Spelling
  nextframe : Spelling
  particleEvent : Spelling
  misc1 : Spelling
  misc2 : Spelling
  args : List Spelling

namespace SpelledFrame

def leading (w : SpelledFrame) : List (List Char) :=
  [w.sprite, w.frame, w.fullbright, w.tics].map (·.chars)

def following (w : SpelledFrame) : List (List Char) :=
  [w.nextframe, w.particleEvent, w.misc1, w.misc2].map (·.chars)

def trailing (w : SpelledFrame) : String :=
  String.ofList (separate '|' (w.leading ++ w.action.chars :: w.following ++ w.args.map (·.chars)))

def called (w : SpelledFrame) : String :=
  let call := w.action.chars ++ '(' :: separate ',' (w.args.map (·.chars)) ++ [')']
  String.ofList (separate '|' (w.leading ++ call :: w.following))

def meaning (w : SpelledFrame) : PackedFrame where
  sprite := w.sprite.value?
  frame := w.frame.value?
  fullbright := w.fullbright.value?
  tics := w.tics.value?
  action := w.action.value?
  nextframe := w.nextframe.value?
  particleEvent := w.particleEvent.value?
  misc1 := w.misc1.value?
  misc2 := w.misc2.value?
  args := (w.args.map fun s => argument s.token).take maxArguments
  dropped := w.args.length - maxArguments

theorem parse_trailing (w : SpelledFrame) (h : w.args.length ≤ trailingArguments) :
    PackedFrame.parse w.trailing = w.meaning := by
  have htext : w.trailing.toList = separate '|' ([w.sprite, w.frame, w.fullbright, w.tics, w.action,
      w.nextframe, w.particleEvent, w.misc1, w.misc2].map (·.chars) ++ w.args.map (·.chars)) :=
    String.toList_ofList
  simp only [PackedFrame.parse, PackedFrame.read, Cursor.start, htext, List.map_cons, List.map_nil,
    List.cons_append, List.nil_append, StateT.run_bind, run_value_separate, pure_bind]
  simp [run_value_separate, run_upTo h, fields_nil, meaning, Function.comp_def]
  rfl

theorem parse_called (w : SpelledFrame) : PackedFrame.parse w.called = w.meaning := by
  have htext : w.called.toList = separate '|' ([w.sprite, w.frame, w.fullbright, w.tics].map (·.chars) ++
      [w.action.chars ++ '(' :: (separate ',' (w.args.map (·.chars)) ++ ')' :: '|' :: separate '|' w.following)]) := by
    simp [called, leading, following, separate_cons, separate_singleton]
  simp only [PackedFrame.parse, PackedFrame.read, Cursor.start, htext, List.map_cons, List.map_nil,
    List.cons_append, List.nil_append, StateT.run_bind, run_value_separate, pure_bind, separate_singleton,
    run_value w.action.next?_open]
  simp [run_value_separate, callArguments_eq, separate_nil, fields_nil, meaning, Function.comp_def, following]
  rfl

theorem layouts_agree (w : SpelledFrame) (h : w.args.length ≤ trailingArguments) :
    PackedFrame.parse w.trailing = PackedFrame.parse w.called ∧ PackedFrame.parse w.called = w.meaning :=
  ⟨(w.parse_trailing h).trans w.parse_called.symm, w.parse_called⟩

def biting : SpelledFrame where
  sprite := ⟨"SARG".toList, by decide, by decide⟩
  frame := ⟨"'E'".toList, by decide, by decide⟩
  fullbright := ⟨" t".toList, by decide, by decide⟩
  tics := ⟨"8".toList, by decide, by decide⟩
  action := ⟨"A_\"Bite\"".toList, by decide, by decide⟩
  nextframe := ⟨"S_RUN".toList, by decide, by decide⟩
  particleEvent := ⟨"*".toList, by decide, by decide⟩
  misc1 := ⟨"'*'".toList, by decide, by decide⟩
  misc2 := ⟨"frame:S_RUN".toList, by decide, by decide⟩
  args := [⟨"*".toList, by decide, by decide⟩, ⟨"sound:sgtatk ".toList, by decide, by decide⟩,
    ⟨"'(a|b'\")\"".toList, by decide, by decide⟩, ⟨"''".toList, by decide, by decide⟩]

theorem layouts_agree_biting :
    biting.trailing = "SARG|'E'| t|8|A_\"Bite\"|S_RUN|*|'*'|frame:S_RUN|*|sound:sgtatk |'(a|b'\")\"|''" ∧
      biting.called = "SARG|'E'| t|8|A_\"Bite\"(*,sound:sgtatk ,'(a|b'\")\",'')|S_RUN|*|'*'|frame:S_RUN" ∧
      biting.args.length ≤ trailingArguments ∧ biting.meaning.args = ["", "sgtatk", "(a|b)", ""] ∧
      PackedFrame.parse biting.trailing = PackedFrame.parse biting.called ∧
      PackedFrame.parse biting.called = biting.meaning :=
  ⟨by decide +kernel, by decide +kernel, by decide, by decide +kernel, biting.layouts_agree (by decide)⟩

end SpelledFrame

end FrameTable
