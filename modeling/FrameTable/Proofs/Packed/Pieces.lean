import Mathlib.Data.List.Basic
import FrameTable.Proofs.Packed.Layout

/-!
Where a text is split. Quotations are found first, each up to the next quote of its kind; the pieces between the
separators outside them are the fields, but for an empty one at the end. In call mode a field can end earlier, but
every field takes something off the text, so that there are no more of them than characters.
-/

namespace FrameTable.Packed

/-- A character outside quotes, or a quotation: a quote and all that follows as far as the next one of its kind, or
to the end if there is none. -/
inductive Segment where
  | bare (c : Char)
  | closed (quote : Char) (body : List Char)
  | unclosed (quote : Char) (body : List Char)
deriving DecidableEq, Repr

namespace Segment

def chars : Segment → List Char
  | bare c => [c]
  | closed quote body => quote :: (body ++ [quote])
  | unclosed quote body => quote :: body

def content : Segment → List Char
  | bare c => if isBlank c then [] else [c]
  | closed _ body => body
  | unclosed _ body => body

def isQuotation : Segment → Bool
  | bare _ => false
  | closed .. => true
  | unclosed .. => true

def isSeparator : Segment → Bool
  | bare c => Packed.isSeparator c
  | _ => false

def isClosed : Segment → Bool
  | unclosed .. => false
  | _ => true

def isOrdinary (call : Bool) : Segment → Bool
  | bare c => !(call && (c = '(' || c = ')'))
  | _ => true

structure IsTaken (call : Bool) (tail : List Char) (s : Segment) : Prop where
  separator : s.isSeparator = false
  ordinary : s.isOrdinary call = true
  tail : tail = [] ∨ s.isClosed = true

end Segment

open Segment (chars content isQuotation)

def segments : List Char → List Segment
  | [] => []
  | c :: rest =>
    if isQuote c then
      match _h : rest.dropWhile (· != c) with
      | [] => [.unclosed c rest]
      | _ :: after => .closed c (rest.takeWhile (· != c)) :: segments after
    else .bare c :: segments rest
termination_by text => text.length
decreasing_by
  · have hle := (List.dropWhile_suffix (l := rest) (· != c)).length_le
    rw [_h] at hle
    exact Nat.lt_succ_of_lt hle
  · exact Nat.lt_succ_self _

def pieces (text : List Char) : List (List Segment) :=
  (segments text).splitOnP Segment.isSeparator

def fieldPieces (text : List Char) : List (List Segment) :=
  if (pieces text).getLast? = some [] then (pieces text).dropLast else pieces text

def pieceToken (piece : List Segment) : Token where
  text := String.ofList (piece.flatMap content)
  quoted := piece.any isQuotation

variable {call opened closed : Bool} {q c : Char} {text body rest tail : List Char} {piece after : List Segment}

theorem segments_nil : segments [] = [] := by
  rw [segments]

theorem segments_bare (hc : isQuote c = false) : segments (c :: rest) = .bare c :: segments rest := by
  rw [segments, if_neg (ne_true_of_eq_false hc)]

theorem dropWhile_of_notMem (h : q ∉ body) : (body ++ rest).dropWhile (· != q) = rest.dropWhile (· != q) :=
  List.dropWhile_append_of_pos fun c hc => by simpa using ne_of_mem_of_not_mem hc h

theorem segments_unclosed (hq : isQuote q = true) (h : q ∉ body) : segments (q :: body) = [.unclosed q body] := by
  have hdrop : body.dropWhile (· != q) = [] := by
    have hall : (body ++ []).dropWhile (· != q) = [] := dropWhile_of_notMem h
    rwa [List.append_nil] at hall
  rw [segments, if_pos hq]
  split
  · rfl
  · next heq => cases hdrop.symm.trans heq

theorem segments_closed (hq : isQuote q = true) (h : q ∉ body) :
    segments (q :: (body ++ q :: rest)) = .closed q body :: segments rest := by
  have hdrop : (body ++ q :: rest).dropWhile (· != q) = q :: rest := by simp [dropWhile_of_notMem h]
  have htake : (body ++ q :: rest).takeWhile (· != q) = body := by
    have hbody : ∀ c ∈ body, (c != q) = true := fun c hc => by simpa using ne_of_mem_of_not_mem hc h
    simp [List.takeWhile_append_of_pos hbody]
  rw [segments, if_pos hq]
  split
  · next heq => cases hdrop.symm.trans heq
  · next heq =>
    cases hdrop.symm.trans heq
    rw [htake]

@[elab_as_elim]
theorem segment_induction {motive : List Char → Prop} (nil : motive [])
    (bare : ∀ c rest, isQuote c = false → motive rest → motive (c :: rest))
    (closed : ∀ q body rest, isQuote q = true → q ∉ body → motive rest → motive (q :: (body ++ q :: rest)))
    (unclosed : ∀ q body, isQuote q = true → q ∉ body → motive (q :: body)) (text : List Char) : motive text := by
  induction hn : text.length using Nat.strongRecOn generalizing text with
  | ind n ih =>
    subst hn
    cases text with
    | nil => exact nil
    | cons c rest =>
      cases hc : isQuote c with
      | false => exact bare c rest hc (ih _ (Nat.lt_succ_self _) rest rfl)
      | true =>
        by_cases hmem : c ∈ rest
        · obtain ⟨body, after, rfl, hfree⟩ := List.eq_append_cons_of_mem hmem
          exact closed c body after hc hfree (ih _ (by simp; omega) after rfl)
        · exact unclosed c rest hc hmem

theorem chars_segments (text : List Char) : (segments text).flatMap chars = text := by
  induction text using segment_induction with
  | nil => rw [segments_nil, List.flatMap_nil]
  | bare c rest hc ih => rw [segments_bare hc, List.flatMap_cons, ih, chars, List.singleton_append]
  | closed q body rest hq hfree ih => simp [segments_closed hq hfree, chars, ih]
  | unclosed q body hq hfree => simp [segments_unclosed hq hfree, chars]

theorem segments_tail {s : Segment} (h : segments text = s :: after) : segments (after.flatMap chars) = after := by
  have hrest : ∃ rest, after = segments rest := by
    cases text using segment_induction with
    | nil => cases segments_nil.symm.trans h
    | bare c rest hc => exact ⟨rest, (List.cons.inj (h.symm.trans (segments_bare hc))).2⟩
    | closed q body rest hq hfree => exact ⟨rest, (List.cons.inj (h.symm.trans (segments_closed hq hfree))).2⟩
    | unclosed q body hq hfree =>
      exact ⟨[], (List.cons.inj (h.symm.trans (segments_unclosed hq hfree))).2.trans segments_nil.symm⟩
  obtain ⟨rest, rfl⟩ := hrest
  rw [chars_segments]

theorem segments_after {s : Segment} (h : segments text = piece ++ s :: after) :
    segments (after.flatMap chars) = after := by
  induction piece generalizing text with
  | nil => exact segments_tail h
  | cons _ _ ih => exact ih (segments_tail h)

theorem pieces_of_separator (hpiece : ∀ s ∈ piece, s.isSeparator = false) (hc : isSeparator c = true)
    (h : segments text = piece ++ .bare c :: after) : pieces text = piece :: pieces (after.flatMap chars) := by
  rw [pieces, pieces, h, segments_after h, List.splitOnP_append_cons_of_forall_mem hpiece (.bare c) hc]

theorem pieces_of_notMem (h : ∀ s ∈ segments text, s.isSeparator = false) : pieces text = [segments text] :=
  List.splitOnP_eq_singleton h

theorem pieces_ne_nil (text : List Char) : pieces text ≠ [] :=
  List.splitOnP_ne_nil _ _

@[elab_as_elim]
theorem piece_induction {motive : List Char → Prop}
    (last : ∀ text, (∀ s ∈ segments text, s.isSeparator = false) → motive text)
    (more : ∀ text piece c after, segments text = piece ++ .bare c :: after → (∀ s ∈ piece, s.isSeparator = false) →
      isSeparator c = true → motive (after.flatMap chars) → motive text) (text : List Char) : motive text := by
  induction hn : text.length using Nat.strongRecOn generalizing text with
  | ind n ih =>
    subst hn
    cases hfind : (segments text).find? Segment.isSeparator with
    | none => exact last text fun s hs => by simpa using List.find?_eq_none.mp hfind s hs
    | some s =>
      obtain ⟨hs, piece, after, hsegments, hpiece⟩ := List.find?_eq_some_iff_append.mp hfind
      cases s with
      | bare c =>
        have htext := chars_segments text
        rw [hsegments, List.flatMap_append, List.flatMap_cons] at htext
        have hlt : (after.flatMap chars).length < text.length := by
          rw [← htext]
          simp only [chars, List.length_append, List.length_singleton]
          omega
        exact more text piece c after hsegments (fun s hs => by simpa using hpiece s hs) hs (ih _ hlt _ rfl)
      | closed q body => cases hs
      | unclosed q body => cases hs

def Scan.afterPiece (piece : List Segment) (s : Scan) : Scan where
  chars := piece.flatMap content ++ s.chars
  quoted := piece.any isQuotation || s.quoted
  cursor := s.cursor

theorem Scan.afterPiece_cons (s : Segment) (piece : List Segment) (t : Scan) :
    t.afterPiece (s :: piece) = (t.afterPiece piece).afterPiece [s] := by
  simp [afterPiece, Bool.or_assoc]

def Scan.prepend (chars : List Char) (s : Scan) : Scan :=
  { s with chars := chars ++ s.chars }

theorem scan_inside (h : q ∉ body) :
    scan call opened closed (some q) (body ++ rest) = (scan call opened closed (some q) rest).prepend body := by
  induction body with
  | nil => rfl
  | cons c body ih =>
    obtain ⟨hc, hbody⟩ := List.ne_and_not_mem_of_not_mem_cons h
    rw [List.cons_append, scan, if_neg (Ne.symm hc), ih hbody]
    rfl

theorem scan_quote_cons (hq : isQuote q = true) :
    scan call opened closed none (q :: rest) = (scan call opened closed (some q) rest).quote := by
  rw [scan, if_neg (ne_true_of_eq_false (isBlank_of_isQuote hq)), if_pos hq]

theorem scan_segment {s : Segment} (h : segments text = s :: after) (hs : s.IsTaken call tail) :
    scan call opened closed none (text ++ tail) =
      (scan call opened closed none (after.flatMap chars ++ tail)).afterPiece [s] := by
  cases text using segment_induction with
  | nil => cases segments_nil.symm.trans h
  | bare c rest hc =>
    obtain ⟨rfl, rfl⟩ := List.cons.inj ((segments_bare hc).symm.trans h)
    rw [chars_segments, List.cons_append]
    by_cases hblank : isBlank c = true
    · simp [scan, hblank, Scan.afterPiece, content, isQuotation]
    · have hseparator : isSeparator c = false := hs.separator
      have hordinary := hs.ordinary
      simp only [Segment.isOrdinary, Bool.not_eq_true', Bool.and_eq_false_iff, Bool.or_eq_false_iff,
        decide_eq_false_iff_not] at hordinary
      rcases hordinary with rfl | ⟨hopen, hclose⟩
      · simp [scan, hblank, hc, hseparator, Scan.afterPiece, content, isQuotation, Scan.push]
      · simp [scan, hblank, hc, hseparator, hopen, hclose, Scan.afterPiece, content, isQuotation, Scan.push]
  | closed q body rest hq hfree =>
    obtain ⟨rfl, rfl⟩ := List.cons.inj ((segments_closed hq hfree).symm.trans h)
    rw [chars_segments, List.cons_append, List.append_assoc, List.cons_append, scan_quote_cons hq, scan_inside hfree,
      scan, if_pos rfl]
    simp [Scan.afterPiece, content, isQuotation, Scan.quote, Scan.prepend]
  | unclosed q body hq hfree =>
    obtain ⟨rfl, rfl⟩ := List.cons.inj ((segments_unclosed hq hfree).symm.trans h)
    obtain rfl : tail = [] := hs.tail.resolve_right Bool.false_ne_true
    have hinside : scan call opened closed (some q) (body ++ []) = _ := scan_inside hfree
    rw [List.append_nil] at hinside
    rw [List.append_nil, scan_quote_cons hq, hinside]
    simp [scan, Scan.afterPiece, content, isQuotation, Scan.quote, Scan.prepend]

theorem scan_taken (h : segments text = piece) (hpiece : ∀ s ∈ piece, s.IsTaken call tail) :
    scan call opened closed none (text ++ tail) = (scan call opened closed none tail).afterPiece piece := by
  induction piece generalizing text with
  | nil =>
    have htext : text = [] := by rw [← chars_segments text, h, List.flatMap_nil]
    simp [htext, Scan.afterPiece]
  | cons s piece ih =>
    obtain ⟨hs, hpiece⟩ := List.forall_mem_cons.mp hpiece
    rw [scan_segment h hs, ih (segments_tail h) hpiece, ← Scan.afterPiece_cons]

theorem scan_separator (h : segments text = piece ++ .bare c :: after) (hc : isSeparator c = true)
    (hpiece : ∀ s ∈ piece, s.IsTaken call tail) : scan call opened closed none (text ++ tail) =
      Scan.afterPiece piece ⟨[], false, ⟨after.flatMap chars ++ tail, opened, closed⟩⟩ := by
  induction piece generalizing text with
  | nil =>
    have htext : text = c :: after.flatMap chars := by
      rw [← chars_segments text, h]
      rfl
    have hblank : isBlank c = false ∧ isQuote c = false := by
      simp only [isSeparator, Bool.or_eq_true, decide_eq_true_eq] at hc
      rcases hc with rfl | rfl <;> decide
    simp [htext, scan, hblank, hc, Scan.afterPiece]
  | cons s piece ih =>
    obtain ⟨hs, hpiece⟩ := List.forall_mem_cons.mp hpiece
    rw [List.cons_append] at h
    rw [scan_segment h hs, ih (segments_tail h) hpiece, ← Scan.afterPiece_cons]

theorem token_afterPiece (cursor : Cursor) : (Scan.afterPiece piece ⟨[], false, cursor⟩).token = pieceToken piece := by
  simp [Scan.afterPiece, Scan.token, pieceToken]

theorem fieldPieces_cons {first : List Segment} {others : List Char} (h : pieces text = first :: pieces others) :
    fieldPieces text = first :: fieldPieces others := by
  rw [fieldPieces, fieldPieces, h, List.getLast?_cons_of_ne_nil (pieces_ne_nil others),
    List.dropLast_cons_of_ne_nil (pieces_ne_nil others)]
  split <;> rfl

namespace Cursor

theorem next?_of_ne_nil (h : text ≠ []) : next? call ⟨text, opened, closed⟩ =
    some ((scan call opened closed none text).token, (scan call opened closed none text).cursor) := by
  have hempty : text.isEmpty = false := by simpa using h
  simp only [next?, hempty, Bool.false_eq_true, if_false]

theorem fields_of_next? {mode : Nat → Bool} {n : Nat} {s t : Cursor} {token : Token}
    (h : s.next? (mode n) = some (token, t)) : s.fields mode n = (token, t) :: t.fields mode (n + 1) := by
  rw [fields]
  split
  · next hnone => cases hnone.symm.trans h
  · next hsome =>
    cases hsome.symm.trans h
    rfl

theorem next?_of_scan {cursor : Cursor} (htext : text ≠ [])
    (h : scan call opened closed none text = Scan.afterPiece piece ⟨[], false, cursor⟩) :
    next? call ⟨text, opened, closed⟩ = some (pieceToken piece, cursor) := by
  rw [next?_of_ne_nil htext, h, token_afterPiece]
  rfl

theorem map_token_fields (text : List Char) (n : Nat) :
    (fields (fun _ => false) n ⟨text, opened, closed⟩).map (·.1) = (fieldPieces text).map pieceToken := by
  -- Outside call mode and with nothing after the text, only separators end a field.
  have htaken : ∀ s : Segment, s.isSeparator = false → s.IsTaken false [] := fun s hs =>
    ⟨hs, by cases s <;> rfl, .inl rfl⟩
  induction text using piece_induction generalizing n with
  | last text hlast =>
    by_cases htext : text = []
    · subst htext
      rw [fields_nil, fieldPieces, pieces, segments_nil]
      rfl
    · have hsegments : segments text ≠ [] := fun h => htext (by rw [← chars_segments text, h, List.flatMap_nil])
      have hscan : scan false opened closed none (text ++ []) = _ := scan_taken rfl fun s hs => htaken s (hlast s hs)
      rw [List.append_nil] at hscan
      have hnext : next? ((fun _ => false) n) _ = _ := next?_of_scan htext hscan
      rw [fields_of_next? hnext, fields_nil, fieldPieces, pieces_of_notMem hlast]
      simp [hsegments]
  | more text piece c after h hpiece hc ih =>
    have htext : text ≠ [] := fun htext => by
      rw [htext, segments_nil] at h
      exact List.append_ne_nil_of_right_ne_nil _ (List.cons_ne_nil _ _) h.symm
    have hscan : scan false opened closed none (text ++ []) = _ :=
      scan_separator h hc fun s hs => htaken s (hpiece s hs)
    rw [List.append_nil, List.append_nil] at hscan
    have hnext : next? ((fun _ => false) n) _ = _ := next?_of_scan htext hscan
    rw [fields_of_next? hnext, fieldPieces_cons (pieces_of_separator hpiece hc h), List.map_cons, List.map_cons, ih]

def advance (call : Nat → Bool) (s : Cursor) : Nat → Cursor
  | 0 => s
  | n + 1 => ((next (call n)).run (s.advance call n)).2

def answer (call : Nat → Bool) (s : Cursor) (n : Nat) : Option Token :=
  ((next (call n)).run (s.advance call n)).1

def position (text : String) (s : Cursor) : String.Pos.Raw where
  byteIdx := text.utf8ByteSize - (String.ofList s.rest).utf8ByteSize

theorem rest_scan_suffix (call opened closed : Bool) (q : Option Char) (text : List Char) :
    (scan call opened closed q text).cursor.rest <:+ text := by
  fun_induction scan call opened closed q text with
  | case1 => exact List.suffix_rfl
  | case6 => exact List.suffix_cons _ _
  | case7 => exact List.suffix_cons _ _
  | case2 | case3 | case4 | case5 | case8 | case9 => exact List.IsSuffix.trans ‹_› (List.suffix_cons _ _)

theorem exists_taken {call : Bool} {s t : Cursor} {token : Token} (h : s.next? call = some (token, t)) :
    ∃ taken ≠ [], s.rest = taken ++ t.rest := by
  have hlt := length_lt_of_next? h
  simp only [next?] at h
  split at h
  · cases h
  · cases h
    obtain ⟨taken, htaken⟩ := rest_scan_suffix call s.opened s.closed none s.rest
    refine ⟨taken, fun hnil => ?_, htaken.symm⟩
    rw [hnil, List.nil_append] at htaken
    exact absurd (congrArg List.length htaken) (Nat.ne_of_lt hlt)

theorem next?_eq_none_iff {call : Bool} {s : Cursor} : s.next? call = none ↔ s.rest = [] := by
  simp [next?]

variable {mode : Nat → Bool} {s t : Cursor} {token : Token} {n : Nat}

theorem advance_of_next? (h : (s.advance mode n).next? (mode n) = some (token, t)) :
    s.answer mode n = some token ∧ s.advance mode (n + 1) = t := by
  rw [answer, advance, run_next h]
  exact ⟨rfl, rfl⟩

theorem advance_of_next?_eq_none (h : (s.advance mode n).next? (mode n) = none) :
    s.answer mode n = none ∧ s.advance mode (n + 1) = s.advance mode n := by
  have hrun : (next (mode n)).run (s.advance mode n) = pure (none, s.advance mode n) := by
    simp only [next, StateT.run, h]
    rfl
  rw [answer, advance, hrun]
  exact ⟨rfl, rfl⟩

theorem answer_eq_none_iff : s.answer mode n = none ↔ (s.advance mode n).next? (mode n) = none := by
  cases hnext : (s.advance mode n).next? (mode n) with
  | none => simp [(advance_of_next?_eq_none hnext).1]
  | some result => simp [(advance_of_next? hnext).1]

theorem fields_of_rest_eq_nil (h : s.rest = []) : s.fields mode n = [] := by
  obtain ⟨rest, opened, closed⟩ := s
  obtain rfl : rest = [] := h
  exact fields_nil mode n

theorem drop_fields (mode : Nat → Bool) (s : Cursor) (n : Nat) :
    (s.fields mode 0).drop n = (s.advance mode n).fields mode n := by
  induction n with
  | zero => rfl
  | succ n ih =>
    rw [← List.tail_drop, ih]
    cases hnext : (s.advance mode n).next? (mode n) with
    | none =>
      have hrest := next?_eq_none_iff.mp hnext
      rw [(advance_of_next?_eq_none hnext).2, fields_of_rest_eq_nil hrest, fields_of_rest_eq_nil hrest, List.tail_nil]
    | some result =>
      rw [(advance_of_next? hnext).2, fields_of_next? hnext, List.tail_cons]

theorem answer_eq (mode : Nat → Bool) (s : Cursor) (n : Nat) :
    s.answer mode n = (s.fields mode 0)[n]?.map (·.1) := by
  rw [← List.head?_drop, drop_fields]
  cases hnext : (s.advance mode n).next? (mode n) with
  | none => rw [(advance_of_next?_eq_none hnext).1, fields_of_rest_eq_nil (next?_eq_none_iff.mp hnext)]; rfl
  | some result => rw [(advance_of_next? hnext).1, fields_of_next? hnext]; rfl

theorem length_fields_le (mode : Nat → Bool) (n : Nat) (s : Cursor) : (s.fields mode n).length ≤ s.rest.length := by
  fun_induction fields mode n s with
  | case1 => exact Nat.zero_le _
  | case2 n s token t h ih => exact Nat.lt_of_le_of_lt ih (length_lt_of_next? h)

theorem exists_taken_advance (mode : Nat → Bool) (s : Cursor) (n : Nat) :
    ∃ taken, s.rest = taken ++ (s.advance mode n).rest := by
  induction n with
  | zero => exact ⟨[], rfl⟩
  | succ n ih =>
    obtain ⟨taken, htaken⟩ := ih
    cases hnext : (s.advance mode n).next? (mode n) with
    | none => exact ⟨taken, (advance_of_next?_eq_none hnext).2 ▸ htaken⟩
    | some result =>
      obtain ⟨more, -, hmore⟩ := exists_taken hnext
      rw [(advance_of_next? hnext).2]
      exact ⟨taken ++ more, by rw [htaken, hmore, List.append_assoc]⟩

variable {text : String} {taken : List Char}

theorem byteIdx_position (h : text.toList = taken ++ s.rest) :
    (s.position text).byteIdx = (String.ofList taken).utf8ByteSize := by
  have hsize : text.utf8ByteSize = (String.ofList taken).utf8ByteSize + (String.ofList s.rest).utf8ByteSize := by
    rw [← String.utf8ByteSize_append, ← String.ofList_append, ← h, String.ofList_toList]
  rw [position, hsize, Nat.add_sub_cancel_right]

theorem isValid_position (h : text.toList = taken ++ s.rest) : (s.position text).IsValid text := by
  refine String.Pos.Raw.isValid_iff_exists_append.mpr ⟨String.ofList taken, String.ofList s.rest, ?_, ?_⟩
  · rw [← String.ofList_append, ← h, String.ofList_toList]
  · exact String.Pos.Raw.ext (byteIdx_position h)

theorem position_lt_of_next? {call : Bool} (h : text.toList = taken ++ s.rest)
    (hnext : s.next? call = some (token, t)) : s.position text < t.position text := by
  obtain ⟨more, hne, hmore⟩ := exists_taken hnext
  have ht : text.toList = (taken ++ more) ++ t.rest := by rw [h, hmore, List.append_assoc]
  rw [String.Pos.Raw.lt_iff, byteIdx_position h, byteIdx_position ht, String.ofList_append, String.utf8ByteSize_append]
  have hpos : (String.ofList more).utf8ByteSize ≠ 0 := fun hzero =>
    hne (String.ofList_eq_empty_iff.mp (String.utf8ByteSize_eq_zero_iff.mp hzero))
  omega

/-- Outside call mode the fields of a text are its pieces. In any modes each call that gives a field moves the cursor
on, to where a character begins; there are at most as many as there are characters, and after them no call gives one. -/
theorem splits_at_separators (text : String) :
    ((start text).fields (fun _ => false) 0).map (·.1) = (fieldPieces text.toList).map pieceToken ∧
      ∀ mode : Nat → Bool,
        let fields := (start text).fields mode 0
        let cursor n := (start text).advance mode n
        fields.length ≤ text.length ∧
        (∀ n, (start text).answer mode n = fields[n]?.map (·.1)) ∧
        (∀ n, ((cursor n).position text).IsValid text) ∧
        (∀ n < fields.length, (cursor n).position text < (cursor (n + 1)).position text) ∧
        ∀ n, fields.length ≤ n → (start text).answer mode n = none ∧ cursor n = cursor fields.length := by
  refine ⟨map_token_fields _ 0, fun mode => ?_⟩
  have hlength := length_fields_le mode 0 (start text)
  rw [show (start text).rest = text.toList from rfl, String.length_toList] at hlength
  have hrest := exists_taken_advance mode (start text)
  have hanswer := answer_eq mode (start text)
  have hdone : ∀ n, ((start text).fields mode 0).length ≤ n → (start text).answer mode n = none := fun n hn => by
    rw [hanswer, List.getElem?_eq_none hn]
    rfl
  refine ⟨hlength, hanswer, fun n => ?_, fun n hn => ?_, fun n hn => ⟨hdone n hn, ?_⟩⟩
  · obtain ⟨taken, htaken⟩ := hrest n
    exact isValid_position htaken
  · obtain ⟨taken, htaken⟩ := hrest n
    cases hnext : ((start text).advance mode n).next? (mode n) with
    | none =>
      rw [← answer_eq_none_iff, hanswer, List.getElem?_eq_getElem hn] at hnext
      cases hnext
    | some result =>
      have hlt := position_lt_of_next? htaken hnext
      rwa [← (advance_of_next? hnext).2] at hlt
  · induction hn with
    | refl => rfl
    | @step n hn ih => exact (advance_of_next?_eq_none (answer_eq_none_iff.mp (hdone n hn))).2.trans ih

example : (fieldPieces "a |'b,c' d,|\"e|".toList).map pieceToken =
    [⟨"a", false⟩, ⟨"b,cd", true⟩, ⟨"", false⟩, ⟨"e|", true⟩] := by cbv

end Cursor

end FrameTable.Packed
