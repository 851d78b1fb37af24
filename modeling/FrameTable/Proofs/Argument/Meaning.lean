import Mathlib.Data.Option.Basic
import FrameTable.Proofs.Argument.Accessor

namespace FrameTable

theorem ofHandle?_handle (slot : Nat) : ofHandle? (handle slot) = if Number.fits slot then some slot else none := by
  rw [handle]
  split
  · rw [ofHandle?, if_neg (Int.not_lt.mpr (Int.natCast_nonneg slot)), Int.toNat_natCast]
  · rfl

def Lookup.reach? (l : Lookup) (text : String) : Option Nat :=
  (l.find? text).filter fun slot => Number.fits slot

theorem Lookup.ofHandle?_handleOf (l : Lookup) (text : String) :
    ofHandle? (handleOf (l.find? text)) = l.reach? text := by
  rw [reach?]
  cases l.find? text with
  | none => rfl
  | some slot => exact ofHandle?_handle slot

theorem Lookup.reach?_of_not_found {l : Lookup} {text : String} (h : l.find? text = none) : l.reach? text = none := by
  rw [reach?, h]
  rfl

theorem Lookup.handle_getD (l : Lookup) (text : String) (fallback : Nat) :
    handle ((l.find? text).getD fallback) =
      if l.find? text = none ∧ Number.fits fallback then (fallback : Int) else handleOf (l.find? text) := by
  cases l.find? text with
  | none => simp [handle, handleOf]
  | some slot => simp [handleOf]

theorem Lookup.ofHandle?_handle_getD (l : Lookup) (text : String) (fallback : Nat) :
    ofHandle? (handle ((l.find? text).getD fallback)) =
      if l.find? text = none ∧ Number.fits fallback then some fallback else l.reach? text := by
  cases hfind : l.find? text with
  | none => simp [ofHandle?_handle, reach?, hfind]
  | some slot => simp [ofHandle?_handle, reach?, hfind, Option.filter]

theorem Lookup.getD_ofHandle?_getD (l : Lookup) (text : String) (fallback : Nat) :
    (ofHandle? (handle ((l.find? text).getD fallback))).getD fallback = (l.reach? text).getD fallback := by
  rw [ofHandle?_handle_getD]
  split
  case isTrue h => rw [reach?_of_not_found h.1]; rfl
  case isFalse => rfl

theorem Lookup.eq_handleOf_iff (l : Lookup) (text : String) {n : Int} (hn : n < 0) :
    n = handleOf (l.find? text) ↔ n = -1 ∧ l.reach? text = none := by
  rw [reach?]
  cases l.find? text with
  | none => simp [handleOf]
  | some slot =>
    by_cases hfits : Number.fits slot = true
    · simp [handleOf, handle, hfits, Option.filter]
      omega
    · simp [handleOf, handle, hfits, Option.filter]

def Operand.isNonpositive : Operand → Bool
  | .name _ => false
  | .number value => value ≤ 0

def Operand.offset? : Operand → Option Int
  | .name _ => none
  | .number value => if 0 ≤ value then none else some value

theorem Operand.offset?_neg {o : Operand} {n : Int} (h : o.offset? = some n) : n < 0 := by
  cases o with
  | name => cases h
  | number value =>
    simp only [offset?] at h
    split at h
    · cases h
    · cases h
      omega

inductive HandleReader where
  | thing
  | positiveThing
  | frame
  | knownFrame
  | frameOrOffset
deriving DecidableEq, Repr

namespace HandleReader

def accessor : HandleReader → Accessor
  | .thing => .thing
  | .positiveThing => .positiveThing
  | .frame => .frame
  | .knownFrame => .knownFrame
  | .frameOrOffset => .frameOrOffset

variable (r : Resolver) (text : String)

/-- What the reader is documented to answer for the text. -/
def meaning : (k : HandleReader) → k.accessor.Value
  | .thing => (r.things.reach? text).getD r.unknownThing
  | .positiveThing => (if (Operand.ofText text).isNonpositive then none else r.things.reach? text : Option Nat)
  | .frame => (r.frames.reach? text).getD r.nullFrame
  | .knownFrame => r.frames.reach? text
  | .frameOrOffset => (Operand.ofText text).offset?.getD (handleOf (r.frames.find? text))

def stored : HandleReader → Int
  | .thing => handle ((r.things.find? text).getD r.unknownThing)
  | .positiveThing => if (Operand.ofText text).isNonpositive then -1 else handleOf (r.things.find? text)
  | .frame => handle ((r.frames.find? text).getD r.nullFrame)
  | .knownFrame => handleOf (r.frames.find? text)
  | .frameOrOffset => (Operand.ofText text).offset?.getD (handleOf (r.frames.find? text))

def answer (h : Int) : (k : HandleReader) → k.accessor.Value
  | .thing => (ofHandle? h).getD r.unknownThing
  | .positiveThing => ofHandle? h
  | .frame => (ofHandle? h).getD r.nullFrame
  | .knownFrame => ofHandle? h
  | .frameOrOffset => h

def evaluation (h : Int) : HandleReader → Evaluation
  | .thing => .thing h
  | .positiveThing => .thing h
  | .frame => .frame h
  | .knownFrame => .frame h
  | .frameOrOffset => .frame h

/-- The handle that `j` leaves for the text leads `k` astray. -/
def Misleads (j k : HandleReader) (r : Resolver) (text : String) : Prop :=
  match j, k with
  | .thing, .positiveThing =>
    r.things.find? text = none ∧ Number.fits r.unknownThing ∨
      (Operand.ofText text).isNonpositive ∧ r.things.reach? text ≠ none
  | .positiveThing, .thing =>
    (Operand.ofText text).isNonpositive ∧ (r.things.reach? text).getD r.unknownThing ≠ r.unknownThing
  | .frame, .knownFrame => r.frames.find? text = none ∧ Number.fits r.nullFrame
  | .frame, .frameOrOffset =>
    r.frames.find? text = none ∧ Number.fits r.nullFrame ∨
      ∃ n, (Operand.ofText text).offset? = some n ∧ (r.frames.reach? text ≠ none ∨ n ≠ -1)
  | .knownFrame, .frameOrOffset =>
    ∃ n, (Operand.ofText text).offset? = some n ∧ (r.frames.reach? text ≠ none ∨ n ≠ -1)
  | .frameOrOffset, .frame =>
    (Operand.ofText text).offset? ≠ none ∧ (r.frames.reach? text).getD r.nullFrame ≠ r.nullFrame
  | .frameOrOffset, .knownFrame => (Operand.ofText text).offset? ≠ none ∧ r.frames.reach? text ≠ none
  | _, _ => False

theorem evaluate_eq (k : HandleReader) :
    (k.accessor.reader r).evaluate text = k.evaluation (k.stored r text) := by
  cases k with
  | thing => rfl
  | positiveThing =>
    simp only [accessor, Accessor.reader, Reader.positiveThing, evaluation, stored, Operand.isNonpositive, Lookup.find?]
    cases Operand.ofText text with
    | name name => rfl
    | number number =>
      rcases Int.lt_or_le 0 number with hpos | hle
      · simp [hpos, Int.not_le.mpr hpos]
      · simp [hle, Int.not_lt.mpr hle, handleOf]
  | frame => rfl
  | knownFrame => rfl
  | frameOrOffset =>
    simp only [accessor, Accessor.reader, Reader.frameOrOffset, evaluation, stored, Operand.offset?, Lookup.find?]
    cases Operand.ofText text with
    | name name => rfl
    | number number =>
      rcases Int.lt_or_le number 0 with hneg | hle
      · simp [Int.not_le.mpr hneg]
      · simp [hle]

variable {r text} {j k : HandleReader}

theorem answer?_evaluate (htag : j.accessor.tag = k.accessor.tag) :
    (k.accessor.reader r).answer? ((j.accessor.reader r).evaluate text) = some (k.answer r (j.stored r text)) := by
  rw [evaluate_eq]
  cases j <;> cases k <;> first | rfl | cases htag

theorem handleOf_eq_getD_offset?_iff :
    handleOf (r.frames.find? text) = (Operand.ofText text).offset?.getD (handleOf (r.frames.find? text)) ↔
      ¬∃ n, (Operand.ofText text).offset? = some n ∧ (r.frames.reach? text ≠ none ∨ n ≠ -1) := by
  cases hoff : (Operand.ofText text).offset? with
  | none => simp
  | some n => simp [eq_comm, Lookup.eq_handleOf_iff _ _ (Operand.offset?_neg hoff), and_comm]

theorem answer_stored (k : HandleReader) : k.answer r (k.stored r text) = k.meaning r text := by
  cases k with
  | thing => exact r.things.getD_ofHandle?_getD text r.unknownThing
  | positiveThing =>
    change ofHandle? (if _ then _ else _) = if _ then _ else _
    rw [apply_ite ofHandle?, r.things.ofHandle?_handleOf]
    rfl
  | frame => exact r.frames.getD_ofHandle?_getD text r.nullFrame
  | knownFrame => exact r.frames.ofHandle?_handleOf text
  | frameOrOffset => rfl

theorem answer_stored_eq_iff (htag : j.accessor.tag = k.accessor.tag) :
    k.answer r (j.stored r text) = k.meaning r text ↔ ¬j.Misleads k r text := by
  cases j with
  | thing =>
    cases k with
    | thing => exact iff_of_true (answer_stored .thing) id
    | positiveThing =>
      simp only [answer, stored, meaning, Misleads, Lookup.ofHandle?_handle_getD]
      change @Eq (Option Nat) _ _ ↔ _
      by_cases hfall : r.things.find? text = none ∧ Number.fits r.unknownThing = true
      · simp [hfall, Lookup.reach?_of_not_found hfall.1]
      · by_cases hnum : (Operand.ofText text).isNonpositive = true <;> simp [hfall, hnum]
    | _ => cases htag
  | positiveThing =>
    cases k with
    | thing =>
      simp only [answer, stored, meaning, Misleads]
      change @Eq Nat _ _ ↔ _
      by_cases hnum : (Operand.ofText text).isNonpositive = true
      · simp [hnum, ofHandle?, eq_comm]
      · simp [hnum, Lookup.ofHandle?_handleOf]
    | positiveThing => exact iff_of_true (answer_stored .positiveThing) id
    | _ => cases htag
  | frame =>
    cases k with
    | frame => exact iff_of_true (answer_stored .frame) id
    | knownFrame =>
      simp only [answer, stored, meaning, Misleads, Lookup.ofHandle?_handle_getD]
      change @Eq (Option Nat) _ _ ↔ _
      by_cases hfall : r.frames.find? text = none ∧ Number.fits r.nullFrame = true
      · simp [hfall, Lookup.reach?_of_not_found hfall.1]
      · simp [hfall]
    | frameOrOffset =>
      simp only [answer, stored, meaning, Misleads, Lookup.handle_getD]
      change @Eq Int _ _ ↔ _
      by_cases hfall : r.frames.find? text = none ∧ Number.fits r.nullFrame = true
      · have hne : (r.nullFrame : Int) ≠ (Operand.ofText text).offset?.getD (-1) := by
          cases hoff : (Operand.ofText text).offset? with
          | none => simp
          | some n =>
            have := Operand.offset?_neg hoff
            simp only [Option.getD_some]
            omega
        simp [hfall, handleOf, hne]
      · simpa [hfall] using handleOf_eq_getD_offset?_iff
    | _ => cases htag
  | knownFrame =>
    cases k with
    | frame => exact iff_of_true (congrArg (Option.getD · r.nullFrame) (r.frames.ofHandle?_handleOf text)) id
    | knownFrame => exact iff_of_true (answer_stored .knownFrame) id
    | frameOrOffset => exact handleOf_eq_getD_offset?_iff
    | _ => cases htag
  | frameOrOffset =>
    cases k with
    | frame =>
      simp only [answer, stored, meaning, Misleads]
      change @Eq Nat _ _ ↔ _
      cases hoff : (Operand.ofText text).offset? with
      | none => simp [Lookup.ofHandle?_handleOf]
      | some n => simp [ofHandle?, Operand.offset?_neg hoff, eq_comm]
    | knownFrame =>
      simp only [answer, stored, meaning, Misleads]
      change @Eq (Option Nat) _ _ ↔ _
      cases hoff : (Operand.ofText text).offset? with
      | none => simp [Lookup.ofHandle?_handleOf]
      | some n => simp [ofHandle?, Operand.offset?_neg hoff, eq_comm]
    | frameOrOffset => exact iff_of_true (answer_stored .frameOrOffset) id
    | _ => cases htag

theorem Misleads.tag_eq (h : j.Misleads k r text) : j.accessor.tag = k.accessor.tag := by
  cases j <;> cases k <;> first | rfl | exact h.elim

theorem accessor_inj : j.accessor = k.accessor ↔ j = k := by
  cases j <;> cases k <;> decide

theorem exists_of_tag {a : Accessor} (htag : a.tag = k.accessor.tag) : ∃ j : HandleReader, j.accessor = a := by
  cases k <;> cases a <;> first
    | exact ⟨.thing, rfl⟩
    | exact ⟨.positiveThing, rfl⟩
    | exact ⟨.frame, rfl⟩
    | exact ⟨.knownFrame, rfl⟩
    | exact ⟨.frameOrOffset, rfl⟩
    | cases htag

end HandleReader

end FrameTable
