import FrameTable.Proofs.Argument.Edit
import FrameTable.Proofs.Argument.Meaning
import FrameTable.Proofs.Argument.Numbered
import FrameTable.Proofs.Number.Written

namespace FrameTable

open Number

theorem Operand.ofText_toString {value : Int} (hlow : -2147483648 ≤ value) (hhigh : value ≤ 2147483647) :
    ofText (toString value) = .number value := by
  rw [ofText_of_numeral (numeral_toString value), narrow, clamp_eq_self hlow hhigh]

theorem Lookup.find?_of_number (l : Lookup) {text : String} {number : Int}
    (htext : Operand.ofText text = .number number) : l.find? text = l.numbered? number := by
  rw [Lookup.find?, htext]

def Lookup.reachNumber? (l : Lookup) (number : Int) : Option Nat :=
  (l.numbered? number).filter fun slot => fits slot

def Reference.byNumber (r : Resolver) (number : Int) : (k : Reference) → k.accessor.Value
  | .thing => (r.things.reachNumber? number).getD r.unknownThing
  | .frame => (r.frames.reachNumber? number).getD r.nullFrame
  | .sound => r.sounds.numbered? number
  | .string => r.strings.numbered? number

theorem HandleReader.answer?_eq_meaning (k : HandleReader) (r : Resolver) (text : String) :
    (k.accessor.reader r).answer? ((k.accessor.reader r).evaluate text) = some (k.meaning r text) := by
  rw [answer?_evaluate rfl, answer_stored]

theorem Reference.answer?_of_number (k : Reference) (r : Resolver) {text : String} {number : Int}
    (htext : Operand.ofText text = .number number) :
    (k.accessor.reader r).answer? ((k.accessor.reader r).evaluate text) = some (k.byNumber r number) := by
  have hreach (l : Lookup) : l.reach? text = l.reachNumber? number := by
    rw [Lookup.reach?, l.find?_of_number htext, Lookup.reachNumber?]
  cases k with
  | thing =>
    refine (HandleReader.thing.answer?_eq_meaning r text).trans (congrArg some ?_)
    rw [HandleReader.meaning, hreach, byNumber]
  | frame =>
    refine (HandleReader.frame.answer?_eq_meaning r text).trans (congrArg some ?_)
    rw [HandleReader.meaning, hreach, byNumber]
  | sound => exact congrArg some (r.sounds.find?_of_number htext)
  | string => exact congrArg some (r.strings.find?_of_number htext)

namespace ArgumentList

variable {l new : ArgumentList} {position : Nat} {text : String} {value : Int}

theorem Written.read_eq (h : l.Written position text new) (r : Resolver) (a : Accessor) (default : a.Value) :
    (new.read (a.reader r) position default).1 =
      ((a.reader r).answer? ((a.reader r).evaluate text)).getD default := by
  rw [read_of_some _ _ _ h.cell, Cell.read_of_tag_ne (by simp)]

/-- An integer that is put into an argument is read back as it is, or as the number of a record. -/
theorem setInt_reads_back (l : ArgumentList) (r : Resolver) (hposition : position < maxArguments)
    (hlow : -2147483648 ≤ value) (hhigh : value ≤ 2147483647) :
    ∃ new, l.setInt position value = .ok new ∧ l.Written position (toString value) new ∧
      (∀ default, (new.read .int position default).1 = value) ∧
      (∀ keywords unknown default, (new.read (.keyword keywords unknown) position default).1 = value) ∧
      (value < 0 → ∀ default, (new.read (.frameOrOffset r) position default).1 = value) ∧
      ∀ (k : Reference) default, (new.read (k.accessor.reader r) position default).1 = k.byNumber r value := by
  obtain ⟨new, hset, hwritten⟩ := l.exists_set (toString value) hposition
  have htext := Operand.ofText_toString hlow hhigh
  refine ⟨new, hset, hwritten, fun default => ?_, fun keywords unknown default => ?_, fun hneg default => ?_,
    fun k default => ?_⟩
  · have hread : narrow (readInteger (toString value)).1 = value := by
      rw [readInteger_of_numeral (numeral_toString value), narrow_clamp64, narrow, clamp_eq_self hlow hhigh]
    exact (hwritten.read_eq r .int default).trans hread
  · refine (hwritten.read_eq r (.keyword keywords unknown) default).trans ?_
    simp only [Accessor.reader, Reader.keyword, htext]
    rfl
  · refine (hwritten.read_eq r .frameOrOffset default).trans ?_
    simp only [Accessor.reader, Reader.frameOrOffset, htext, if_neg (Int.not_le.mpr hneg)]
    rfl
  · rw [hwritten.read_eq, k.answer?_of_number r htext, Option.getD_some]

def blankResolver : Resolver := (Tables.initial ⟨1, 1, 1, 1, 1⟩).resolver

def frameRead : ArgumentList :=
  ((ofTexts ["S_WALK", "-7"]).read (.frame blankResolver) 0 0).2

theorem setInt_reads_back_least : 0 < maxArguments ∧ (-2147483648 : Int) ≤ 2147483647 ∧
    (frameRead.cached? 0).map (·.isSome) = some true ∧
    ∃ new, frameRead.setInt 0 (-2147483648) = .ok new ∧
      (new.read .int 0 5).1 = -2147483648 ∧ (new.read (.keyword ["-2147483648"] 5) 0 5).1 = -2147483648 ∧
      (new.read (.frameOrOffset blankResolver) 0 5).1 = -2147483648 ∧
      (new.read (.thing blankResolver) 0 5).1 = blankResolver.unknownThing := by
  have hposition : 0 < maxArguments := by decide
  have hlow : (-2147483648 : Int) ≤ -2147483648 := by decide
  have hhigh : (-2147483648 : Int) ≤ 2147483647 := by decide
  have hnone : (blankResolver.things.reachNumber? (-2147483648)).getD blankResolver.unknownThing =
      blankResolver.unknownThing := by decide +kernel
  obtain ⟨new, hset, -, hint, hkeyword, hoffset, hreference⟩ :=
    frameRead.setInt_reads_back blankResolver hposition hlow hhigh
  exact ⟨hposition, hhigh, by decide +kernel, new, hset, hint 5, hkeyword _ 5 5, hoffset (by decide) 5,
    (hreference .thing (5 : Nat)).trans hnone⟩

end ArgumentList

end FrameTable
