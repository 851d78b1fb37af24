import FrameTable.Argument.Reader

namespace FrameTable

inductive Tag where
  | int
  | fixed
  | double
  | angle
  | thing
  | frame
  | flags
  | sound
  | codePointer
  | text
  | keyword
deriving DecidableEq, Repr

def Evaluation.tag : Evaluation → Tag
  | .int _ => .int
  | .fixed _ => .fixed
  | .double _ => .double
  | .angle _ => .angle
  | .thing _ => .thing
  | .frame _ => .frame
  | .flags _ => .flags
  | .sound _ => .sound
  | .codePointer _ => .codePointer
  | .text _ => .text
  | .keyword _ => .keyword

inductive Accessor where
  | int
  | fixed
  | double
  | angle
  | thing
  | positiveThing
  | frame
  | knownFrame
  | frameOrOffset
  | thingFlags
  | flagsOf (table : List Flag.Definition)
  | sound
  | codePointer
  | string
  | keyword (keywords : List String) (default : Int)
deriving DecidableEq, Repr

namespace Accessor

def Value : Accessor → Type
  | .int => Int
  | .fixed => Number.FixedPoint
  | .double => Float
  | .angle => Number.Angle
  | .thing => Nat
  | .positiveThing => Option Nat
  | .frame => Nat
  | .knownFrame => Option Nat
  | .frameOrOffset => Int
  | .thingFlags => FlagSet
  | .flagsOf _ => UInt32
  | .sound => Option Nat
  | .codePointer => Option Nat
  | .string => Option Nat
  | .keyword _ _ => Int

def reader (r : Resolver) : (a : Accessor) → Reader a.Value
  | .int => .int
  | .fixed => .fixed
  | .double => .double
  | .angle => .angle
  | .thing => .thing r
  | .positiveThing => .positiveThing r
  | .frame => .frame r
  | .knownFrame => .knownFrame r
  | .frameOrOffset => .frameOrOffset r
  | .thingFlags => .thingFlags
  | .flagsOf table => .flagsOf table
  | .sound => .sound r
  | .codePointer => .codePointer r
  | .string => .string r
  | .keyword keywords default => .keyword keywords default

def tag : Accessor → Tag
  | .int => .int
  | .fixed => .fixed
  | .double => .double
  | .angle => .angle
  | .thing => .thing
  | .positiveThing => .thing
  | .frame => .frame
  | .knownFrame => .frame
  | .frameOrOffset => .frame
  | .thingFlags => .flags
  | .flagsOf _ => .flags
  | .sound => .sound
  | .codePointer => .codePointer
  | .string => .text
  | .keyword _ _ => .keyword

variable (a : Accessor) (r : Resolver)

theorem tag_evaluate (text : String) : ((a.reader r).evaluate text).tag = a.tag := by
  cases a <;> rfl

theorem isSome_answer? (e : Evaluation) : ((a.reader r).answer? e).isSome = decide (e.tag = a.tag) := by
  cases a <;> cases e <;> rfl

end Accessor

variable {a : Accessor} {r : Resolver} {c : Cell} {e : Evaluation}

theorem Cell.read_of_cached (hcached : c.cached = some e) (htag : e.tag = a.tag) :
    c.read (a.reader r) = ((a.reader r).answer? e, c, false) := by
  obtain ⟨value, hvalue⟩ := Option.isSome_iff_exists.mp
    ((a.isSome_answer? r e).trans (decide_eq_true htag))
  rw [Cell.read, hcached, Option.bind_some, hvalue]

theorem Cell.read_of_tag_ne (htag : c.cached.map (·.tag) ≠ some a.tag) : c.read (a.reader r) =
    ((a.reader r).answer? ((a.reader r).evaluate c.text),
      { c with cached := some ((a.reader r).evaluate c.text) }, true) := by
  have hnone : c.cached.bind (a.reader r).answer? = none := by
    cases hcached : c.cached with
    | none => rfl
    | some e =>
      rw [hcached] at htag
      refine Option.not_isSome_iff_eq_none.mp fun hsome => htag ?_
      exact congrArg some (of_decide_eq_true ((a.isSome_answer? r e).symm.trans hsome))
  rw [Cell.read, hnone]

end FrameTable
