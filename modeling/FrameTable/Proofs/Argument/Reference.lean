import Mathlib.Data.List.Basic
import FrameTable.Proofs.Argument.Accessor

namespace FrameTable

theorem getD_ofHandle?_handle (slot : Nat) : (ofHandle? (handle slot)).getD slot = slot := by
  rw [handle]
  split
  · rw [ofHandle?, if_neg (Int.not_lt.mpr (Int.natCast_nonneg slot)), Int.toNat_natCast, Option.getD_some]
  · rfl

theorem Lookup.find?_of_name (l : Lookup) {text name : String} (htext : Operand.ofText text = .name name) :
    l.find? text = l.named? name := by
  rw [Lookup.find?, htext]

def Lookup.Precedes (l l' : Lookup) : Prop :=
  ∀ {name slot}, l.named? name = some slot → l'.named? name = some slot

structure Resolver.Precedes (r r' : Resolver) : Prop where
  things : r.things.Precedes r'.things
  frames : r.frames.Precedes r'.frames
  sounds : r.sounds.Precedes r'.sounds
  strings : r.strings.Precedes r'.strings
  codePointer? : r'.codePointer? = r.codePointer?
  unknownThing : r'.unknownThing = r.unknownThing
  nullFrame : r'.nullFrame = r.nullFrame

namespace Resolver.Precedes

variable {r r' r'' : Resolver}

theorem refl (r : Resolver) : r.Precedes r :=
  ⟨fun h => h, fun h => h, fun h => h, fun h => h, rfl, rfl, rfl⟩

theorem trans (h : r.Precedes r') (h' : r'.Precedes r'') : r.Precedes r'' where
  things hname := h'.things (h.things hname)
  frames hname := h'.frames (h.frames hname)
  sounds hname := h'.sounds (h.sounds hname)
  strings hname := h'.strings (h.strings hname)
  codePointer? := h'.codePointer?.trans h.codePointer?
  unknownThing := h'.unknownThing.trans h.unknownThing
  nullFrame := h'.nullFrame.trans h.nullFrame

end Resolver.Precedes

inductive Reference where
  | thing
  | frame
  | sound
  | string
deriving DecidableEq, Repr

namespace Reference

def accessor : Reference → Accessor
  | .thing => .thing
  | .frame => .frame
  | .sound => .sound
  | .string => .string

def lookup (r : Resolver) : Reference → Lookup
  | .thing => r.things
  | .frame => r.frames
  | .sound => r.sounds
  | .string => r.strings

def fallback (r : Resolver) : (k : Reference) → k.accessor.Value
  | .thing => r.unknownThing
  | .frame => r.nullFrame
  | .sound => (none : Option Nat)
  | .string => (none : Option Nat)

def Open (k : Reference) (r : Resolver) (text : String) : Prop :=
  ∀ name, Operand.ofText text = .name name → (k.lookup r).named? name = none

theorem lookup_precedes {r r' : Resolver} (h : r.Precedes r') (k : Reference) :
    (k.lookup r).Precedes (k.lookup r') := by
  cases k with
  | thing => exact h.things
  | frame => exact h.frames
  | sound => exact h.sounds
  | string => exact h.strings

theorem fallback_eq {r r' : Resolver} (h : r.Precedes r') (k : Reference) : k.fallback r' = k.fallback r := by
  cases k with
  | thing => exact h.unknownThing
  | frame => exact h.nullFrame
  | sound => rfl
  | string => rfl

theorem tag_ne_keyword (k : Reference) : k.accessor.tag ≠ .keyword := by
  cases k <;> nofun

end Reference

namespace Accessor

def scalars : List Accessor :=
  [.int, .fixed, .double, .angle, .thingFlags, .codePointer]

inductive Offered : Accessor → Prop
  | scalar {a : Accessor} (h : a ∈ scalars) : Offered a
  | reference (k : Reference) : Offered k.accessor
  | keyword (keywords : List String) (default : Int) : Offered (.keyword keywords default)

variable {a b : Accessor} {r r' : Resolver} {k : Reference} {text name : String}

theorem answer?_of_precedes (h : r.Precedes r') (a : Accessor) (e : Evaluation) :
    (a.reader r').answer? e = (a.reader r).answer? e := by
  cases a with
  | thing =>
    change (Reader.thing r').answer? e = (Reader.thing r).answer? e
    simp only [Reader.thing, h.unknownThing]
  | frame =>
    change (Reader.frame r').answer? e = (Reader.frame r).answer? e
    simp only [Reader.frame, h.nullFrame]
  | _ => rfl

theorem tag_ne_keyword (ha : a ∈ scalars) : a.tag ≠ .keyword := by
  have hall : ∀ a ∈ scalars, a.tag ≠ .keyword := by decide
  exact hall a ha

theorem evaluate_scalar (h : r.Precedes r') (ha : a ∈ scalars) (text : String) :
    (a.reader r').evaluate text = (a.reader r).evaluate text := by
  simp only [scalars, List.mem_cons, List.not_mem_nil, or_false] at ha
  rcases ha with rfl | rfl | rfl | rfl | rfl | rfl
  case inr.inr.inr.inr.inr => exact congrArg (fun find => Evaluation.codePointer (find text)) h.codePointer?
  all_goals rfl

theorem evaluate_reference (h : r.Precedes r') (hfind : (k.lookup r').find? text = (k.lookup r).find? text) :
    (k.accessor.reader r').evaluate text = (k.accessor.reader r).evaluate text := by
  cases k with
  | thing =>
    have hfind : r'.things.find? text = r.things.find? text := hfind
    change (Reader.thing r').evaluate text = (Reader.thing r).evaluate text
    simp only [Reader.thing, hfind, h.unknownThing]
  | frame =>
    have hfind : r'.frames.find? text = r.frames.find? text := hfind
    change (Reader.frame r').evaluate text = (Reader.frame r).evaluate text
    simp only [Reader.frame, hfind, h.nullFrame]
  | sound => exact congrArg Evaluation.sound hfind
  | string => exact congrArg Evaluation.text hfind

theorem evaluate_of_named (h : r.Precedes r') (htext : Operand.ofText text = .name name)
    (hknown : (k.lookup r).named? name ≠ none) :
    (k.accessor.reader r').evaluate text = (k.accessor.reader r).evaluate text := by
  obtain ⟨slot, hslot⟩ := Option.ne_none_iff_exists'.mp hknown
  refine evaluate_reference h ?_
  rw [Lookup.find?_of_name _ htext, Lookup.find?_of_name _ htext, hslot]
  exact Reference.lookup_precedes h k hslot

theorem answer?_of_not_found (hnone : (k.lookup r).find? text = none) :
    (k.accessor.reader r).answer? ((k.accessor.reader r).evaluate text) = some (k.fallback r) := by
  cases k with
  | thing =>
    have hfind : r.things.find? text = none := hnone
    change (Reader.thing r).answer? ((Reader.thing r).evaluate text) = some r.unknownThing
    simp only [Reader.thing, hfind, Option.getD_none, getD_ofHandle?_handle]
  | frame =>
    have hfind : r.frames.find? text = none := hnone
    change (Reader.frame r).answer? ((Reader.frame r).evaluate text) = some r.nullFrame
    simp only [Reader.frame, hfind, Option.getD_none, getD_ofHandle?_handle]
  | sound => exact congrArg some hnone
  | string => exact congrArg some hnone

theorem answer?_of_unnamed (h : r.Precedes r') (htext : Operand.ofText text = .name name)
    (hnone : (k.lookup r).named? name = none) :
    (k.accessor.reader r').answer? ((k.accessor.reader r).evaluate text) = some (k.fallback r') := by
  rw [← Lookup.find?_of_name _ htext] at hnone
  rw [answer?_of_precedes h, answer?_of_not_found hnone, Reference.fallback_eq h]

end Accessor

def Tag.accessor? : Tag → Option Accessor
  | .int => some .int
  | .fixed => some .fixed
  | .double => some .double
  | .angle => some .angle
  | .thing => some .thing
  | .frame => some .frame
  | .flags => some .thingFlags
  | .sound => some .sound
  | .codePointer => some .codePointer
  | .text => some .string
  | .keyword => none

namespace Accessor.Offered

variable {a b : Accessor}

theorem accessor?_tag (h : a.Offered) : a.tag.accessor? = some a ∨ a.tag = .keyword := by
  cases h with
  | scalar h =>
    simp only [scalars, List.mem_cons, List.not_mem_nil, or_false] at h
    rcases h with rfl | rfl | rfl | rfl | rfl | rfl <;> exact .inl rfl
  | reference k => cases k <;> exact .inl rfl
  | keyword => exact .inr rfl

theorem eq_of_tag (ha : a.Offered) (hb : b.Offered) (htag : a.tag = b.tag) (hne : b.tag ≠ .keyword) : a = b := by
  have ha := ha.accessor?_tag.resolve_right (htag ▸ hne)
  have hb := hb.accessor?_tag.resolve_right hne
  rw [htag] at ha
  exact Option.some.inj (ha.symm.trans hb)

end Accessor.Offered

def Cell.EvaluatedBy (r : Resolver) (c : Cell) : Prop :=
  ∀ e, c.cached = some e → ∃ a r₀, Accessor.Offered a ∧ r₀.Precedes r ∧ e = (a.reader r₀).evaluate c.text

namespace Cell.EvaluatedBy

variable {r r' : Resolver} {c : Cell} {a : Accessor}

theorem of_cached_eq_none (h : c.cached = none) : c.EvaluatedBy r := by
  intro e he
  cases h.symm.trans he

theorem mono (h : c.EvaluatedBy r) (hr : r.Precedes r') : c.EvaluatedBy r' := by
  intro e he
  obtain ⟨a, r₀, ha, hr₀, heq⟩ := h e he
  exact ⟨a, r₀, ha, hr₀.trans hr, heq⟩

theorem read (h : c.EvaluatedBy r) (ha : a.Offered) : (c.read (a.reader r)).2.1.EvaluatedBy r := by
  by_cases htag : c.cached.map (·.tag) = some a.tag
  · obtain ⟨e, hcached, he⟩ := Option.map_eq_some_iff.mp htag
    rw [Cell.read_of_cached hcached he]
    exact h
  · rw [Cell.read_of_tag_ne htag]
    intro e he
    exact ⟨a, r, ha, .refl r, (Option.some.inj he).symm⟩

theorem exists_resolver (h : c.EvaluatedBy r) {e : Evaluation} (hcached : c.cached = some e) (ha : a.Offered)
    (htag : e.tag = a.tag) (hne : a.tag ≠ .keyword) :
    ∃ r₀ : Resolver, r₀.Precedes r ∧ e = (a.reader r₀).evaluate c.text := by
  obtain ⟨b, r₀, hb, hr₀, rfl⟩ := h e hcached
  obtain rfl := hb.eq_of_tag ha ((b.tag_evaluate r₀ c.text).symm.trans htag) hne
  exact ⟨r₀, hr₀, rfl⟩

end Cell.EvaluatedBy

end FrameTable
