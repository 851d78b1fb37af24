namespace FrameTable

namespace Flag

inductive Word where
  | flags
  | flags2
  | flags3
  | flags4
deriving DecidableEq, Repr

def Word.all : List Word := [.flags, .flags2, .flags3, .flags4]

structure Definition where
  name : String
  bits : UInt32
  word : Word
deriving DecidableEq, Repr

end Flag

structure FlagSet where
  flags : UInt32 := 0
  flags2 : UInt32 := 0
  flags3 : UInt32 := 0
  flags4 : UInt32 := 0
deriving DecidableEq, Repr

namespace FlagSet

def word (s : FlagSet) : Flag.Word → UInt32
  | .flags => s.flags
  | .flags2 => s.flags2
  | .flags3 => s.flags3
  | .flags4 => s.flags4

def insert (s : FlagSet) (d : Flag.Definition) : FlagSet :=
  match d.word with
  | .flags => { s with flags := s.flags ||| d.bits }
  | .flags2 => { s with flags2 := s.flags2 ||| d.bits }
  | .flags3 => { s with flags3 := s.flags3 ||| d.bits }
  | .flags4 => { s with flags4 := s.flags4 ||| d.bits }

theorem word_insert (s : FlagSet) (d : Flag.Definition) (w : Flag.Word) :
    (s.insert d).word w = if d.word = w then s.word w ||| d.bits else s.word w := by
  cases h : d.word <;> cases w <;> simp [insert, word, h]

def words (s : FlagSet) : List UInt32 :=
  Flag.Word.all.map s.word

def isEmpty (s : FlagSet) : Bool :=
  s.words.all (· == 0)

def wordText (w : UInt32) : String :=
  let digits := Nat.toDigits 16 w.toNat
  String.ofList ('0' :: 'x' :: List.replicate (8 - digits.length) '0' ++ digits)

instance : ToString FlagSet where
  toString s := ":".intercalate (s.words.map wordText)

end FlagSet

end FrameTable
