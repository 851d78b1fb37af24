import FrameTable.Text.Case

namespace FrameTable

class IndexKey (κ : Type) where
  hash : κ → UInt32
  same : κ → κ → Bool
  same_refl : ∀ k, same k k = true
  same_congr : ∀ {a b}, same a b = true → ∀ c, same a c = same b c
  hash_eq : ∀ {a b}, same a b = true → hash a = hash b

structure Name where
  text : String
deriving DecidableEq

namespace Name

def mix (h : UInt32) (byte : UInt8) : UInt32 :=
  byte.toUInt32 + (h <<< 6) + (h <<< 16) - h

def hash (name : Name) : UInt32 :=
  ((Text.foldCase name.text).flatMap String.utf8EncodeChar).foldl mix 0

theorem hash_eq_of_same {a b : Name} (h : Text.same a.text b.text = true) : a.hash = b.hash := by
  rw [hash, hash, Text.same_iff.mp h]

instance : IndexKey Name where
  hash := hash
  same a b := Text.same a.text b.text
  same_refl _ := Text.same_refl _
  same_congr h c := Text.same_congr h c.text
  hash_eq := hash_eq_of_same

def escape (c : Char) : List Char :=
  match c with
  | '"' => ['\\', '"']
  | '\\' => ['\\', '\\']
  | '\n' => ['\\', 'n']
  | '\t' => ['\\', 't']
  | '\r' => ['\\', 'r']
  | '\x00' => ['\\', '0']
  | c => [c]

instance : Repr Name where
  reprPrec name _ := "NameKey(\"" ++ String.ofList (name.text.toList.flatMap escape) ++ "\")"

end Name

structure LegacyId where
  value : Int
deriving DecidableEq

namespace LegacyId

instance : IndexKey LegacyId where
  hash id := UInt32.ofInt id.value
  same a b := a == b
  same_refl _ := by simp
  same_congr h c := by rw [eq_of_beq h]
  hash_eq h := by rw [eq_of_beq h]

instance : Repr LegacyId where
  reprPrec id _ := "NumKey(" ++ toString id.value ++ ")"

end LegacyId

end FrameTable
