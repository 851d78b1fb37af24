/-!
The fields of a packed frame definition. Fields are separated by bars and commas; blanks outside quotes are
dropped; a quote of either kind makes everything up to the next one of its kind, or to the end, literal.
In call mode an opening parenthesis ends a field and opens an argument list, and from then on a closing one
is dropped and closes it. Every field takes at least one character off the text.
-/

namespace FrameTable.Packed

structure Token where
  text : String
  quoted : Bool
deriving DecidableEq, Repr

def Token.isDefault (t : Token) : Bool :=
  !t.quoted && t.text == "*"

structure Cursor where
  rest : List Char
  opened : Bool := false
  closed : Bool := false
deriving DecidableEq, Repr

def isSeparator (c : Char) : Bool := c = '|' || c = ','

def isBlank (c : Char) : Bool := c = ' ' || c = '\t'

def isQuote (c : Char) : Bool := c = '"' || c = '\''

structure Scan where
  chars : List Char
  quoted : Bool
  cursor : Cursor
deriving DecidableEq, Repr

namespace Scan

def push (c : Char) (s : Scan) : Scan := { s with chars := c :: s.chars }

def quote (s : Scan) : Scan := { s with quoted := true }

def token (s : Scan) : Token := ⟨String.ofList s.chars, s.quoted⟩

end Scan

/-- Reads a field, inside quotes while the third argument holds the quote that ends them. -/
def scan (call opened : Bool) : Bool → Option Char → List Char → Scan
  | closed, _, [] => ⟨[], false, ⟨[], opened, closed⟩⟩
  | closed, some q, c :: rest =>
    if c = q then scan call opened closed none rest
    else (scan call opened closed (some q) rest).push c
  | closed, none, c :: rest =>
    if isBlank c then scan call opened closed none rest
    else if isQuote c then (scan call opened closed (some c) rest).quote
    else if isSeparator c then ⟨[], false, ⟨rest, opened, closed⟩⟩
    else if c = '(' ∧ call then ⟨[], false, ⟨rest, true, closed⟩⟩
    else if c = ')' ∧ call ∧ opened then scan call opened true none rest
    else (scan call opened closed none rest).push c

theorem length_scan_le (call opened closed : Bool) (q : Option Char) (text : List Char) :
    (scan call opened closed q text).cursor.rest.length ≤ text.length - 1 := by
  fun_induction scan call opened closed q text <;> simp_all [Scan.push, Scan.quote] <;> omega

namespace Cursor

def start (text : String) : Cursor where
  rest := text.toList

def next? (call : Bool) (s : Cursor) : Option (Token × Cursor) :=
  if s.rest.isEmpty then none
  else
    let field := scan call s.opened s.closed none s.rest
    some (field.token, field.cursor)

theorem length_lt_of_next? {call : Bool} {s t : Cursor} {token : Token}
    (h : s.next? call = some (token, t)) : t.rest.length < s.rest.length := by
  simp only [next?] at h
  split at h
  · cases h
  · next hs =>
    obtain ⟨-, rfl⟩ := Prod.mk.inj (Option.some.inj h)
    have := length_scan_le call s.opened s.closed none s.rest
    have : s.rest.length ≠ 0 := by simpa using hs
    omega

def fields (call : Nat → Bool) (n : Nat) (s : Cursor) : List (Token × Cursor) :=
  match h : s.next? (call n) with
  | none => []
  | some (token, t) => (token, t) :: t.fields call (n + 1)
termination_by s.rest.length
decreasing_by exact length_lt_of_next? h

def arguments (s : Cursor) : List Token × Cursor :=
  if s.closed then ([], s)
  else
    match _h : s.next? true with
    | none => ([], s)
    | some (token, t) =>
      let (tokens, last) := t.arguments
      (token :: tokens, last)
termination_by s.rest.length
decreasing_by exact length_lt_of_next? ‹_›

def callArguments (s : Cursor) : List Token × Cursor :=
  match s.arguments with
  | ([⟨"", false⟩], last) => ([], last)
  | result => result

end Cursor

end FrameTable.Packed
