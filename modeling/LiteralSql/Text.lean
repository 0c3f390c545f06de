/-! Texts as lists of characters, with the few list operations that quoting
and joining need.

The library works on characters throughout and leaves `String` to its edges.
-/

set_option autoImplicit false

namespace LiteralSql

abbrev Text := List Char

namespace Text

def ofNat (number : Nat) : Text := Nat.toDigits 10 number

def ofInt : Int → Text
  | .ofNat number => ofNat number
  | .negSucc number => '-' :: ofNat (number + 1)

def double (mark : Char) (text : Text) : Text :=
  text.flatMap fun c => if c = mark then [mark, mark] else [c]

@[simp] theorem double_nil (mark : Char) : double mark [] = [] := rfl

@[simp] theorem double_append (mark : Char) (first second : Text) :
    double mark (first ++ second) = double mark first ++ double mark second := by
  simp [double]

/-- The maximal runs between separators; there is one more of them than there are separators. -/
def split (separator : Char) : Text → List Text
  | [] => [[]]
  | c :: rest =>
    if c = separator then [] :: split separator rest
    else match split separator rest with
      | [] => [[c]]
      | run :: runs => (c :: run) :: runs

theorem split_ne_nil (separator : Char) (text : Text) : split separator text ≠ [] := by
  cases text with
  | nil => simp [split]
  | cons c rest =>
    rw [split]
    split
    · simp
    · split <;> simp

def position? (pattern : Text) : Text → Option Nat
  | [] => if pattern = [] then some 0 else none
  | c :: rest =>
    if pattern.isPrefixOf (c :: rest) then some 0
    else (position? pattern rest).map (· + 1)

def isDigit (c : Char) : Bool := '0' ≤ c && c ≤ '9'

def toNat (digits : Text) : Nat :=
  digits.foldl (fun total c => 10 * total + (c.toNat - 48)) 0

def toNat? (digits : Text) : Option Nat :=
  if digits ≠ [] ∧ digits.all isDigit then some (toNat digits) else none

end Text

end LiteralSql
