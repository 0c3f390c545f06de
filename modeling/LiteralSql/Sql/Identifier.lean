import LiteralSql.Text

/-! Quoted names and the plain literals of schema statements. -/

set_option autoImplicit false

namespace LiteralSql.Identifier

/-- Reads `[digits]` groups to the end of the text; `afterDigit` tells whether
the group that is being read already has a digit. -/
def insideSubscript (afterDigit : Bool) : Text → Bool
  | [] => false
  | ']' :: '[' :: rest => afterDigit && insideSubscript false rest
  | ']' :: rest => afterDigit && rest.isEmpty
  | c :: rest => Text.isDigit c && insideSubscript true rest

def isSubscripts : Text → Bool
  | '[' :: rest => insideSubscript false rest
  | _ => false

def splitSubscripts : Text → Text × Text
  | [] => ([], [])
  | c :: rest =>
    if isSubscripts (c :: rest) then ([], c :: rest)
    else
      let (base, subscripts) := splitSubscripts rest
      (c :: base, subscripts)

theorem splitSubscripts_append (name : Text) :
    (splitSubscripts name).1 ++ (splitSubscripts name).2 = name := by
  induction name with
  | nil => rfl
  | cons c rest ih =>
    rw [splitSubscripts]
    split
    · rfl
    · simp [ih]

/-- Puts a name between double quotes; the star that stands for all columns stays bare. -/
def enclose (name : Text) : Text :=
  if name = ['*'] then ['*'] else '"' :: Text.double '"' name ++ ['"']

/-- Quotes one name. Subscripts at its end stay outside the quotes, unless
nothing would be left inside or the rest spans several lines. -/
def quote (name : Text) : Text :=
  let (base, subscripts) := splitSubscripts name
  if subscripts ≠ [] ∧ base ≠ [] ∧ '\n' ∉ base then enclose base ++ subscripts else enclose name

def quoteQualified (name : Text) : Text :=
  ['.'].intercalate ((Text.split '.' name).map quote)

def quoteLiteral (text : Text) : Text := '\'' :: Text.double '\'' text ++ ['\'']

end LiteralSql.Identifier
