import LiteralSql.Text

/-! Reading SQL text for its placeholders.

Quoted names and literals, dollar quotes and comments are regions whose content
means nothing here. Everything else is bare text, in which `?` and `??` are
placeholders and `\?` is a question mark. The lexer takes one character at a
time, so reading a text and then another is reading the two together.
-/

set_option autoImplicit false

namespace LiteralSql

inductive SqlToken
  | bare (c : Char)
  /-- A character of a region, from the one that completes its opening mark. -/
  | shielded (c : Char)
  /-- `?` -/
  | value
  /-- `??` -/
  | identifier
  deriving DecidableEq

/-- What has been read, as far as it bears on what follows. -/
inductive SqlState
  | bare
  | backslash
  | question
  | dash
  | slash
  | tag (name : Text)
  | quoted (mark : Char)
  | lineComment
  | blockComment (depth : Nat)
  /-- In a block comment after a slash that no mark has used. -/
  | blockSlash (depth : Nat)
  /-- In a block comment after a star that no mark has used. -/
  | blockStar (depth : Nat)
  /-- In a dollar quote; `seen` is what follows the last dollar sign while it may close the quote. -/
  | dollarQuoted (name : Text) (seen : Option Text)
  deriving DecidableEq

namespace SqlState

def isTagChar (c : Char) : Bool :=
  ('a' ≤ c && c ≤ 'z') || ('A' ≤ c && c ≤ 'Z') || Text.isDigit c || c = '_'

def stepBare (c : Char) : SqlState × List SqlToken :=
  if c = '\'' ∨ c = '"' then (.quoted c, [.shielded c])
  else if c = '$' then (.tag [], [.bare c])
  else if c = '-' then (.dash, [.bare c])
  else if c = '/' then (.slash, [.bare c])
  else if c = '\\' then (.backslash, [])
  else if c = '?' then (.question, [])
  else (.bare, [.bare c])

/-- The tokens that are put off until the next character, or the end, is known. -/
def pending : SqlState → List SqlToken
  | .backslash => [.bare '\\']
  | .question => [.value]
  | _ => []

def closeBlock (depth : Nat) : SqlState := if depth ≤ 1 then .bare else .blockComment (depth - 1)

def step (state : SqlState) (c : Char) : SqlState × List SqlToken :=
  match state with
  | .bare => stepBare c
  | .backslash =>
    if c = '?' then (.bare, [.bare '?'])
    else ((stepBare c).1, .bare '\\' :: (stepBare c).2)
  | .question =>
    if c = '?' then (.bare, [.identifier])
    else ((stepBare c).1, .value :: (stepBare c).2)
  | .dash => if c = '-' then (.lineComment, [.shielded c]) else stepBare c
  | .slash => if c = '*' then (.blockComment 1, [.shielded c]) else stepBare c
  | .tag name =>
    -- Digits may not begin a name, so that `$1` is a parameter.
    if c = '$' then (.dollarQuoted name none, [.shielded c])
    else if isTagChar c && !(name.isEmpty && Text.isDigit c) then (.tag (name ++ [c]), [.bare c])
    else stepBare c
  | .quoted mark => (if c = mark then .bare else .quoted mark, [.shielded c])
  | .lineComment => (if c = '\n' then .bare else .lineComment, [.shielded c])
  | .blockComment depth =>
    (if c = '/' then .blockSlash depth else if c = '*' then .blockStar depth
      else .blockComment depth, [.shielded c])
  -- A character is part of one mark only: behind one, the next mark begins anew.
  | .blockSlash depth =>
    (if c = '*' then .blockComment (depth + 1) else if c = '/' then .blockSlash depth
      else .blockComment depth, [.shielded c])
  | .blockStar depth =>
    (if c = '/' then closeBlock depth else if c = '*' then .blockStar depth
      else .blockComment depth, [.shielded c])
  | .dollarQuoted name seen =>
    (if c = '$' then (if seen = some name then .bare else .dollarQuoted name (some []))
      else .dollarQuoted name (seen.bind fun read =>
        if (read ++ [c]).isPrefixOf name then some (read ++ [c]) else none), [.shielded c])

def read (state : SqlState) : Text → SqlState × List SqlToken
  | [] => (state, [])
  | c :: rest =>
    let (next, tokens) := state.step c
    let (last, others) := next.read rest
    (last, tokens ++ others)

@[simp] theorem read_nil (state : SqlState) : state.read [] = (state, []) := rfl

theorem read_cons (state : SqlState) (c : Char) (rest : Text) :
    state.read (c :: rest) =
      (((state.step c).1.read rest).1, (state.step c).2 ++ ((state.step c).1.read rest).2) := rfl

theorem read_append (state : SqlState) (first second : Text) :
    state.read (first ++ second) =
      (((state.read first).1.read second).1,
        (state.read first).2 ++ ((state.read first).1.read second).2) := by
  induction first generalizing state with
  | nil => simp
  | cons c rest ih => simp [read_cons, ih]

/-- A state outside every region. Of a mark that has only begun, nothing more is to come. -/
def isOutside : SqlState → Bool
  | .bare | .backslash | .question | .dash | .slash | .tag _ => true
  | _ => false

end SqlState

def SqlToken.ofText (sql : Text) : List SqlToken :=
  let (state, tokens) := SqlState.bare.read sql
  tokens ++ state.pending

inductive SqlSegment
  | text (sql : Text)
  | value
  | identifier
  deriving DecidableEq

namespace SqlSegment

def addText (text : Text) (segments : List SqlSegment) : List SqlSegment :=
  if text.isEmpty then segments else .text text :: segments

/-- The characters up to the first cut, and the segments behind it. A text is
cut at placeholders and in front of the question mark of an escape. -/
def gather : List SqlToken → Text × List SqlSegment
  | [] => ([], [])
  | .bare c :: rest =>
    let (run, segments) := gather rest
    if c = '?' then ([], addText (c :: run) segments) else (c :: run, segments)
  | .shielded c :: rest =>
    let (run, segments) := gather rest
    (c :: run, segments)
  | .value :: rest =>
    let (run, segments) := gather rest
    ([], .value :: addText run segments)
  | .identifier :: rest =>
    let (run, segments) := gather rest
    ([], .identifier :: addText run segments)

def ofTokens (tokens : List SqlToken) : List SqlSegment :=
  let (run, segments) := gather tokens
  addText run segments

def ofText (sql : Text) : List SqlSegment := ofTokens (SqlToken.ofText sql)

def isPlaceholder : SqlSegment → Bool
  | .text _ => false
  | _ => true

end SqlSegment

def SqlToken.isPlaceholder : SqlToken → Bool
  | .value | .identifier => true
  | _ => false

def placeholderCount (sql : Text) : Nat := (SqlSegment.ofText sql).countP SqlSegment.isPlaceholder

theorem SqlSegment.countP_addText (text : Text) (segments : List SqlSegment) :
    (addText text segments).countP isPlaceholder = segments.countP isPlaceholder := by
  rw [addText]
  split <;> simp [isPlaceholder]

theorem SqlSegment.countP_gather (tokens : List SqlToken) :
    (gather tokens).2.countP isPlaceholder = tokens.countP SqlToken.isPlaceholder := by
  induction tokens with
  | nil => rfl
  | cons token rest ih =>
    cases token with
    | bare c =>
      rw [gather]
      dsimp only
      split <;> simp [countP_addText, SqlToken.isPlaceholder, ih]
    | shielded c => simp [gather, SqlToken.isPlaceholder, ih]
    | value | identifier =>
      simp [gather, countP_addText, List.countP_cons, isPlaceholder, SqlToken.isPlaceholder, ih]

theorem SqlSegment.countP_ofTokens (tokens : List SqlToken) :
    (ofTokens tokens).countP isPlaceholder = tokens.countP SqlToken.isPlaceholder :=
  (countP_addText _ _).trans (countP_gather tokens)

theorem placeholderCount_eq (sql : Text) :
    placeholderCount sql = (SqlToken.ofText sql).countP SqlToken.isPlaceholder :=
  SqlSegment.countP_ofTokens _

end LiteralSql
