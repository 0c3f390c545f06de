import LiteralSql.Proofs.Predicate.Words
import LiteralSql.Proofs.Text

/-! References to tables in SQL text.

A table is mentioned as such, as the table that is joined, or as that of a
column. There is one reference to it, and a mention is written with it, but for
the ways of mentioning that take the name of the table as a whole.
-/

set_option autoImplicit false

namespace LiteralSql

namespace Text

def lastDot? : Text → Option (Text × Text)
  | [] => none
  | c :: rest =>
    match lastDot? rest with
    | some (front, last) => some (c :: front, last)
    | none => if c = '.' then some ([], rest) else none

theorem lastDot?_eq_none {text : Text} : lastDot? text = none ↔ '.' ∉ text := by
  induction text with
  | nil => exact ⟨fun _ => List.not_mem_nil, fun _ => rfl⟩
  | cons c rest ih =>
    rw [lastDot?, List.mem_cons, not_or]
    cases found : lastDot? rest with
    | some parts =>
      rw [found] at ih
      exact ⟨nofun, fun absent => absurd (ih.mpr absent.2) nofun⟩
    | none =>
      dsimp only
      rw [eq_comm]
      split
      · next dot => exact ⟨nofun, fun absent => absurd dot.symm absent.1⟩
      · next plain => exact ⟨fun _ => ⟨Ne.symm plain, ih.mp found⟩, fun _ => rfl⟩

theorem lastDot?_append (front : Text) {last : Text} (single : '.' ∉ last) :
    lastDot? (front ++ '.' :: last) = some (front, last) := by
  induction front with
  | nil => rw [List.nil_append, lastDot?, lastDot?_eq_none.mpr single]; rfl
  | cons c rest ih => rw [List.cons_append, lastDot?, ih]

theorem lastDot?_eq_some {text front last : Text} :
    lastDot? text = some (front, last) ↔ text = front ++ '.' :: last ∧ '.' ∉ last := by
  constructor
  · intro found
    induction text generalizing front with
    | nil => cases found
    | cons c rest ih =>
      rw [lastDot?] at found
      split at found
      · next front' last' inner =>
        cases found
        obtain ⟨rfl, single⟩ := ih inner
        exact ⟨rfl, single⟩
      · next absent =>
        split at found
        · next dot =>
          cases found
          exact ⟨congrArg (· :: last) dot, lastDot?_eq_none.mp absent⟩
        · cases found
  · rintro ⟨rfl, single⟩
    exact lastDot?_append front single

def unquoted (inside : Bool) : Text → Text
  | [] => []
  | c :: rest =>
    if c = '"' then unquoted (!inside) rest
    else if inside then unquoted true rest
    else c :: unquoted false rest

theorem unquoted_append (inside : Bool) (first second : Text) :
    unquoted inside (first ++ second) = unquoted inside first ++ unquoted (Token.quotedBehind inside first) second := by
  induction first generalizing inside with
  | nil => rfl
  | cons c rest ih =>
    rw [List.cons_append, unquoted, unquoted, Token.quotedBehind, List.foldl_cons]
    split
    · exact ih _
    · split
      · next quoted =>
        rw [quoted]
        exact ih true
      · next plain =>
        rw [Bool.not_eq_true] at plain
        rw [plain, ih]
        rfl

theorem mem_of_mem_unquoted {inside : Bool} {text : Text} {c : Char} (member : c ∈ unquoted inside text) : c ∈ text := by
  induction text generalizing inside with
  | nil => exact member
  | cons first rest ih =>
    rw [unquoted] at member
    split at member
    · exact List.mem_cons_of_mem _ (ih member)
    · split at member
      · exact List.mem_cons_of_mem _ (ih member)
      · exact List.mem_cons.mpr ((List.mem_cons.mp member).imp_right ih)

theorem unquoted_enclosed (text : Text) : unquoted false ('"' :: double '"' text ++ ['"']) = [] := by
  have body : unquoted true (double '"' text ++ ['"']) = [] := by
    induction text with
    | nil => rfl
    | cons c rest ih =>
      have unfolded : double '"' (c :: rest) = (if c = '"' then ['"', '"'] else [c]) ++ double '"' rest := rfl
      rw [unfolded]
      split
      · exact ih
      · next plain =>
        rw [List.singleton_append, List.cons_append, unquoted, if_neg plain]
        exact ih
  rw [List.cons_append, unquoted, if_pos rfl]
  exact body

end Text

namespace Identifier

open Text

theorem quoteQualified_append (table : Text) {column : Text} (single : '.' ∉ column) :
    quoteQualified (table ++ '.' :: column) = quoteQualified table ++ '.' :: quote column := by
  rw [quoteQualified, split_append, split_of_not_mem single, List.map_append, quoteQualified]
  cases parts : split '.' table with
  | nil => exact absurd parts (split_ne_nil '.' table)
  | cons part others =>
    rw [List.map_cons, List.cons_append, intercalate_cons, intercalate_cons, List.flatMap_append, List.append_assoc]
    simp

theorem dot_not_mem_unquoted_quote (name : Text) : '.' ∉ unquoted false (quote name) := by
  have enclosed (text : Text) : '.' ∉ unquoted false (enclose text) := by
    rw [enclose]
    split
    · decide
    · rw [unquoted_enclosed]
      exact List.not_mem_nil
  have outside := all_splitSubscripts name
  have closes (text : Text) : Token.quotedBehind false (enclose text) = false := (isWord_enclose text).closes
  rw [quote]
  generalize splitSubscripts name = parts at outside ⊢
  obtain ⟨base, subscripts⟩ := parts
  dsimp only at outside ⊢
  split
  · rw [unquoted_append, closes, List.mem_append, not_or]
    refine ⟨enclosed base, fun member => ?_⟩
    exact absurd (List.all_eq_true.mp outside '.' (mem_of_mem_unquoted member)) (by decide)
  · exact enclosed name

theorem dot_mem_unquoted_quoteQualified {name : Text} (dotted : '.' ∈ name) :
    '.' ∈ unquoted false (quoteQualified name) := by
  cases found : lastDot? name with
  | none => exact absurd dotted (lastDot?_eq_none.mp found)
  | some parts =>
    obtain ⟨table, column⟩ := parts
    obtain ⟨rfl, single⟩ := lastDot?_eq_some.mp found
    have closes : Token.quotedBehind false (quoteQualified table) = false := (isWord_quoteQualified table).closes
    rw [quoteQualified_append table single, unquoted_append, closes]
    exact List.mem_append.mpr (.inr List.mem_cons_self)

theorem quote_eq_quoteQualified_iff {name : Text} : quote name = quoteQualified name ↔ '.' ∉ name := by
  constructor
  · -- A dot between parts shows outside the quotes, one inside a name does not.
    intro same dotted
    have shown := dot_mem_unquoted_quoteQualified dotted
    rw [← same] at shown
    exact dot_not_mem_unquoted_quote name shown
  · intro single
    rw [quoteQualified, split_of_not_mem single, List.map_singleton, List.intercalate_singleton]

end Identifier

/-- A place of a statement where a table is named. -/
inductive Mention
  | table (name : Text)
  | joined (name : Text)
  | dotted (name column : Text) (single : '.' ∉ column)
  | owned (name column : Text)
  deriving DecidableEq

namespace Mention

def name : Mention → Text
  | .table name | .joined name | .dotted name _ _ | .owned name _ => name

def map (rename : Text → Text) : Mention → Mention
  | .table name => .table (rename name)
  | .joined name => .joined (rename name)
  | .dotted name column single => .dotted (rename name) column single
  | .owned name column => .owned (rename name) column

def sql : Mention → Text
  | .table name => Identifier.quoteQualified name
  | .joined name => Identifier.quote name
  | .dotted name column _ => Identifier.quoteQualified (name ++ '.' :: column)
  | .owned name column => Identifier.quote name ++ '.' :: Identifier.quote column

/-- The reference to the table, with a dot and the column behind it where a column is meant. -/
def reference : Mention → Text
  | .table name | .joined name => Identifier.quoteQualified name
  | .dotted name column _ | .owned name column => Identifier.quoteQualified name ++ '.' :: Identifier.quote column

def isWhole : Mention → Bool
  | .joined _ | .owned .. => true
  | _ => false

theorem sql_eq_reference_iff (mention : Mention) :
    mention.sql = mention.reference ↔ ¬ (mention.isWhole = true ∧ '.' ∈ mention.name) := by
  cases mention with
  | table name => exact ⟨fun _ => nofun, fun _ => rfl⟩
  | joined name => exact Identifier.quote_eq_quoteQualified_iff.trans (by rw [isWhole, eq_self, true_and, Mention.name])
  | dotted name column single =>
    exact ⟨fun _ => nofun, fun _ => Identifier.quoteQualified_append name single⟩
  | owned name column =>
    rw [sql, reference, List.append_left_inj, Identifier.quote_eq_quoteQualified_iff, isWhole, eq_self, true_and,
      Mention.name]

end Mention

end LiteralSql
