import Mathlib.Logic.Function.Basic
import LiteralSql.Text

/-! What changes of a table do to its columns and to their comments.

A column is told apart from the others by the name that it had first and by
what its definition says, so it can be followed through renames. The comments
are kept by the present names of their columns. A change that cannot be made
ends a run without a result.
-/

set_option autoImplicit false

namespace LiteralSql.Alteration

/-- A column by the name that it got first; if it was added, with what its
definition says behind the name. -/
structure HeldColumn where
  first : Text
  behind : Option Text
  deriving DecidableEq

abbrev Columns := Text → Option HeldColumn

abbrev Comments := Text → Option Text

structure Table where
  columns : Columns
  comments : Comments

inductive Change
  | add (name behind : Text)
  | drop (name : Text)
  | rename (name newName : Text)
  /-- Sets the comment of a column, or takes it away. -/
  | comment (name : Text) (text : Option Text)
  deriving DecidableEq

namespace Change

def place : Change → Columns → Option Columns
  | .add name behind, columns =>
    match columns name with
    | none => some (Function.update columns name (some ⟨name, some behind⟩))
    | some _ => none
  | .drop name, columns => (columns name).map fun _ => Function.update columns name none
  | .rename name newName, columns =>
    match columns name, columns newName with
    | some column, none => some (Function.update (Function.update columns name none) newName (some column))
    | _, _ => none
  | .comment name _, columns => (columns name).map fun _ => columns

def annotate : Change → Comments → Comments
  | .add name _, comments | .drop name, comments => Function.update comments name none
  | .rename name newName, comments =>
    Function.update (Function.update comments name none) newName (comments name)
  | .comment name text, comments => Function.update comments name text

def apply (change : Change) (table : Table) : Option Table :=
  (change.place table.columns).map fun columns => ⟨columns, change.annotate table.comments⟩

def name : Change → Text
  | .add name _ | .drop name | .rename name _ | .comment name _ => name

def isAdd : Change → Bool
  | .add .. => true
  | _ => false

def isDrop : Change → Bool
  | .drop .. => true
  | _ => false

def isRename : Change → Bool
  | .rename .. => true
  | _ => false

def isComment : Change → Bool
  | .comment .. => true
  | _ => false

variable {columns next : Columns}

theorem place_add {name behind : Text} : (add name behind).place columns = some next ↔
    columns name = none ∧ next = Function.update columns name (some ⟨name, some behind⟩) := by
  rw [place]
  cases columns name with
  | none => exact ⟨fun same => ⟨rfl, (Option.some.inj same).symm⟩, fun ⟨_, same⟩ => congrArg some same.symm⟩
  | some column => exact ⟨nofun, nofun⟩

theorem place_drop {name : Text} : (drop name).place columns = some next ↔
    ∃ column, columns name = some column ∧ next = Function.update columns name none := by
  rw [place, Option.map_eq_some_iff]
  exact exists_congr fun column => and_congr_right fun _ => eq_comm

theorem place_rename {name newName : Text} : (rename name newName).place columns = some next ↔
    ∃ column, columns name = some column ∧ columns newName = none ∧
      next = Function.update (Function.update columns name none) newName (some column) := by
  rw [place]
  split
  · next column found free =>
    rw [Option.some.injEq]
    refine ⟨fun same => ⟨column, found, free, same.symm⟩, ?_⟩
    rintro ⟨other, same, -, rfl⟩
    rw [Option.some.inj (found.symm.trans same)]
  · next other =>
    refine ⟨nofun, ?_⟩
    rintro ⟨column, found, free, -⟩
    exact absurd free (other column found)

theorem place_comment {name : Text} {text : Option Text} : (comment name text).place columns = some next ↔
    (∃ column, columns name = some column) ∧ next = columns := by
  rw [place, Option.map_eq_some_iff, ← exists_and_right]
  exact exists_congr fun column => and_congr_right fun _ => eq_comm

end Change

def place (changes : List Change) (columns : Columns) : Option Columns :=
  changes.foldlM (fun columns change => change.place columns) columns

def annotate (changes : List Change) (comments : Comments) : Comments :=
  changes.foldl (fun comments change => change.annotate comments) comments

def run (changes : List Change) (table : Table) : Option Table :=
  changes.foldlM (fun table change => change.apply table) table

section Runs

variable {change : Change} {changes first second : List Change} {columns final : Columns}

theorem place_cons : place (change :: changes) columns = (change.place columns).bind (place changes) := rfl

theorem place_append : place (first ++ second) columns = (place first columns).bind (place second) := by
  rw [place, List.foldlM_append]
  rfl

theorem place_cons_eq_some : place (change :: changes) columns = some final ↔
    ∃ next, change.place columns = some next ∧ place changes next = some final := by
  rw [place_cons, Option.bind_eq_some_iff]

theorem place_append_eq_some : place (first ++ second) columns = some final ↔
    ∃ next, place first columns = some next ∧ place second next = some final := by
  rw [place_append, Option.bind_eq_some_iff]

theorem annotate_cons {comments : Comments} :
    annotate (change :: changes) comments = annotate changes (change.annotate comments) := rfl

theorem annotate_append {comments : Comments} :
    annotate (first ++ second) comments = annotate second (annotate first comments) :=
  List.foldl_append

/-- Columns and comments can be followed apart: no change depends on a comment. -/
theorem run_eq_some {table last : Table} : run changes table = some last ↔
    place changes table.columns = some last.columns ∧ last.comments = annotate changes table.comments := by
  induction changes generalizing table with
  | nil =>
    constructor
    · intro same
      cases same
      exact ⟨rfl, rfl⟩
    · rintro ⟨places, comments⟩
      cases table
      cases last
      cases Option.some.inj places
      cases comments
      rfl
  | cons change rest ih =>
    have unfolded : run (change :: rest) table = (change.apply table).bind (run rest) := rfl
    rw [unfolded, place_cons_eq_some, annotate_cons, Option.bind_eq_some_iff]
    constructor
    · rintro ⟨next, applied, runs⟩
      obtain ⟨columns, placed, rfl⟩ := Option.map_eq_some_iff.mp applied
      obtain ⟨places, comments⟩ := ih.mp runs
      exact ⟨⟨columns, placed, places⟩, comments⟩
    · rintro ⟨⟨columns, placed, places⟩, comments⟩
      exact ⟨⟨columns, change.annotate table.comments⟩, Option.map_eq_some_iff.mpr ⟨columns, placed, rfl⟩,
        ih.mpr ⟨places, comments⟩⟩

end Runs

end LiteralSql.Alteration
