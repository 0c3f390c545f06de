import LiteralSql.Proofs.Alteration.Moves

/-! Changes in the order of their calls and the same changes kind by kind.

Kind by kind, the comments come last and name the columns as they were called
when they were added. The condition under which nothing is different then is
the one for the columns, and one for the names that got comments.
-/

set_option autoImplicit false

namespace LiteralSql.Alteration

/-- The changes kind by kind, in the order in which they are written. -/
def grouped (changes : List Change) : List Change :=
  changes.filter Change.isAdd ++ changes.filter Change.isDrop ++ changes.filter Change.isRename ++
    changes.filter Change.isComment

/-- A comment is given right behind the column to which it belongs. -/
inductive Attached : List Change → Prop
  | nil : Attached []
  | plain {change : Change} {rest : List Change} : change.isComment = false → Attached rest → Attached (change :: rest)
  | noted {name behind : Text} {text : Option Text} {rest : List Change} : Attached rest →
      Attached (.add name behind :: .comment name text :: rest)

def Table.original (held : Text → Option (Option Text)) : Table where
  columns name := (held name).map fun _ => ⟨name, none⟩
  comments name := (held name).join

/-- The changes can be regrouped: no name is added again, no column is renamed
that does not last, and the comments stand under the names for which they were
given. -/
structure Regroups (table : Table) (changes : List Change) (final : Table) : Prop where
  fresh : Fresh table.columns changes
  moves : Moves final.columns changes table.columns
  given : ∀ name text, .comment name text ∈ changes → final.columns name ≠ none ∧ final.comments name = text
  told : ∀ name column, final.columns name = some column → column.behind ≠ none → final.comments name ≠ none →
    ∃ text, .comment name text ∈ changes

/-- The comments are such as the columns may have, and none is without a column. -/
structure Tells (allowed : HeldColumn → Option Text → Prop) (columns : Columns) (comments : Comments) : Prop where
  absent {name : Text} : columns name = none → comments name = none
  present {name : Text} {column : HeldColumn} : columns name = some column → allowed column (comments name)

def commentNames (changes : List Change) : List Text :=
  changes.filterMap fun
    | .comment name _ => some name
    | _ => none

section Comments

variable {allowed : HeldColumn → Option Text → Prop} {change : Change} {changes : List Change}
variable {columns next final : Columns} {comments : Comments}

theorem Tells.step (tells : Tells allowed columns comments) (placed : change.place columns = some next)
    (new : ∀ name behind, allowed ⟨name, some behind⟩ none)
    (own : ∀ name text, change = .comment name text → ∀ column, columns name = some column → allowed column text) :
    Tells allowed next (change.annotate comments) := by
  cases change with
  | add name behind =>
    obtain ⟨free, rfl⟩ := Change.place_add.mp placed
    constructor
    · intro other vacant
      obtain ⟨away, vacant⟩ := update_add_eq_none.mp vacant
      rw [Change.annotate, Function.update_of_ne away]
      exact tells.absent vacant
    · intro other column held
      rw [Change.annotate]
      by_cases same : other = name
      · subst same
        rw [Function.update_self] at held ⊢
        exact Option.some.inj held ▸ new _ _
      · rw [Function.update_of_ne same] at held ⊢
        exact tells.present held
  | drop name =>
    obtain ⟨dropped, found, rfl⟩ := Change.place_drop.mp placed
    constructor
    · intro other vacant
      rw [Change.annotate]
      by_cases same : other = name
      · rw [same, Function.update_self]
      · rw [Function.update_of_ne same] at vacant ⊢
        exact tells.absent vacant
    · intro other column held
      obtain ⟨held, away⟩ := update_drop.mp held
      rw [Change.annotate, Function.update_of_ne away]
      exact tells.present held
  | rename name newName =>
    obtain ⟨moved, found, free, rfl⟩ := Change.place_rename.mp placed
    constructor
    · intro other vacant
      obtain ⟨away, vacant⟩ := update_add_eq_none.mp vacant
      rw [Change.annotate, Function.update_of_ne away]
      by_cases same : other = name
      · rw [same, Function.update_self]
      · rw [Function.update_of_ne same] at vacant ⊢
        exact tells.absent vacant
    · intro other column held
      rw [Change.annotate]
      -- The comment moves along with its column.
      by_cases same : other = newName
      · subst same
        rw [Function.update_self] at held ⊢
        exact Option.some.inj held ▸ tells.present found
      · rw [Function.update_of_ne same] at held ⊢
        obtain ⟨held, away⟩ := update_drop.mp held
        rw [Function.update_of_ne away]
        exact tells.present held
  | comment name text =>
    obtain ⟨⟨column, found⟩, rfl⟩ := Change.place_comment.mp placed
    constructor
    · intro other vacant
      have away : other ≠ name := by
        rintro rfl
        rw [found] at vacant
        cases vacant
      rw [Change.annotate, Function.update_of_ne away]
      exact tells.absent vacant
    · intro other column held
      rw [Change.annotate]
      by_cases same : other = name
      · subst same
        rw [Function.update_self]
        exact own _ _ rfl column held
      · rw [Function.update_of_ne same]
        exact tells.present held

theorem Tells.run (tells : Tells allowed columns comments) (places : place changes columns = some final)
    (new : ∀ name behind, allowed ⟨name, some behind⟩ none) (silent : ∀ change ∈ changes, change.isComment = false) :
    Tells allowed final (annotate changes comments) := by
  induction changes generalizing columns comments with
  | nil =>
    cases places
    exact tells
  | cons change rest ih =>
    obtain ⟨next, placed, others⟩ := place_cons_eq_some.mp places
    obtain ⟨quiet, silent⟩ := List.forall_mem_cons.mp silent
    refine ih (tells.step placed new ?_) others silent
    rintro name text rfl
    cases quiet

theorem Attached.tells (attached : Attached changes) (tells : Tells allowed columns comments)
    (places : place changes columns = some final) (new : ∀ name behind text, allowed ⟨name, some behind⟩ text) :
    Tells allowed final (annotate changes comments) := by
  induction attached generalizing columns comments with
  | nil =>
    cases places
    exact tells
  | plain quiet _ ih =>
    obtain ⟨next, placed, others⟩ := place_cons_eq_some.mp places
    refine ih (tells.step placed (fun _ _ => new _ _ _) ?_) others
    rintro name text rfl
    cases quiet
  | @noted name behind text rest _ ih =>
    obtain ⟨next, placed, others⟩ := place_cons_eq_some.mp places
    obtain ⟨after, commented, others⟩ := place_cons_eq_some.mp others
    have added := tells.step placed (fun _ _ => new _ _ _) nofun
    refine ih (added.step commented (fun _ _ => new _ _ _) ?_) others
    rintro _ _ ⟨rfl, rfl⟩ column held
    obtain ⟨-, rfl⟩ := Change.place_add.mp placed
    rw [Function.update_self] at held
    exact Option.some.inj held ▸ new _ _ _

theorem mem_commentNames {name : Text} : name ∈ commentNames changes ↔ ∃ text, .comment name text ∈ changes := by
  rw [commentNames, List.mem_filterMap]
  constructor
  · rintro ⟨change, member, found⟩
    cases change with
    | comment other text =>
      cases found
      exact ⟨text, member⟩
    | _ => cases found
  · rintro ⟨text, member⟩
    exact ⟨_, member, rfl⟩

theorem Attached.sublist (attached : Attached changes) :
    (commentNames changes).Sublist ((newColumns changes).map HeldColumn.first) := by
  induction attached with
  | nil => exact .slnil
  | @plain change rest quiet _ ih =>
    cases change with
    | add name behind => exact .cons _ ih
    | drop name => exact ih
    | rename name newName => exact ih
    | comment name text => cases quiet
  | noted _ ih => exact .cons_cons _ ih

theorem mem_cons_comment {name : Text} {text : Option Text} (quiet : change.isComment = false) :
    Change.comment name text ∈ change :: changes ↔ .comment name text ∈ changes := by
  rw [List.mem_cons]
  refine or_iff_right ?_
  rintro rfl
  cases quiet

theorem place_comments_iff : place (changes.filter Change.isComment) columns = some next ↔
    next = columns ∧ ∀ name text, .comment name text ∈ changes → columns name ≠ none := by
  induction changes with
  | nil => exact ⟨fun same => ⟨(Option.some.inj same).symm, nofun⟩, fun both => congrArg some both.1.symm⟩
  | cons change rest ih =>
    by_cases noted : change.isComment = true
    · cases change with
      | comment name text =>
        change place (.comment name text :: rest.filter Change.isComment) columns = some next ↔ _
        rw [place_cons_eq_some]
        constructor
        · rintro ⟨after, placed, others⟩
          obtain ⟨⟨column, found⟩, rfl⟩ := Change.place_comment.mp placed
          obtain ⟨same, present⟩ := ih.mp others
          refine ⟨same, fun other told member => ?_⟩
          rcases List.mem_cons.mp member with here | later
          · cases here
            exact Option.ne_none_iff_exists'.mpr ⟨column, found⟩
          · exact present other told later
        · rintro ⟨same, present⟩
          have here := Option.ne_none_iff_exists'.mp (present name text List.mem_cons_self)
          exact ⟨columns, Change.place_comment.mpr ⟨here, rfl⟩,
            ih.mpr ⟨same, fun other told later => present other told (List.mem_cons_of_mem _ later)⟩⟩
      | _ => cases noted
    · rw [List.filter_cons_of_neg noted, ih]
      simp only [mem_cons_comment (Bool.eq_false_iff.mpr noted)]

/-- A comment stays that of the name for which it is given once. -/
theorem annotate_comments (distinct : (commentNames changes).Nodup) (name : Text) :
    (∀ text, .comment name text ∈ changes → annotate (changes.filter Change.isComment) comments name = text) ∧
      (name ∉ commentNames changes → annotate (changes.filter Change.isComment) comments name = comments name) := by
  induction changes generalizing comments with
  | nil => exact ⟨nofun, fun _ => rfl⟩
  | cons change rest ih =>
    cases change with
    | comment other told =>
      have names : commentNames (.comment other told :: rest) = other :: commentNames rest := rfl
      rw [names] at distinct ⊢
      obtain ⟨fresh, distinct⟩ := List.nodup_cons.mp distinct
      obtain ⟨given, kept⟩ := @ih (Function.update comments other told) distinct
      change (∀ text, _ → annotate (rest.filter Change.isComment) (Function.update comments other told) name = text) ∧
        (_ → annotate (rest.filter Change.isComment) (Function.update comments other told) name = _)
      constructor
      · intro text member
        rcases List.mem_cons.mp member with here | later
        · cases here
          rw [kept fresh, Function.update_self]
        · exact given text later
      · intro absent
        rw [List.mem_cons, not_or] at absent
        rw [kept absent.2, Function.update_of_ne absent.1]
    | _ =>
      obtain ⟨given, kept⟩ := @ih comments distinct
      exact ⟨fun text member => given text ((mem_cons_comment rfl).mp member), kept⟩

end Comments

def ownComment (held : Text → Option (Option Text)) (column : HeldColumn) : Option Text :=
  if column.behind = none then (held column.first).join else none

section Original

variable {held : Text → Option (Option Text)} {changes : List Change}

theorem original_columns : Original (Table.original held).columns := by
  intro name column found
  obtain ⟨text, -, rfl⟩ := Option.map_eq_some_iff.mp found
  rfl

theorem tells_original {allowed : HeldColumn → Option Text → Prop}
    (own : ∀ name, allowed ⟨name, none⟩ (held name).join) :
    Tells allowed (Table.original held).columns (Table.original held).comments where
  absent {name} vacant := by
    have gone : held name = none := Option.map_eq_none_iff.mp vacant
    change (held name).join = none
    rw [gone, Option.join_none]
  present found := by
    obtain ⟨text, -, rfl⟩ := Option.map_eq_some_iff.mp found
    exact own _

theorem Attached.keeps (attached : Attached changes) {final : Columns}
    (places : place changes (Table.original held).columns = some final) :
    Tells (fun column text => column.behind = none → text = ownComment held column) final
      (annotate changes (Table.original held).comments) :=
  attached.tells (tells_original fun _ _ => rfl) places nofun

theorem tells_ungiven {front : List Change} (silent : ∀ change ∈ front, change.isComment = false) {final : Columns}
    (places : place front (Table.original held).columns = some final) :
    Tells (fun column text => text = ownComment held column) final (annotate front (Table.original held).comments) :=
  (tells_original fun _ => rfl).run places (fun _ _ => rfl) silent

/-- Regrouping makes no difference if and only if the changes regroup. -/
theorem run_grouped_iff (attached : Attached changes) {final : Table}
    (valid : run changes (Table.original held) = some final) :
    run (grouped changes) (Table.original held) = some final ↔ Regroups (Table.original held) changes final := by
  obtain ⟨places, comments⟩ := run_eq_some.mp valid
  have keeps := attached.keeps places
  rw [← comments] at keeps
  rw [run_eq_some, grouped, place_append_eq_some, annotate_append]
  generalize layers : changes.filter Change.isAdd ++ changes.filter Change.isDrop ++ changes.filter Change.isRename = front
  have silent : ∀ change ∈ front, change.isComment = false := by
    rw [← layers]
    intro change member
    cases change with
    | comment name text =>
      simp [Change.isAdd, Change.isDrop, Change.isRename] at member
    | _ => rfl
  have columns := place_grouped_iff original_columns places
  rw [layers] at columns
  constructor
  · rintro ⟨⟨next, placed, told⟩, same⟩
    obtain ⟨rfl, present⟩ := place_comments_iff.mp told
    obtain ⟨fresh, moves⟩ := columns.mp placed
    have last := @annotate_comments changes (annotate front (Table.original held).comments) (attached.sublist.nodup fresh.1)
    have own := tells_ungiven silent placed
    refine ⟨fresh, moves, fun name text member => ⟨present name text member, ?_⟩, fun name column found added told => ?_⟩
    · rw [same]
      exact (last name).1 text member
    · -- Without a comment statement for its name, an added column has no comment in the second run.
      by_contra absent
      rw [← mem_commentNames] at absent
      rw [same, (last name).2 absent, own.present found, ownComment, if_neg added] at told
      exact told rfl
  · intro regroups
    have placed := columns.mpr ⟨regroups.fresh, regroups.moves⟩
    have last := @annotate_comments changes (annotate front (Table.original held).comments)
      (attached.sublist.nodup regroups.fresh.1)
    have own := tells_ungiven silent placed
    refine ⟨⟨_, placed, place_comments_iff.mpr ⟨rfl, fun name text member => (regroups.given name text member).1⟩⟩, ?_⟩
    funext name
    -- Under a name that got no comment, both runs show what its column has by itself.
    by_cases given : name ∈ commentNames changes
    · obtain ⟨text, member⟩ := mem_commentNames.mp given
      rw [(last name).1 text member, (regroups.given name text member).2]
    · rw [(last name).2 given]
      cases found : final.columns name with
      | none => rw [keeps.absent found, own.absent found]
      | some column =>
        rw [own.present found]
        by_cases there : column.behind = none
        · exact keeps.present found there
        · rw [ownComment, if_neg there]
          by_contra told
          exact given (mem_commentNames.mpr (regroups.told name column found there told))

end Original

end LiteralSql.Alteration
