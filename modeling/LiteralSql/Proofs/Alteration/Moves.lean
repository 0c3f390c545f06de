import Mathlib.Data.List.Nodup
import LiteralSql.Proofs.Alteration.Replay

/-! Columns that are added, dropped and renamed kind by kind.

A run in the order of the calls is compared with one that adds first, drops
then and renames last. Both are followed at once through the calls: what stands
in the second run is what lasts to the end of the first, where the first has it
or, before it is added there, under its first name.
-/

set_option autoImplicit false

namespace LiteralSql.Alteration

def Change.newColumn? : Change → Option HeldColumn
  | .add name behind => some ⟨name, some behind⟩
  | _ => none

def newColumns (changes : List Change) : List HeldColumn := changes.filterMap Change.newColumn?

def Lasts (final : Columns) (column : HeldColumn) : Prop := ∃ name, final name = some column

def Known (columns : Columns) (changes : List Change) (column : HeldColumn) : Prop :=
  Lasts columns column ∨ column ∈ newColumns changes

/-- No two columns that are known have the same first name. -/
structure Apart (columns : Columns) (changes : List Change) : Prop where
  places {name other : Text} {column second : HeldColumn} : columns name = some column →
    columns other = some second → column.first = second.first → name = other
  added {column new : HeldColumn} : Lasts columns column → new ∈ newColumns changes → column.first ≠ new.first
  new : ((newColumns changes).map HeldColumn.first).Nodup

/-- Every rename is of a column that lasts, and no column that lasts is added
later under the new name. -/
def Moves (final : Columns) : List Change → Columns → Prop
  | [], _ => True
  | change :: rest, columns =>
    (∀ name newName, change = .rename name newName → ∀ column, columns name = some column →
      Lasts final column ∧ ∀ new ∈ newColumns rest, new.first = newName → ¬ Lasts final new) ∧
    ∀ next, change.place columns = some next → Moves final rest next

def Unmoved (final columns : Columns) : Prop :=
  ∀ name column, columns name = some column → Lasts final column ∨ column.first = name

/-- The table of the second run, beside that of the first. -/
def Stands (final places columns : Columns) (changes : List Change) : Prop :=
  ∀ name column, places name = some column ↔
    Lasts final column ∧ (columns name = some column ∨ column ∈ newColumns changes ∧ column.first = name)

theorem Columns.ext {first second : Columns}
    (same : ∀ name column, first name = some column ↔ second name = some column) : first = second :=
  funext fun name => Option.ext (same name)

section Steps

variable {change : Change} {rest : List Change} {columns next final places : Columns}
variable {name newName behind : Text} {column : HeldColumn}

theorem newColumns_add : newColumns (.add name behind :: rest) = ⟨name, some behind⟩ :: newColumns rest := rfl

theorem update_add (free : columns name = none) {added : HeldColumn} {other : Text} :
    Function.update columns name (some added) other = some column ↔
      columns other = some column ∨ other = name ∧ column = added := by
  by_cases same : other = name
  · subst same
    rw [Function.update_self, free, Option.some.injEq]
    exact ⟨fun same => .inr ⟨rfl, same.symm⟩, fun either => (either.resolve_left nofun).2.symm⟩
  · rw [Function.update_of_ne same]
    exact ⟨.inl, fun either => either.resolve_right fun here => same here.1⟩

theorem held_or_added_add (free : columns name = none) {other : Text} :
    Function.update columns name (some ⟨name, some behind⟩) other = some column ∨
        column ∈ newColumns rest ∧ column.first = other ↔
      columns other = some column ∨ column ∈ newColumns (.add name behind :: rest) ∧ column.first = other := by
  rw [update_add free, newColumns_add, List.mem_cons]
  constructor
  · rintro ((before | ⟨rfl, rfl⟩) | ⟨later, first⟩)
    · exact .inl before
    · exact .inr ⟨.inl rfl, rfl⟩
    · exact .inr ⟨.inr later, first⟩
  · rintro (before | ⟨rfl | later, first⟩)
    · exact .inl (.inl before)
    · exact .inl (.inr ⟨first.symm, rfl⟩)
    · exact .inr ⟨later, first⟩

theorem update_add_eq_none {added : HeldColumn} {other : Text} :
    Function.update columns name (some added) other = none ↔ other ≠ name ∧ columns other = none := by
  rw [Function.update_apply]
  split
  · next same => exact ⟨nofun, fun both => absurd same both.1⟩
  · next away => exact ⟨fun free => ⟨away, free⟩, And.right⟩

theorem update_drop {other : Text} :
    Function.update columns name none other = some column ↔ columns other = some column ∧ other ≠ name := by
  by_cases same : other = name
  · subst same
    rw [Function.update_self]
    exact ⟨nofun, fun both => absurd rfl both.2⟩
  · rw [Function.update_of_ne same]
    exact ⟨fun held => ⟨held, same⟩, And.left⟩

theorem update_drop_ne_none {other : Text} :
    Function.update columns name none other ≠ none ↔ other ≠ name ∧ columns other ≠ none := by
  rw [Function.update_apply]
  split
  · next same => exact ⟨fun present => absurd rfl present, fun both => absurd same both.1⟩
  · next away => exact ⟨fun present => ⟨away, present⟩, And.right⟩

theorem update_rename (free : columns newName = none) {moved : HeldColumn} {other : Text} :
    Function.update (Function.update columns name none) newName (some moved) other = some column ↔
      columns other = some column ∧ other ≠ name ∨ other = newName ∧ column = moved := by
  have gone : Function.update columns name none newName = none := by
    rw [Function.update_apply, free, ite_self]
  rw [update_add gone, update_drop]

theorem known_of_step (placed : change.place columns = some next) (known : Known next rest column) :
    Known columns (change :: rest) column := by
  rcases known with ⟨other, held⟩ | later
  · cases change with
    | add name behind =>
      obtain ⟨free, rfl⟩ := Change.place_add.mp placed
      rcases (update_add free).mp held with held | ⟨-, rfl⟩
      · exact .inl ⟨other, held⟩
      · exact .inr List.mem_cons_self
    | drop name =>
      obtain ⟨dropped, -, rfl⟩ := Change.place_drop.mp placed
      exact .inl ⟨other, (update_drop.mp held).1⟩
    | rename name newName =>
      obtain ⟨moved, found, free, rfl⟩ := Change.place_rename.mp placed
      rcases (update_rename free).mp held with ⟨held, -⟩ | ⟨-, rfl⟩
      · exact .inl ⟨other, held⟩
      · exact .inl ⟨name, found⟩
    | comment name text =>
      obtain ⟨-, rfl⟩ := Change.place_comment.mp placed
      exact .inl ⟨other, held⟩
  · cases change with
    | add name behind => exact .inr (List.mem_cons_of_mem _ later)
    | _ => exact .inr later

theorem known_step (other : change.isDrop = false) (placed : change.place columns = some next) :
    Known next rest column ↔ Known columns (change :: rest) column := by
  refine ⟨known_of_step placed, fun known => ?_⟩
  cases change with
  | add name behind =>
    obtain ⟨free, rfl⟩ := Change.place_add.mp placed
    rcases known with ⟨other, held⟩ | later
    · exact .inl ⟨other, (update_add free).mpr (.inl held)⟩
    · rcases List.mem_cons.mp later with rfl | later
      · exact .inl ⟨name, Function.update_self ..⟩
      · exact .inr later
  | drop name => cases other
  | rename name newName =>
    obtain ⟨moved, found, free, rfl⟩ := Change.place_rename.mp placed
    refine known.imp_left fun ⟨other, held⟩ => ?_
    by_cases same : other = name
    · subst same
      rw [found] at held
      exact ⟨newName, (update_rename free).mpr (.inr ⟨rfl, (Option.some.inj held).symm⟩)⟩
    · exact ⟨other, (update_rename free).mpr (.inl ⟨held, same⟩)⟩
  | comment name text =>
    obtain ⟨-, rfl⟩ := Change.place_comment.mp placed
    exact known

theorem Apart.known_drop (apart : Apart columns (.drop name :: rest)) {dropped : HeldColumn}
    (found : columns name = some dropped) :
    Known (Function.update columns name none) rest column ↔
      Known columns (.drop name :: rest) column ∧ column ≠ dropped := by
  constructor
  · intro known
    refine ⟨known_of_step (Change.place_drop.mpr ⟨dropped, found, rfl⟩) known, ?_⟩
    rintro rfl
    rcases known with ⟨other, held⟩ | later
    · obtain ⟨before, away⟩ := update_drop.mp held
      exact away (apart.places before found rfl)
    · exact apart.added ⟨name, found⟩ later rfl
  · rintro ⟨⟨other, held⟩ | later, away⟩
    · refine .inl ⟨other, update_drop.mpr ⟨held, ?_⟩⟩
      rintro rfl
      rw [found] at held
      exact away (Option.some.inj held).symm
    · exact .inr later

theorem Apart.step (apart : Apart columns (change :: rest)) (placed : change.place columns = some next) :
    Apart next rest := by
  cases change with
  | add name behind =>
    obtain ⟨free, rfl⟩ := Change.place_add.mp placed
    -- A column that comes in has been promised a first name that no other one has.
    have fresh : ∀ other column, columns other = some column → column.first ≠ name := fun other column held =>
      apart.added ⟨other, held⟩ List.mem_cons_self
    have distinct := List.nodup_cons.mp apart.new
    constructor
    · intro other another column second held also same
      rcases (update_add free).mp held with before | ⟨rfl, rfl⟩ <;>
        rcases (update_add free).mp also with beforeAlso | ⟨rfl, rfl⟩
      · exact apart.places before beforeAlso same
      · exact absurd same (fresh _ _ before)
      · exact absurd same.symm (fresh _ _ beforeAlso)
      · rfl
    · rintro column new ⟨other, held⟩ later same
      rcases (update_add free).mp held with held | ⟨rfl, rfl⟩
      · exact apart.added ⟨other, held⟩ (List.mem_cons_of_mem _ later) same
      · exact distinct.1 (List.mem_map.mpr ⟨new, later, same.symm⟩)
    · exact distinct.2
  | drop name =>
    obtain ⟨dropped, -, rfl⟩ := Change.place_drop.mp placed
    constructor
    · intro other another column second held also same
      exact apart.places (update_drop.mp held).1 (update_drop.mp also).1 same
    · rintro column new ⟨other, held⟩ later
      exact apart.added ⟨other, (update_drop.mp held).1⟩ later
    · exact apart.new
  | rename name newName =>
    obtain ⟨moved, found, free, rfl⟩ := Change.place_rename.mp placed
    constructor
    · intro other another column second held also same
      rcases (update_rename free).mp held with ⟨before, away⟩ | ⟨rfl, rfl⟩ <;>
        rcases (update_rename free).mp also with ⟨beforeAlso, awayAlso⟩ | ⟨rfl, rfl⟩
      · exact apart.places before beforeAlso same
      · exact absurd (apart.places before found same) away
      · exact absurd (apart.places beforeAlso found same.symm) awayAlso
      · rfl
    · rintro column new ⟨other, held⟩ later
      rcases (update_rename free).mp held with ⟨held, -⟩ | ⟨-, rfl⟩
      · exact apart.added ⟨other, held⟩ later
      · exact apart.added ⟨name, found⟩ later
    · exact apart.new
  | comment name text =>
    obtain ⟨-, rfl⟩ := Change.place_comment.mp placed
    exact ⟨apart.places, apart.added, apart.new⟩

theorem Apart.eq_of_first {changes : List Change} (apart : Apart columns changes) {second : HeldColumn}
    (known : Known columns changes column) (also : Known columns changes second)
    (same : column.first = second.first) : column = second := by
  rcases known with ⟨name, held⟩ | later
  · rcases also with ⟨other, also⟩ | also
    · rw [apart.places held also same, also] at held
      exact (Option.some.inj held).symm
    · exact absurd same (apart.added ⟨name, held⟩ also)
  · rcases also with also | also
    · exact absurd same.symm (apart.added also later)
    · exact List.inj_on_of_nodup_map apart.new later also same

theorem known_of_lasts {changes : List Change} (places : place changes columns = some final)
    (lasts : Lasts final column) : Known columns changes column := by
  induction changes generalizing columns with
  | nil =>
    cases places
    exact .inl lasts
  | cons change rest ih =>
    obtain ⟨next, placed, others⟩ := place_cons_eq_some.mp places
    exact known_of_step placed (ih others)

theorem Apart.not_lasts (apart : Apart columns (.drop name :: rest)) (found : columns name = some column)
    (places : place rest (Function.update columns name none) = some final) : ¬ Lasts final column :=
  fun lasts => ((apart.known_drop found).mp (known_of_lasts places lasts)).2 rfl

theorem Unmoved.step (unmoved : Unmoved final columns) (placed : change.place columns = some next)
    (moved : ∀ name newName, change = .rename name newName → ∀ column, columns name = some column → Lasts final column) :
    Unmoved final next := by
  intro other column held
  cases change with
  | add name behind =>
    obtain ⟨free, rfl⟩ := Change.place_add.mp placed
    rcases (update_add free).mp held with before | ⟨rfl, rfl⟩
    · exact unmoved other column before
    · exact .inr rfl
  | drop name =>
    obtain ⟨dropped, -, rfl⟩ := Change.place_drop.mp placed
    exact unmoved other column (update_drop.mp held).1
  | rename name newName =>
    obtain ⟨column', found, free, rfl⟩ := Change.place_rename.mp placed
    rcases (update_rename free).mp held with ⟨before, -⟩ | ⟨rfl, rfl⟩
    · exact unmoved other column before
    · exact .inl (moved _ _ rfl _ found)
  | comment name text =>
    obtain ⟨-, rfl⟩ := Change.place_comment.mp placed
    exact unmoved other column held

theorem Stands.add (stands : Stands final places columns (.add name behind :: rest)) (free : columns name = none) :
    Stands final places (Function.update columns name (some ⟨name, some behind⟩)) rest := by
  intro other column
  rw [stands, held_or_added_add free]

theorem Stands.drop (stands : Stands final places columns (.drop name :: rest)) (found : columns name = some column)
    (gone : ¬ Lasts final column) : Stands final places (Function.update columns name none) rest := by
  intro other second
  rw [stands, update_drop]
  refine and_congr_right fun lasts => or_congr_left ?_
  refine ⟨fun held => ⟨held, ?_⟩, And.left⟩
  rintro rfl
  rw [found] at held
  exact gone (Option.some.inj held ▸ lasts)

theorem Stands.rename (stands : Stands final places columns (.rename name newName :: rest))
    (apart : Apart columns (.rename name newName :: rest)) (found : columns name = some column)
    (free : columns newName = none) (lasts : Lasts final column)
    (vacant : ∀ new ∈ newColumns rest, new.first = newName → ¬ Lasts final new) :
    places name = some column ∧ places newName = none ∧
      Stands final (Function.update (Function.update places name none) newName (some column))
        (Function.update (Function.update columns name none) newName (some column)) rest := by
  have here : places name = some column := (stands name column).mpr ⟨lasts, .inl found⟩
  have target : places newName = none := by
    rw [Option.eq_none_iff_forall_not_mem]
    intro second held
    obtain ⟨also, there | ⟨later, first⟩⟩ := (stands newName second).mp held
    · rw [free] at there
      cases there
    · exact vacant second later first also
  refine ⟨here, target, fun other second => ?_⟩
  rw [update_rename target, update_rename free, stands]
  constructor
  · rintro (⟨⟨also, there | later⟩, away⟩ | ⟨rfl, rfl⟩)
    · exact ⟨also, .inl (.inl ⟨there, away⟩)⟩
    · exact ⟨also, .inr later⟩
    · exact ⟨lasts, .inl (.inr ⟨rfl, rfl⟩)⟩
  · rintro ⟨also, (there | moved) | ⟨later, first⟩⟩
    · exact .inl ⟨⟨also, .inl there.1⟩, there.2⟩
    · exact .inr moved
    · -- What is added later under the old name would stand there beside the column that moves.
      refine .inl ⟨⟨also, .inr ⟨later, first⟩⟩, ?_⟩
      rintro rfl
      have same := (stands other second).mpr ⟨also, .inr ⟨later, first⟩⟩
      rw [here] at same
      exact apart.added ⟨other, found⟩ later (congrArg HeldColumn.first (Option.some.inj same))

theorem Stands.moves (stands : Stands final places columns (.rename name newName :: rest))
    (apart : Apart columns (.rename name newName :: rest)) (unmoved : Unmoved final columns)
    (found : columns name = some column) {here : HeldColumn} (placed : places name = some here)
    (target : places newName = none) :
    Lasts final column ∧ ∀ new ∈ newColumns rest, new.first = newName → ¬ Lasts final new := by
  constructor
  · obtain ⟨also, there | ⟨later, first⟩⟩ := (stands name here).mp placed
    · rw [found] at there
      exact Option.some.inj there ▸ also
    · rcases unmoved name column found with lasts | same
      · exact lasts
      · exact absurd (same.trans first.symm) (apart.added ⟨name, found⟩ later)
  · intro new later first also
    have there := (stands newName new).mpr ⟨also, .inr ⟨later, first⟩⟩
    rw [target] at there
    cases there

theorem moves_cons_of_not_rename (other : change.isRename = false) (placed : change.place columns = some next) :
    Moves final (change :: rest) columns ↔ Moves final rest next := by
  constructor
  · exact fun moves => moves.2 next placed
  · intro moves
    refine ⟨?_, fun after same => ?_⟩
    · rintro name newName rfl
      cases other
    · rw [placed] at same
      exact Option.some.inj same ▸ moves

theorem moves_cons_rename (found : columns name = some column)
    (placed : (Change.rename name newName).place columns = some next) :
    Moves final (.rename name newName :: rest) columns ↔
      (Lasts final column ∧ ∀ new ∈ newColumns rest, new.first = newName → ¬ Lasts final new) ∧
        Moves final rest next := by
  constructor
  · exact fun moves => ⟨moves.1 _ _ rfl _ found, moves.2 next placed⟩
  · rintro ⟨good, moves⟩
    refine ⟨?_, fun after same => ?_⟩
    · rintro _ _ ⟨rfl, rfl⟩ second held
      rw [found] at held
      exact Option.some.inj held ▸ good
    · rw [placed] at same
      exact Option.some.inj same ▸ moves

end Steps

section Runs

variable {changes : List Change} {columns next final places : Columns}

/-- The renames, made behind everything else, lead to the same columns if and
only if they move what lasts to where nothing else will be. -/
theorem place_renames_iff (apart : Apart columns changes) (unmoved : Unmoved final columns)
    (valid : place changes columns = some final) (stands : Stands final places columns changes) :
    place (changes.filter Change.isRename) places = some final ↔ Moves final changes columns := by
  -- The induction is on the calls; `Stands` relates the tables of the two runs, and
  -- only at a rename does the second run do anything.
  induction changes generalizing columns places with
  | nil =>
    cases valid
    have same : places = final := Columns.ext fun name column => by
      rw [stands]
      exact ⟨fun both => both.2.resolve_right fun later => absurd later.1 List.not_mem_nil,
        fun held => ⟨⟨name, held⟩, .inl held⟩⟩
    rw [same]
    exact ⟨fun _ => trivial, fun _ => rfl⟩
  | cons change rest ih =>
    obtain ⟨next, placed, others⟩ := place_cons_eq_some.mp valid
    have later := apart.step placed
    cases change with
    | add name behind =>
      rw [moves_cons_of_not_rename rfl placed]
      have unmovedNext := unmoved.step placed nofun
      obtain ⟨free, rfl⟩ := Change.place_add.mp placed
      exact ih later unmovedNext others (stands.add free)
    | drop name =>
      rw [moves_cons_of_not_rename rfl placed]
      have unmovedNext := unmoved.step placed nofun
      obtain ⟨dropped, found, rfl⟩ := Change.place_drop.mp placed
      exact ih later unmovedNext others (stands.drop found (apart.not_lasts found others))
    | rename name newName =>
      obtain ⟨moved, found, free, rfl⟩ := Change.place_rename.mp placed
      rw [moves_cons_rename found placed]
      have unmovedNext (lasts : Lasts final moved) := unmoved.step placed fun _ _ same column held => by
        cases same
        rw [found] at held
        exact Option.some.inj held ▸ lasts
      change place (.rename name newName :: rest.filter Change.isRename) places = some final ↔ _
      rw [place_cons_eq_some]
      constructor
      · rintro ⟨after, placedThere, renames⟩
        obtain ⟨here, there, target, rfl⟩ := Change.place_rename.mp placedThere
        have good := stands.moves apart unmoved found there target
        obtain ⟨same, -, standsNext⟩ := stands.rename apart found free good.1 good.2
        rw [there] at same
        cases same
        exact ⟨good, (ih later (unmovedNext good.1) others standsNext).mp renames⟩
      · rintro ⟨good, moves⟩
        obtain ⟨there, target, standsNext⟩ := stands.rename apart found free good.1 good.2
        exact ⟨_, Change.place_rename.mpr ⟨moved, there, target, rfl⟩,
          (ih later (unmovedNext good.1) others standsNext).mpr moves⟩
    | comment name text =>
      rw [moves_cons_of_not_rename rfl placed]
      obtain ⟨-, rfl⟩ := Change.place_comment.mp placed
      exact ih later unmoved others stands

def droppedNames (changes : List Change) : List Text :=
  changes.filterMap fun
    | .drop name => some name
    | _ => none

theorem place_adds (adds : place (changes.filter Change.isAdd) columns = some next) :
    ((newColumns changes).map HeldColumn.first).Nodup ∧ (∀ new ∈ newColumns changes, columns new.first = none) ∧
      ∀ name column, next name = some column ↔
        columns name = some column ∨ column ∈ newColumns changes ∧ column.first = name := by
  induction changes generalizing columns with
  | nil =>
    cases adds
    exact ⟨List.nodup_nil, nofun, fun name column => ⟨.inl, fun either => either.resolve_right nofun⟩⟩
  | cons change rest ih =>
    cases change with
    | add name behind =>
      change place (.add name behind :: rest.filter Change.isAdd) columns = some next at adds
      obtain ⟨after, placed, others⟩ := place_cons_eq_some.mp adds
      obtain ⟨free, rfl⟩ := Change.place_add.mp placed
      obtain ⟨distinct, vacant, reached⟩ := ih others
      rw [newColumns_add, List.map_cons, List.nodup_cons, List.forall_mem_cons]
      refine ⟨⟨?_, distinct⟩, ⟨free, fun new later => (update_add_eq_none.mp (vacant new later)).2⟩, ?_⟩
      · intro member
        obtain ⟨new, later, same⟩ := List.mem_map.mp member
        exact (update_add_eq_none.mp (vacant new later)).1 same
      · intro other column
        rw [reached, held_or_added_add free, newColumns_add]
    | _ => exact ih adds

theorem exists_place_adds (distinct : ((newColumns changes).map HeldColumn.first).Nodup)
    (vacant : ∀ new ∈ newColumns changes, columns new.first = none) :
    ∃ next, place (changes.filter Change.isAdd) columns = some next := by
  induction changes generalizing columns with
  | nil => exact ⟨columns, rfl⟩
  | cons change rest ih =>
    cases change with
    | add name behind =>
      rw [newColumns_add] at distinct vacant
      obtain ⟨fresh, distinct⟩ := List.nodup_cons.mp distinct
      obtain ⟨free, vacant⟩ := List.forall_mem_cons.mp vacant
      obtain ⟨next, others⟩ := @ih (Function.update columns name (some ⟨name, some behind⟩)) distinct fun new later => by
        refine update_add_eq_none.mpr ⟨fun same => fresh ?_, vacant new later⟩
        exact List.mem_map.mpr ⟨new, later, same⟩
      exact ⟨next, place_cons_eq_some.mpr ⟨_, Change.place_add.mpr ⟨free, rfl⟩, others⟩⟩
    | _ => exact ih distinct vacant

theorem place_drops (drops : place (changes.filter Change.isDrop) columns = some next) (name : Text)
    (column : HeldColumn) : next name = some column ↔ columns name = some column ∧ name ∉ droppedNames changes := by
  induction changes generalizing columns with
  | nil =>
    cases drops
    exact (and_iff_left List.not_mem_nil).symm
  | cons change rest ih =>
    cases change with
    | drop other =>
      change place (.drop other :: rest.filter Change.isDrop) columns = some next at drops
      have names : droppedNames (.drop other :: rest) = other :: droppedNames rest := rfl
      obtain ⟨after, placed, others⟩ := place_cons_eq_some.mp drops
      obtain ⟨dropped, found, rfl⟩ := Change.place_drop.mp placed
      rw [ih others, update_drop, names, List.mem_cons, not_or, and_assoc]
    | _ => exact ih drops

theorem exists_place_drops (distinct : (droppedNames changes).Nodup)
    (present : ∀ name ∈ droppedNames changes, columns name ≠ none) :
    ∃ next, place (changes.filter Change.isDrop) columns = some next := by
  induction changes generalizing columns with
  | nil => exact ⟨columns, rfl⟩
  | cons change rest ih =>
    cases change with
    | drop name =>
      have names : droppedNames (.drop name :: rest) = name :: droppedNames rest := rfl
      rw [names] at distinct present
      obtain ⟨fresh, distinct⟩ := List.nodup_cons.mp distinct
      obtain ⟨here, present⟩ := List.forall_mem_cons.mp present
      obtain ⟨dropped, found⟩ := Option.ne_none_iff_exists'.mp here
      obtain ⟨next, others⟩ := @ih (Function.update columns name none) distinct fun other later => by
        refine update_drop_ne_none.mpr ⟨?_, present other later⟩
        rintro rfl
        exact fresh later
      exact ⟨next, place_cons_eq_some.mpr ⟨_, Change.place_drop.mpr ⟨dropped, found, rfl⟩, others⟩⟩
    | _ => exact ih distinct present

theorem lasts_of_renames (renames : place (changes.filter Change.isRename) columns = some next) (column : HeldColumn) :
    Lasts next column ↔ Lasts columns column := by
  induction changes generalizing columns with
  | nil =>
    cases renames
    rfl
  | cons change rest ih =>
    cases change with
    | rename name newName =>
      change place (.rename name newName :: rest.filter Change.isRename) columns = some next at renames
      obtain ⟨after, placed, others⟩ := place_cons_eq_some.mp renames
      obtain ⟨moved, found, free, rfl⟩ := Change.place_rename.mp placed
      rw [ih others]
      constructor
      · rintro ⟨other, held⟩
        rcases (update_rename free).mp held with ⟨before, -⟩ | ⟨-, rfl⟩
        · exact ⟨other, before⟩
        · exact ⟨name, found⟩
      · rintro ⟨other, held⟩
        by_cases same : other = name
        · subst same
          rw [found] at held
          exact ⟨newName, (update_rename free).mpr (.inr ⟨rfl, (Option.some.inj held).symm⟩)⟩
        · exact ⟨other, (update_rename free).mpr (.inl ⟨held, same⟩)⟩
    | _ => exact ih renames

/-- If only what lasts is renamed, the columns that do not last are dropped once
each, under their first names. -/
theorem mem_droppedNames (apart : Apart columns changes) (unmoved : Unmoved final columns)
    (valid : place changes columns = some final) (moves : Moves final changes columns) :
    (droppedNames changes).Nodup ∧ ∀ name, name ∈ droppedNames changes ↔
      ∃ column, Known columns changes column ∧ ¬ Lasts final column ∧ column.first = name := by
  induction changes generalizing columns with
  | nil =>
    cases valid
    refine ⟨List.nodup_nil, fun name => ⟨nofun, ?_⟩⟩
    rintro ⟨column, lasts | later, gone, -⟩
    · exact absurd lasts gone
    · cases later
  | cons change rest ih =>
    obtain ⟨next, placed, others⟩ := place_cons_eq_some.mp valid
    have moved := unmoved.step placed fun name newName same column held => (moves.1 name newName same column held).1
    obtain ⟨distinct, members⟩ := ih (apart.step placed) moved others (moves.2 next placed)
    cases change with
    | drop name =>
      obtain ⟨dropped, found, rfl⟩ := Change.place_drop.mp placed
      -- Only what does not last is dropped, and it has not been moved before.
      have gone : ¬ Lasts final dropped := apart.not_lasts found others
      have first : dropped.first = name := (unmoved name dropped found).resolve_left gone
      have known : Known columns (.drop name :: rest) dropped := .inl ⟨name, found⟩
      have names : droppedNames (.drop name :: rest) = name :: droppedNames rest := rfl
      rw [names]
      constructor
      · refine List.nodup_cons.mpr ⟨fun again => ?_, distinct⟩
        obtain ⟨column, also, -, same⟩ := (members name).mp again
        obtain ⟨also, away⟩ := (apart.known_drop found).mp also
        exact away (apart.eq_of_first also known (same.trans first.symm))
      · intro other
        rw [List.mem_cons, members]
        constructor
        · rintro (rfl | ⟨column, also, lost, same⟩)
          · exact ⟨dropped, known, gone, first⟩
          · exact ⟨column, ((apart.known_drop found).mp also).1, lost, same⟩
        · rintro ⟨column, also, lost, same⟩
          by_cases here : column = dropped
          · exact .inl (same.symm.trans (here ▸ first))
          · exact .inr ⟨column, (apart.known_drop found).mpr ⟨also, here⟩, lost, same⟩
    | _ =>
      refine ⟨distinct, fun other => (members other).trans ?_⟩
      exact exists_congr fun column => and_congr_left fun _ => known_step rfl placed

def Original (columns : Columns) : Prop := ∀ name column, columns name = some column → column.first = name

/-- No column is added under a name that a column had at first, be it there or added. -/
def Fresh (columns : Columns) (changes : List Change) : Prop :=
  ((newColumns changes).map HeldColumn.first).Nodup ∧ ∀ new ∈ newColumns changes, columns new.first = none

theorem Fresh.apart (fresh : Fresh columns changes) (original : Original columns) : Apart columns changes where
  places held also same := (original _ _ held).symm.trans (same.trans (original _ _ also))
  added := by
    rintro column new ⟨name, held⟩ later same
    have vacant := fresh.2 new later
    rw [← same, original name column held, held] at vacant
    cases vacant
  new := fresh.1

/-- Adding first, dropping then and renaming last leads to the columns of a run
in the order of the calls if and only if no name is added again and every
rename moves a column that lasts, to where none that lasts is added later. -/
theorem place_grouped_iff (original : Original columns) (valid : place changes columns = some final) :
    place (changes.filter Change.isAdd ++ changes.filter Change.isDrop ++ changes.filter Change.isRename) columns =
        some final ↔
      Fresh columns changes ∧ Moves final changes columns := by
  have unmoved : Unmoved final columns := fun name column held => .inr (original name column held)
  constructor
  · intro grouped
    obtain ⟨rest, front, renames⟩ := place_append_eq_some.mp grouped
    obtain ⟨stock, adds, drops⟩ := place_append_eq_some.mp front
    obtain ⟨distinct, vacant, stocked⟩ := place_adds adds
    have left := place_drops drops
    have fresh : Fresh columns changes := ⟨distinct, vacant⟩
    have named : ∀ name column, stock name = some column → column.first = name := by
      intro name column held
      rcases (stocked name column).mp held with held | ⟨-, first⟩
      · exact original name column held
      · exact first
    -- What the drops leave is what lasts: renames neither add nor take away a column.
    have stands : Stands final rest columns changes := by
      intro name column
      rw [← stocked]
      constructor
      · exact fun held => ⟨(lasts_of_renames renames column).mpr ⟨name, held⟩, ((left name column).mp held).1⟩
      · rintro ⟨lasts, held⟩
        obtain ⟨other, there⟩ := (lasts_of_renames renames column).mp lasts
        have same := named other column ((left other column).mp there).1
        rwa [← same, named name column held] at there
    exact ⟨fresh, (place_renames_iff (fresh.apart original) unmoved valid stands).mp renames⟩
  · rintro ⟨fresh, moves⟩
    have apart := fresh.apart original
    obtain ⟨distinct, dropped⟩ := mem_droppedNames apart unmoved valid moves
    -- Conversely all columns are there at once behind the additions, each under its first name.
    obtain ⟨stock, adds⟩ := exists_place_adds fresh.1 fresh.2
    obtain ⟨-, -, stocked⟩ := place_adds adds
    have known : ∀ name column, stock name = some column ↔ Known columns changes column ∧ column.first = name := by
      intro name column
      rw [stocked]
      constructor
      · rintro (held | ⟨later, first⟩)
        · exact ⟨.inl ⟨name, held⟩, original name column held⟩
        · exact ⟨.inr later, first⟩
      · rintro ⟨⟨other, held⟩ | later, first⟩
        · exact .inl (first ▸ original other column held ▸ held)
        · exact .inr ⟨later, first⟩
    obtain ⟨rest, drops⟩ := @exists_place_drops changes stock distinct fun name member => by
      obtain ⟨column, also, -, first⟩ := (dropped name).mp member
      exact Option.ne_none_iff_exists'.mpr ⟨column, (known name column).mpr ⟨also, first⟩⟩
    have stands : Stands final rest columns changes := by
      intro name column
      rw [place_drops drops, ← stocked, known, dropped, and_comm]
      refine and_congr_left fun here => ⟨fun kept => ?_, ?_⟩
      · by_contra lost
        exact kept ⟨column, here.1, lost, here.2⟩
      · rintro lasts ⟨other, also, lost, first⟩
        exact lost (apart.eq_of_first also here.1 (first.trans here.2.symm) ▸ lasts)
    have renames := (place_renames_iff apart unmoved valid stands).mpr moves
    exact place_append_eq_some.mpr ⟨rest, place_append_eq_some.mpr ⟨stock, adds, drops⟩, renames⟩

end Runs

end LiteralSql.Alteration
