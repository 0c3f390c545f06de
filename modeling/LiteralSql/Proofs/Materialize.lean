import Mathlib.Data.List.Forall2
import Mathlib.Data.List.SplitBy
import LiteralSql.Proofs.Layout
import LiteralSql.Sql.Statement

/-! What comes out of materializing statements, and which errors it can end with. -/

set_option autoImplicit false

namespace LiteralSql

section
variable {A B E : Type}

theorem bind_ok {first : Except E A} {next : A → Except E B} {result : B}
    (done : (first >>= next) = .ok result) : ∃ value, first = .ok value ∧ next value = .ok result := by
  cases first with
  | ok value => exact ⟨value, rfl, done⟩
  | error error => cases done

theorem bind_error {first : Except E A} {next : A → Except E B} {error : E}
    (failed : (first >>= next) = .error error) :
    first = .error error ∨ ∃ value, first = .ok value ∧ next value = .error error := by
  cases first with
  | ok value => exact .inr ⟨value, rfl, failed⟩
  | error other =>
    cases failed
    exact .inl rfl

theorem mapM_ok {step : A → Except E B} {items : List A} {results : List B}
    (done : items.mapM step = .ok results) :
    List.Forall₂ (fun item result => step item = .ok result) items results := by
  induction items generalizing results with
  | nil =>
    cases done
    exact .nil
  | cons item rest ih =>
    rw [List.mapM_cons] at done
    obtain ⟨result, head, done⟩ := bind_ok done
    obtain ⟨others, tail, same⟩ := bind_ok done
    cases same
    exact .cons head (ih tail)

theorem mapM_of_related {step : A → Except E B} {items : List A} {results : List B}
    (each : List.Forall₂ (fun item result => step item = .ok result) items results) :
    items.mapM step = .ok results := by
  induction each with
  | nil => rfl
  | cons head _ ih =>
    rw [List.mapM_cons, head, ih]
    rfl

theorem mapM_error {step : A → Except E B} {items : List A} {error : E}
    (failed : items.mapM step = .error error) : ∃ item ∈ items, step item = .error error := by
  induction items with
  | nil => cases failed
  | cons item rest ih =>
    rw [List.mapM_cons] at failed
    obtain head | ⟨result, -, failed⟩ := bind_error failed
    · exact ⟨item, List.mem_cons_self, head⟩
    · obtain tail | ⟨others, -, impossible⟩ := bind_error failed
      · obtain ⟨other, member, same⟩ := ih tail
        exact ⟨other, List.mem_cons_of_mem item member, same⟩
      · cases impossible

theorem related_of_mem {R : A → B → Prop} {items : List A} {results : List B}
    (related : List.Forall₂ R items results) {item : A} (member : item ∈ items) :
    ∃ result ∈ results, R item result := by
  induction related with
  | nil => cases member
  | cons head _ ih =>
    cases member with
    | head => exact ⟨_, List.mem_cons_self, head⟩
    | tail _ member =>
      obtain ⟨result, held, same⟩ := ih member
      exact ⟨result, List.mem_cons_of_mem _ held, same⟩

theorem map_eq_map_iff_related {view : A → B} {items others : List A} :
    items.map view = others.map view ↔ List.Forall₂ (fun item other => view item = view other) items others := by
  rw [← List.forall₂_map_right_iff (R := fun item held => view item = held), ← List.forall₂_map_left_iff (f := view),
    List.forall₂_eq_eq_eq]

theorem exists_related {R : A → B → Prop} {items : List A}
    (each : ∀ item ∈ items, ∃ result, R item result) : ∃ results, List.Forall₂ R items results := by
  induction items with
  | nil => exact ⟨[], .nil⟩
  | cons item rest ih =>
    obtain ⟨result, head⟩ := each item List.mem_cons_self
    obtain ⟨results, tail⟩ := ih fun other member => each other (List.mem_cons_of_mem item member)
    exact ⟨result :: results, .cons head tail⟩

end

section
variable {expected actual : Nat}

theorem Flat.failed_of_andThen {first second : Except SqlError Flat} {error : SqlError}
    (failed : andThen first second = .error error) : first = .error error ∨ second = .error error := by
  obtain head | ⟨left, -, failed⟩ := bind_error failed
  · exact .inl head
  · obtain tail | ⟨right, -, impossible⟩ := bind_error failed
    · exact .inr tail
    · cases impossible

theorem Flat.fill_failed {tokens : List SqlToken} {bindings : List (Value × Except SqlError Flat)}
    {error : SqlError} (failed : fill tokens bindings = .error error) :
    (∃ type, error = .invalidIdentifier type) ∨ ∃ binding ∈ bindings, binding.2 = .error error := by
  induction tokens generalizing bindings with
  | nil => cases failed
  | cons token rest ih =>
    obtain ⟨c, step⟩ | none | ⟨bound, flat, others, rfl, step⟩ := fill_cons_cases token rest bindings
    · rw [step] at failed
      obtain head | tail := failed_of_andThen failed
      · cases head
      · exact ih tail
    · rw [none] at failed
      cases failed
    · have later (tail : fill rest others = .error error) : (∃ type, error = .invalidIdentifier type) ∨
          ∃ binding ∈ (bound, flat) :: others, binding.2 = .error error :=
        (ih tail).imp_right fun ⟨binding, member, same⟩ => ⟨binding, List.mem_cons_of_mem _ member, same⟩
      obtain step | step := step
      · rw [step] at failed
        obtain head | tail := failed_of_andThen failed
        · cases bound <;> cases head <;> exact .inl ⟨_, rfl⟩
        · exact later tail
      · rw [step] at failed
        obtain head | tail := failed_of_andThen failed
        · exact .inr ⟨(bound, flat), List.mem_cons_self, head⟩
        · exact later tail

theorem Value.mem_flatPairs {values : List Value} {binding : Value × Except SqlError Flat}
    (member : binding ∈ flatPairs values) : ∃ value ∈ values, binding = (value, value.flat) := by
  rw [flatPairs_eq_map] at member
  obtain ⟨value, held, same⟩ := List.mem_map.mp member
  exact ⟨value, held, same.symm⟩

theorem renderRun_failed [LocalZone] {zone : TimeZone} {rows : List Flat} {error : SqlError}
    (failed : renderRun zone rows = .error error) :
    ∃ row ∈ rows, ∃ value ∈ row.values, value.literal zone = .error error := by
  cases rows with
  | nil => cases failed
  | cons first others =>
    rw [renderRun] at failed
    split at failed
    · cases failed
    · obtain failed | ⟨lines, -, impossible⟩ := bind_error failed
      · obtain ⟨row, member, failed⟩ := mapM_error failed
        obtain failed | ⟨literals, -, impossible⟩ := bind_error failed
        · exact ⟨row, member, mapM_error failed⟩
        · cases impossible
      · cases impossible

theorem Statement.materialize_failed [LocalZone] {statement : Statement} {zone : TimeZone} {error : SqlError}
    (failed : statement.materialize zone = .error error) :
    ∃ row ∈ statement.bindings.rows, Flat.ofBindings statement.sql row = .error error ∨
      ∃ flat, Flat.ofBindings statement.sql row = .ok flat ∧
        ∃ value ∈ flat.values, value.literal zone = .error error := by
  rw [materialize] at failed
  split at failed
  · cases failed
  · obtain failed | ⟨flats, filled, failed⟩ := bind_error failed
    · obtain ⟨row, member, failed⟩ := mapM_error failed
      exact ⟨row, member, .inl failed⟩
    · obtain failed | ⟨blocks, -, impossible⟩ := bind_error failed
      · obtain ⟨run, held, failed⟩ := mapM_error failed
        obtain ⟨flat, inside, refused⟩ := renderRun_failed failed
        have member : flat ∈ (runs flats).flatten := List.mem_flatten_of_mem held inside
        rw [runs, List.flatten_splitBy] at member
        obtain ⟨row, member, same⟩ := related_of_mem (mapM_ok filled).flip member
        exact ⟨row, member, .inr ⟨flat, same, refused⟩⟩
      · cases impossible

end

end LiteralSql
