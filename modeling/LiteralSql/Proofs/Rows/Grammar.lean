import LiteralSql.Proofs.Rows.Span

/-! The bodies that a response may have.

What a single name, row or value is, is left to the JSON reader. The grammar
says how they stand together in the body.
-/

set_option autoImplicit false

namespace LiteralSql

/-- The bytes of a body, each with the row that it closes. -/
abbrev Script := List (UInt8 × Option Row)

namespace Script

def bytes (script : Script) : List UInt8 := script.map Prod.fst

def rows (script : Script) : List Row := script.filterMap Prod.snd

def still (bytes : List UInt8) : Script := bytes.map fun byte => (byte, none)

@[simp] theorem bytes_append (first second : Script) : (first ++ second).bytes = first.bytes ++ second.bytes :=
  List.map_append

@[simp] theorem rows_append (first second : Script) : (first ++ second).rows = first.rows ++ second.rows :=
  List.filterMap_append

@[simp] theorem bytes_still (bytes : List UInt8) : (still bytes).bytes = bytes := by
  rw [still, Script.bytes, List.map_map]
  exact List.map_id bytes

@[simp] theorem rows_still (bytes : List UInt8) : (still bytes).rows = [] := by
  rw [still, rows, List.filterMap_map, List.filterMap_eq_nil_iff]
  exact fun _ _ => rfl

theorem still_append (first second : List UInt8) : still (first ++ second) = still first ++ still second :=
  List.map_append

def Blank (script : Script) : Prop :=
  ∃ bytes, script = still bytes ∧ ∀ byte ∈ bytes, Bytes.isBlank byte = true

theorem Blank.nil : Blank [] := ⟨[], rfl, by simp⟩

theorem Blank.rows {script : Script} (blank : Blank script) : script.rows = [] := by
  obtain ⟨bytes, rfl, -⟩ := blank
  exact rows_still bytes

theorem Blank.append {first second : Script} (left : Blank first) (right : Blank second) :
    Blank (first ++ second) := by
  obtain ⟨bytes, rfl, blank⟩ := left
  obtain ⟨others, rfl, more⟩ := right
  refine ⟨bytes ++ others, (still_append _ _).symm, ?_⟩
  intro byte member
  rw [List.mem_append] at member
  exact member.elim (blank byte) (more byte)

theorem Blank.single {byte : UInt8} (blank : Bytes.isBlank byte = true) : Blank (still [byte]) :=
  ⟨[byte], rfl, by simpa using blank⟩

inductive Padded (core : Script → Prop) : Script → Prop
  | intro {before inside behind : Script} (lead : Blank before) (is : core inside) (trail : Blank behind) :
      Padded core (before ++ (inside ++ behind))

inductive Series (item : Script → Prop) : Script → Prop
  | single {last : Script} (is : Padded item last) : Series item last
  | more {before last : Script} (series : Series item before) (is : Padded item last) :
      Series item (before ++ (still [0x2C] ++ last))

inductive Bracketed (opening closing : UInt8) (item : Script → Prop) : Script → Prop
  | empty {blanks : Script} (blank : Blank blanks) :
      Bracketed opening closing item (still [opening] ++ (blanks ++ still [closing]))
  | full {items : Script} (series : Series item items) :
      Bracketed opening closing item (still [opening] ++ (items ++ still [closing]))

/-- A row, which belongs to its closing brace. -/
inductive RowSpan : Script → Prop
  | intro {inner : List UInt8} {row : Row} (tight : Bytes.Tight (inner ++ [0x7D]))
      (accepted : rowOfBytes? (inner ++ [0x7D]) = some row) : RowSpan (still inner ++ [(0x7D, some row)])

inductive Value (name : Text) : Script → Prop
  | rows {array : Script} (key : name = RowScanner.rowsKey) (is : Bracketed 0x5B 0x5D RowSpan array) :
      Value name array
  | other {span : List UInt8} (tight : Bytes.Tight span) (accepted : isValue span = true)
      (kept : ¬(name = RowScanner.rowsKey ∧ span.head? = some 0x5B)) : Value name (still span)

inductive Member : Script → Prop
  | intro {key : List UInt8} {name : Text} {before behind value : Script} (tight : Bytes.Tight key)
      (accepted : memberName? key = some name) (lead : Blank before) (trail : Blank behind)
      (is : Value name value) :
      Member (still key ++ (before ++ (still [0x3A] ++ (behind ++ value))))

def Document : Script → Prop := Padded (Bracketed 0x7B 0x7D Member)

theorem Padded.trailing {core : Script → Prop} {script blanks : Script} (padded : Padded core script)
    (blank : Blank blanks) : Padded core (script ++ blanks) := by
  obtain ⟨lead, is, trail⟩ := padded
  rw [List.append_assoc, List.append_assoc]
  exact .intro lead is (trail.append blank)

theorem Series.trailing {item : Script → Prop} {script blanks : Script} (series : Series item script)
    (blank : Blank blanks) : Series item (script ++ blanks) := by
  cases series with
  | single is => exact .single (is.trailing blank)
  | more series is =>
    rw [List.append_assoc, List.append_assoc]
    exact .more series (is.trailing blank)

end Script

end LiteralSql
