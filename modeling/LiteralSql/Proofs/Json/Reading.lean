import LiteralSql.Json.Parser
import LiteralSql.Proofs.Dictionary
import LiteralSql.Proofs.Json.Frames
import LiteralSql.Proofs.Json.Printing

/-! Reading a printed document back.

A text denotes a document by its syntax alone: containers nest to any depth,
and a number with a point or an exponent is the double that it is rounded to.
What is printed denotes the document again, with its members in order.
-/

set_option autoImplicit false

namespace LiteralSql

namespace Json

def tree : Json → JsonTree
  | .null => .null
  | .bool value => .bool value
  | .integer number => .number (.ofInteger number)
  | .double (.finite negative rank) => .number (.ofDouble negative rank)
  | .double (.infinite _) => .null
  | .double .nan => .null
  | .string text => .string (units text)
  | .array items => .array (items.map fun item => tree item)
  | .object members => .object (members.map fun member => (units member.1, tree member.2))
termination_by document => sizeOf document
decreasing_by
  · exact sizeOf_item ‹_›
  · exact sizeOf_member ‹_›

end Json

namespace JsonTree

open Json

/-- The tokens of a document take its tree to where it belongs. -/
def Places (document : Json) : Prop := ∀ frames rest,
  (State.value frames).run (document.tokens ++ rest) = (place document.tree frames).run rest

theorem run_items {item : Json} {others : List Json} (each : ∀ other ∈ item :: others, Places other)
    (done : List JsonTree) (frames : List Frame) (rest : List JsonToken) :
    (State.value (.array done :: frames)).run
        ([.comma].intercalate ((item :: others).map fun item => item.tokens) ++ .closeArray :: rest) =
      (place (.array (done.reverse ++ (item :: others).map fun item => item.tree)) frames).run rest := by
  induction others generalizing item done with
  | nil =>
    rw [List.map_singleton, List.intercalate_singleton, each item List.mem_cons_self, place, run_cons_eq]
    change (place (.array (item.tree :: done).reverse) frames).run rest = _
    rw [List.reverse_cons]
    rfl
  | cons next others ih =>
    rw [List.map_cons, List.map_cons, List.intercalate_cons_cons, List.append_assoc, List.append_assoc,
      each item List.mem_cons_self, place, List.singleton_append, run_cons_eq, ← List.map_cons]
    change (State.value (.array (item.tree :: done) :: frames)).run _ = _
    rw [ih (fun other member => each other (List.mem_cons_of_mem item member)), List.reverse_cons, List.append_assoc]
    rfl

theorem run_members {member : Text × Json} {others : List (Text × Json)}
    (each : ∀ other ∈ member :: others, Places other.2) (done : List (List JsonUnit × JsonTree))
    (frames : List Frame) (rest : List JsonToken) :
    (State.nextName done frames).run
        ([.comma].intercalate ((member :: others).map fun member => .string (units member.1) :: .colon :: member.2.tokens) ++
          .closeObject :: rest) =
      (place (.object (done.reverse ++ (member :: others).map fun member => (units member.1, member.2.tree))) frames).run
        rest := by
  induction others generalizing member done with
  | nil =>
    rw [List.map_singleton, List.intercalate_singleton]
    change (State.value (.object done (units member.1) :: frames)).run (member.2.tokens ++ _) = _
    rw [each member List.mem_cons_self, place, run_cons_eq]
    change (place (.object ((units member.1, member.2.tree) :: done).reverse) frames).run rest = _
    rw [List.reverse_cons]
    rfl
  | cons next others ih =>
    rw [List.map_cons, List.map_cons, List.intercalate_cons_cons, List.append_assoc, List.append_assoc]
    change (State.value (.object done (units member.1) :: frames)).run (member.2.tokens ++ _) = _
    rw [each member List.mem_cons_self, place, List.singleton_append, run_cons_eq]
    have onward := ih (fun other held => each other (List.mem_cons_of_mem member held))
      ((units member.1, member.2.tree) :: done)
    rw [List.reverse_cons, List.append_assoc] at onward
    exact onward

theorem exists_cons_tokens (document : Json) : ∃ first more, document.tokens = first :: more ∧ first ≠ .closeArray := by
  cases document with
  | double number =>
    cases number <;> rw [tokens] <;> exact ⟨_, _, rfl, fun same => by cases same⟩
  | null | bool | integer | string | array | object =>
    rw [tokens]
    exact ⟨_, _, rfl, fun same => by cases same⟩

theorem places (document : Json) : Places document := by
  induction document using Json.induction with
  | null | bool value | integer number | string text =>
    intro frames rest
    rw [tokens, tree]
    rfl
  | double number =>
    intro frames rest
    cases number <;> rw [tokens, tree] <;> rfl
  | array items each =>
    intro frames rest
    rw [tokens, tree]
    change (State.firstItem frames).run ([.comma].intercalate _ ++ [.closeArray] ++ rest) = _
    rw [List.append_assoc, List.singleton_append]
    cases items with
    | nil => rfl
    | cons item others =>
      -- The first item is read in a state of its own, in which the array could still end.
      obtain ⟨first, more, begins, other⟩ := exists_cons_tokens item
      refine Eq.trans ?_ (run_items each [] frames rest)
      rw [List.map_cons, intercalate_cons, begins, List.append_assoc, List.cons_append]
      refine run_firstItem ?_ (List.cons_ne_nil _ _) frames
      rintro _ ⟨⟩
      exact other
  | object members each =>
    intro frames rest
    rw [tokens, tree]
    change (State.firstName frames).run ([.comma].intercalate _ ++ [.closeObject] ++ rest) = _
    rw [List.append_assoc, List.singleton_append]
    cases members with
    | nil => rfl
    | cons member others =>
      refine Eq.trans ?_ (run_members each [] frames rest)
      rw [List.map_cons, intercalate_cons]
      rfl

end JsonTree

theorem Json.ofTokens?_tokens (document : Json) : JsonTree.ofTokens? document.tokens = some document.tree := by
  have run := JsonTree.places document [] []
  rw [List.append_nil] at run
  rw [JsonTree.ofTokens?, run]
  rfl

namespace Json

/-- A number without point and exponent is an integer if 64 bits hold it; a
negative zero and all other numbers are doubles. -/
def ofNumeralWith? (round : JsonNumeral → Option Double) (numeral : JsonNumeral) : Option Json :=
  let asDouble := (round numeral).map Json.double
  match numeral.fraction, numeral.exponent with
  | none, none =>
    if numeral.negative then
      if Text.toNat numeral.whole = 0 then some (.double (.ofRank true 0))
      else ((JsonInteger.ofInt? (-Text.toNat numeral.whole)).map Json.integer).or asDouble
    else ((JsonInteger.ofInt? (Text.toNat numeral.whole)).map Json.integer).or asDouble
  | _, _ => asDouble

mutual

def ofTreeWith? (round : JsonNumeral → Option Double) : JsonTree → Option Json
  | .null => some .null
  | .bool value => some (.bool value)
  | .number numeral => ofNumeralWith? round numeral
  | .string units => (unitsText? units).map Json.string
  | .array items => (ofItemsWith? round items).map Json.array
  | .object members => (ofNamedWith? round members).map ofMembers

def ofItemsWith? (round : JsonNumeral → Option Double) : List JsonTree → Option (List Json)
  | [] => some []
  | item :: rest => do
    let first ← ofTreeWith? round item
    let others ← ofItemsWith? round rest
    some (first :: others)

def ofNamedWith? (round : JsonNumeral → Option Double) :
    List (List JsonUnit × JsonTree) → Option (List (Text × Json))
  | [] => some []
  | (name, value) :: rest => do
    let key ← unitsText? name
    let first ← ofTreeWith? round value
    let others ← ofNamedWith? round rest
    some ((key, first) :: others)

end

def readWith? (round : JsonNumeral → Option Double) (text : Text) : Option Json := do
  ofTreeWith? round (← JsonTree.ofTokens? (← JsonToken.readAll text))

def read? (text : Text) : Option Json := readWith? JsonNumeral.nearest? text

/-- The document with its members in order, and null for each number that is not finite. -/
def canonical : Json → Json
  | .null => .null
  | .bool value => .bool value
  | .integer number => .integer number
  | .double number => ofDouble number
  | .string text => .string text
  | .array items => .array (items.map fun item => canonical item)
  | .object members => ofMembers (members.map fun member => (member.1, canonical member.2))
termination_by document => sizeOf document
decreasing_by
  · exact sizeOf_item ‹_›
  · exact sizeOf_member ‹_›

/-- What every document is that has been read or built: the names of an object
ascend, and numbers are finite. -/
inductive WellFormed : Json → Prop
  | null : WellFormed .null
  | bool (value : Bool) : WellFormed (.bool value)
  | integer (number : JsonInteger) : WellFormed (.integer number)
  | double {number : Double} (finite : number.isFinite = true) : WellFormed (.double number)
  | string (text : Text) : WellFormed (.string text)
  | array {items : List Json} (each : ∀ item ∈ items, WellFormed item) : WellFormed (.array items)
  | object {members : List (Text × Json)} (ascending : Ascending members)
      (each : ∀ member ∈ members, WellFormed member.2) : WellFormed (.object members)

theorem WellFormed.canonical_eq {document : Json} (formed : document.WellFormed) : document.canonical = document := by
  induction formed with
  | null | bool value | integer number | string text => rw [canonical]
  | double finite => rw [canonical, ofDouble, if_pos finite]
  | @array items _ each =>
    have same : items.map canonical = items := (List.map_congr_left each).trans (List.map_id items)
    rw [canonical, same]
  | @object members ascending _ each =>
    have same : (members.map fun member => (member.1, member.2.canonical)) = members :=
      (List.map_congr_left fun member held => congrArg (Prod.mk member.1) (each member held)).trans (List.map_id members)
    rw [canonical, same, ofMembers, sortPairs_of_ascending ascending]

theorem unitsText?_code {code : Nat} (small : code < 0xD800) (rest : List JsonUnit) :
    unitsText? (.code code :: rest) = (unitsText? rest).map (Char.ofNat code :: ·) := by
  have high : ¬(0xD800 ≤ code ∧ code < 0xDC00) := by omega
  have low : ¬(0xDC00 ≤ code ∧ code < 0xE000) := by omega
  have surrogate : ¬(0xD800 ≤ code ∧ code < 0xE000) := by omega
  cases rest with
  | nil => exact if_neg surrogate
  | cons next others =>
    cases next with
    | char c => exact if_neg surrogate
    | code other => exact (if_neg high).trans (if_neg low)

theorem unitsText?_units (text : Text) : unitsText? (units text) = some text := by
  induction text with
  | nil => rfl
  | cons c others ih =>
    rw [units, List.map_cons, ← units, unitOf]
    split
    · next coded =>
      rw [unitsText?_code (by omega), ih, Char.ofNat_toNat]
      rfl
    · rw [unitsText?, ih]
      rfl

theorem ofInt?_value (number : JsonInteger) : JsonInteger.ofInt? number.value = some number := by
  rw [JsonInteger.ofInt?, dif_pos ⟨number.lower, number.upper⟩]

theorem ofNumeralWith?_ofInteger (round : JsonNumeral → Option Double) (number : JsonInteger) :
    ofNumeralWith? round (.ofInteger number) = some (.integer number) := by
  have natural : Text.toNat (Text.ofNat number.value.natAbs) = number.value.natAbs := Text.toNat_ofNat _
  rw [ofNumeralWith?, JsonNumeral.ofInteger]
  dsimp only
  rw [natural]
  obtain below | above := lt_or_ge number.value 0
  · have some : ¬number.value.natAbs = 0 := by omega
    have same : -(number.value.natAbs : Int) = number.value := by omega
    rw [if_pos (decide_eq_true below), if_neg some, same, ofInt?_value]
    rfl
  · have same : (number.value.natAbs : Int) = number.value := by omega
    rw [decide_eq_false (not_lt.mpr above), if_neg Bool.false_ne_true, same, ofInt?_value]
    rfl

theorem ofNumeralWith?_ofDouble (round : JsonNumeral → Option Double) (negative : Bool) (rank : Nat) :
    ofNumeralWith? round (.ofDouble negative rank) = (round (.ofDouble negative rank)).map .double := by
  have written := Decimal.numeral_not_integral negative (Decimal.ofRank .even rank)
  rw [← JsonNumeral.ofDouble] at written
  rw [ofNumeralWith?]
  generalize (round (.ofDouble negative rank)).map Json.double = asDouble
  cases fraction : (JsonNumeral.ofDouble negative rank).fraction with
  | some digits => rfl
  | none =>
    cases exponent : (JsonNumeral.ofDouble negative rank).exponent with
    | some part => rfl
    | none =>
      rw [fraction, exponent] at written
      obtain written | written := written <;> cases written

def ReadsDoubles (round : JsonNumeral → Option Double) : Prop :=
  ∀ (negative : Bool) (rank : Fin BinaryFormat.double.ranks),
    round (.ofDouble negative rank) = some (.finite negative rank)

theorem ofTreeWith?_tree {round : JsonNumeral → Option Double} (doubles : ReadsDoubles round) (document : Json) :
    ofTreeWith? round document.tree = some document.canonical := by
  induction document using Json.induction with
  | null | bool value =>
    rw [tree, canonical]
    rfl
  | integer number => rw [tree, canonical, ofTreeWith?, ofNumeralWith?_ofInteger]
  | double number =>
    cases number with
    | finite negative rank =>
      rw [tree, canonical, ofTreeWith?, ofNumeralWith?_ofDouble, doubles]
      rfl
    | infinite negative | nan =>
      rw [tree, canonical]
      rfl
  | string text =>
    rw [tree, canonical, ofTreeWith?, unitsText?_units]
    rfl
  | array items each =>
    -- The items by themselves, with what is known of each of them.
    have parts : ofItemsWith? round (items.map tree) = some (items.map canonical) := by
      induction items with
      | nil => rfl
      | cons item others ih =>
        rw [List.map_cons, ofItemsWith?, each item List.mem_cons_self,
          ih fun other member => each other (List.mem_cons_of_mem item member)]
        rfl
    rw [tree, canonical, ofTreeWith?, parts]
    rfl
  | object members each =>
    have parts : ofNamedWith? round (members.map fun member => (units member.1, member.2.tree)) =
        some (members.map fun member => (member.1, member.2.canonical)) := by
      induction members with
      | nil => rfl
      | cons member others ih =>
        rw [List.map_cons, ofNamedWith?, unitsText?_units, each member List.mem_cons_self,
          ih fun other held => each other (List.mem_cons_of_mem member held)]
        rfl
    rw [tree, canonical, ofTreeWith?, parts]
    rfl

theorem readWith?_print {round : JsonNumeral → Option Double} (doubles : ReadsDoubles round) (document : Json) :
    readWith? round document.print = some document.canonical := by
  rw [readWith?, readAll_print, Option.bind_eq_bind, Option.bind_some, ofTokens?_tokens, Option.bind_eq_bind,
    Option.bind_some, ofTreeWith?_tree doubles]

theorem read?_print (document : Json) : read? document.print = some document.canonical :=
  readWith?_print JsonNumeral.nearest?_ofDouble document

end Json

end LiteralSql
