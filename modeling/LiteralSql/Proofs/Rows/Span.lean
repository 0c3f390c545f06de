import LiteralSql.Proofs.Rows.Capture

/-! Where the bytes of a name, a value or a row end. -/

set_option autoImplicit false

namespace LiteralSql

namespace Bytes

structure Tight (bytes : List UInt8) : Prop where
  first : ∃ byte rest, bytes = byte :: rest ∧ isBlank byte = false
  last : ∃ rest byte, bytes = rest ++ [byte] ∧ isBlank byte = false

theorem Tight.nothing_before {blanks rest : List UInt8} (tight : Tight (blanks ++ rest))
    (blank : ∀ byte ∈ blanks, isBlank byte = true) : blanks = [] := by
  cases blanks with
  | nil => rfl
  | cons byte others =>
    obtain ⟨head, tail, split, visible⟩ := tight.first
    rw [List.cons_append, List.cons.injEq] at split
    rw [← split.1, blank byte List.mem_cons_self] at visible
    cases visible

theorem Tight.nothing_behind {rest blanks : List UInt8} (tight : Tight (rest ++ blanks))
    (blank : ∀ byte ∈ blanks, isBlank byte = true) : blanks = [] := by
  obtain rfl | ⟨others, byte, rfl⟩ := List.eq_nil_or_concat blanks
  · rfl
  · obtain ⟨tail, head, split, visible⟩ := tight.last
    rw [List.concat_eq_append, ← List.append_assoc] at split
    obtain ⟨-, same⟩ := List.append_inj' split rfl
    rw [← List.head_eq_of_cons_eq same, blank byte (by simp)] at visible
    cases visible

end Bytes

namespace Capture

open Bytes (Tight)

theorem first_token {bytes : List UInt8} (tight : Tight bytes) {text : Text} (spells : Spells bytes text)
    {token : JsonToken} {tokens : List JsonToken} (spread : JsonToken.Spread text (token :: tokens)) :
    ∃ lexeme rest left right, JsonToken.Lexeme token lexeme ∧ JsonToken.Spread rest tokens ∧
      bytes = left ++ right ∧ Spells left lexeme ∧ Spells right rest := by
  cases spread with
  | cons blank word more =>
    obtain ⟨blanks, others, rfl, blankSpells, otherSpells⟩ := spells.append_inv
    obtain ⟨left, right, rfl, wordSpells, restSpells⟩ := otherSpells.append_inv
    rw [tight.nothing_before fun byte member => (blank_bytes blank blankSpells byte member).1]
    exact ⟨_, _, left, right, word, more, rfl, wordSpells, restSpells⟩

theorem only_token {bytes : List UInt8} (tight : Tight bytes) {text : Text} (spells : Spells bytes text)
    {token : JsonToken} (spread : JsonToken.Spread text [token]) :
    ∃ lexeme, JsonToken.Lexeme token lexeme ∧ Spells bytes lexeme := by
  obtain ⟨lexeme, rest, left, right, word, more, rfl, wordSpells, restSpells⟩ := first_token tight spells spread
  cases more with
  | nil blank =>
    rw [tight.nothing_behind fun byte member => (blank_bytes blank restSpells byte member).1, List.append_nil]
    exact ⟨lexeme, word, wordSpells⟩

/-- The bytes of a scalar, all of which are kept until a byte follows that ends it. -/
def Bare (bytes : List UInt8) : Prop := bytes ≠ [] ∧ ∀ byte ∈ bytes, isScalarByte byte = true

def Whole (bytes : List UInt8) (opening : UInt8) : Prop :=
  bytes.head? = some opening ∧ empty.Closes bytes (partner opening)

theorem bare_or_whole {bytes : List UInt8} (tight : Tight bytes) {text : Text} (spells : Spells bytes text)
    {tokens : List JsonToken} (read : JsonToken.readAll text = some tokens) {tree : JsonTree}
    (done : JsonTree.ofTokens? tokens = some tree) :
    (tree.bracket? = none ∧ (∀ units, tree ≠ .string units) ∧ Bare bytes) ∨
    (∃ units, tree = .string units ∧ Whole bytes 0x22) ∨
    ∃ bracket, tree.bracket? = some bracket ∧ Whole bytes bracket := by
  have spread := JsonToken.readAll_spread read
  obtain ⟨token, rfl, scalar, bracket, string⟩ | ⟨units, rfl, rfl⟩ | ⟨bracket, container⟩ :=
    JsonTree.ofTokens?_cases done
  · obtain ⟨lexeme, word, wordSpells⟩ := only_token tight spells spread
    refine .inl ⟨bracket, string, ?_⟩
    cases word with
    | scalar kind some chars =>
      obtain ⟨all, some'⟩ := scalar_bytes chars wordSpells
      exact ⟨some' some, all⟩
    | _ => cases scalar
  · obtain ⟨lexeme, word, wordSpells⟩ := only_token tight spells spread
    refine .inr (.inl ⟨units, rfl, ?_⟩)
    cases word with
    | scalar kind => cases kind
    | string inside =>
      obtain ⟨middle, rfl, absorbed⟩ := string_bytes inside wordSpells
      exact ⟨rfl, 0x22 :: middle, _, _, rfl, absorbed [] [] (.inl rfl), push_endQuote _ _⟩
  -- Behind its first byte a container is read on with one bracket open.
  · obtain ⟨first, others, state, rfl, opens, brackets, run⟩ := container.rest
    obtain ⟨lexeme, rest, left, right, word, more, rfl, wordSpells, restSpells⟩ := first_token tight spells spread
    obtain ⟨rfl, known⟩ := opening_byte opens word wordSpells
    refine .inr (.inr ⟨bracket, container.kind, rfl, ?_⟩)
    have inside : state.brackets ≠ [] := by
      rw [brackets]
      exact List.cons_ne_nil _ _
    obtain ⟨value, trailing, outer, rfl, blank, root, closes⟩ := closes_run more run inside restSpells [bracket]
    rw [← List.append_assoc] at tight
    rw [tight.nothing_behind blank, List.append_nil]
    rw [JsonTree.root?_of_inside inside, brackets] at root
    rw [brackets, ← Option.some.inj root] at closes
    exact .of_absorb (absorb_cons (push_open (.inl rfl) known) []) closes

end Capture

theorem isValue_cases {bytes : List UInt8} (tight : Bytes.Tight bytes) (value : isValue bytes = true) :
    Capture.Bare bytes ∨ ∃ opening, Capture.Whole bytes opening := by
  obtain ⟨tree, parsed⟩ := Option.isSome_iff_exists.mp value
  obtain ⟨tokens, read, done⟩ := Option.bind_eq_some_iff.mp parsed
  obtain ⟨-, -, bare⟩ | ⟨_, -, whole⟩ | ⟨_, -, whole⟩ :=
    Capture.bare_or_whole tight (Spells.toChars bytes) read done
  · exact .inl bare
  · exact .inr ⟨_, whole⟩
  · exact .inr ⟨_, whole⟩

theorem parseBytes?_parts {bytes : List UInt8} {json : Json} (parsed : Json.parseBytes? bytes = some json) :
    ∃ text tokens tree, Spells bytes text ∧ JsonToken.readAll text = some tokens ∧
      JsonTree.ofTokens? tokens = some tree ∧ Json.ofTree? tree = some json := by
  obtain ⟨text, decoded, parsed⟩ := Option.bind_eq_some_iff.mp parsed
  obtain ⟨tokens, read, parsed⟩ := Option.bind_eq_some_iff.mp parsed
  split at parsed
  · cases parsed
  · obtain ⟨tree, done, json⟩ := Option.bind_eq_some_iff.mp parsed
    exact ⟨text, tokens, tree, Utf8.spells_of_decode? decoded, read, done, json⟩

theorem ofNumeral?_kind {numeral : JsonNumeral} {json : Json} (built : Json.ofNumeral? numeral = some json) :
    json.text? = none ∧ ∀ row, json ≠ .object row := by
  have double (known : (Json.numeralDouble? numeral).map Json.double = some json) :
      json.text? = none ∧ ∀ row, json ≠ .object row := by
    obtain ⟨_, -, rfl⟩ := Option.map_eq_some_iff.mp known
    exact ⟨rfl, nofun⟩
  unfold Json.ofNumeral? at built
  dsimp only at built
  repeat' split at built
  all_goals first
    | exact double built
    | rw [← Option.some.inj built]
      exact ⟨rfl, nofun⟩

theorem ofTree?_kind {tree : JsonTree} {json : Json} (built : Json.ofTree? tree = some json) :
    (∀ name, json.text? = some name → ∃ units, tree = .string units) ∧
      ∀ row, json = .object row → tree.bracket? = some 0x7B := by
  cases tree with
  | null | bool =>
    rw [Json.ofTree?] at built
    rw [← Option.some.inj built]
    exact ⟨(fun _ named => by cases named), fun _ same => by cases same⟩
  | number numeral =>
    rw [Json.ofTree?] at built
    obtain ⟨text, object⟩ := ofNumeral?_kind built
    rw [text]
    exact ⟨(fun _ named => by cases named), fun row same => absurd same (object row)⟩
  | string units =>
    rw [Json.ofTree?] at built
    obtain ⟨_, -, rfl⟩ := Option.map_eq_some_iff.mp built
    exact ⟨fun _ _ => ⟨units, rfl⟩, fun _ same => by cases same⟩
  | array items =>
    rw [Json.ofTree?] at built
    obtain ⟨_, -, rfl⟩ := Option.map_eq_some_iff.mp built
    exact ⟨(fun _ named => by cases named), fun _ same => by cases same⟩
  | object members =>
    rw [Json.ofTree?] at built
    obtain ⟨_, -, rfl⟩ := Option.map_eq_some_iff.mp built
    exact ⟨(fun _ named => by cases named), fun _ _ => rfl⟩

theorem memberName?_whole {bytes : List UInt8} (tight : Bytes.Tight bytes) {name : Text}
    (known : memberName? bytes = some name) : Capture.Whole bytes 0x22 := by
  obtain ⟨json, parsed, string⟩ := Option.bind_eq_some_iff.mp known
  obtain ⟨text, tokens, tree, spells, read, done, built⟩ := parseBytes?_parts parsed
  obtain ⟨units, rfl⟩ := (ofTree?_kind built).1 name string
  obtain ⟨-, other, -⟩ | ⟨_, -, whole⟩ | ⟨_, bracket, -⟩ := Capture.bare_or_whole tight spells read done
  · exact absurd rfl (other units)
  · exact whole
  · cases bracket

theorem rowOfBytes?_whole {bytes : List UInt8} (tight : Bytes.Tight bytes) {row : Row}
    (known : rowOfBytes? bytes = some row) : Capture.Whole bytes 0x7B := by
  rw [rowOfBytes?] at known
  split at known
  · next members parsed =>
    obtain ⟨text, tokens, tree, spells, read, done, built⟩ := parseBytes?_parts parsed
    have object := (ofTree?_kind built).2 members rfl
    obtain ⟨none, -, -⟩ | ⟨_, rfl, -⟩ | ⟨bracket, some, whole⟩ := Capture.bare_or_whole tight spells read done
    · rw [none] at object
      cases object
    · cases object
    · rw [object] at some
      rwa [← Option.some.inj some] at whole
  · cases known

end LiteralSql
