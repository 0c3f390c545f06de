import LiteralSql.Json.Printer
import LiteralSql.Proofs.Json.Numerals

/-! The tokens that a document is printed as.

They are read back one by one: a number ends where the next token begins,
because a bracket, a comma or a colon is printed between any two scalars.
-/

set_option autoImplicit false

namespace LiteralSql

namespace Json

theorem sizeOf_item {item : Json} {items : List Json} (member : item ∈ items) :
    sizeOf item < sizeOf (Json.array items) := by
  have smaller := List.sizeOf_lt_of_mem member
  rw [Json.array.sizeOf_spec]
  omega

theorem sizeOf_member {member : Text × Json} {members : List (Text × Json)} (held : member ∈ members) :
    sizeOf member.2 < sizeOf (Json.object members) := by
  have smaller := List.sizeOf_lt_of_mem held
  obtain ⟨name, value⟩ := member
  rw [Prod.mk.sizeOf_spec] at smaller
  rw [Json.object.sizeOf_spec]
  change sizeOf value < _
  omega

@[elab_as_elim]
theorem induction {motive : Json → Prop} (null : motive .null) (bool : ∀ value, motive (.bool value))
    (integer : ∀ number, motive (.integer number)) (double : ∀ number, motive (.double number))
    (string : ∀ text, motive (.string text))
    (array : ∀ items, (∀ item ∈ items, motive item) → motive (.array items))
    (object : ∀ members : List (Text × Json), (∀ member ∈ members, motive member.2) → motive (.object members)) :
    ∀ document, motive document
  | .null => null
  | .bool value => bool value
  | .integer number => integer number
  | .double number => double number
  | .string text => string text
  | .array items => array items fun item _ => induction null bool integer double string array object item
  | .object members =>
    object members fun member _ => induction null bool integer double string array object member.2
termination_by document => sizeOf document
decreasing_by
  · exact sizeOf_item ‹_›
  · exact sizeOf_member ‹_›

def lettered : Text := ['\n', '\r', '\t', '\x08', '\x0c']

/-- What a character of a string is read as: other control characters are written by their code. -/
def unitOf (c : Char) : JsonUnit := if c.toNat < 0x20 ∧ c ∉ lettered then .code c.toNat else .char c

def units (text : Text) : List JsonUnit := text.map unitOf

end Json

def JsonUnit.text : JsonUnit → Text
  | .char c => Json.escapeChar c
  | .code value => ['\\', 'u', '0', '0', Hex.lowerDigit (value / 16), Hex.lowerDigit (value % 16)]

def JsonToken.text : JsonToken → Text
  | .openArray => ['[']
  | .closeArray => [']']
  | .openObject => ['{']
  | .closeObject => ['}']
  | .comma => [',']
  | .colon => [':']
  | .null => "null".toList
  | .bool true => "true".toList
  | .bool false => "false".toList
  | .number numeral => numeral.text
  | .string units => '"' :: units.flatMap JsonUnit.text ++ ['"']

namespace Json

def tokens : Json → List JsonToken
  | .null => [.null]
  | .bool value => [.bool value]
  | .integer number => [.number (.ofInteger number)]
  | .double (.finite negative rank) => [.number (.ofDouble negative rank)]
  | .double (.infinite _) => [.null]
  | .double .nan => [.null]
  | .string text => [.string (units text)]
  | .array items => .openArray :: [.comma].intercalate (items.map fun item => tokens item) ++ [.closeArray]
  | .object members =>
    .openObject :: [.comma].intercalate
      (members.map fun member => .string (units member.1) :: .colon :: tokens member.2) ++ [.closeObject]
termination_by document => sizeOf document
decreasing_by
  · exact sizeOf_item ‹_›
  · exact sizeOf_member ‹_›

theorem escapeChar_of_plain {c : Char} (quote : c ≠ '"') (backslash : c ≠ '\\') (visible : ¬c.toNat < 0x20) :
    escapeChar c = [c] := by
  have other (control : Char) (low : control.toNat < 0x20) : c ≠ control := by
    rintro rfl
    exact visible low
  rw [escapeChar, if_neg quote, if_neg backslash, if_neg (other _ (by decide)), if_neg (other _ (by decide)),
    if_neg (other _ (by decide)), if_neg (other _ (by decide)), if_neg (other _ (by decide)), if_neg visible]

theorem text_unitOf (c : Char) : (unitOf c).text = escapeChar c := by
  rw [unitOf]
  split
  · next coded =>
    obtain ⟨control, other⟩ := coded
    simp only [lettered, List.mem_cons, List.not_mem_nil, or_false, not_or] at other
    have quote : c ≠ '"' := by
      rintro rfl
      exact absurd control (by decide)
    have backslash : c ≠ '\\' := by
      rintro rfl
      exact absurd control (by decide)
    rw [JsonUnit.text, escapeChar, if_neg quote, if_neg backslash, if_neg other.1, if_neg other.2.1,
      if_neg other.2.2.1, if_neg other.2.2.2.1, if_neg other.2.2.2.2, if_pos control]
  · rfl

theorem quote_eq (text : Text) : quote text = (JsonToken.string (units text)).text := by
  rw [JsonToken.text, units, List.flatMap_map, quote]
  simp only [text_unitOf]

theorem printItems_eq (items : List Json) : printItems items = items.map print := by
  induction items with
  | nil => rfl
  | cons item rest ih => rw [printItems, ih, List.map_cons]

theorem printMembers_eq (members : List (Text × Json)) :
    printMembers members = members.map fun member => quote member.1 ++ ':' :: member.2.print := by
  induction members with
  | nil => rfl
  | cons member rest ih => rw [printMembers, ih, List.map_cons]

theorem print_eq (document : Json) : document.print = document.tokens.flatMap JsonToken.text := by
  induction document using Json.induction with
  | null =>
    rw [print, tokens, List.flatMap_singleton]
    rfl
  | bool value =>
    rw [tokens, List.flatMap_singleton]
    cases value with
    | true => rw [print]; rfl
    | false => rw [print]; rfl
  | integer number => rw [print, tokens, List.flatMap_singleton, JsonToken.text, JsonNumeral.text_ofInteger]
  | double number =>
    rw [print]
    cases number with
    | finite negative rank => rw [tokens, List.flatMap_singleton, JsonToken.text, JsonNumeral.text_ofDouble]
    | infinite negative => rw [tokens, List.flatMap_singleton]; rfl
    | nan => rw [tokens, List.flatMap_singleton]; rfl
  | string text => rw [print, tokens, List.flatMap_singleton, quote_eq]
  | array items each =>
    have same : items.map print = items.map fun item => item.tokens.flatMap JsonToken.text := List.map_congr_left each
    rw [print, printItems_eq, tokens, List.flatMap_append, List.flatMap_cons, flatMap_intercalate, List.map_map, same]
    rfl
  | object members each =>
    have same : (members.map fun member => quote member.1 ++ ':' :: member.2.print) = members.map fun member =>
        (.string (units member.1) :: .colon :: member.2.tokens : List JsonToken).flatMap JsonToken.text :=
      List.map_congr_left fun member held => by
        rw [List.flatMap_cons, List.flatMap_cons, ← quote_eq, each member held]
        rfl
    rw [print, printMembers_eq, tokens, List.flatMap_append, List.flatMap_cons, flatMap_intercalate, List.map_map, same]
    rfl

end Json

namespace JsonToken

def Written : JsonToken → Prop
  | .number numeral => numeral.Written
  | .string units => ∃ text, units = Json.units text
  | _ => True

def Parts (tokens : List JsonToken) : Prop := ∀ next ∈ tokens.head?, next.isScalar = false

/-- Tokens that are read back from their text: no scalar follows a scalar. -/
inductive Legible : List JsonToken → Prop
  | nil : Legible []
  | cons {token : JsonToken} {tokens : List JsonToken} (written : token.Written)
      (apart : token.isScalar = true → Parts tokens) (rest : Legible tokens) : Legible (token :: tokens)

theorem Legible.written {tokens : List JsonToken} (legible : Legible tokens) : ∀ token ∈ tokens, token.Written := by
  induction legible with
  | nil => nofun
  | cons written _ _ ih => exact List.forall_mem_cons.mpr ⟨written, ih⟩

def Precedes (part : List JsonToken) : Prop := ∀ rest, Parts rest → Legible rest → Legible (part ++ rest)

theorem Precedes.single {token : JsonToken} (written : token.Written) : Precedes [token] :=
  fun _ parts legible => .cons written (fun _ => parts) legible

theorem Precedes.cons {token : JsonToken} {part : List JsonToken} (written : token.Written)
    (other : token.isScalar = false) (rest : Precedes part) : Precedes (token :: part) :=
  fun tokens parts legible => .cons written (fun scalar => by rw [scalar] at other; cases other)
    (rest tokens parts legible)

theorem Precedes.intercalate {parts : List (List JsonToken)} (each : ∀ part ∈ parts, Precedes part) :
    Precedes ([.comma].intercalate parts) := by
  induction parts with
  | nil => exact fun _ _ legible => legible
  | cons part others ih =>
    have head := each part List.mem_cons_self
    have tail := ih fun other member => each other (List.mem_cons_of_mem part member)
    cases others with
    | nil => rwa [List.intercalate_singleton]
    | cons next others =>
      intro rest parts legible
      rw [List.intercalate_cons_cons, List.append_assoc, List.append_assoc]
      have comma : Precedes (.comma :: [.comma].intercalate (next :: others)) := .cons trivial rfl tail
      refine head _ ?_ (comma rest parts legible)
      rintro _ ⟨⟩
      rfl

theorem Precedes.closed {part : List JsonToken} {close : JsonToken} (inside : Precedes part)
    (written : close.Written) (other : close.isScalar = false) : Precedes (part ++ [close]) := by
  intro rest _ legible
  rw [List.append_assoc]
  refine inside _ ?_ (.cons written (fun scalar => by rw [scalar] at other; cases other) legible)
  rintro _ ⟨⟩
  exact other

end JsonToken

namespace Json

open JsonToken in
theorem precedes_tokens (document : Json) : Precedes document.tokens := by
  induction document using Json.induction with
  | null =>
    rw [tokens]
    exact .single trivial
  | bool value =>
    rw [tokens]
    exact .single trivial
  | integer number =>
    rw [tokens]
    exact .single (JsonNumeral.written_ofInteger number)
  | double number =>
    cases number with
    | finite negative rank =>
      rw [tokens]
      exact .single (JsonNumeral.written_ofDouble negative rank)
    | infinite negative =>
      rw [tokens]
      exact .single trivial
    | nan =>
      rw [tokens]
      exact .single trivial
  | string text =>
    rw [tokens]
    exact .single ⟨text, rfl⟩
  | array items each =>
    rw [tokens]
    -- Between two items there is a comma, which is no scalar.
    refine .closed (.cons trivial rfl (.intercalate fun part member => ?_)) trivial rfl
    obtain ⟨item, held, rfl⟩ := List.mem_map.mp member
    exact each item held
  | object members each =>
    rw [tokens]
    refine .closed (.cons trivial rfl (.intercalate fun part found => ?_)) trivial rfl
    obtain ⟨member, held, rfl⟩ := List.mem_map.mp found
    exact .cons ⟨member.1, rfl⟩ rfl (.cons trivial rfl (each member held))

theorem legible_tokens (document : Json) : JsonToken.Legible document.tokens := by
  have legible := precedes_tokens document [] nofun .nil
  rwa [List.append_nil] at legible

end Json

namespace JsonToken

theorem hexCode?_lowerDigit {value : Nat} (small : value < 0x20) :
    hexCode? '0' '0' (Hex.lowerDigit (value / 16)) (Hex.lowerDigit (value % 16)) = some value := by
  have codes : ∀ value < 0x20,
      hexCode? '0' '0' (Hex.lowerDigit (value / 16)) (Hex.lowerDigit (value % 16)) = some value := by decide
  exact codes value small

theorem readString_unit (c : Char) (rest : Text) :
    readString ((Json.unitOf c).text ++ rest) =
      (readString rest).map fun (units, after) => (Json.unitOf c :: units, after) := by
  by_cases special : c ∈ '"' :: '\\' :: Json.lettered
  · simp only [Json.lettered, List.mem_cons, List.not_mem_nil, or_false] at special
    rcases special with rfl | rfl | rfl | rfl | rfl | rfl | rfl
    all_goals
      change Option.bind (readString rest) _ = _
      cases readString rest <;> rfl
  · simp only [List.mem_cons, not_or] at special
    obtain ⟨quote, backslash, other⟩ := special
    by_cases control : c.toNat < 0x20
    · have coded : Json.unitOf c = .code c.toNat := if_pos ⟨control, other⟩
      rw [coded]
      change (hexCode? '0' '0' (Hex.lowerDigit (c.toNat / 16)) (Hex.lowerDigit (c.toNat % 16))).bind _ = _
      rw [hexCode?_lowerDigit control]
      change Option.bind (readString rest) _ = _
      cases readString rest <;> rfl
    · have plain : Json.unitOf c = .char c := if_neg fun both => control both.1
      rw [plain, JsonUnit.text, Json.escapeChar_of_plain quote backslash control, List.singleton_append, readString,
        if_neg control]
      all_goals intros; contradiction

theorem readString_units (text rest : Text) :
    readString ((Json.units text).flatMap JsonUnit.text ++ '"' :: rest) = some (Json.units text, rest) := by
  induction text with
  | nil => rfl
  | cons c others ih =>
    rw [Json.units, List.map_cons, List.flatMap_cons, List.append_assoc, ← Json.units, readString_unit, ih]
    rfl

theorem read_text {token : JsonToken} (written : token.Written) {rest : Text}
    (apart : token.isScalar = true → Stops rest) : read (token.text ++ rest) = some (token, rest) := by
  cases token with
  | openArray | closeArray | openObject | closeObject | comma | colon | null => rfl
  | bool value => cases value <;> rfl
  | number numeral => exact read_written written (apart rfl)
  | string units =>
    obtain ⟨text, rfl⟩ := written
    change (readString (((Json.units text).flatMap JsonUnit.text ++ ['"']) ++ rest)).map _ = _
    rw [List.append_assoc, List.singleton_append, readString_units]
    rfl

theorem not_isBlank_of_isScalarChar {c : Char} (scalar : isScalarChar c = true) : isBlank c = false := by
  by_contra blank
  simp only [isBlank, Bool.or_eq_true, decide_eq_true_eq, Bool.not_eq_false] at blank
  obtain ((rfl | rfl) | rfl) | rfl := blank <;> cases scalar

theorem exists_cons_text {token : JsonToken} (written : token.Written) : ∃ c others, token.text = c :: others ∧
    isBlank c = false ∧ (token.isScalar = false → isScalarChar c = false) := by
  cases token with
  | openArray | closeArray | openObject | closeObject | comma | colon => exact ⟨_, _, rfl, rfl, fun _ => rfl⟩
  | null => exact ⟨_, _, rfl, rfl, fun free => by cases free⟩
  | bool value => cases value <;> exact ⟨_, _, rfl, rfl, fun free => by cases free⟩
  | string units => exact ⟨_, _, rfl, rfl, fun _ => rfl⟩
  | number numeral =>
    rw [text, JsonNumeral.text]
    cases numeral.negative with
    | true => exact ⟨_, _, rfl, rfl, fun free => by cases free⟩
    | false =>
      obtain ⟨c, others, same⟩ := List.exists_cons_of_ne_nil written.whole.1
      have digit := written.whole.2 c (same ▸ List.mem_cons_self)
      rw [same]
      exact ⟨c, _, rfl, not_isBlank_of_isScalarChar (isScalarChar_of_isDigit digit), fun free => by cases free⟩

theorem Legible.stops {tokens : List JsonToken} (legible : Legible tokens) (parts : Parts tokens) :
    Stops (tokens.flatMap text) := by
  cases legible with
  | nil => exact nofun
  | @cons token tokens written _ _ =>
    obtain ⟨c, others, same, -, other⟩ := exists_cons_text written
    rw [List.flatMap_cons, same]
    rintro _ ⟨⟩
    exact other (parts token rfl)

theorem Legible.readAll {tokens : List JsonToken} (legible : Legible tokens) :
    readAll (tokens.flatMap text) = some tokens := by
  induction legible with
  | nil => exact readAll_eq []
  | @cons token tokens written apart rest ih =>
    obtain ⟨c, others, same, visible, -⟩ := exists_cons_text written
    have done := read_text written fun scalar => rest.stops (apart scalar)
    have start : (token.text ++ tokens.flatMap text).dropWhile isBlank = token.text ++ tokens.flatMap text := by
      rw [same]
      exact List.dropWhile_cons_of_neg (by simp [visible])
    rw [← start] at done
    rw [List.flatMap_cons, readAll_token done, ih]
    rfl

end JsonToken

theorem Json.readAll_print (document : Json) : JsonToken.readAll document.print = some document.tokens := by
  rw [print_eq]
  exact document.legible_tokens.readAll

end LiteralSql
