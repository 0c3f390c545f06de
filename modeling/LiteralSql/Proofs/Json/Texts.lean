import Mathlib.Algebra.Order.BigOperators.Group.List
import LiteralSql.Proofs.Json.Escaping

/-! The texts in a document: its strings and the names of its members. -/

set_option autoImplicit false

namespace LiteralSql

namespace Json

def texts : Json → List Text
  | .null => []
  | .bool _ => []
  | .integer _ => []
  | .double _ => []
  | .string text => [text]
  | .array items => items.flatMap fun item => texts item
  | .object members => members.flatMap fun member => member.1 :: texts member.2
termination_by document => sizeOf document
decreasing_by
  · exact sizeOf_item ‹_›
  · exact sizeOf_member ‹_›

def mapText (write : Text → Text) : Json → Json
  | .null => .null
  | .bool value => .bool value
  | .integer number => .integer number
  | .double number => .double number
  | .string text => .string (write text)
  | .array items => .array (items.map fun item => mapText write item)
  | .object members => .object (members.map fun member => (write member.1, mapText write member.2))
termination_by document => sizeOf document
decreasing_by
  · exact sizeOf_item ‹_›
  · exact sizeOf_member ‹_›

theorem string_mem_tokens {document : Json} {text : Text} (member : text ∈ document.texts) :
    .string (units text) ∈ document.tokens := by
  induction document using Json.induction with
  | null | bool value | integer number | double number =>
    rw [texts] at member
    cases member
  | string held =>
    rw [texts] at member
    rw [tokens, List.mem_singleton.mp member]
    exact List.mem_cons_self
  | array items each =>
    rw [texts] at member
    obtain ⟨item, held, member⟩ := List.mem_flatMap.mp member
    rw [tokens]
    exact List.mem_append_left _ (List.mem_cons_of_mem _
      ((infix_intercalate _ (List.mem_map_of_mem held)).subset (each item held member)))
  | object members each =>
    rw [texts] at member
    obtain ⟨pair, held, member⟩ := List.mem_flatMap.mp member
    rw [tokens]
    refine List.mem_append_left _ (List.mem_cons_of_mem _ ((infix_intercalate _ (List.mem_map_of_mem held)).subset ?_))
    obtain rfl | member := List.mem_cons.mp member
    · exact List.mem_cons_self
    · exact List.mem_cons_of_mem _ (List.mem_cons_of_mem _ (each pair held member))

theorem mapText_of_same {write : Text → Text} {document : Json} (same : ∀ text ∈ document.texts, write text = text) :
    document.mapText write = document := by
  induction document using Json.induction with
  | null | bool value | integer number | double number => rw [mapText]
  | string text =>
    rw [texts] at same
    rw [mapText, same text List.mem_cons_self]
  | array items each =>
    rw [texts] at same
    have parts : items.map (mapText write) = items :=
      (List.map_congr_left fun item held => each item held fun text member =>
        same text (List.mem_flatMap_of_mem held member)).trans (List.map_id items)
    rw [mapText, parts]
  | object members each =>
    rw [texts] at same
    have parts : (members.map fun member => (write member.1, member.2.mapText write)) = members := by
      refine (List.map_congr_left fun member held => ?_).trans (List.map_id members)
      rw [same member.1 (List.mem_flatMap_of_mem held List.mem_cons_self),
        each member held fun text inside => same text (List.mem_flatMap_of_mem held (List.mem_cons_of_mem _ inside))]
      rfl
    rw [mapText, parts]

/-- In order or not, the members of a document keep their texts, unless two names become one. -/
theorem WellFormed.texts_canonical {write : Text → Text} (injective : Function.Injective write) {document : Json}
    (formed : document.WellFormed) :
    (document.mapText write).canonical.texts.Perm (document.texts.map write) := by
  induction formed with
  | null | bool value | integer number =>
    rw [mapText, canonical, texts]
    exact .refl _
  | @double number finite =>
    rw [mapText, canonical, ofDouble, if_pos finite, texts]
    exact .refl _
  | string text =>
    rw [mapText, canonical, texts, texts]
    exact .refl _
  | @array items _ each =>
    rw [mapText, canonical, texts, texts, List.map_map, List.flatMap_map, List.map_flatMap]
    exact List.Perm.flatMap_left items each
  | @object members ascending _ each =>
    -- Names that differ still differ, so the members are only brought into another order.
    have distinct : ((members.map fun member => (write member.1, (member.2.mapText write).canonical)).map
        Prod.fst).Nodup := by
      have names : (members.map Prod.fst).Nodup := ascending.imp fun {first second} less same => by
        rw [same] at less
        exact List.lt_irrefl second less
      have same : ((members.map fun member => (write member.1, (member.2.mapText write).canonical)).map Prod.fst) =
          (members.map Prod.fst).map write := by
        rw [List.map_map, List.map_map]
        rfl
      rw [same]
      exact names.map injective
    rw [mapText, canonical, List.map_map, ofMembers, texts, texts, List.map_flatMap]
    refine ((sortPairs_perm distinct).flatMap_right _).trans ?_
    rw [List.flatMap_map]
    exact List.Perm.flatMap_left members fun member held => (each member held).cons _

theorem double_eq_escaped {text : Text} (absent : '"' ∉ text) (visible : ∀ c ∈ text, ¬c.toNat < 0x20) :
    Text.double '\\' text = escaped text := by
  rw [Text.double, escaped]
  refine List.flatMap_congr fun c member => ?_
  split
  · next backslash =>
    rw [backslash]
    rfl
  · next other =>
    have quote : c ≠ '"' := by
      rintro rfl
      exact absent member
    rw [escapeChar_of_plain quote other (visible c member)]

theorem double_quote {text : Text} (absent : '"' ∉ text) : Text.double '\\' (quote text) = quote (escaped text) := by
  have inside : Text.double '\\' (escaped text) = escaped (escaped text) := by
    refine double_eq_escaped (fun member => ?_) fun c member => ?_
    · obtain ⟨c, held, written⟩ := List.mem_flatMap.mp member
      refine quote_not_mem_escapeChar ?_ written
      rintro rfl
      exact absent held
    · obtain ⟨source, -, written⟩ := List.mem_flatMap.mp member
      exact visible_of_mem_escapeChar written
  change Text.double '\\' ('"' :: (escaped text ++ ['"'])) = '"' :: (escaped (escaped text) ++ ['"'])
  rw [JsonToken.double_string, inside]

theorem double_intercalate (parts : List Text) :
    Text.double '\\' ([','].intercalate parts) = [','].intercalate (parts.map (Text.double '\\')) :=
  flatMap_intercalate _ [','] parts

theorem double_cons {c : Char} (other : c ≠ '\\') (text : Text) :
    Text.double '\\' (c :: text) = c :: Text.double '\\' text := by
  rw [Text.double, List.flatMap_cons, if_neg other, ← Text.double, List.singleton_append]

theorem double_print {document : Json} (absent : ∀ text ∈ document.texts, '"' ∉ text) :
    Text.double '\\' document.print = (document.mapText escaped).print := by
  induction document using Json.induction with
  | null =>
    rw [mapText, print]
    rfl
  | bool value =>
    rw [mapText]
    cases value <;> rw [print] <;> rfl
  | integer number =>
    rw [mapText, print, ← JsonNumeral.text_ofInteger]
    exact JsonToken.double_bare (JsonToken.bare_scalar (JsonToken.scalar_numeral (JsonNumeral.written_ofInteger number)))
  | double number =>
    rw [mapText, print]
    cases number with
    | finite negative rank =>
      rw [← JsonNumeral.text_ofDouble]
      exact JsonToken.double_bare
        (JsonToken.bare_scalar (JsonToken.scalar_numeral (JsonNumeral.written_ofDouble negative rank)))
    | infinite negative | nan => rfl
  | string text =>
    rw [texts] at absent
    rw [mapText, print, print, double_quote (absent text List.mem_cons_self)]
  -- Brackets and commas have no backslash, so only the parts are written another way.
  | array items each =>
    rw [texts] at absent
    have parts : (items.map print).map (Text.double '\\') = (items.map (mapText escaped)).map print := by
      rw [List.map_map, List.map_map]
      exact List.map_congr_left fun item held => each item held fun text member =>
        absent text (List.mem_flatMap_of_mem held member)
    rw [mapText, print, print, printItems_eq, printItems_eq, List.cons_append, double_cons (by decide),
      Text.double_append, double_intercalate, parts]
    rfl
  | object members each =>
    rw [texts] at absent
    have parts : (members.map fun member => quote member.1 ++ ':' :: member.2.print).map (Text.double '\\') =
        (members.map fun member => (escaped member.1, member.2.mapText escaped)).map
          fun member => quote member.1 ++ ':' :: member.2.print := by
      rw [List.map_map, List.map_map]
      refine List.map_congr_left fun member held => ?_
      have name := absent member.1 (List.mem_flatMap_of_mem held List.mem_cons_self)
      have value := each member held fun text inside =>
        absent text (List.mem_flatMap_of_mem held (List.mem_cons_of_mem _ inside))
      dsimp only [Function.comp_apply]
      rw [Text.double_append, double_quote name, double_cons (by decide), value]
    rw [mapText, print, print, printMembers_eq, printMembers_eq, List.cons_append, double_cons (by decide),
      Text.double_append, double_intercalate, parts]
    rfl

theorem visible_text {token : JsonToken} (written : token.Written) : ∀ c ∈ token.text, ¬c.toNat < 0x20 := by
  intro c member
  have visible {c : Char} (plain : isPlain c = true) : ¬c.toNat < 0x20 := by
    simp only [isPlain, Bool.and_eq_true, decide_eq_true_eq] at plain
    exact not_lt.mpr plain.2
  obtain plain | ⟨text, -, same⟩ := JsonToken.plain_text written
  · exact visible (plain c member)
  · rw [same, List.mem_cons, List.mem_append, List.mem_singleton] at member
    obtain rfl | inside | rfl := member
    · decide
    · obtain ⟨source, -, inside⟩ := List.mem_flatMap.mp inside
      exact visible_of_mem_escapeChar inside
    · decide

theorem written_of_mem_tokens {document : Json} : ∀ token ∈ document.tokens, token.Written :=
  document.legible_tokens.written

theorem escape_print (document : Json) : DollarQuote.escape document.print = Text.double '\\' document.print := by
  refine List.flatMap_congr fun c member => ?_
  rw [print_eq] at member
  obtain ⟨token, held, inside⟩ := List.mem_flatMap.mp member
  have visible := visible_text (written_of_mem_tokens token held) c inside
  split
  · next backslash =>
    rw [backslash]
    rfl
  · next other =>
    refine DollarQuote.escapeChar_of_plain fun special => ?_
    obtain same | control := List.mem_cons.mp special
    · exact other same
    · have low : DollarQuote.controls.all (fun c => decide (c.toNat < 0x20)) = true := by decide
      exact visible (of_decide_eq_true (List.all_eq_true.mp low c control))

theorem escaped_injective : Function.Injective escaped := by
  intro first second same
  have body (text : Text) : JsonToken.readString (escaped text ++ ['"']) = some (units text, []) := by
    have read := JsonToken.readString_units text []
    rwa [units, List.flatMap_map, ← units, List.flatMap_congr fun c _ => text_unitOf c] at read
  have read := body first
  rw [same, body second] at read
  have texts := congrArg unitsText? (Prod.mk.inj (Option.some.inj read)).1
  rw [unitsText?_units, unitsText?_units] at texts
  exact (Option.some.inj texts).symm

theorem length_escaped_cons (c : Char) (text : Text) :
    (escaped (c :: text)).length = (escapeChar c).length + (escaped text).length := by
  rw [escaped, List.flatMap_cons, List.length_append, ← escaped]

theorem escaped_of_plain {text : Text} (plain : ∀ c ∈ text, isPlain c = true) : escaped text = text := by
  induction text with
  | nil => rfl
  | cons c others ih =>
    rw [List.forall_mem_cons] at plain
    rw [escaped, List.flatMap_cons, escapeChar_of_isPlain plain.1, ← escaped, ih plain.2, List.singleton_append]

theorem length_escaped (text : Text) :
    text.length ≤ (escaped text).length ∧ (¬(∀ c ∈ text, isPlain c = true) → text.length < (escaped text).length) := by
  induction text with
  | nil => exact ⟨le_rfl, fun special => absurd nofun special⟩
  | cons c others ih =>
    rw [length_escaped_cons, List.length_cons, List.forall_mem_cons]
    cases plain : isPlain c with
    | true =>
      rw [escapeChar_of_isPlain plain, List.length_singleton]
      refine ⟨by omega, fun special => ?_⟩
      have := ih.2 fun each => special ⟨rfl, each⟩
      omega
    | false =>
      obtain ⟨rest, written, some, -⟩ := escapeChar_of_special plain
      have := List.length_pos_of_ne_nil some
      rw [written, List.length_cons]
      exact ⟨by omega, fun _ => by omega⟩

def Plain (document : Json) : Prop := ∀ text ∈ document.texts, ∀ c ∈ text, isPlain c = true

/-- A document whose texts are escaped once more is read as another one if it has an escape. -/
theorem WellFormed.plain_of_canonical_eq {document : Json} (formed : document.WellFormed)
    (same : (document.mapText escaped).canonical = document) : document.Plain := by
  have texts := formed.texts_canonical escaped_injective
  rw [same] at texts
  have lengths := (texts.map List.length).sum_eq
  rw [List.map_map] at lengths
  by_contra special
  obtain ⟨text, held, special⟩ : ∃ text ∈ document.texts, ¬∀ c ∈ text, isPlain c = true := by
    simpa [Plain] using special
  refine absurd lengths (ne_of_lt (List.sum_lt_sum _ _ (fun text _ => (length_escaped text).1) ⟨text, held, ?_⟩))
  exact (length_escaped text).2 special

theorem WellFormed.read?_escape_iff {document : Json} (formed : document.WellFormed) :
    read? (DollarQuote.escape document.print) = some document ↔ document.Plain := by
  rw [escape_print]
  constructor
  · intro done
    obtain ⟨tokens, lexed, -⟩ := Option.bind_eq_some_iff.mp done
    -- What can be read at all has its quotes in pairs, so no text has a quote. Then the
    -- texts that are read are the escaped ones, which are longer if there is an escape.
    have pair := (JsonToken.readAll_spread lexed).quotesPair (JsonToken.paired_double _)
    rw [print_eq] at pair
    have absent : ∀ text ∈ document.texts, '"' ∉ text := fun text held =>
      JsonToken.quote_not_mem_of_quotesPair written_of_mem_tokens pair (string_mem_tokens held)
    rw [double_print absent, read?_print] at done
    exact formed.plain_of_canonical_eq (Option.some.inj done)
  · intro plain
    have absent : ∀ text ∈ document.texts, '"' ∉ text := fun text held quote =>
      absurd (plain text held '"' quote) (by decide)
    have same : document.mapText escaped = document := mapText_of_same fun text held => escaped_of_plain (plain text held)
    rw [double_print absent, same, read?_print, formed.canonical_eq]

end Json

end LiteralSql
