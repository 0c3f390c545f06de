import LiteralSql.Proofs.Json.Grafting
import LiteralSql.Proofs.Json.Printing
import LiteralSql.Proofs.Rows.Prefixes

/-! What a scanner accepts is JSON, but for form feeds.

Names, rows and values are judged by the JSON reader itself; the brackets,
commas and colons around them are compared with its steps. The scanner takes a
form feed for a blank and the reader does not.
-/

set_option autoImplicit false

namespace LiteralSql

open JsonTree (State Frame place)

def Bytes.spaced (bytes : List UInt8) : List UInt8 := bytes.map fun byte => if byte = 0x0C then 0x20 else byte

theorem Bytes.spaced_of_absent {bytes : List UInt8} (absent : 0x0C ∉ bytes) : spaced bytes = bytes := by
  refine (List.map_congr_left fun byte member => ?_).trans (List.map_id bytes)
  refine if_neg ?_
  rintro rfl
  exact absent member

/-- The text is one JSON object by its syntax. -/
def IsObjectText (text : Text) : Prop :=
  ∃ tokens members, JsonToken.readAll text = some tokens ∧ JsonTree.ofTokens? tokens = some (.object members)

namespace Spells

variable {bytes : List UInt8} {text : Text}

theorem mem_of_low (spells : Spells bytes text) {byte : UInt8} (low : byte.toNat < 0x80) (member : byte ∈ bytes) :
    Char.ofNat byte.toNat ∈ text := by
  induction spells with
  | nil => cases member
  | ascii _ _ ih =>
    obtain rfl | member := List.mem_cons.mp member
    · exact List.mem_cons_self
    · exact List.mem_cons_of_mem _ (ih member)
  | foreign _ high _ _ ih =>
    obtain lead | member := List.mem_append.mp member
    · exact absurd low (Nat.not_lt.mpr (high byte lead))
    · exact List.mem_cons_of_mem _ (ih member)

theorem no_formFeed (spells : Spells bytes text) {tokens : List JsonToken} (read : JsonToken.readAll text = some tokens) :
    0x0C ∉ bytes := by
  intro member
  have control := (JsonToken.readAll_spread read).visible _ (spells.mem_of_low (by decide) member)
  exact absurd control (by decide)

theorem respells_spaced (spells : Spells bytes text) {tokens : List JsonToken}
    (read : JsonToken.readAll text = some tokens) (more : Text) :
    Respells more text (Bytes.toChars (Bytes.spaced bytes) ++ more) := by
  rw [Bytes.spaced_of_absent (spells.no_formFeed read)]
  exact spells.respells.append more

end Spells

namespace Script

def text (script : Script) : Text := Bytes.toChars (Bytes.spaced script.bytes)

theorem text_append (first second : Script) : (first ++ second).text = first.text ++ second.text := by
  rw [text, bytes_append, Bytes.spaced, Bytes.toChars, List.map_append, List.map_append]
  rfl

theorem text_still (bytes : List UInt8) : (still bytes).text = Bytes.toChars (Bytes.spaced bytes) := by
  rw [text, bytes_still]

theorem Blank.text {script : Script} (blank : Blank script) : script.text.all JsonToken.isBlank = true := by
  obtain ⟨bytes, rfl, blank⟩ := blank
  rw [text_still, Bytes.spaced, Bytes.toChars, List.map_map, List.all_map, List.all_eq_true]
  intro byte member
  have blank := blank byte member
  simp only [Bytes.isBlank, Bool.or_eq_true, decide_eq_true_eq] at blank
  obtain (((rfl | rfl) | rfl) | rfl) | rfl := blank <;> rfl

end Script

namespace JsonToken

theorem Stops.cons {c : Char} (other : isScalarChar c = false) (rest : Text) : Stops (c :: rest) := by
  rintro _ ⟨⟩
  exact other

theorem Stops.blank {blanks more : Text} (blank : blanks.all isBlank = true) (stops : Stops more) :
    Stops (blanks ++ more) := by
  cases blanks with
  | nil => exact stops
  | cons c rest =>
    rw [List.all_cons, Bool.and_eq_true] at blank
    refine .cons ?_ (rest ++ more)
    by_contra scalar
    have visible := not_isBlank_of_isScalarChar (Bool.not_eq_false _ ▸ scalar)
    rw [blank.1] at visible
    cases visible

end JsonToken

open JsonToken (Stops)

namespace RowScanner

namespace Level

def opening : Level → UInt8
  | .members => 0x7B
  | .rows => 0x5B

def opened : Level → List Frame → State
  | .members => .firstName
  | .rows => .firstItem

def Begins (level : Level) (frames : List Frame) (state : State) : Prop :=
  state = level.opened frames ∨ match level with
    | .members => ∃ members, state = .nextName members frames
    | .rows => ∃ items, state = .value (.array items :: frames)

def Ends (level : Level) (frames : List Frame) (state : State) : Prop :=
  match level with
  | .members => ∃ members, state = .memberEnd members frames
  | .rows => ∃ items, state = .itemEnd items frames

variable {level : Level} {frames : List Frame} {state : State}

theorem scan_opening (level : Level) (frames : List Frame) (rest : Text) :
    (State.value frames).scan (Char.ofNat level.opening.toNat :: rest) = (level.opened frames).scan rest := by
  cases level with
  | members => exact JsonTree.scan_cons rfl rfl rfl
  | rows => exact JsonTree.scan_cons rfl rfl rfl

theorem Ends.comma (ends : level.Ends frames state) (rest : Text) :
    ∃ next, level.Begins frames next ∧ state.scan (',' :: rest) = next.scan rest := by
  cases level with
  | members =>
    obtain ⟨members, rfl⟩ := ends
    exact ⟨_, .inr ⟨members, rfl⟩, JsonTree.scan_cons rfl rfl rfl⟩
  | rows =>
    obtain ⟨items, rfl⟩ := ends
    exact ⟨_, .inr ⟨items, rfl⟩, JsonTree.scan_cons rfl rfl rfl⟩

theorem Ends.closing (ends : level.Ends frames state) (rest : Text) :
    ∃ tree : JsonTree, tree.bracket? = some level.opening ∧
      state.scan (Char.ofNat level.closing.toNat :: rest) = (place tree frames).scan rest := by
  cases level with
  | members =>
    obtain ⟨members, rfl⟩ := ends
    exact ⟨.object members.reverse, rfl, JsonTree.scan_cons rfl rfl rfl⟩
  | rows =>
    obtain ⟨items, rfl⟩ := ends
    exact ⟨.array items.reverse, rfl, JsonTree.scan_cons rfl rfl rfl⟩

theorem scan_empty (level : Level) (frames : List Frame) (rest : Text) :
    ∃ tree : JsonTree, tree.bracket? = some level.opening ∧
      (level.opened frames).scan (Char.ofNat level.closing.toNat :: rest) = (place tree frames).scan rest := by
  cases level with
  | members => exact ⟨.object [], rfl, JsonTree.scan_cons rfl rfl rfl⟩
  | rows => exact ⟨.array [], rfl, JsonTree.scan_cons rfl rfl rfl⟩

def Scans (level : Level) (item : Script → Prop) : Prop :=
  ∀ {script : Script}, item script → ∀ {more : Text}, Stops more → ∀ {frames : List Frame} {state : State},
    level.Begins frames state → ∃ last, level.Ends frames last ∧ state.scan (script.text ++ more) = last.scan more

section
variable {item : Script → Prop} (scans : level.Scans item)
include scans

theorem Scans.padded : level.Scans (Script.Padded item) := by
  intro script padded more stops frames state begins
  obtain ⟨lead, is, trail⟩ := padded
  obtain ⟨last, ends, taken⟩ := scans is (stops.blank trail.text) begins
  refine ⟨last, ends, ?_⟩
  rw [Script.text_append, Script.text_append, List.append_assoc, List.append_assoc, JsonTree.scan_blank lead.text,
    taken, JsonTree.scan_blank trail.text]

theorem Scans.series {script : Script} (series : Script.Series item script) {more : Text} (stops : Stops more)
    (frames : List Frame) :
    ∃ last, level.Ends frames last ∧ (level.opened frames).scan (script.text ++ more) = last.scan more := by
  induction series generalizing more with
  | single is => exact scans.padded is stops (.inl rfl)
  | @more before last _ is ih =>
    -- A number in front of the comma does not go on with it.
    have comma : Stops (',' :: (Script.text last ++ more)) := .cons rfl _
    obtain ⟨between, ends, taken⟩ := ih comma
    obtain ⟨next, begins, step⟩ := ends.comma (Script.text last ++ more)
    obtain ⟨final, ends, rest⟩ := scans.padded is stops begins
    refine ⟨final, ends, ?_⟩
    rw [Script.text_append, Script.text_append, List.append_assoc, List.append_assoc]
    exact taken.trans (step.trans rest)

theorem Scans.bracketed {script : Script} (bracketed : Script.Bracketed level.opening level.closing item script)
    (frames : List Frame) (more : Text) : ∃ tree : JsonTree, tree.bracket? = some level.opening ∧
      (State.value frames).scan (script.text ++ more) = (place tree frames).scan more := by
  have single (byte : UInt8) (other : byte ≠ 0x0C) : (Script.still [byte]).text = [Char.ofNat byte.toNat] := by
    rw [Script.text_still, Bytes.spaced_of_absent (by simpa using other.symm)]
    rfl
  have opens := single level.opening (by cases level <;> decide)
  have closes := single level.closing (by cases level <;> decide)
  cases bracketed with
  | @empty blanks blank =>
    obtain ⟨tree, kind, closed⟩ := scan_empty level frames more
    refine ⟨tree, kind, ?_⟩
    rw [Script.text_append, Script.text_append, opens, closes, List.append_assoc, List.append_assoc]
    exact (scan_opening level frames _).trans ((JsonTree.scan_blank blank.text _ _).trans closed)
  | @full items series =>
    have stops : Stops (Char.ofNat level.closing.toNat :: more) := .cons (by cases level <;> rfl) more
    obtain ⟨last, ends, taken⟩ := scans.series series stops frames
    obtain ⟨tree, kind, closed⟩ := ends.closing more
    refine ⟨tree, kind, ?_⟩
    rw [Script.text_append, Script.text_append, opens, closes, List.append_assoc, List.append_assoc]
    exact (scan_opening level frames _).trans (taken.trans closed)

end

end Level

/-- Some way to read the bytes as characters gives a JSON text. -/
def SpellsJson (bytes : List UInt8) : Prop :=
  ∃ text tokens tree, Spells bytes text ∧ JsonToken.readAll text = some tokens ∧ JsonTree.ofTokens? tokens = some tree

theorem isValue_spellsJson {bytes : List UInt8} (value : isValue bytes = true) : SpellsJson bytes := by
  obtain ⟨tree, parsed⟩ := Option.isSome_iff_exists.mp value
  obtain ⟨tokens, read, done⟩ := Option.bind_eq_some_iff.mp parsed
  exact ⟨_, tokens, tree, Spells.toChars bytes, read, done⟩

theorem rowOfBytes?_spellsJson {bytes : List UInt8} {row : Row} (known : rowOfBytes? bytes = some row) :
    SpellsJson bytes := by
  rw [rowOfBytes?] at known
  split at known
  · next members parsed =>
    obtain ⟨text, tokens, tree, spells, read, done, -⟩ := parseBytes?_parts parsed
    exact ⟨text, tokens, tree, spells, read, done⟩
  · cases known

theorem memberName?_token {bytes : List UInt8} {name : Text} (known : memberName? bytes = some name) :
    ∃ text units, Spells bytes text ∧ JsonToken.readAll text = some [.string units] := by
  obtain ⟨json, parsed, string⟩ := Option.bind_eq_some_iff.mp known
  obtain ⟨text, tokens, tree, spells, read, done, built⟩ := parseBytes?_parts parsed
  obtain ⟨units, rfl⟩ := (ofTree?_kind built).1 name string
  obtain ⟨_, -, -, -, other⟩ | ⟨same, rfl, -⟩ | ⟨_, container⟩ := JsonTree.ofTokens?_cases done
  · exact absurd rfl (other units)
  · exact ⟨text, same, spells, read⟩
  · cases container.kind

section
variable {more : Text} (stops : Stops more)
include stops

theorem scan_span {span : List UInt8} (json : SpellsJson span) (frames : List Frame) :
    ∃ tree, (State.value frames).scan (Bytes.toChars (Bytes.spaced span) ++ more) = (place tree frames).scan more := by
  obtain ⟨text, tokens, tree, spells, read, done⟩ := json
  obtain ⟨found, -, taken⟩ := JsonTree.scan_value stops (spells.respells_spaced read more) read done frames
  exact ⟨found, taken⟩

theorem scan_firstSpan {span : List UInt8} (json : SpellsJson span) (frames : List Frame) : ∃ tree,
    (State.firstItem frames).scan (Bytes.toChars (Bytes.spaced span) ++ more) = (State.itemEnd [tree] frames).scan more := by
  obtain ⟨text, tokens, tree, spells, read, done⟩ := json
  exact JsonTree.scan_firstItem stops (spells.respells_spaced read more) read done frames

end

theorem scans_row : Level.rows.Scans Script.RowSpan := by
  intro script is more stops frames state begins
  obtain ⟨tight, accepted⟩ := is
  next inner row =>
    have whole : Script.text (Script.still inner ++ [(0x7D, some row)]) =
        Bytes.toChars (Bytes.spaced (inner ++ [0x7D])) := by
      rw [Script.text, Script.bytes_append, Script.bytes_still]
      rfl
    have json := rowOfBytes?_spellsJson accepted
    rw [whole]
    obtain rfl | ⟨items, rfl⟩ := begins
    · obtain ⟨tree, taken⟩ := scan_firstSpan stops json frames
      exact ⟨_, ⟨[tree], rfl⟩, taken⟩
    · obtain ⟨tree, taken⟩ := scan_span stops json (.array items :: frames)
      exact ⟨_, ⟨tree :: items, rfl⟩, taken⟩

theorem scan_member_value {name : Text} {value : Script} (is : Script.Value name value) {more : Text}
    (stops : Stops more) (frames : List Frame) :
    ∃ tree, (State.value frames).scan (value.text ++ more) = (place tree frames).scan more := by
  cases is with
  | rows _ is =>
    obtain ⟨tree, -, taken⟩ := scans_row.bracketed is frames more
    exact ⟨tree, taken⟩
  | other _ accepted _ =>
    rw [Script.text_still]
    exact scan_span stops (isValue_spellsJson accepted) frames

theorem scans_member : Level.members.Scans Script.Member := by
  intro script is more stops frames state begins
  cases is with
  | @intro key name before behind value tight accepted lead trail is =>
    obtain ⟨text, units, spells, read⟩ := memberName?_token accepted
    have colon : Stops (':' :: (behind.text ++ (value.text ++ more))) := .cons rfl _
    obtain ⟨found, named⟩ := JsonTree.scan_name (colon.blank lead.text) (spells.respells_spaced read _) read
    have rest (members : List (List JsonUnit × JsonTree)) : ∃ last, Level.members.Ends frames last ∧
        (State.colon members found frames).scan (before.text ++ (':' :: (behind.text ++ (value.text ++ more)))) =
          last.scan more := by
      obtain ⟨tree, taken⟩ := scan_member_value is stops (.object members found :: frames)
      refine ⟨_, ⟨(found, tree) :: members, rfl⟩, ?_⟩
      have step : (State.colon members found frames).step .colon = some (.value (.object members found :: frames)) := rfl
      rw [JsonTree.scan_blank lead.text, JsonTree.scan_cons rfl rfl step, JsonTree.scan_blank trail.text, taken]
      rfl
    have split : Script.text (Script.still key ++ (before ++ (Script.still [0x3A] ++ (behind ++ value)))) ++ more =
        Bytes.toChars (Bytes.spaced key) ++ (before.text ++ (':' :: (behind.text ++ (value.text ++ more)))) := by
      rw [Script.text_append, Script.text_append, Script.text_append, Script.text_append, Script.text_still,
        List.append_assoc, List.append_assoc, List.append_assoc, List.append_assoc]
      rfl
    rw [split]
    obtain rfl | ⟨members, rfl⟩ := begins
    · have step : (State.firstName frames).step (.string found) = some (.colon [] found frames) := rfl
      exact (named step).symm ▸ rest []
    · have step : (State.nextName members frames).step (.string found) = some (.colon members found frames) := rfl
      exact (named step).symm ▸ rest members

end RowScanner

theorem isObjectText_of_scan {text : Text} {tree : JsonTree} (taken : (State.value []).scan text = some (.complete tree))
    (kind : tree.bracket? = some 0x7B) : IsObjectText text := by
  obtain ⟨tokens, read, run⟩ := Option.bind_eq_some_iff.mp taken
  cases tree with
  | object members => exact ⟨tokens, members, read, by rw [JsonTree.ofTokens?, run]⟩
  | _ => cases kind

/-- What one way to read the bytes makes an object is one in every way. -/
theorem IsObjectText.respells {text other : Text} (object : IsObjectText text) (respells : Respells [] text other) :
    IsObjectText other := by
  obtain ⟨tokens, members, read, done⟩ := object
  have stops : Stops [] := nofun
  obtain ⟨tree, kind, taken⟩ := JsonTree.scan_value stops respells read done []
  exact isObjectText_of_scan taken kind

theorem Script.Document.isObjectText {script : Script} (document : script.Document) : IsObjectText script.text := by
  cases document with
  | @intro before inside behind lead is trail =>
    obtain ⟨tree, kind, taken⟩ := RowScanner.scans_member.bracketed is [] behind.text
    refine isObjectText_of_scan ?_ kind
    have ending := JsonTree.scan_blank trail.text (.complete tree) []
    rw [List.append_nil] at ending
    rw [Script.text_append, Script.text_append, JsonTree.scan_blank lead.text, taken]
    exact ending

theorem IsObjectText.parse? {text : Text} (object : IsObjectText text) : ∃ tokens members,
    JsonToken.readAll text = some tokens ∧ JsonTree.ofTokens? tokens = some (.object members) ∧
      Json.parse? text =
        if Json.nestingLimit < JsonTree.nesting tokens then none else Json.ofTree? (.object members) := by
  obtain ⟨tokens, members, read, done⟩ := object
  refine ⟨tokens, members, read, done, ?_⟩
  rw [Json.parse?, Json.parseNested?, read]
  change (if _ then none else (JsonTree.ofTokens? tokens).bind Json.ofTree?) = _
  rw [done, Option.bind_some]

theorem refused_of_formFeed {bytes : List UInt8} (feeds : 0x0C ∈ bytes) :
    isValue bytes = false ∧ Json.parseBytes? bytes = none := by
  constructor
  · by_contra value
    obtain ⟨text, tokens, tree, spells, read, -⟩ := RowScanner.isValue_spellsJson (Bool.not_eq_false _ ▸ value)
    exact spells.no_formFeed read feeds
  · by_contra parsed
    obtain ⟨json, parsed⟩ := Option.ne_none_iff_exists'.mp parsed
    obtain ⟨text, tokens, tree, spells, read, -⟩ := parseBytes?_parts parsed
    exact spells.no_formFeed read feeds

namespace RowScanner

theorem isObjectText_of_accepted {bytes : List UInt8} (accepted : (feed {} bytes).2 = none)
    (finished : (feed {} bytes).1.finish = none) : IsObjectText (Bytes.toChars (Bytes.spaced bytes)) := by
  have start : Reached {} [] := .outside Script.Blank.nil
  have taken : feed {} bytes = ((feed {} bytes).1, none) := Prod.ext rfl accepted
  obtain ⟨script, rfl, reached⟩ := reached_feed start taken
  exact (document_of_finish reached finished).isObjectText

/-- A body that is accepted is an object by its syntax once spaces stand for its form feeds. If it
has none, the JSON reader can refuse it for its limits only; otherwise it is no JSON. -/
theorem accepted_is_json {bytes : List UInt8} (accepted : (feed {} bytes).2 = none)
    (finished : (feed {} bytes).1.finish = none) :
    IsObjectText (Bytes.toChars (Bytes.spaced bytes)) ∧
    (0x0C ∉ bytes → IsObjectText (Bytes.toChars bytes) ∧ ∀ text, Utf8.decode? bytes = some text →
      ∃ tokens members, JsonToken.readAll text = some tokens ∧ JsonTree.ofTokens? tokens = some (.object members) ∧
        Json.parseBytes? bytes =
          if Json.nestingLimit < JsonTree.nesting tokens then none else Json.ofTree? (.object members)) ∧
    (0x0C ∈ bytes → isValue bytes = false ∧ Json.parseBytes? bytes = none) := by
  have object := isObjectText_of_accepted accepted finished
  refine ⟨object, fun absent => ?_, refused_of_formFeed⟩
  rw [Bytes.spaced_of_absent absent] at object
  refine ⟨object, fun text decoded => ?_⟩
  -- The characters of the bytes and the text that they decode to spell the same bytes.
  have spells := Utf8.spells_of_decode? decoded
  have parsed := (object.respells spells.respells.symm).parse?
  rwa [Json.parseBytes?, decoded]

def response : List UInt8 := Utf8.encode "\x7b\"rows\": [\x7b\"a\":\"é\"\x7d],\t\"n\":1 \x7d".toList

theorem accepted_is_json_response : (feed {} response).2 = none ∧ (feed {} response).1.finish = none ∧
    0x0C ∉ response ∧ IsObjectText (Bytes.toChars response) := by
  have accepted : (feed {} response).2 = none := by decide +kernel
  have finished : (feed {} response).1.finish = none := by decide +kernel
  have absent : 0x0C ∉ response := by decide +kernel
  obtain ⟨object, -⟩ := (accepted_is_json accepted finished).2.1 absent
  exact ⟨accepted, finished, absent, object⟩

theorem formFeed_accepted :
    let bytes : List UInt8 := [0x7B, 0x0C, 0x7D]
    (feed {} bytes).2 = none ∧ (feed {} bytes).1.finish = none ∧ isValue bytes = false ∧
      Json.parseBytes? bytes = none := by
  decide +kernel

end RowScanner

end LiteralSql
