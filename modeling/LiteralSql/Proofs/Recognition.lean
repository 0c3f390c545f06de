import Mathlib.Data.List.Forall2
import LiteralSql.Sql.Named

/-! Where a template has a key.

A key begins at a blank, a colon and a word, and its name is the whole word. It is for
a name if one colon follows and no second one, otherwise it is for a value, and what
follows is not part of it. Read from the left this leaves one way to take a template apart.
-/

set_option autoImplicit false

namespace LiteralSql

namespace TemplatePart

def source : TemplatePart → Text
  | .char c => [c]
  | .key name identifier => ':' :: (name ++ if identifier then [':'] else [])

def written : TemplatePart → Text
  | .char c => [c]
  | .key _ identifier => if identifier then ['?', '?'] else ['?']

def asks? : TemplatePart → Option (Text × Bool)
  | .char _ => none
  | .key name identifier => some (name, identifier)

def keys (template : Text) : List (Text × Bool) := (read template).filterMap asks?

def BeginsKey (text : Text) : Prop :=
  ∃ c d rest, text = c :: ':' :: d :: rest ∧ CharClass.isBlank c = true ∧ CharClass.isWord d = true

structure KeyName (name : Text) : Prop where
  nonempty : name ≠ []
  word : ∀ c ∈ name, CharClass.isWord c = true

inductive EndsKey : Bool → Text → Prop
  | identifier {rest : Text} (single : rest.head? ≠ some ':') : EndsKey true rest
  | value {rest : Text} (maximal : ∀ c ∈ rest.head?, CharClass.isWord c = false)
      (cast : rest.head? = some ':' → rest.tail.head? = some ':') : EndsKey false rest

/-- The keys of a template, each at the leftmost place behind the one before it. -/
inductive Recognises : Text → List TemplatePart → Prop
  | nil : Recognises [] []
  | char {c : Char} {rest : Text} {parts : List TemplatePart} (plain : ¬ BeginsKey (c :: rest))
      (behind : Recognises rest parts) : Recognises (c :: rest) (.char c :: parts)
  | key {c : Char} {name : Text} {identifier : Bool} {rest : Text} {parts : List TemplatePart}
      (blank : CharClass.isBlank c = true) (whole : KeyName name) (ends : EndsKey identifier rest)
      (behind : Recognises rest parts) :
      Recognises (c :: ((TemplatePart.key name identifier).source ++ rest)) (.char c :: .key name identifier :: parts)

theorem KeyName.span {name rest : Text} (whole : KeyName name) (maximal : ∀ c ∈ rest.head?, CharClass.isWord c = false) :
    (name ++ rest).takeWhile CharClass.isWord = name ∧ (name ++ rest).dropWhile CharClass.isWord = rest := by
  rw [List.takeWhile_append_of_pos whole.word, List.dropWhile_append_of_pos whole.word]
  cases rest with
  | nil => exact ⟨List.append_nil _, rfl⟩
  | cons c others =>
    have stops : ¬ CharClass.isWord c = true := Bool.eq_false_iff.mp (maximal c rfl)
    rw [List.takeWhile_cons_of_neg stops, List.dropWhile_cons_of_neg stops, List.append_nil]
    exact ⟨rfl, rfl⟩

theorem key?_source {name rest : Text} {identifier : Bool} (whole : KeyName name) (ends : EndsKey identifier rest) :
    key? ((key name identifier).source ++ rest) =
      some (key name identifier, (key name identifier).source.length) := by
  have named : ¬ name.isEmpty = true := fun empty => whole.nonempty (List.isEmpty_iff.mp empty)
  cases ends with
  | identifier single =>
    have colon : ∀ c ∈ (':' :: rest).head?, CharClass.isWord c = false := by
      rintro c ⟨⟩
      decide
    obtain ⟨taken, left⟩ := whole.span colon
    have text : (key name true).source ++ rest = ':' :: (name ++ ':' :: rest) := by simp [source]
    rw [text, key?, taken, left, if_neg named]
    cases rest with
    | nil => simp [source]
    | cons c others =>
      have other : c ≠ ':' := fun same => single (congrArg some same)
      simp [source, other]
  | value maximal cast =>
    obtain ⟨taken, left⟩ := whole.span maximal
    have text : (key name false).source ++ rest = ':' :: (name ++ rest) := by simp [source]
    rw [text, key?, taken, left, if_neg named]
    split
    · simp [source]
    · next others twice =>
      obtain ⟨more, same⟩ := List.head?_eq_some_iff.mp (cast rfl)
      exact absurd same (twice more)
    · simp [source]

theorem key?_eq_none {c : Char} {rest : Text} (plain : ¬ BeginsKey (c :: rest)) (blank : CharClass.isBlank c = true) :
    key? rest = none := by
  cases rest with
  | nil => rfl
  | cons d others =>
    by_cases colon : d = ':'
    · subst colon
      cases others with
      | nil => rfl
      | cons e others =>
        have stops : ¬ CharClass.isWord e = true := fun word => plain ⟨c, e, others, rfl, blank, word⟩
        rw [key?, List.takeWhile_cons_of_neg stops]
        rfl
    · unfold key?
      split
      · next same => exact absurd (List.cons.inj same).1 colon
      · rfl

theorem Recognises.source {template : Text} {parts : List TemplatePart} (recognises : Recognises template parts) :
    parts.flatMap TemplatePart.source = template := by
  induction recognises with
  | nil => rfl
  | char c _ ih => rw [List.flatMap_cons, ih]; rfl
  | key _ _ _ _ ih => rw [List.flatMap_cons, List.flatMap_cons, ih]; rfl

theorem readFrom_eq (skipped : Nat) (text : Text) : readFrom skipped text = read (text.drop skipped) := by
  induction text generalizing skipped with
  | nil => cases skipped <;> rfl
  | cons c rest ih =>
    cases skipped with
    | zero => rfl
    | succ skipped => exact ih skipped

theorem Recognises.read_eq {template : Text} {parts : List TemplatePart} (recognises : Recognises template parts) :
    read template = parts := by
  induction recognises with
  | nil => rfl
  | @char c rest parts plain _ ih =>
    rw [read, readFrom]
    split
    · next blank =>
      rw [key?_eq_none plain blank]
      exact congrArg (TemplatePart.char c :: ·) ih
    · exact congrArg (TemplatePart.char c :: ·) ih
  | @key c name identifier rest parts blank whole ends _ ih =>
    rw [read, readFrom, if_pos blank, key?_source whole ends]
    dsimp only
    rw [readFrom_eq, List.drop_left, ih]

theorem BeginsKey.exists_key {text : Text} (begins : BeginsKey text) : ∃ c name identifier rest,
    text = c :: ((key name identifier).source ++ rest) ∧ CharClass.isBlank c = true ∧ KeyName name ∧
      EndsKey identifier rest := by
  obtain ⟨c, d, others, rfl, blank, word⟩ := begins
  have whole : KeyName ((d :: others).takeWhile CharClass.isWord) := by
    refine ⟨?_, List.all_eq_true.mp List.all_takeWhile⟩
    rw [List.takeWhile_cons_of_pos word]
    exact List.cons_ne_nil _ _
  have maximal : ∀ c ∈ ((d :: others).dropWhile CharClass.isWord).head?, CharClass.isWord c = false := by
    intro c head
    have stops := List.head?_dropWhile_not CharClass.isWord (d :: others)
    rw [head] at stops
    simpa using stops
  have text : d :: others = (d :: others).takeWhile CharClass.isWord ++ (d :: others).dropWhile CharClass.isWord :=
    List.takeWhile_append_dropWhile.symm
  rw [text]
  generalize (d :: others).takeWhile CharClass.isWord = name at whole
  generalize (d :: others).dropWhile CharClass.isWord = rest at maximal
  -- One colon behind the word belongs to the key, two are a cast.
  by_cases single : ∃ more, rest = ':' :: more ∧ more.head? ≠ some ':'
  · obtain ⟨more, rfl, single⟩ := single
    exact ⟨c, name, true, more, by simp [source], blank, whole, .identifier single⟩
  · refine ⟨c, name, false, rest, by simp [source], blank, whole, .value maximal fun colon => ?_⟩
    obtain ⟨more, rfl⟩ := List.head?_eq_some_iff.mp colon
    by_contra other
    exact single ⟨more, rfl, other⟩

theorem exists_recognises (template : Text) : ∃ parts, Recognises template parts := by
  -- What is behind a key is a shorter template, but not the tail of this one.
  induction size : template.length using Nat.strongRecOn generalizing template with
  | ind size ih =>
    subst size
    by_cases begins : BeginsKey template
    · obtain ⟨c, name, identifier, rest, rfl, blank, whole, ends⟩ := begins.exists_key
      have shorter : rest.length < (c :: ((key name identifier).source ++ rest)).length := by
        rw [List.length_cons, List.length_append]
        omega
      obtain ⟨parts, behind⟩ := ih _ shorter rest rfl
      exact ⟨_, .key blank whole ends behind⟩
    · cases template with
      | nil => exact ⟨[], .nil⟩
      | cons c rest =>
        obtain ⟨parts, behind⟩ := ih _ (Nat.lt_succ_self _) rest rfl
        exact ⟨_, .char begins behind⟩

theorem recognises_iff {template : Text} {parts : List TemplatePart} :
    Recognises template parts ↔ parts = read template := by
  constructor
  · exact fun recognises => recognises.read_eq.symm
  · rintro rfl
    obtain ⟨parts, recognises⟩ := exists_recognises template
    exact recognises.read_eq ▸ recognises

theorem resolve_cases (values : Dictionary Value) (parts : List TemplatePart) :
    (∃ bindings, resolve values parts = .ok ⟨parts.flatMap written, bindings⟩ ∧
      List.Forall₂ (fun key value => values.get? key.1 = some value) (parts.filterMap asks?) bindings) ∨
    ∃ before name identifier after, parts = before ++ .key name identifier :: after ∧
      (∀ key ∈ before.filterMap asks?, ∃ value, values.get? key.1 = some value) ∧ values.get? name = none ∧
      resolve values parts = .error (.missingNamedBinding name) := by
  induction parts with
  | nil => exact .inl ⟨[], rfl, .nil⟩
  | cons part rest ih =>
    cases part with
    | char c =>
      rw [resolve]
      obtain ⟨bindings, done, bound⟩ | ⟨before, name, identifier, after, rfl, held, missing, failed⟩ := ih
      · rw [done]
        exact .inl ⟨bindings, rfl, bound⟩
      · rw [failed]
        exact .inr ⟨.char c :: before, name, identifier, after, rfl, held, missing, rfl⟩
    | key first kind =>
      rw [resolve]
      -- A key without a value ends the search; with one, the rest decides.
      cases value : values.get? first with
      | none => exact .inr ⟨[], first, kind, rest, rfl, nofun, value, rfl⟩
      | some found =>
        obtain ⟨bindings, done, bound⟩ | ⟨before, name, identifier, after, rfl, held, missing, failed⟩ := ih
        · dsimp only
          rw [done]
          exact .inl ⟨found :: bindings, rfl, .cons value bound⟩
        · dsimp only
          rw [failed]
          refine .inr ⟨.key first kind :: before, name, identifier, after, rfl, fun key member => ?_, missing, rfl⟩
          obtain rfl | later := List.mem_cons.mp member
          · exact ⟨found, value⟩
          · exact held key later

end TemplatePart

/-- There is one way to recognise the keys of a template, and nothing of the text is lost in it. If every key has
a value, the template is written again with placeholders for its keys and with nothing else changed, and the values
are those of the keys, one for each time that a key occurs. Otherwise the first key without a value is missed. -/
theorem named_exact (template : Text) (values : Dictionary Value) : ∃ parts,
    (∀ others, TemplatePart.Recognises template others ↔ others = parts) ∧
    parts.flatMap TemplatePart.source = template ∧
    ((∃ bindings, Raw.named template values = .ok ⟨parts.flatMap TemplatePart.written, bindings⟩ ∧
        List.Forall₂ (fun key value => values.get? key.1 = some value) (parts.filterMap TemplatePart.asks?) bindings) ∨
      ∃ before name identifier after, parts = before ++ .key name identifier :: after ∧
        (∀ key ∈ before.filterMap TemplatePart.asks?, ∃ value, values.get? key.1 = some value) ∧
        values.get? name = none ∧ Raw.named template values = .error (.missingNamedBinding name)) :=
  ⟨TemplatePart.read template, fun _ => TemplatePart.recognises_iff, (TemplatePart.recognises_iff.mpr rfl).source,
    TemplatePart.resolve_cases values (TemplatePart.read template)⟩

/-- Keys one behind the other, with a cast, for a name, and with colons behind a colon; a blank that is no space. -/
example : Raw.named "\u00a0:é :é::x\t:é: :é::: ::é :-".toList (.ofList [("é".toList, .int 3)]) =
    .ok ⟨"\u00a0? ?::x\t?? ?::: ::é :-".toList, [.int 3, .int 3, .int 3, .int 3]⟩ := rfl

end LiteralSql
