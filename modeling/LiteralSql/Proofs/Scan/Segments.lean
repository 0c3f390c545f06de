import LiteralSql.Proofs.Rereading
import LiteralSql.Proofs.Scan.Bytes
import LiteralSql.Proofs.Scan.Region

/-! What SQL text consists of, and the segments that it is split into.

A text is divided from the left into regions, escapes, placeholders and other
characters. The segments are what the pieces give: a region and a character give
themselves, an escape gives its question mark, and a placeholder gives itself.
-/

set_option autoImplicit false

namespace LiteralSql

inductive SqlPiece
  | char (c : Char)
  /-- A quoted name or literal, a dollar quote or a comment, with its marks. -/
  | region (text : Text)
  | escape
  | value
  | identifier
  deriving DecidableEq

namespace SqlPiece

def source : SqlPiece → Text
  | .char c => [c]
  | .region text => text
  | .escape => ['\\', '?']
  | .value => ['?']
  | .identifier => ['?', '?']

def segment : SqlPiece → SqlSegment
  | .char c => .text [c]
  | .region text => .text text
  | .escape => .text ['?']
  | .value => .value
  | .identifier => .identifier

/-- How a text is divided: a region where one opens, and question marks two by two. -/
inductive Divides : Text → List SqlPiece → Prop
  | nil : Divides [] []
  | region {text rest : Text} {pieces : List SqlPiece} (region : Region text rest) (behind : Divides rest pieces) :
      Divides (text ++ rest) (.region text :: pieces)
  | escape {rest : Text} {pieces : List SqlPiece} (behind : Divides rest pieces) :
      Divides ('\\' :: '?' :: rest) (.escape :: pieces)
  | identifier {rest : Text} {pieces : List SqlPiece} (behind : Divides rest pieces) :
      Divides ('?' :: '?' :: rest) (.identifier :: pieces)
  | value {rest : Text} {pieces : List SqlPiece} (single : rest.head? ≠ some '?') (behind : Divides rest pieces) :
      Divides ('?' :: rest) (.value :: pieces)
  | char {c : Char} {rest : Text} {pieces : List SqlPiece} (opens : ¬ Opens (c :: rest)) (other : c ≠ '?')
      (plain : c = '\\' → rest.head? ≠ some '?') (behind : Divides rest pieces) :
      Divides (c :: rest) (.char c :: pieces)

theorem exists_divides (sql : Text) : ∃ pieces, Divides sql pieces := by
  induction size : sql.length using Nat.strongRecOn generalizing sql with
  | ind size ih =>
    subst size
    by_cases opens : Opens sql
    · obtain ⟨text, rest, rfl, region⟩ := opens.exists_region
      have shorter : rest.length < (text ++ rest).length := by
        rw [List.length_append]
        exact Nat.lt_add_of_pos_left (List.length_pos_iff.mpr region.ne_nil)
      obtain ⟨pieces, behind⟩ := ih _ shorter rest rfl
      exact ⟨_, .region region behind⟩
    · -- Where no region opens, the first two characters tell what there is.
      cases sql with
      | nil => exact ⟨[], .nil⟩
      | cons c rest =>
        obtain ⟨pieces, behind⟩ := ih _ (Nat.lt_succ_self _) rest rfl
        by_cases follows : rest.head? = some '?'
        · obtain ⟨others, rfl⟩ := List.head?_eq_some_iff.mp follows
          obtain ⟨further, later⟩ := ih _ (Nat.lt_succ_of_lt (Nat.lt_succ_self _)) others rfl
          by_cases mark : c = '?'
          · subst mark
            exact ⟨_, .identifier later⟩
          · by_cases backslash : c = '\\'
            · subst backslash
              exact ⟨_, .escape later⟩
            · exact ⟨_, .char opens mark (fun same => absurd same backslash) behind⟩
        · by_cases mark : c = '?'
          · subst mark
            exact ⟨_, .value follows behind⟩
          · exact ⟨_, .char opens mark (fun _ => follows) behind⟩

theorem Divides.source {sql : Text} {pieces : List SqlPiece} (divides : Divides sql pieces) :
    pieces.flatMap SqlPiece.source = sql := by
  induction divides with
  | nil => rfl
  | region _ _ ih | escape _ ih | identifier _ ih | value _ _ ih | char _ _ _ _ ih => rw [List.flatMap_cons, ih]; rfl

end SqlPiece

namespace SqlState

open DollarQuote

/-- A tag that has begun and is not completed is no mark. -/
theorem tokens_tag {name rest : Text} (valid : TagName name)
    (broken : ∀ more behind, TagName (name ++ more) → rest ≠ more ++ '$' :: behind) :
    (tag name).tokens rest = bare.tokens rest := by
  -- The name grows with each character, and whatever ends it is read as if nothing had begun.
  induction rest generalizing name with
  | nil => rfl
  | cons c rest ih =>
    have notDollar : c ≠ '$' := by
      rintro rfl
      exact broken [] rest (by rwa [List.append_nil]) rfl
    by_cases letter : (isTagChar c && !(name.isEmpty && Text.isDigit c)) = true
    · obtain ⟨tagChar, start⟩ := Bool.and_eq_true_iff.mp letter
      have longer : TagName (name ++ [c]) := by
        refine ⟨fun d member => ?_, ?_⟩
        · obtain old | new := List.mem_append.mp member
          · exact valid.chars d old
          · exact List.mem_singleton.mp new ▸ tagChar
        · cases name with
          | nil => simpa using start
          | cons first others => exact valid.notNumber
      have plain : bare.step c = (.bare, [.bare c]) :=
        Quiet.stepBare_of_plain (Quiet.isPlain_of_class (by decide) tagChar)
      have step : (tag name).step c = (tag (name ++ [c]), [.bare c]) := by
        rw [SqlState.step, if_neg notDollar, if_pos letter]
      rw [tokens_cons, tokens_cons, step, plain, ih longer fun more behind further same => ?_]
      refine broken (c :: more) behind ?_ (congrArg (c :: ·) same)
      rwa [List.append_assoc] at further
    · have step : (tag name).step c = bare.step c := (if_neg notDollar).trans (if_neg letter)
      rw [tokens_cons, tokens_cons, step]

theorem tokens_char {c : Char} {rest : Text} (opens : ¬ Opens (c :: rest)) (other : c ≠ '?')
    (plain : c = '\\' → rest.head? ≠ some '?') : bare.tokens (c :: rest) = .bare c :: bare.tokens rest := by
  rw [tokens_cons, step_bare, stepBare]
  split_ifs with quote dollar dash slash backslash
  · exact absurd (.quoted quote rest) opens
  · subst dollar
    refine congrArg (SqlToken.bare '$' :: ·) (tokens_tag ⟨fun _ none => absurd none List.not_mem_nil, rfl⟩
      fun more behind valid same => opens ?_)
    have whole : '$' :: rest = enclosed more ++ behind := by
      rw [same]
      simp [enclosed]
    exact whole ▸ .dollarQuoted valid behind
  · subst dash
    refine congrArg (SqlToken.bare '-' :: ·) (tokens_congr rfl fun d head => if_neg ?_)
    rintro rfl
    obtain ⟨others, rfl⟩ := List.head?_eq_some_iff.mp head
    exact opens (.lineComment others)
  · subst slash
    refine congrArg (SqlToken.bare '/' :: ·) (tokens_congr rfl fun d head => if_neg ?_)
    rintro rfl
    obtain ⟨others, rfl⟩ := List.head?_eq_some_iff.mp head
    exact opens (.blockComment others)
  · subst backslash
    cases rest with
    | nil => rfl
    | cons d others => exact tokens_backslash (fun same => plain rfl (congrArg some same)) others
  · rfl

end SqlState

namespace SqlSegment

def letters : SqlSegment → List SqlSegment
  | .text sql => sql.map fun c => .text [c]
  | segment => [segment]

def sql : SqlSegment → Text
  | .text sql => sql
  | .value => ['?']
  | .identifier => ['?', '?']

theorem flatMap_letters_addText (text : Text) (segments : List SqlSegment) :
    (addText text segments).flatMap letters = (text.map fun c => .text [c]) ++ segments.flatMap letters := by
  rw [addText]
  split
  · next empty =>
    rw [List.isEmpty_iff.mp empty]
    rfl
  · rfl

theorem flatMap_sql_letters (segments : List SqlSegment) :
    (segments.flatMap letters).flatMap sql = segments.flatMap sql := by
  rw [List.flatMap_assoc]
  refine List.flatMap_congr fun segment _ => ?_
  cases segment with
  | text text =>
    rw [letters, List.flatMap_map]
    exact List.flatMap_singleton' text
  | value | identifier => rfl

theorem filter_letters (segments : List SqlSegment) :
    (segments.flatMap letters).filter isPlaceholder = segments.filter isPlaceholder := by
  induction segments with
  | nil => rfl
  | cons segment rest ih =>
    rw [List.flatMap_cons, List.filter_append, ih]
    cases segment with
    | text text =>
      have none : (letters (.text text)).filter isPlaceholder = [] := by
        simp [letters, isPlaceholder]
      rw [none]
      rfl
    | value | identifier => rfl

theorem ne_nil_of_mem_addText {run text : Text} {segments : List SqlSegment} (member : .text text ∈ addText run segments)
    (others : .text text ∈ segments → text ≠ []) : text ≠ [] := by
  rw [addText] at member
  split at member
  · exact others member
  · next some =>
    obtain same | member := List.mem_cons.mp member
    · cases same
      exact fun empty => some (List.isEmpty_iff.mpr empty)
    · exact others member

theorem ne_nil_of_mem_gather {tokens : List SqlToken} {text : Text} (member : .text text ∈ (gather tokens).2) :
    text ≠ [] := by
  induction tokens with
  | nil => cases member
  | cons token rest ih =>
    cases token with
    | bare c =>
      rw [gather] at member
      dsimp only at member
      split at member
      · dsimp only at member
        exact ne_nil_of_mem_addText member ih
      · exact ih member
    | shielded c => exact ih member
    | value | identifier =>
      obtain same | member := List.mem_cons.mp member
      · cases same
      · exact ne_nil_of_mem_addText member ih

end SqlSegment

def SqlToken.segment : SqlToken → SqlSegment
  | .bare c => .text [c]
  | .shielded c => .text [c]
  | .value => .value
  | .identifier => .identifier

theorem SqlToken.map_segment {tokens : List SqlToken} {text : Text} (verbatim : tokens.map char? = text.map some) :
    tokens.map segment = text.map fun c => .text [c] := by
  induction tokens generalizing text with
  | nil =>
    cases text with
    | nil => rfl
    | cons c others => cases verbatim
  | cons token rest ih =>
    cases text with
    | nil => cases verbatim
    | cons c others =>
      obtain ⟨head, tail⟩ := List.cons.inj verbatim
      rw [List.map_cons, List.map_cons, ih tail]
      cases token with
      | bare _ | shielded _ =>
        cases head
        rfl
      | value | identifier => cases head

/-- Gathering joins characters, and it neither moves nor changes anything. -/
theorem SqlSegment.flatMap_letters_ofTokens (tokens : List SqlToken) :
    (ofTokens tokens).flatMap letters = tokens.map SqlToken.segment := by
  rw [ofTokens, flatMap_letters_addText]
  induction tokens with
  | nil => rfl
  | cons token rest ih =>
    rw [List.map_cons, ← ih]
    cases token with
    | bare c =>
      rw [gather]
      dsimp only
      split
      · rw [flatMap_letters_addText]
        rfl
      · rfl
    | shielded c => rfl
    | value | identifier =>
      rw [gather]
      dsimp only
      rw [List.flatMap_cons, flatMap_letters_addText]
      rfl

namespace SqlPiece

open SqlState

theorem Divides.tokens {sql : Text} {pieces : List SqlPiece} (divides : Divides sql pieces) :
    (bare.tokens sql).map SqlToken.segment = pieces.flatMap fun piece => piece.segment.letters := by
  induction divides with
  | nil => rfl
  | region region _ ih =>
    obtain ⟨tokens, verbatim, read⟩ := region.passes
    rw [read, List.map_append, SqlToken.map_segment verbatim, ih]
    rfl
  | escape _ ih => exact congrArg (SqlSegment.text ['?'] :: ·) ih
  | identifier _ ih => exact congrArg (SqlSegment.identifier :: ·) ih
  | value single _ ih =>
    have read := tokens_question single
    exact (congrArg (List.map SqlToken.segment) read).trans (congrArg (SqlSegment.value :: ·) ih)
  | char opens other plain _ ih =>
    rw [tokens_char opens other plain, List.map_cons, ih]
    rfl

/-- What is written back for the piece: an escape loses its backslash. -/
def written : SqlPiece → Text
  | .escape => ['?']
  | piece => piece.source

end SqlPiece

/-- Every text is divided into pieces, and the segments are what these give, each in its place: regions and other
characters as they are, escapes without their backslash, placeholders. No text among them is empty, and a
reader that takes the bytes one by one makes the same cuts. -/
theorem segments_exact (sql : Text) :
    (∃ pieces, SqlPiece.Divides sql pieces) ∧
    (∀ pieces, SqlPiece.Divides sql pieces →
      pieces.flatMap SqlPiece.source = sql ∧
      (SqlSegment.ofText sql).flatMap SqlSegment.letters = (pieces.map SqlPiece.segment).flatMap SqlSegment.letters ∧
      (SqlSegment.ofText sql).flatMap SqlSegment.sql = pieces.flatMap SqlPiece.written ∧
      (SqlSegment.ofText sql).filter SqlSegment.isPlaceholder =
        (pieces.map SqlPiece.segment).filter SqlSegment.isPlaceholder) ∧
    (∀ text, SqlSegment.text text ∈ SqlSegment.ofText sql → text ≠ []) ∧
    SqlSegment.ofText (Utf8.spread sql) = (SqlSegment.ofText sql).map SqlSegment.spread := by
  refine ⟨SqlPiece.exists_divides sql, fun pieces divides => ?_, fun text member => ?_, SqlSegment.ofText_spread sql⟩
  · have letters : (SqlSegment.ofText sql).flatMap SqlSegment.letters =
        (pieces.map SqlPiece.segment).flatMap SqlSegment.letters := by
      rw [SqlSegment.ofText, SqlSegment.flatMap_letters_ofTokens, SqlState.ofText_eq_tokens, divides.tokens,
        List.flatMap_map]
    refine ⟨divides.source, letters, ?_, ?_⟩
    · have written := congrArg (List.flatMap SqlSegment.sql) letters
      rw [SqlSegment.flatMap_sql_letters, SqlSegment.flatMap_sql_letters, List.flatMap_map] at written
      rw [written]
      refine List.flatMap_congr fun piece _ => ?_
      cases piece <;> rfl
    · have placeholders := congrArg (List.filter SqlSegment.isPlaceholder) letters
      rwa [SqlSegment.filter_letters, SqlSegment.filter_letters] at placeholders
  · exact SqlSegment.ne_nil_of_mem_addText member SqlSegment.ne_nil_of_mem_gather

def overlapping : Text := "\\?é '\\? ''?', $1$t$ ?$t$ /*/ ?*/ ? */ ???-- ?\n$$?".toList

theorem segments_exact_overlapping :
    SqlSegment.ofText overlapping = [.text "?é '\\? ''?', $1$t$ ?$t$ /*/ ?*/ ".toList, .value, .text " */ ".toList,
      .identifier, .value, .text "-- ?\n$$?".toList] ∧
    ∃ pieces, SqlPiece.Divides overlapping pieces ∧
      pieces.flatMap SqlPiece.written = "?é '\\? ''?', $1$t$ ?$t$ /*/ ?*/ ? */ ???-- ?\n$$?".toList ∧
      (pieces.map SqlPiece.segment).filter SqlSegment.isPlaceholder = [.value, .identifier, .value] := by
  have segments : SqlSegment.ofText overlapping = [.text "?é '\\? ''?', $1$t$ ?$t$ /*/ ?*/ ".toList, .value,
      .text " */ ".toList, .identifier, .value, .text "-- ?\n$$?".toList] := by decide +kernel
  obtain ⟨⟨pieces, divides⟩, each, -⟩ := segments_exact overlapping
  obtain ⟨-, -, written, placeholders⟩ := each pieces divides
  rw [segments] at written placeholders
  exact ⟨segments, pieces, divides, written.symm, placeholders.symm⟩

end LiteralSql
