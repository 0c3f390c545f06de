import LiteralSql.Proofs.DollarQuote
import LiteralSql.Proofs.Identifier
import LiteralSql.Proofs.Scan.Comment

/-! The regions of SQL text, each with its marks.

A region is described by the text that it takes up and by what is behind it: it
ends with its first closing mark, and without one it takes up everything. The
reader passes over it and goes on behind it as if the text began there.
-/

set_option autoImplicit false

namespace LiteralSql

open DollarQuote

inductive Region : Text → Text → Prop
  /-- A quoted name or literal. A mark that is written twice does not end it. -/
  | quoted {mark : Char} (quote : mark = '\'' ∨ mark = '"') (content : Text) {behind : Text}
      (single : behind.head? ≠ some mark) : Region (mark :: Text.double mark content ++ [mark]) behind
  | openQuoted {mark : Char} (quote : mark = '\'' ∨ mark = '"') (content : Text) :
      Region (mark :: Text.double mark content) []
  /-- Everything up to the first occurrence of the tag that it begins with. -/
  | dollarQuoted {name : Text} (valid : TagName name) {content behind : Text}
      (first : Text.position? (enclosed name) (content ++ (enclosed name ++ behind)) = some content.length) :
      Region (enclosed name ++ content ++ enclosed name) behind
  | openDollarQuoted {name : Text} (valid : TagName name) {content : Text} (absent : ¬ enclosed name <:+: content) :
      Region (enclosed name ++ content) []
  | lineComment {content : Text} (line : '\n' ∉ content) (behind : Text) :
      Region ("--".toList ++ content ++ ['\n']) behind
  | openLineComment {content : Text} (line : '\n' ∉ content) : Region ("--".toList ++ content) []
  /-- The closing mark that ends the comment is the first one that closes as many as have been opened. -/
  | blockComment {content : List CommentPart} {behind : Text}
      (leftmost : CommentPart.Leftmost (CommentPart.closing.source ++ behind) content)
      (nested : CommentPart.Nested 0 content) (closed : content.count .closing = content.count .opening) :
      Region (CommentPart.opening.source ++ content.flatMap CommentPart.source ++ CommentPart.closing.source) behind
  | openBlockComment {content : List CommentPart} (leftmost : CommentPart.Leftmost [] content)
      (nested : CommentPart.Nested 0 content) :
      Region (CommentPart.opening.source ++ content.flatMap CommentPart.source) []

inductive Opens : Text → Prop
  | quoted {mark : Char} (quote : mark = '\'' ∨ mark = '"') (rest : Text) : Opens (mark :: rest)
  | dollarQuoted {name : Text} (valid : TagName name) (rest : Text) : Opens (enclosed name ++ rest)
  | lineComment (rest : Text) : Opens ("--".toList ++ rest)
  | blockComment (rest : Text) : Opens (CommentPart.opening.source ++ rest)

namespace SqlState

/-- The text stands for itself, and what is behind it is read as if it began there. -/
def Passes (text behind : Text) : Prop :=
  ∃ tokens : List SqlToken, tokens.map SqlToken.char? = text.map some ∧
    bare.tokens (text ++ behind) = tokens ++ bare.tokens behind

theorem map_char?_shielded (text : Text) : (text.map SqlToken.shielded).map SqlToken.char? = text.map some :=
  List.map_map

theorem map_char?_bare (text : Text) : (text.map SqlToken.bare).map SqlToken.char? = text.map some :=
  List.map_map

theorem Passes.of_read {text : Text} {tokens : List SqlToken} (read : bare.read text = (.bare, tokens))
    (verbatim : tokens.map SqlToken.char? = text.map some) (behind : Text) : Passes text behind :=
  ⟨tokens, verbatim, by rw [tokens_append, read]⟩

/-- At the end of the text it does not matter which region it ends in. -/
theorem Passes.of_end {text : Text} {state : SqlState} {tokens : List SqlToken}
    (read : bare.read text = (state, tokens)) (settled : state.pending = [])
    (verbatim : tokens.map SqlToken.char? = text.map some) : Passes text [] :=
  ⟨tokens, verbatim, by rw [List.append_nil, SqlState.tokens, read, settled]; rfl⟩

theorem step_bare (c : Char) : bare.step c = stepBare c := rfl

theorem stepBare_quote {mark : Char} (quote : mark = '\'' ∨ mark = '"') :
    stepBare mark = (.quoted mark, [.shielded mark]) := if_pos quote

def begun : Option Text → Text
  | none => []
  | some read => '$' :: read

/-- As long as no closing tag comes, with what may have begun of one, the region is not left. -/
theorem read_dollarQuoted {name content : Text} {seen : Option Text}
    (absent : ¬ enclosed name <:+: begun seen ++ content) :
    ∃ last, (dollarQuoted name seen).read content = (dollarQuoted name last, content.map .shielded) := by
  induction content generalizing seen with
  | nil => exact ⟨seen, rfl⟩
  | cons c rest ih =>
    have further {next : Option Text} (step : (dollarQuoted name seen).step c = (dollarQuoted name next, [.shielded c]))
        (kept : begun next ++ rest <:+ begun seen ++ c :: rest) :
        ∃ last, (dollarQuoted name seen).read (c :: rest) = (dollarQuoted name last, (c :: rest).map .shielded) := by
      obtain ⟨last, read⟩ := ih fun found => absent (found.trans kept.isInfix)
      exact ⟨last, by rw [read_cons, step, read]; rfl⟩
    by_cases dollar : c = '$'
    · subst dollar
      have other : seen ≠ some name := by
        rintro rfl
        exact absent ⟨[], rest, by simp [begun, enclosed]⟩
      exact further (step_dollar other) (List.suffix_append _ _)
    · have step (next : Option Text) (same : (seen.bind fun read =>
          if (read ++ [c]).isPrefixOf name then some (read ++ [c]) else none) = next) :
          (dollarQuoted name seen).step c = (dollarQuoted name next, [.shielded c]) := by
        rw [SqlState.step, if_neg dollar, same]
      have dropped : begun none ++ rest <:+ begun seen ++ c :: rest :=
        (List.suffix_cons c rest).trans (List.suffix_append _ _)
      cases seen with
      | none => exact further (step none rfl) dropped
      | some read =>
        by_cases grows : (read ++ [c]).isPrefixOf name = true
        · refine further (step (some (read ++ [c])) (if_pos grows)) ?_
          simp [begun]
        · exact further (step none (if_neg grows)) dropped

theorem tokens_opening (rest : Text) : bare.tokens (CommentPart.opening.source ++ rest) =
    [.bare '/', .shielded '*'] ++ (blockComment (0 + 1)).tokens rest := rfl

theorem read_lineComment {content : Text} (line : '\n' ∉ content) :
    lineComment.read content = (.lineComment, content.map .shielded) := by
  induction content with
  | nil => rfl
  | cons c rest ih =>
    rw [List.mem_cons, not_or] at line
    have step : lineComment.step c = (.lineComment, [.shielded c]) := by simp [SqlState.step, Ne.symm line.1]
    rw [read_cons, step, ih line.2]
    rfl

end SqlState

open SqlState

theorem Region.passes {text behind : Text} (region : Region text behind) : Passes text behind := by
  -- Behind a closed region the reader is back outside; an open one takes all that is left of the text.
  cases region with
  | @quoted mark quote content =>
    have opens := stepBare_quote quote
    have read : bare.read (mark :: Text.double mark content ++ [mark]) =
        (.bare, (mark :: Text.double mark content ++ [mark]).map .shielded) := by
      rw [List.cons_append, read_cons, step_bare, opens, read_double opens]
      rfl
    exact .of_read read (map_char?_shielded _) behind
  | @openQuoted mark quote content =>
    have opens := stepBare_quote quote
    have read : bare.read (mark :: Text.double mark content) =
        (.quoted mark, (mark :: Text.double mark content).map .shielded) := by
      rw [read_cons, step_bare, opens, read_quoted opens]
      rfl
    exact .of_end read rfl (map_char?_shielded _)
  | @dollarQuoted name valid content behind first =>
    have free := (position?_enclosed_iff valid.noDollar content behind).mp first
    refine .of_read (read_enclosed valid free).1 ?_ behind
    rw [List.map_append, map_char?_bare, map_char?_shielded, ← List.map_append]
    exact congrArg _ (by simp [enclosed])
  | @openDollarQuoted name valid content absent =>
    obtain ⟨last, inside⟩ := @read_dollarQuoted name content none absent
    have read : bare.read (enclosed name ++ content) = (.dollarQuoted name last,
        ('$' :: name).map .bare ++ [.shielded '$'] ++ content.map .shielded) := by
      rw [read_append, read_opening valid, inside]
    refine .of_end read rfl ?_
    rw [List.map_append, List.map_append, map_char?_bare, map_char?_shielded, List.map_append]
    simp [enclosed, SqlToken.char?]
  | @lineComment content line =>
    have opens : bare.read "--".toList = (.lineComment, [.bare '-', .shielded '-']) := rfl
    have closes : SqlState.lineComment.read ['\n'] = (.bare, [.shielded '\n']) := rfl
    have read : bare.read ("--".toList ++ content ++ ['\n']) =
        (.bare, [.bare '-', .shielded '-'] ++ content.map .shielded ++ [.shielded '\n']) := by
      rw [read_append, read_append, opens, read_lineComment line, closes]
    refine .of_read read ?_ behind
    rw [List.map_append, List.map_append, map_char?_shielded, List.map_append, List.map_append]
    rfl
  | @openLineComment content line =>
    have opens : bare.read "--".toList = (.lineComment, [.bare '-', .shielded '-']) := rfl
    have read : bare.read ("--".toList ++ content) =
        (.lineComment, [.bare '-', .shielded '-'] ++ content.map .shielded) := by
      rw [read_append, opens, read_lineComment line]
    refine .of_end read rfl ?_
    rw [List.map_append, map_char?_shielded, List.map_append]
    rfl
  | @blockComment content behind leftmost nested closed =>
    have depth : CommentPart.depthBehind 0 content = 0 := by
      rw [CommentPart.depthBehind, closed]
      omega
    have closes : (SqlState.blockComment (0 + 1)).tokens (CommentPart.closing.source ++ behind) =
        CommentPart.closing.source.map .shielded ++ bare.tokens behind := rfl
    refine ⟨[.bare '/', .shielded '*'] ++ (content.flatMap CommentPart.source).map .shielded ++
      CommentPart.closing.source.map .shielded, ?_, ?_⟩
    · rw [List.map_append, List.map_append, map_char?_shielded, map_char?_shielded, List.map_append, List.map_append]
      rfl
    · rw [List.append_assoc, List.append_assoc, tokens_opening, tokens_comment leftmost nested, depth, closes]
      simp only [List.append_assoc]
  | @openBlockComment content leftmost nested =>
    refine ⟨[.bare '/', .shielded '*'] ++ (content.flatMap CommentPart.source).map .shielded, ?_, ?_⟩
    · rw [List.map_append, map_char?_shielded, List.map_append]
      rfl
    · rw [List.append_assoc, tokens_opening, tokens_comment leftmost nested]
      rfl

theorem exists_quoted (mark : Char) (text : Text) :
    (∃ content behind, text = Text.double mark content ++ mark :: behind ∧ behind.head? ≠ some mark) ∨
      ∃ content, text = Text.double mark content := by
  have doubled (content : Text) : Text.double mark (mark :: content) = mark :: mark :: Text.double mark content := by
    simp [Text.double]
  have single {c : Char} (other : c ≠ mark) (content : Text) :
      Text.double mark (c :: content) = c :: Text.double mark content := by
    simp [Text.double, other]
  induction size : text.length using Nat.strongRecOn generalizing text with
  | ind size ih =>
    subst size
    cases text with
    | nil => exact .inr ⟨[], rfl⟩
    | cons c rest =>
      by_cases same : c = mark
      · subst same
        cases rest with
        | nil => exact .inl ⟨[], [], rfl, (Option.some_ne_none c).symm⟩
        | cons d others =>
          by_cases again : d = c
          · subst again
            obtain ⟨content, behind, rfl, ends⟩ | ⟨content, rfl⟩ :=
              ih _ (Nat.lt_succ_of_lt (Nat.lt_succ_self _)) others rfl
            · exact .inl ⟨d :: content, behind, by rw [doubled]; rfl, ends⟩
            · exact .inr ⟨d :: content, (doubled content).symm⟩
          · exact .inl ⟨[], d :: others, rfl, fun first => again (Option.some.inj first)⟩
      · obtain ⟨content, behind, rfl, ends⟩ | ⟨content, rfl⟩ := ih _ (Nat.lt_succ_self _) rest rfl
        · exact .inl ⟨c :: content, behind, by rw [single same]; rfl, ends⟩
        · exact .inr ⟨c :: content, (single same content).symm⟩

theorem Region.ne_nil {text behind : Text} (region : Region text behind) : text ≠ [] := by
  cases region <;> exact List.cons_ne_nil _ _

theorem Opens.exists_region {text : Text} (opens : Opens text) :
    ∃ region behind, text = region ++ behind ∧ Region region behind := by
  cases opens with
  | @quoted mark quote rest =>
    obtain ⟨content, behind, rfl, single⟩ | ⟨content, rfl⟩ := exists_quoted mark rest
    · exact ⟨_, behind, by simp, .quoted quote content single⟩
    · exact ⟨_, [], (List.append_nil _).symm, .openQuoted quote content⟩
  | @dollarQuoted name valid rest =>
    by_cases found : enclosed name <:+: rest
    · obtain ⟨before, after, rfl⟩ := found
      obtain ⟨position, -, first⟩ := Text.exists_position?_le (enclosed name) before after
      obtain ⟨content, behind, same, rfl⟩ := Text.exists_of_position? first
      rw [same] at first
      refine ⟨_, behind, ?_, .dollarQuoted valid first⟩
      simp only [List.append_assoc, same]
    · exact ⟨_, [], (List.append_nil _).symm, .openDollarQuoted valid found⟩
  | lineComment rest =>
    by_cases ends : '\n' ∈ rest
    · obtain ⟨content, behind, rfl, line⟩ := List.eq_append_cons_of_mem ends
      refine ⟨_, behind, ?_, .lineComment line behind⟩
      simp only [List.append_assoc, List.singleton_append]
    · exact ⟨_, [], (List.append_nil _).symm, .openLineComment ends⟩
  | blockComment rest =>
    obtain ⟨content, behind, rfl, leftmost, nested, closed⟩ | ⟨content, rfl, leftmost, nested⟩ :=
      CommentPart.exists_comment 0 rest
    · refine ⟨_, behind, ?_, .blockComment leftmost nested (nested.balanced closed)⟩
      simp only [List.append_assoc]
    · exact ⟨_, [], (List.append_nil _).symm, .openBlockComment leftmost nested⟩

end LiteralSql
