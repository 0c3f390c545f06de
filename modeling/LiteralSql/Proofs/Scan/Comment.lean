import LiteralSql.Proofs.Splicing

/-! Block comments, which nest.

What stands between the marks of a comment is a sequence of marks and other
characters. Marks are read from the left and do not overlap: `/*/` is an opening
mark and a slash. Up to the closing mark that ends the comment no more comments
are closed than have been opened.
-/

set_option autoImplicit false

namespace LiteralSql

inductive CommentPart
  | opening
  | closing
  | char (c : Char)
  deriving DecidableEq

namespace CommentPart

def source : CommentPart → Text
  | .opening => "/*".toList
  | .closing => "*/".toList
  | .char c => [c]

/-- No character stands where a mark could be read. -/
def Leftmost (behind : Text) : List CommentPart → Prop
  | [] => True
  | .opening :: rest => Leftmost behind rest
  | .closing :: rest => Leftmost behind rest
  | .char c :: rest =>
    (∀ mark ∈ [opening, closing], ¬ mark.source <+: c :: (rest.flatMap source ++ behind)) ∧ Leftmost behind rest

/-- With this many comments around, no more are closed than are open, however far one reads. -/
def Nested (depth : Nat) (parts : List CommentPart) : Prop :=
  ∀ before, before <+: parts → before.count .closing ≤ before.count .opening + depth

def depthBehind (depth : Nat) (parts : List CommentPart) : Nat :=
  depth + parts.count .opening - parts.count .closing

section
variable {depth : Nat} {parts : List CommentPart}

theorem Nested.balanced (nested : Nested depth parts) (closed : depthBehind depth parts = 0) :
    parts.count .closing = parts.count .opening + depth := by
  have bound := nested parts List.prefix_rfl
  rw [depthBehind] at closed
  omega

theorem depthBehind_opening : depthBehind depth (.opening :: parts) = depthBehind (depth + 1) parts := by
  simp only [depthBehind, List.count_cons, reduceCtorEq, beq_iff_eq, if_true, if_false]
  omega

theorem depthBehind_closing : depthBehind (depth + 1) (.closing :: parts) = depthBehind depth parts := by
  simp only [depthBehind, List.count_cons, reduceCtorEq, beq_iff_eq, if_true, if_false]
  omega

theorem depthBehind_char (c : Char) : depthBehind depth (.char c :: parts) = depthBehind depth parts := by
  simp only [depthBehind, List.count_cons, reduceCtorEq, beq_iff_eq, if_false, Nat.add_zero]

theorem nested_nil : Nested depth [] := by
  intro before first
  rw [List.prefix_nil.mp first]
  exact Nat.zero_le _

theorem nested_cons (part : CommentPart) : Nested depth (part :: parts) ↔
    ∀ before, before <+: parts → (part :: before).count .closing ≤ (part :: before).count .opening + depth := by
  constructor
  · intro nested before first
    exact nested _ (List.cons_prefix_cons.mpr ⟨rfl, first⟩)
  · intro each before first
    obtain rfl | ⟨others, rfl, within⟩ := List.prefix_cons_iff.mp first
    · exact Nat.zero_le _
    · exact each others within

theorem nested_opening : Nested depth (.opening :: parts) ↔ Nested (depth + 1) parts := by
  rw [nested_cons]
  refine forall₂_congr fun before _ => ?_
  simp only [List.count_cons, reduceCtorEq, beq_iff_eq, if_true, if_false]
  omega

theorem nested_closing : Nested (depth + 1) (.closing :: parts) ↔ Nested depth parts := by
  rw [nested_cons]
  refine forall₂_congr fun before _ => ?_
  simp only [List.count_cons, reduceCtorEq, beq_iff_eq, if_true, if_false]
  omega

theorem not_nested_closing : ¬ Nested 0 (.closing :: parts) := fun nested =>
  Nat.not_succ_le_zero 0 (nested [.closing] ⟨parts, rfl⟩)

theorem nested_char (c : Char) : Nested depth (.char c :: parts) ↔ Nested depth parts := by
  rw [nested_cons]
  refine forall₂_congr fun before _ => ?_
  simp only [List.count_cons, reduceCtorEq, beq_iff_eq, if_false, Nat.add_zero]

end

end CommentPart

namespace SqlState

open CommentPart

/-- What has begun does not matter if the next character does not go on with it. -/
theorem tokens_congr {first second : SqlState} {text : Text} (held : first.pending = second.pending)
    (same : ∀ c ∈ text.head?, first.step c = second.step c) : first.tokens text = second.tokens text := by
  cases text with
  | nil => exact held
  | cons c rest => rw [tokens_cons, tokens_cons, same c rfl]

theorem tokens_blockSlash {text : Text} (apart : text.head? ≠ some '*') (depth : Nat) :
    (blockSlash depth).tokens text = (blockComment depth).tokens text := by
  refine tokens_congr rfl fun c head => ?_
  have other : c ≠ '*' := fun same => apart (same ▸ head)
  simp [step, other]

theorem tokens_blockStar {text : Text} (apart : text.head? ≠ some '/') (depth : Nat) :
    (blockStar depth).tokens text = (blockComment depth).tokens text := by
  refine tokens_congr rfl fun c head => ?_
  have other : c ≠ '/' := fun same => apart (same ▸ head)
  simp [step, other]

theorem tokens_commentChar {c : Char} {text : Text}
    (apart : ∀ mark ∈ [opening, closing], ¬ mark.source <+: c :: text) (depth : Nat) :
    (blockComment depth).tokens (c :: text) = .shielded c :: (blockComment depth).tokens text := by
  have mark {first second : Char} (head : text.head? = some second) : [first, second] <+: first :: text := by
    obtain ⟨rest, rfl⟩ := List.head?_eq_some_iff.mp head
    exact ⟨rest, rfl⟩
  rw [List.forall_mem_cons, List.forall_mem_singleton] at apart
  rw [tokens_cons, step]
  dsimp only
  split_ifs with slash star
  · subst slash
    exact congrArg (SqlToken.shielded '/' :: ·) (tokens_blockSlash (fun head => apart.1 (mark head)) depth)
  · subst star
    exact congrArg (SqlToken.shielded '*' :: ·) (tokens_blockStar (fun head => apart.2 (mark head)) depth)
  · rfl

theorem tokens_comment {parts : List CommentPart} {depth : Nat} {behind : Text} (leftmost : Leftmost behind parts)
    (nested : Nested depth parts) :
    (blockComment (depth + 1)).tokens (parts.flatMap source ++ behind) =
      (parts.flatMap source).map .shielded ++ (blockComment (depthBehind depth parts + 1)).tokens behind := by
  induction parts generalizing depth with
  | nil => rfl
  | cons part rest ih =>
    rw [List.flatMap_cons, List.append_assoc, List.map_append, List.append_assoc]
    cases part with
    | opening =>
      have passed (text : Text) : (blockComment (depth + 1)).tokens (opening.source ++ text) =
          opening.source.map .shielded ++ (blockComment (depth + 1 + 1)).tokens text := rfl
      rw [passed, depthBehind_opening, ih leftmost (nested_opening.mp nested)]
    | closing =>
      cases depth with
      | zero => exact absurd nested not_nested_closing
      | succ depth =>
        have passed (text : Text) : (blockComment (depth + 1 + 1)).tokens (closing.source ++ text) =
            closing.source.map .shielded ++ (blockComment (depth + 1)).tokens text := rfl
        rw [passed, depthBehind_closing, ih leftmost (nested_closing.mp nested)]
    | char c =>
      rw [depthBehind_char, ← ih leftmost.2 ((nested_char c).mp nested)]
      exact tokens_commentChar leftmost.1 (depth + 1)

end SqlState

namespace CommentPart

/-- Read on from inside of a comment, a text closes it and those around it, or it ends before that. -/
theorem exists_comment (depth : Nat) (text : Text) :
    (∃ parts behind, text = parts.flatMap source ++ (closing.source ++ behind) ∧
        Leftmost (closing.source ++ behind) parts ∧ Nested depth parts ∧ depthBehind depth parts = 0) ∨
      ∃ parts, text = parts.flatMap source ∧ Leftmost [] parts ∧ Nested depth parts := by
  induction size : text.length using Nat.strongRecOn generalizing depth text with
  | ind size ih =>
    subst size
    -- An opening mark comes before a closing one: of the three characters of both only the first two are taken.
    by_cases opens : opening.source <+: text
    · obtain ⟨rest, rfl⟩ := opens
      have shorter : rest.length < (opening.source ++ rest).length := Nat.lt_succ_of_lt (Nat.lt_succ_self _)
      obtain ⟨parts, behind, rfl, leftmost, nested, closed⟩ | ⟨parts, rfl, leftmost, nested⟩ :=
        ih _ shorter (depth + 1) rest rfl
      · exact .inl ⟨opening :: parts, behind, by simp, leftmost, nested_opening.mpr nested,
          depthBehind_opening.trans closed⟩
      · exact .inr ⟨opening :: parts, by simp, leftmost, nested_opening.mpr nested⟩
    · by_cases closes : closing.source <+: text
      · obtain ⟨rest, rfl⟩ := closes
        cases depth with
        | zero => exact .inl ⟨[], rest, rfl, trivial, nested_nil, rfl⟩
        | succ depth =>
          have shorter : rest.length < (closing.source ++ rest).length := Nat.lt_succ_of_lt (Nat.lt_succ_self _)
          obtain ⟨parts, behind, rfl, leftmost, nested, closed⟩ | ⟨parts, rfl, leftmost, nested⟩ :=
            ih _ shorter depth rest rfl
          · exact .inl ⟨closing :: parts, behind, by simp, leftmost, nested_closing.mpr nested,
              depthBehind_closing.trans closed⟩
          · exact .inr ⟨closing :: parts, by simp, leftmost, nested_closing.mpr nested⟩
      · cases text with
        | nil => exact .inr ⟨[], rfl, trivial, nested_nil⟩
        | cons c rest =>
          have apart : ∀ mark ∈ [opening, closing], ¬ mark.source <+: c :: rest := by
            rw [List.forall_mem_cons, List.forall_mem_singleton]
            exact ⟨opens, closes⟩
          obtain ⟨parts, behind, rfl, leftmost, nested, closed⟩ | ⟨parts, rfl, leftmost, nested⟩ :=
            ih _ (Nat.lt_succ_self _) depth rest rfl
          · exact .inl ⟨char c :: parts, behind, rfl, ⟨apart, leftmost⟩, (nested_char c).mpr nested,
              (depthBehind_char c).trans closed⟩
          · refine .inr ⟨char c :: parts, rfl, ⟨?_, leftmost⟩, (nested_char c).mpr nested⟩
            rw [List.append_nil]
            exact apart

end CommentPart

end LiteralSql
