import LiteralSql.Proofs.Scan.Segments

/-! Quoting as a way to write a text into SQL, and how it is undone.

What is written is passed over by the reader of SQL text, and what stands in
front of it and behind it is read as if it stood alone. Taking the marks off
gives the text again, so no two texts are written alike.
-/

set_option autoImplicit false

namespace LiteralSql

/-- Where a reader of quoted text is. Behind a mark inside, the next character
tells whether the mark was the first one of two. -/
inductive MarkState
  | outside
  | inside
  | behindMark

def Text.unmark (mark : Char) : MarkState → Text → Text
  | _, [] => []
  | .outside, c :: rest => if c = mark then unmark mark .inside rest else c :: unmark mark .outside rest
  | .inside, c :: rest => if c = mark then unmark mark .behindMark rest else c :: unmark mark .inside rest
  | .behindMark, c :: rest =>
    if c = mark then c :: unmark mark .inside rest else c :: unmark mark .outside rest

namespace Text

variable {mark : Char}

theorem unmark_behindMark {rest : Text} (single : rest.head? ≠ some mark) :
    unmark mark .behindMark rest = unmark mark .outside rest := by
  cases rest with
  | nil => rfl
  | cons c rest =>
    have other : c ≠ mark := fun same => single (congrArg some same)
    rw [unmark, unmark, if_neg other, if_neg other]

theorem unmark_double (text rest : Text) :
    unmark mark .inside (double mark text ++ rest) = text ++ unmark mark .inside rest := by
  induction text with
  | nil => rfl
  | cons c others ih =>
    rw [double, List.flatMap_cons, ← double]
    split
    · next same =>
      subst same
      rw [List.append_assoc, List.cons_append, unmark, if_pos rfl, List.cons_append, unmark, if_pos rfl,
        List.nil_append, ih, List.cons_append]
    · next other =>
      rw [List.append_assoc, List.cons_append, unmark, if_neg other, List.nil_append, ih, List.cons_append]

theorem unmark_enclosed (text : Text) {rest : Text} (single : rest.head? ≠ some mark) :
    unmark mark .outside (mark :: double mark text ++ [mark] ++ rest) = text ++ unmark mark .outside rest := by
  rw [List.append_assoc, List.cons_append, unmark, if_pos rfl, unmark_double, List.singleton_append, unmark,
    if_pos rfl, unmark_behindMark single]

theorem unmark_of_not_mem {text : Text} (absent : mark ∉ text) (rest : Text) :
    unmark mark .outside (text ++ rest) = text ++ unmark mark .outside rest := by
  induction text with
  | nil => rfl
  | cons c others ih =>
    rw [List.mem_cons, not_or] at absent
    rw [List.cons_append, unmark, if_neg (Ne.symm absent.1), ih absent.2, List.cons_append]

end Text

namespace Identifier

open Text

theorem unmark_enclose (name : Text) {rest : Text} (single : rest.head? ≠ some '"') :
    unmark '"' .outside (enclose name ++ rest) = name ++ unmark '"' .outside rest := by
  rw [enclose]
  split
  · next star =>
    rw [star]
    exact unmark_of_not_mem (by decide) rest
  · exact unmark_enclosed name single

theorem quote_not_mem_subscripts (name : Text) : '"' ∉ (splitSubscripts name).2 := fun member =>
  absurd (List.all_eq_true.mp (all_splitSubscripts name) '"' member) (by decide)

theorem unmark_quote (name : Text) {rest : Text} (single : rest.head? ≠ some '"') :
    unmark '"' .outside (quote name ++ rest) = name ++ unmark '"' .outside rest := by
  have joined := splitSubscripts_append name
  have absent := quote_not_mem_subscripts name
  rw [quote]
  generalize splitSubscripts name = parts at joined absent
  obtain ⟨base, subscripts⟩ := parts
  dsimp only at joined absent ⊢
  split
  · -- The subscripts bring no mark of their own, so they are passed on as they are.
    have follows : (subscripts ++ rest).head? ≠ some '"' := by
      cases subscripts with
      | nil => exact single
      | cons c others =>
        intro same
        exact absent (List.mem_cons.mpr (.inl (Option.some.inj same).symm))
    rw [List.append_assoc, unmark_enclose base follows, unmark_of_not_mem absent, ← List.append_assoc, joined]
  · exact unmark_enclose name single

theorem unmark_quoteQualified (name : Text) {rest : Text} (single : rest.head? ≠ some '"') :
    unmark '"' .outside (quoteQualified name ++ rest) = name ++ unmark '"' .outside rest := by
  suffices parts : ∀ parts : List Text, unmark '"' .outside (['.'].intercalate (parts.map quote) ++ rest) =
      ['.'].intercalate parts ++ unmark '"' .outside rest by
    rw [quoteQualified, parts, intercalate_split]
  intro parts
  induction parts with
  | nil => rfl
  | cons part others ih =>
    cases others with
    | nil =>
      rw [List.map_singleton, List.intercalate_singleton, List.intercalate_singleton]
      exact unmark_quote part single
    | cons next others =>
      have dot : ('.' :: (['.'].intercalate ((next :: others).map quote) ++ rest)).head? ≠ some '"' := by
        rintro ⟨⟩
      rw [List.map_cons, List.map_cons, List.intercalate_cons_cons, List.intercalate_cons_cons, ← List.map_cons]
      simp only [List.append_assoc, List.singleton_append]
      rw [List.cons_append, unmark_quote part dot, unmark, if_neg (by decide), ih]
      rfl

end Identifier

/-- The ways in which a text is written into SQL: as one name, as a reference
of names with dots between them, and as a literal of a schema statement. -/
inductive Quoting
  | name
  | reference
  | literal

namespace Quoting

def mark : Quoting → Char
  | .name | .reference => '"'
  | .literal => '\''

def write : Quoting → Text → Text
  | .name => Identifier.quote
  | .reference => Identifier.quoteQualified
  | .literal => Identifier.quoteLiteral

def undo (quoting : Quoting) (written : Text) : Text := Text.unmark quoting.mark .outside written

theorem quiet_write (quoting : Quoting) (text : Text) : Quiet (quoting.write text) := by
  cases quoting with
  | name => exact Identifier.quiet_quote text
  | reference => exact Identifier.quiet_quoteQualified text
  | literal => exact Identifier.quiet_quoteLiteral text

theorem undo_append (quoting : Quoting) (text : Text) {rest : Text} (single : rest.head? ≠ some quoting.mark) :
    quoting.undo (quoting.write text ++ rest) = text ++ quoting.undo rest := by
  cases quoting with
  | name => exact Identifier.unmark_quote text single
  | reference => exact Identifier.unmark_quoteQualified text single
  | literal => exact Text.unmark_enclosed text single

theorem undo_write (quoting : Quoting) (text : Text) : quoting.undo (quoting.write text) = text := by
  have alone : quoting.undo (quoting.write text ++ []) = text ++ quoting.undo [] :=
    quoting.undo_append text (Option.some_ne_none _).symm
  rw [List.append_nil] at alone
  rw [alone, undo, Text.unmark, List.append_nil]

theorem write_injective (quoting : Quoting) : Function.Injective quoting.write :=
  Function.LeftInverse.injective quoting.undo_write

end Quoting

/-- The text is empty, or it ends with a character behind which a name or a literal may stand. -/
def Leads (text : Text) : Prop := ∀ c, text.getLast? = some c → c ∈ [' ', '(', ',', '.']

instance (text : Text) : Decidable (Leads text) :=
  decidable_of_iff (text.getLast?.all [' ', '(', ',', '.'].contains = true) (by
    rw [Option.all_eq_true]
    exact forall₂_congr fun c _ => List.contains_iff_mem)

namespace SqlState

theorem step_leading {state : SqlState} {c : Char} (leading : c ∈ [' ', '(', ',', '.'])
    (outside : (state.step c).1.isOutside = true) : (state.step c).1 = .bare := by
  have plain : breaksMarks c = true ∧ (stepBare c).1 = .bare ∧
      c ≠ '"' ∧ c ≠ '\'' ∧ c ≠ '\n' ∧ c ≠ '/' ∧ c ≠ '*' ∧ c ≠ '$' := by
    simp only [List.mem_cons, List.not_mem_nil, or_false] at leading
    rcases leading with rfl | rfl | rfl | rfl <;> decide
  obtain ⟨breaks, bare, other⟩ := plain
  cases live : state.isOutside with
  | true => rw [step_of_breaksMarks live breaks, bare]
  | false =>
    cases state with
    | quoted mark =>
      rw [step] at outside ⊢
      split
      · rfl
      · next inside =>
        rw [if_neg inside] at outside
        cases outside
    | lineComment => simp [step, other, isOutside] at outside
    | blockComment depth => simp [step, other, isOutside] at outside
    | blockSlash depth => simp [step, other, isOutside] at outside
    | blockStar depth => simp [step, other, isOutside] at outside
    | dollarQuoted name seen => simp [step, other, isOutside] at outside
    | _ => cases live

theorem settles_of_leads {text : Text} (leads : Leads text) (outside : (bare.read text).1.isOutside = true) :
    (bare.read text).1 = .bare := by
  obtain rfl | ⟨front, c, rfl⟩ := text.eq_nil_or_concat'
  · rfl
  · rw [read_append, read_cons] at outside ⊢
    exact step_leading (leads c List.getLast?_concat) outside

end SqlState

/-- A quoted text is passed over wherever a name or a literal may stand: the reader is outside every region behind
it, it has found the placeholders of what is in front, and it finds those of what is behind as if the text began
there. The marks can be taken off again, so no two texts are quoted alike. -/
theorem quoting_passed_over (quoting : Quoting) (text : Text) :
    (∀ before behind : Text, (SqlState.bare.read before).1.isOutside = true → Leads before →
      (SqlState.bare.read (before ++ quoting.write text)).1 = .bare ∧
      (SqlSegment.ofText (before ++ quoting.write text ++ behind)).flatMap SqlSegment.letters =
        (SqlSegment.ofText before).flatMap SqlSegment.letters ++
          (quoting.write text).map (fun c => SqlSegment.text [c]) ++
          (SqlSegment.ofText behind).flatMap SqlSegment.letters ∧
      (SqlSegment.ofText (before ++ quoting.write text ++ behind)).filter SqlSegment.isPlaceholder =
        (SqlSegment.ofText before).filter SqlSegment.isPlaceholder ++
          (SqlSegment.ofText behind).filter SqlSegment.isPlaceholder) ∧
    (∀ behind : Text, behind.head? ≠ some quoting.mark →
      quoting.undo (quoting.write text ++ behind) = text ++ quoting.undo behind) ∧
    quoting.undo (quoting.write text) = text ∧
    ∀ other, quoting.write other = quoting.write text → other = text := by
  refine ⟨fun before behind outside leads => ?_, fun behind => quoting.undo_append text, quoting.undo_write text,
    fun other same => quoting.write_injective same⟩
  · have quiet := quoting.quiet_write text
    have settles := SqlState.settles_of_leads leads outside
    have reading := SqlState.read_append_of_bare settles (quoting.write text)
    have settled : (SqlState.bare.read (before ++ quoting.write text)).1 = .bare := by rw [reading, quiet.settles]
    have letters : (SqlSegment.ofText (before ++ quoting.write text ++ behind)).flatMap SqlSegment.letters =
        (SqlSegment.ofText before).flatMap SqlSegment.letters ++
          (quoting.write text).map (fun c => SqlSegment.text [c]) ++
          (SqlSegment.ofText behind).flatMap SqlSegment.letters := by
      have whole : SqlToken.ofText (before ++ quoting.write text ++ behind) =
          SqlToken.ofText before ++ (SqlState.bare.read (quoting.write text)).2 ++ SqlToken.ofText behind := by
        have first : SqlToken.ofText (before ++ quoting.write text) =
            SqlToken.ofText before ++ SqlToken.ofText (quoting.write text) :=
          (SqlToken.ofText_append outside (.inl settles)).1
        have second : SqlToken.ofText (before ++ quoting.write text ++ behind) =
            SqlToken.ofText (before ++ quoting.write text) ++ SqlToken.ofText behind :=
          (SqlToken.ofText_append (by rw [settled]; rfl) (.inl settled)).1
        rw [second, first, SqlToken.ofText_of_bare quiet.settles]
      rw [SqlSegment.ofText, SqlSegment.ofText, SqlSegment.ofText, SqlSegment.flatMap_letters_ofTokens,
        SqlSegment.flatMap_letters_ofTokens, SqlSegment.flatMap_letters_ofTokens, whole, List.map_append,
        List.map_append, SqlToken.map_segment quiet.verbatim]
    refine ⟨settled, letters, ?_⟩
    have none : ((quoting.write text).map fun c => SqlSegment.text [c]).filter SqlSegment.isPlaceholder = [] := by
      rw [List.filter_map, List.map_eq_nil_iff]
      exact List.filter_eq_nil_iff.mpr fun c _ => Bool.false_ne_true
    -- Cut into letters both sides have the same placeholders, and letters of a text are none.
    have placeholders := congrArg (List.filter SqlSegment.isPlaceholder) letters
    rwa [List.filter_append, List.filter_append, none, List.append_nil, SqlSegment.filter_letters,
      SqlSegment.filter_letters, SqlSegment.filter_letters] at placeholders

def manifold : Text := "a\"??.*.[0].t\n?[0].t?[1][2]".toList

theorem quoting_passed_over_manifold :
    Quoting.reference.write manifold = "\"a\"\"??\".*.\"[0]\".\"t\n?[0]\".\"t?\"[1][2]".toList ∧
    (SqlSegment.ofText ("select ??, '?' from ".toList ++ Quoting.reference.write manifold ++
      "[?]".toList)).filter SqlSegment.isPlaceholder = [.identifier, .value] ∧
    Quoting.reference.undo (Quoting.reference.write manifold ++ "[?]".toList) = manifold ++ "[?]".toList := by
  obtain ⟨passed, undone, -⟩ := quoting_passed_over .reference manifold
  obtain ⟨-, -, placeholders⟩ := passed "select ??, '?' from ".toList "[?]".toList (by decide) (by decide)
  refine ⟨by decide, placeholders.trans (by decide), undone "[?]".toList (by decide)⟩

end LiteralSql
