import LiteralSql.Proofs.Reading
import LiteralSql.Proofs.Text
import LiteralSql.Sql.DollarQuote
import Mathlib.Data.List.Nodup

/-! Dollar quotes end where they are meant to.

A tag is a name between dollar signs. In a text that is followed by its own tag
the tag comes up early exactly if its name is one of the runs that begin behind
a dollar sign. There are no more such runs than dollar signs, so one of the
candidates is free, and both readers of the literal, the one that looks for the
tag and the one that reads a character at a time, stop at its last character.
-/

set_option autoImplicit false

namespace LiteralSql

namespace DollarQuote

def tagName : Nat → Text
  | 0 => "cartodb".toList
  | number + 1 => "cartodb".toList ++ Text.ofNat number

def enclosed (name : Text) : Text := '$' :: name ++ ['$']

theorem tag_eq (number : Nat) : tag number = enclosed (tagName number) := by
  cases number <;> rfl

theorem tagName_injective : Function.Injective tagName := by
  intro first second same
  cases first with
  | zero =>
    cases second with
    | zero => rfl
    | succ second =>
      have empty : Text.ofNat second = [] :=
        List.append_cancel_left (same.symm.trans (List.append_nil _).symm)
      exact absurd empty (Text.ofNat_ne_nil second)
  | succ first =>
    cases second with
    | zero =>
      have empty : Text.ofNat first = [] :=
        List.append_cancel_left (same.trans (List.append_nil _).symm)
      exact absurd empty (Text.ofNat_ne_nil first)
    | succ second =>
      exact congrArg Nat.succ (Text.ofNat_injective (List.append_cancel_left same))

theorem isTagChar_of_mem_tagName {number : Nat} {c : Char} (member : c ∈ tagName number) :
    SqlState.isTagChar c = true := by
  have fixed : ("cartodb".toList).all SqlState.isTagChar = true := by decide
  cases number with
  | zero => exact List.all_eq_true.mp fixed c member
  | succ number =>
    rcases List.mem_append.mp member with member | member
    · exact List.all_eq_true.mp fixed c member
    · simp [SqlState.isTagChar, Text.isDigit_of_mem_ofNat member]

theorem dollar_not_mem_tagName (number : Nat) : '$' ∉ tagName number := fun member =>
  absurd (isTagChar_of_mem_tagName member) (by decide)

theorem isPrefixOf_iff_head {name : Text} (noDollar : '$' ∉ name) (rest more : Text) :
    (name ++ ['$']).isPrefixOf (rest ++ '$' :: more) = true ↔
      (Text.split '$' rest).head? = some name := by
  induction rest generalizing name with
  | nil =>
    cases name with
    | nil => simp
    | cons n name =>
      have other : n ≠ '$' := fun same => noDollar (same ▸ List.mem_cons_self)
      simp [other]
  | cons c rest ih =>
    by_cases dollar : c = '$'
    · subst dollar
      cases name with
      | nil => simp
      | cons n name =>
        have other : n ≠ '$' := fun same => noDollar (same ▸ List.mem_cons_self)
        simp [other]
    · obtain ⟨run, runs, before, after⟩ := Text.split_cons_of_ne dollar rest
      rw [after, List.cons_append]
      cases name with
      | nil => simp [Ne.symm dollar]
      | cons n name =>
        have tail := ih fun member => noDollar (List.mem_cons_of_mem n member)
        rw [before] at tail
        simp only [List.cons_append, List.isPrefixOf_cons_cons, Bool.and_eq_true, beq_iff_eq, tail,
          List.head?_cons, Option.some.injEq, List.cons.injEq]
        exact and_congr_left fun _ => eq_comm

/-- A tag is first found behind the payload exactly if its name is none of the
runs that begin behind a dollar sign of the payload. -/
theorem position?_enclosed_iff {name : Text} (noDollar : '$' ∉ name) (payload rest : Text) :
    Text.position? (enclosed name) (payload ++ (enclosed name ++ rest)) = some payload.length ↔
      name ∉ (Text.split '$' payload).tail := by
  induction payload with
  | nil =>
    simp [enclosed, Text.position?]
  | cons c payload ih =>
    -- The tag is found at once only if `c` is a dollar sign and the name is the run behind it.
    have here : (enclosed name).isPrefixOf (c :: (payload ++ (enclosed name ++ rest))) = true ↔
        c = '$' ∧ (Text.split '$' payload).head? = some name := by
      rw [← isPrefixOf_iff_head noDollar payload (name ++ ['$'] ++ rest)]
      simp only [enclosed, List.cons_append, List.isPrefixOf_cons_cons, Bool.and_eq_true, beq_iff_eq]
      exact and_congr_left fun _ => eq_comm
    by_cases dollar : c = '$'
    · subst dollar
      rw [Text.split_cons_self, List.tail_cons, List.cons_append, Text.position?]
      cases runs : Text.split '$' payload with
      | nil => exact absurd runs (Text.split_ne_nil '$' payload)
      | cons run others =>
        -- Past the dollar sign the first run becomes one of those that count.
        simp only [runs, List.head?_cons, Option.some.injEq, true_and] at here
        rw [runs, List.tail_cons] at ih
        split
        · next found => simp [here.mp found]
        · next absent =>
          have other : name ≠ run := fun same => absent (here.mpr same.symm)
          simp [ih, other]
    · obtain ⟨run, runs, before, after⟩ := Text.split_cons_of_ne dollar payload
      have absent : ¬(enclosed name).isPrefixOf (c :: (payload ++ (enclosed name ++ rest))) = true :=
        fun found => dollar (here.mp found).1
      rw [before] at ih
      rw [after, List.cons_append, Text.position?, if_neg absent]
      simpa using ih

theorem closesOnlyAtEnd_iff {name : Text} (noDollar : '$' ∉ name) (payload : Text) :
    closesOnlyAtEnd payload (enclosed name) = true ↔ name ∉ (Text.split '$' payload).tail := by
  rw [← position?_enclosed_iff noDollar payload [], closesOnlyAtEnd, decide_eq_true_eq, List.append_nil]

/-- Candidates that are rejected are different runs behind dollar signs. -/
theorem rejected_le_count {payload : Text} {count : Nat}
    (rejected : ∀ number < count, closesOnlyAtEnd payload (tag number) = false) : count ≤ payload.count '$' := by
  have early : (List.range count).map tagName ⊆ (Text.split '$' payload).tail := by
    intro name member
    obtain ⟨number, inRange, rfl⟩ := List.mem_map.mp member
    have closes := rejected number (List.mem_range.mp inRange)
    rw [tag_eq] at closes
    by_contra absent
    rw [(closesOnlyAtEnd_iff (dollar_not_mem_tagName number) payload).mpr absent] at closes
    cases closes
  have distinct : ((List.range count).map tagName).Nodup := List.nodup_range.map tagName_injective
  have bound := distinct.length_le_of_subset early
  rwa [List.length_map, List.length_range, List.length_tail, Text.length_split, Nat.add_sub_cancel] at bound

theorem exists_negotiate_eq_tag (payload : Text) : ∃ number, negotiate payload = tag number ∧
    closesOnlyAtEnd payload (tag number) = true ∧
    ∀ earlier < number, closesOnlyAtEnd payload (tag earlier) = false := by
  cases found : (List.range (payload.count '$' + 1)).find? fun number => closesOnlyAtEnd payload (tag number) with
  | some number =>
    obtain ⟨accepted, -, rejected⟩ := List.find?_range_eq_some.mp found
    refine ⟨number, by rw [negotiate, found]; rfl, accepted, fun earlier before => ?_⟩
    rw [← Bool.not_eq_true']
    exact rejected earlier before
  | none =>
    -- Every candidate in the range would have been rejected, and they are one too many.
    rw [List.find?_eq_none] at found
    have rejected : ∀ number < payload.count '$' + 1, closesOnlyAtEnd payload (tag number) = false :=
      fun number below => Bool.eq_false_iff.mpr (found number (List.mem_range.mpr below))
    exact absurd (rejected_le_count rejected) (Nat.not_succ_le_self _)

theorem negotiate_eq (payload : Text) : ∃ number, negotiate payload = enclosed (tagName number) ∧
    tagName number ∉ (Text.split '$' payload).tail := by
  obtain ⟨number, chosen, closes, -⟩ := exists_negotiate_eq_tag payload
  rw [tag_eq] at closes
  exact ⟨number, chosen.trans (tag_eq number),
    (closesOnlyAtEnd_iff (dollar_not_mem_tagName number) payload).mp closes⟩

/-- Reads one literal in the way of the server: a tag, then everything up to
the first occurrence of the same tag. What follows the literal is left. -/
def readLiteral? : Text → Option (Text × Text)
  | '$' :: opening =>
    let name := opening.takeWhile (· != '$')
    match opening.dropWhile (· != '$') with
    | [] => none
    | _ :: rest =>
      if name.all SqlState.isTagChar && !name.head?.any Text.isDigit then
        (Text.position? (enclosed name) rest).map fun length =>
          (rest.take length, rest.drop (length + (enclosed name).length))
      else none
  | _ => none

structure TagName (name : Text) : Prop where
  chars : ∀ c ∈ name, SqlState.isTagChar c = true
  notNumber : name.head?.any Text.isDigit = false

theorem TagName.noDollar {name : Text} (valid : TagName name) : '$' ∉ name := fun member =>
  absurd (valid.chars '$' member) (by decide)

theorem tagName_valid (number : Nat) : TagName (tagName number) where
  chars _ member := isTagChar_of_mem_tagName member
  notNumber := by cases number <;> rfl

theorem readLiteral?_enclosed {name payload : Text} (valid : TagName name)
    (free : name ∉ (Text.split '$' payload).tail) (rest : Text) :
    readLiteral? (enclosed name ++ payload ++ enclosed name ++ rest) = some (payload, rest) := by
  have stop : ∀ more : Text, (name ++ '$' :: more).takeWhile (· != '$') = name ∧
      (name ++ '$' :: more).dropWhile (· != '$') = '$' :: more := by
    intro more
    have passes : ∀ c ∈ name, (c != '$') = true := fun c member =>
      bne_iff_ne.mpr fun same => valid.noDollar (same ▸ member)
    exact ⟨by simp [List.takeWhile_append_of_pos passes],
      by simp [List.dropWhile_append_of_pos passes]⟩
  have found := (position?_enclosed_iff valid.noDollar payload rest).mpr free
  have text : enclosed name ++ payload ++ enclosed name ++ rest =
      '$' :: (name ++ '$' :: (payload ++ (enclosed name ++ rest))) := by
    simp [enclosed]
  rw [text, readLiteral?]
  simp only [stop, found]
  rw [if_pos (by simp [valid.notNumber, List.all_eq_true.mpr valid.chars])]
  simp only [Option.map_some, List.take_left, ← List.drop_drop, List.drop_left]

end DollarQuote

namespace SqlState

def afterRegion (state : SqlState) : Text → Text
  | [] => []
  | c :: rest => if (state.step c).1.isOutside then rest else (state.step c).1.afterRegion rest

def afterFirstRegion (state : SqlState) : Text → Text
  | [] => []
  | c :: rest =>
    if (state.step c).1.isOutside then (state.step c).1.afterFirstRegion rest
    else (state.step c).1.afterRegion rest

theorem afterFirstRegion_cons {state next : SqlState} {c : Char} {tokens : List SqlToken}
    (step : state.step c = (next, tokens)) (outside : next.isOutside = true) (rest : Text) :
    state.afterFirstRegion (c :: rest) = next.afterFirstRegion rest := by
  rw [afterFirstRegion, step]
  exact if_pos outside

theorem read_name (known : Text) {rest : Text} (chars : ∀ c ∈ rest, isTagChar c = true)
    (notNumber : known = [] → rest.head?.any Text.isDigit = false) :
    (tag known).read rest = (.tag (known ++ rest), rest.map .bare) ∧
      ∀ more, (tag known).afterFirstRegion (rest ++ more) =
        (tag (known ++ rest)).afterFirstRegion more := by
  induction rest generalizing known with
  | nil => simp
  | cons c rest ih =>
    have tagChar := chars c List.mem_cons_self
    have notDollar : c ≠ '$' := fun same => absurd (same ▸ tagChar) (by decide)
    have digit : (known.isEmpty && Text.isDigit c) = false := by
      cases known with
      | nil => simpa using notNumber rfl
      | cons _ _ => rfl
    have step : (tag known).step c = (.tag (known ++ [c]), [.bare c]) := by
      simp [step, notDollar, tagChar, digit]
    obtain ⟨reading, entering⟩ := ih (known ++ [c])
      (fun other member => chars other (List.mem_cons_of_mem c member))
      (fun empty => absurd empty (by simp))
    constructor
    · rw [read_cons, step, reading]
      simp
    · intro more
      rw [List.cons_append, afterFirstRegion_cons step rfl, entering]
      simp

/-- The characters after the last dollar sign, and the next run with them, do
not make up the name. -/
def notClosing (name : Text) (seen : Option Text) (payload : Text) : Prop :=
  name ∉ (Text.split '$' payload).tail ∧
    ∀ known ∈ seen, known ++ (Text.split '$' payload).headD [] ≠ name

/-- The region is left with the last character of the text and not before it. -/
structure Closes (state : SqlState) (text : Text) : Prop where
  read : state.read text = (.bare, text.map .shielded)
  afterRegion : ∀ rest, state.afterRegion (text ++ rest) = rest

theorem Closes.last {state : SqlState} {c : Char} (step : state.step c = (.bare, [.shielded c])) :
    state.Closes [c] where
  read := by rw [read_cons, step]; rfl
  afterRegion rest := by simp [SqlState.afterRegion, step, isOutside]

theorem Closes.cons {state next : SqlState} {c : Char} {text : Text}
    (step : state.step c = (next, [.shielded c])) (inside : next.isOutside = false)
    (closes : next.Closes text) : state.Closes (c :: text) where
  read := by rw [read_cons, step, closes.read]; rfl
  afterRegion rest := by
    rw [List.cons_append, SqlState.afterRegion, step, inside]
    exact closes.afterRegion rest

theorem closes_name {name : Text} (noDollar : '$' ∉ name) {known rest : Text}
    (same : known ++ rest = name) : (dollarQuoted name (some known)).Closes (rest ++ ['$']) := by
  induction rest generalizing known with
  | nil =>
    rw [List.append_nil] at same
    exact Closes.last (by simp [step, same])
  | cons c rest ih =>
    have notDollar : c ≠ '$' := by
      intro dollar
      apply noDollar
      rw [← same, dollar]
      simp
    have extended : known ++ [c] <+: name := ⟨rest, by simp [← same]⟩
    have step : (dollarQuoted name (some known)).step c =
        (dollarQuoted name (some (known ++ [c])), [.shielded c]) := by
      simp [step, notDollar, extended]
    exact Closes.cons step rfl (ih (by simp [same]))

theorem step_dollar {name : Text} {seen : Option Text} (other : seen ≠ some name) :
    (dollarQuoted name seen).step '$' = (dollarQuoted name (some []), [.shielded '$']) := by
  simp [step, other]

theorem closes_dollarQuoted {name : Text} (noDollar : '$' ∉ name) {payload : Text}
    {seen : Option Text} (safe : notClosing name seen payload) :
    (dollarQuoted name seen).Closes (payload ++ DollarQuote.enclosed name) := by
  -- The induction is over the payload with any beginning of the name seen so far:
  -- the region can only be left where that beginning grows into the whole name.
  obtain ⟨free, unfinished⟩ := safe
  induction payload generalizing seen with
  | nil =>
    have other : seen ≠ some name := fun same => unfinished name same (List.append_nil name)
    exact Closes.cons (step_dollar other) rfl (closes_name noDollar rfl)
  | cons c payload ih =>
    by_cases dollar : c = '$'
    · subst dollar
      rw [Text.split_cons_self] at free unfinished
      have other : seen ≠ some name := fun same => unfinished name same (List.append_nil name)
      -- A dollar sign drops what was seen and begins a new run.
      refine Closes.cons (step_dollar other) rfl (ih (fun later => ?_) fun known empty same => ?_)
      · exact free (List.mem_of_mem_tail later)
      · cases empty
        cases runs : Text.split '$' payload with
        | nil => exact Text.split_ne_nil '$' payload runs
        | cons run others =>
          rw [runs] at free same
          exact free (List.mem_cons.mpr (.inl same.symm))
    · obtain ⟨run, runs, before, after⟩ := Text.split_cons_of_ne dollar payload
      rw [after] at free unfinished
      have step : (dollarQuoted name seen).step c = (dollarQuoted name (seen.bind fun known =>
          if (known ++ [c]).isPrefixOf name then some (known ++ [c]) else none), [.shielded c]) := by
        simp [step, dollar]
      -- What was seen grows by `c`, or it is no beginning of the name any more.
      refine Closes.cons step rfl (ih (by rwa [before]) fun known member same => ?_)
      obtain ⟨shorter, known', found⟩ := Option.bind_eq_some_iff.mp member
      split at found
      · cases found
        rw [before] at same
        exact unfinished shorter known' (by simpa using same)
      · cases found

theorem read_opening {name : Text} (valid : DollarQuote.TagName name) :
    bare.read (DollarQuote.enclosed name) = (dollarQuoted name none, ('$' :: name).map .bare ++ [.shielded '$']) := by
  obtain ⟨reading, -⟩ := read_name [] valid.chars fun _ => valid.notNumber
  have begins : bare.step '$' = (tag [], [.bare '$']) := rfl
  have opens : (tag name).step '$' = (dollarQuoted name none, [.shielded '$']) := rfl
  rw [DollarQuote.enclosed, List.cons_append, read_cons, begins, read_append, reading, List.nil_append, read_cons, opens]
  rfl

theorem read_enclosed {name payload : Text} (valid : DollarQuote.TagName name)
    (free : name ∉ (Text.split '$' payload).tail) :
    bare.read (DollarQuote.enclosed name ++ payload ++ DollarQuote.enclosed name) =
        (.bare, ('$' :: name).map .bare ++
          ('$' :: payload ++ DollarQuote.enclosed name).map .shielded) ∧
      ∀ rest, bare.afterFirstRegion
        (DollarQuote.enclosed name ++ payload ++ DollarQuote.enclosed name ++ rest) = rest := by
  have closes : (dollarQuoted name none).Closes (payload ++ DollarQuote.enclosed name) :=
    closes_dollarQuoted valid.noDollar ⟨free, fun _ none => by cases none⟩
  constructor
  · rw [List.append_assoc, read_append, read_opening valid, closes.read, List.append_assoc]
    rfl
  · intro rest
    obtain ⟨-, entering⟩ := read_name [] valid.chars fun _ => valid.notNumber
    have begins : bare.step '$' = (tag [], [.bare '$']) := rfl
    have opens : (tag name).step '$' = (dollarQuoted name none, [.shielded '$']) := rfl
    have opening : DollarQuote.enclosed name ++ payload ++ DollarQuote.enclosed name ++ rest =
        '$' :: (name ++ '$' :: (payload ++ DollarQuote.enclosed name ++ rest)) := by
      simp [DollarQuote.enclosed]
    rw [opening, afterFirstRegion_cons begins rfl, entering, List.nil_append, afterFirstRegion, opens]
    exact closes.afterRegion rest

end SqlState

namespace DollarQuote

theorem quiet_enclosed {name payload : Text} (valid : TagName name)
    (free : name ∉ (Text.split '$' payload).tail) :
    Quiet (enclosed name ++ payload ++ enclosed name) := by
  obtain ⟨reading, -⟩ := SqlState.read_enclosed valid free
  constructor
  · rw [reading]
  · rw [reading]
    simp [enclosed, SqlToken.char?, Function.comp_def]
  · rw [reading]
    have noSemicolon : ';' ∉ name := fun member => absurd (valid.chars ';' member) (by decide)
    simp [noSemicolon]

theorem quiet_quote (payload : Text) : Quiet (quote payload) := by
  obtain ⟨number, chosen, free⟩ := negotiate_eq payload
  rw [quote, chosen]
  exact quiet_enclosed (tagName_valid number) free

def controls : Text := ['\x00', '\n', '\r', '\x08', '\t', '\x1a']

def unescapeChar (c : Char) : Char :=
  if c = '0' then '\x00'
  else if c = 'n' then '\n'
  else if c = 'r' then '\r'
  else if c = 'b' then '\x08'
  else if c = 't' then '\t'
  else if c = 'Z' then '\x1a'
  else c

/-- Reads the escapes back: a backslash stands for itself only behind another one. -/
def unescape : Text → Text
  | [] => []
  | '\\' :: c :: rest => unescapeChar c :: unescape rest
  | c :: rest => c :: unescape rest

theorem escapeChar_of_plain {c : Char} (plain : c ∉ '\\' :: controls) : escapeChar c = [c] := by
  simp only [controls, List.mem_cons, List.not_mem_nil, or_false, not_or] at plain
  simp [escapeChar, plain]

theorem escapeChar_cases (c : Char) :
    (∃ escaped, escapeChar c = ['\\', escaped] ∧ unescapeChar escaped = c ∧ escaped ∉ controls) ∨
      (escapeChar c = [c] ∧ c ≠ '\\' ∧ c ∉ controls) := by
  by_cases special : c ∈ '\\' :: controls
  · left
    simp only [controls, List.mem_cons, List.not_mem_nil, or_false] at special
    rcases special with rfl | rfl | rfl | rfl | rfl | rfl | rfl
    all_goals exact ⟨_, rfl, by decide, by decide⟩
  · right
    obtain ⟨notBackslash, notControl⟩ := not_or.mp fun either => special (List.mem_cons.mpr either)
    exact ⟨escapeChar_of_plain special, notBackslash, notControl⟩

theorem unescape_escape (text : Text) : unescape (escape text) = text := by
  induction text with
  | nil => rfl
  | cons c rest ih =>
    have head : escape (c :: rest) = escapeChar c ++ escape rest := rfl
    rcases escapeChar_cases c with ⟨escaped, written, back, -⟩ | ⟨written, notBackslash, -⟩
    · rw [head, written]
      simp [unescape, back, ih]
    · rw [head, written]
      simp [unescape, notBackslash, ih]

theorem not_mem_controls_of_mem_escape {text : Text} {c : Char} (member : c ∈ escape text) :
    c ∉ controls := by
  obtain ⟨source, -, inside⟩ := List.mem_flatMap.mp member
  rcases escapeChar_cases source with ⟨escaped, written, -, harmless⟩ | ⟨written, -, harmless⟩
  · rw [written] at inside
    rcases List.mem_pair.mp inside with rfl | rfl
    · decide
    · exact harmless
  · rw [written] at inside
    exact List.mem_singleton.mp inside ▸ harmless

theorem ofText_eq (text : Text) : ∃ number,
    ofText text = enclosed (tagName number) ++ escape text ++ enclosed (tagName number) ∧
      tagName number ∉ (Text.split '$' (escape text)).tail := by
  obtain ⟨number, chosen, free⟩ := negotiate_eq (escape text)
  exact ⟨number, by rw [ofText, quote, chosen], free⟩

theorem readLiteral?_ofText (text rest : Text) :
    readLiteral? (ofText text ++ rest) = some (escape text, rest) := by
  obtain ⟨number, written, free⟩ := ofText_eq text
  rw [written]
  exact readLiteral?_enclosed (tagName_valid number) free rest

theorem mem_enclosed_tagName {number : Nat} {c : Char} (member : c ∈ enclosed (tagName number)) :
    c = '$' ∨ SqlState.isTagChar c = true := by
  rw [enclosed, List.mem_append, List.mem_cons, List.mem_singleton] at member
  obtain (dollar | name) | dollar := member
  · exact .inl dollar
  · exact .inr (isTagChar_of_mem_tagName name)
  · exact .inl dollar

theorem mem_ofText {text : Text} {c : Char} (member : c ∈ ofText text) :
    (c = '$' ∨ SqlState.isTagChar c = true) ∨ c ∈ escape text := by
  obtain ⟨number, written, -⟩ := ofText_eq text
  rw [written, List.mem_append, List.mem_append] at member
  obtain (opening | inside) | closing := member
  · exact .inl (mem_enclosed_tagName opening)
  · exact .inr inside
  · exact .inl (mem_enclosed_tagName closing)

theorem not_mem_controls_of_mem_ofText {text : Text} {c : Char} (member : c ∈ ofText text) :
    c ∉ controls := by
  intro control
  have notTag : controls.all (fun c => c != '$' && !SqlState.isTagChar c) = true := by decide
  have apart := List.all_eq_true.mp notTag c control
  simp only [Bool.and_eq_true, bne_iff_ne, ne_eq, Bool.not_eq_true'] at apart
  obtain (dollar | name) | inside := mem_ofText member
  · exact apart.1 dollar
  · exact absurd name (by simp [apart.2])
  · exact not_mem_controls_of_mem_escape inside control

theorem ofText_injective : Function.Injective ofText := by
  intro first second same
  have bodies := readLiteral?_ofText first []
  rw [same, readLiteral?_ofText] at bodies
  have escapes : escape second = escape first := by simpa using bodies
  rw [← unescape_escape first, ← escapes, unescape_escape]

/-- Whatever follows the literal of a text, the literal ends where it was
written to end, for the server and for the reader of placeholders. Its body
holds no control character and gives the text back, so no two texts share a
literal. -/
theorem ofText_self_delimiting (text rest : Text) :
    readLiteral? (ofText text ++ rest) = some (escape text, rest) ∧
      SqlState.bare.afterFirstRegion (ofText text ++ rest) = rest ∧
      (∀ c ∈ ofText text, c ∉ controls) ∧
      unescape (escape text) = text ∧
      ∀ other, ofText other = ofText text → other = text := by
  obtain ⟨number, written, free⟩ := ofText_eq text
  refine ⟨readLiteral?_ofText text rest, ?_, fun _ => not_mem_controls_of_mem_ofText,
    unescape_escape text, fun _ same => ofText_injective same⟩
  rw [written]
  exact (SqlState.read_enclosed (tagName_valid number) free).2 rest

/-- The end of this text and the closing tag would make up the first candidate. -/
example : ofText "ends with $cartodb".toList = "$cartodb0$ends with $cartodb$cartodb0$".toList := by
  decide

end DollarQuote

end LiteralSql
