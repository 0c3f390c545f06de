import Mathlib.Data.List.DropRight
import LiteralSql.Proofs.Json.Numerals
import LiteralSql.Proofs.Rows.Capture

/-! Texts that are read alike.

A character outside ASCII matters to a token only where it ends or spoils it.
Such characters may be exchanged for others, and what is read as a part is also
read in front of a text that does not go on with a number or a keyword.
-/

set_option autoImplicit false

namespace LiteralSql

/-- The second text is the first one, with others in place of its characters outside ASCII, and then `more`. -/
inductive Respells (more : Text) : Text → Text → Prop
  | done : Respells more [] more
  | same {c : Char} {text other : Text} (low : c.toNat < 0x80) (rest : Respells more text other) :
      Respells more (c :: text) (c :: other)
  | wide {left right text other : Text} (some : left ≠ []) (others : right ≠ [])
      (lefts : ∀ c ∈ left, 0x80 ≤ c.toNat) (rights : ∀ c ∈ right, 0x80 ≤ c.toNat)
      (rest : Respells more text other) : Respells more (left ++ text) (right ++ other)

namespace Respells

variable {more text other : Text}

theorem symm (respells : Respells [] text other) : Respells [] other text := by
  induction respells with
  | done => exact .done
  | same low _ ih => exact .same low ih
  | wide some others lefts rights _ ih => exact .wide others some rights lefts ih

theorem append (respells : Respells [] text other) (more : Text) : Respells more text (other ++ more) := by
  induction respells with
  | done => exact .done
  | same low _ ih => exact .same low ih
  | wide some others lefts rights _ ih =>
    rw [List.append_assoc]
    exact .wide some others lefts rights ih

theorem cases_head (respells : Respells more text other) : (text = [] ∧ other = more) ∨
    (∃ c before behind, text = c :: before ∧ other = c :: behind ∧ c.toNat < 0x80 ∧ Respells more before behind) ∨
    ∃ c d before behind, text = c :: before ∧ other = d :: behind ∧ 0x80 ≤ c.toNat ∧ 0x80 ≤ d.toNat := by
  cases respells with
  | done => exact .inl ⟨rfl, rfl⟩
  | same low rest => exact .inr (.inl ⟨_, _, _, rfl, rfl, low, rest⟩)
  | wide some others lefts rights rest =>
    obtain ⟨c, before, rfl⟩ := List.exists_cons_of_ne_nil some
    obtain ⟨d, behind, rfl⟩ := List.exists_cons_of_ne_nil others
    exact .inr (.inr ⟨c, d, _, _, rfl, rfl, lefts c List.mem_cons_self, rights d List.mem_cons_self⟩)

theorem cons_inv {c : Char} (low : c.toNat < 0x80) (respells : Respells more (c :: text) other) :
    ∃ behind, other = c :: behind ∧ Respells more text behind := by
  obtain ⟨none, -⟩ | ⟨c, before, behind, same, rfl, -, rest⟩ | ⟨c, d, before, behind, same, -, high, -⟩ :=
    respells.cases_head
  · cases none
  · cases same
    exact ⟨behind, rfl, rest⟩
  · cases same
    omega

theorem append_inv {word : Text} (low : ∀ c ∈ word, c.toNat < 0x80) (respells : Respells more (word ++ text) other) :
    ∃ behind, other = word ++ behind ∧ Respells more text behind := by
  induction word generalizing other with
  | nil => exact ⟨other, rfl, respells⟩
  | cons c rest ih =>
    rw [List.forall_mem_cons] at low
    obtain ⟨behind, rfl, tail⟩ := respells.cons_inv low.1
    obtain ⟨last, rfl, remaining⟩ := ih low.2 tail
    exact ⟨last, rfl, remaining⟩

/-- A character outside ASCII may be one of several that have others in their place. -/
theorem wide_inv {c : Char} (high : 0x80 ≤ c.toNat) (respells : Respells more (c :: text) other) :
    ∃ right behind, (∀ d ∈ right, 0x80 ≤ d.toNat) ∧ other = right ++ behind ∧ Respells more text behind := by
  generalize whole : c :: text = start at respells
  cases respells with
  | done => cases whole
  | same low rest =>
    cases whole
    omega
  | @wide left right before other some others lefts rights rest =>
    obtain ⟨d, left, rfl⟩ := List.exists_cons_of_ne_nil some
    cases whole
    rw [List.forall_mem_cons] at lefts
    by_cases last : left = []
    · subst last
      exact ⟨right, other, rights, rfl, rest⟩
    · exact ⟨[], right ++ other, by simp, rfl, .wide last others lefts.2 rights rest⟩

end Respells

theorem Spells.respells {bytes : List UInt8} {text : Text} (spells : Spells bytes text) :
    Respells [] text (Bytes.toChars bytes) := by
  induction spells with
  | nil => exact .done
  | ascii low _ ih => exact .same (by rwa [toNat_ofNat_byte]) ih
  | @foreign lead bytes c text some high char _ ih =>
    rw [Bytes.toChars, List.map_append]
    refine @Respells.wide _ [c] _ _ _ (List.cons_ne_nil c []) (mt List.map_eq_nil_iff.mp some) (by simpa using char) ?_ ih
    intro d member
    obtain ⟨byte, held, rfl⟩ := List.mem_map.mp member
    rw [toNat_ofNat_byte]
    exact high byte held

theorem Text.isDigit_low {c : Char} (digit : Text.isDigit c = true) : c.toNat < 0x80 :=
  Capture.scalarChar_low (JsonToken.isScalarChar_of_isDigit digit)

namespace JsonToken

variable {more text other after : Text}

def exponentDigits (negative : Bool) (digits : Text) : Option ((Bool × Text) × Text) :=
  if (digits.takeWhile Text.isDigit).isEmpty then none
  else some ((negative, digits.takeWhile Text.isDigit), digits.dropWhile Text.isDigit)

theorem readExponent_unsigned (minus : text.head? ≠ some '-') (plus : text.head? ≠ some '+') :
    readExponent text = exponentDigits false text := by
  unfold readExponent
  split
  next negative digits sign =>
  split at sign
  · exact absurd rfl minus
  · exact absurd rfl plus
  · cases sign
    rfl

theorem readNumber_eq (negative : Bool) (text : Text) : readNumber negative text =
    if text.takeWhile Text.isDigit ≠ [] ∧
        ((text.takeWhile Text.isDigit).head? = some '0' → text.takeWhile Text.isDigit = ['0']) then
      readAfterWhole negative (text.takeWhile Text.isDigit) (text.dropWhile Text.isDigit)
    else none := by
  rw [readNumber]
  split
  · next none => rw [if_neg fun both => both.1 none]
  · next zero => rw [if_pos ⟨by rw [zero]; exact List.cons_ne_nil _ _, fun _ => zero⟩]
  · next more alone zero => rw [if_neg fun both => alone (List.cons.inj (zero.symm.trans (both.2 (by rw [zero]; rfl)))).2]
  · next some one more =>
    refine (if_pos ⟨some, fun first => ?_⟩).symm
    obtain ⟨rest, zero⟩ := List.head?_eq_some_iff.mp first
    exact absurd zero (more rest)

section
variable (stops : Stops more)
include stops

theorem takeWhile_respells (respells : Respells more text other) :
    other.takeWhile Text.isDigit = text.takeWhile Text.isDigit ∧
      Respells more (text.dropWhile Text.isDigit) (other.dropWhile Text.isDigit) := by
  have none {c : Char} (high : 0x80 ≤ c.toNat) : ¬ Text.isDigit c = true := fun digit =>
    absurd (Text.isDigit_low digit) (Nat.not_lt.mpr high)
  induction respells with
  | done =>
    obtain ⟨taken, left⟩ := @Text.takeWhile_digits [] more (by simp) stops.no_digit
    rw [List.nil_append] at taken left
    rw [taken, left]
    exact ⟨rfl, .done⟩
  | @same c text other low rest ih =>
    cases digit : Text.isDigit c with
    | true =>
      rw [List.takeWhile_cons_of_pos digit, List.takeWhile_cons_of_pos digit, List.dropWhile_cons_of_pos digit,
        List.dropWhile_cons_of_pos digit, ih.1]
      exact ⟨rfl, ih.2⟩
    | false =>
      have digit : ¬ Text.isDigit c = true := ne_true_of_eq_false digit
      rw [List.takeWhile_cons_of_neg digit, List.takeWhile_cons_of_neg digit, List.dropWhile_cons_of_neg digit,
        List.dropWhile_cons_of_neg digit]
      exact ⟨rfl, .same low rest⟩
  | @wide left right text other some others lefts rights rest _ =>
    -- Where the texts differ, neither goes on with a digit.
    have whole := Respells.wide some others lefts rights rest
    obtain ⟨c, before, rfl⟩ := List.exists_cons_of_ne_nil some
    obtain ⟨d, behind, rfl⟩ := List.exists_cons_of_ne_nil others
    have first := none (lefts c List.mem_cons_self)
    have second := none (rights d List.mem_cons_self)
    rw [List.cons_append, List.cons_append] at whole ⊢
    rw [List.takeWhile_cons_of_neg first, List.takeWhile_cons_of_neg second, List.dropWhile_cons_of_neg first,
      List.dropWhile_cons_of_neg second]
    exact ⟨rfl, whole⟩

theorem head?_respells {c : Char} (scalar : isScalarChar c = true) (respells : Respells more text other)
    (absent : text.head? ≠ some c) : other.head? ≠ some c := by
  intro first
  obtain ⟨rfl, rfl⟩ | ⟨d, before, behind, rfl, rfl, -, -⟩ | ⟨d, e, before, behind, rfl, rfl, -, high⟩ :=
    respells.cases_head
  · exact Bool.false_ne_true ((stops c first).symm.trans scalar)
  · exact absent first
  · have low := Capture.scalarChar_low scalar
    rw [List.head?_cons, Option.some.injEq] at first
    subst first
    omega

theorem readFraction_respells (respells : Respells more text other) {fraction : Option Text}
    (read : readFraction text = some (fraction, after)) :
    ∃ rest, readFraction other = some (fraction, rest) ∧ Respells more after rest := by
  unfold readFraction at read
  split at read
  · next digits =>
    obtain ⟨behind, rfl, rest⟩ := respells.cons_inv (by decide)
    obtain ⟨taken, left⟩ := takeWhile_respells stops rest
    dsimp only at read
    split at read
    · cases read
    · next some =>
      cases read
      refine ⟨_, ?_, left⟩
      rw [readFraction, taken, if_neg some]
  · next absent =>
    cases read
    refine ⟨other, ?_, respells⟩
    have point : other.head? ≠ some '.' := by
      refine head?_respells stops (by decide) respells fun first => ?_
      obtain ⟨digits, rfl⟩ := List.head?_eq_some_iff.mp first
      exact absent digits rfl
    unfold readFraction
    split
    · exact absurd rfl point
    · rfl

theorem readExponent_respells (respells : Respells more text other) {exponent : Bool × Text}
    (read : readExponent text = some (exponent, after)) :
    ∃ rest, readExponent other = some (exponent, rest) ∧ Respells more after rest := by
  have digits {negative : Bool} {text other : Text} (respells : Respells more text other)
      (read : exponentDigits negative text = some (exponent, after)) :
      ∃ rest, exponentDigits negative other = some (exponent, rest) ∧ Respells more after rest := by
    obtain ⟨taken, left⟩ := takeWhile_respells stops respells
    rw [exponentDigits] at read
    split at read
    · cases read
    · next some =>
      cases read
      refine ⟨_, ?_, left⟩
      rw [exponentDigits, taken, if_neg some]
  by_cases minus : text.head? = some '-'
  · obtain ⟨before, rfl⟩ := List.head?_eq_some_iff.mp minus
    obtain ⟨behind, rfl, rest⟩ := respells.cons_inv (by decide)
    exact digits rest read
  by_cases plus : text.head? = some '+'
  · obtain ⟨before, rfl⟩ := List.head?_eq_some_iff.mp plus
    obtain ⟨behind, rfl, rest⟩ := respells.cons_inv (by decide)
    exact digits rest read
  · rw [readExponent_unsigned minus plus] at read
    rw [readExponent_unsigned (head?_respells stops (by decide) respells minus)
      (head?_respells stops (by decide) respells plus)]
    exact digits respells read

theorem readAfterWhole_respells {negative : Bool} {whole : Text} (respells : Respells more text other)
    {numeral : JsonNumeral} (read : readAfterWhole negative whole text = some (numeral, after)) :
    ∃ rest, readAfterWhole negative whole other = some (numeral, rest) ∧ Respells more after rest := by
  obtain ⟨⟨fraction, between⟩, point, read⟩ := Option.bind_eq_some_iff.mp read
  obtain ⟨left, found, respells⟩ := readFraction_respells stops respells point
  rw [readAfterWhole, found]
  have power {before behind : Text} (respells : Respells more before behind)
      (read : ((readExponent before).bind fun found =>
        some ((⟨negative, whole, fraction, some found.1⟩ : JsonNumeral), found.2)) = some (numeral, after)) :
      ∃ rest, ((readExponent behind).bind fun found =>
        some ((⟨negative, whole, fraction, some found.1⟩ : JsonNumeral), found.2)) = some (numeral, rest) ∧
        Respells more after rest := by
    obtain ⟨⟨exponent, last⟩, power, same⟩ := Option.bind_eq_some_iff.mp read
    cases same
    obtain ⟨rest, found, respells⟩ := readExponent_respells stops respells power
    exact ⟨rest, by rw [found]; rfl, respells⟩
  dsimp only at read
  split at read
  · next before =>
    obtain ⟨behind, rfl, tail⟩ := respells.cons_inv (by decide)
    exact power tail read
  · next before =>
    obtain ⟨behind, rfl, tail⟩ := respells.cons_inv (by decide)
    exact power tail read
  · next small large =>
    cases read
    -- Neither text goes on with an exponent: its letter is of ASCII, so it would stand in both.
    have absent {c : Char} (scalar : isScalarChar c = true) (other : ∀ rest, after = c :: rest → False) :
        left.head? ≠ some c := by
      refine head?_respells stops scalar respells fun first => ?_
      obtain ⟨rest, same⟩ := List.head?_eq_some_iff.mp first
      exact other rest same
    refine ⟨left, ?_, respells⟩
    rw [Option.bind_eq_bind, Option.bind_some]
    dsimp only
    split
    · exact absurd rfl (absent (by decide) small)
    · exact absurd rfl (absent (by decide) large)
    · rfl

theorem readNumber_respells (negative : Bool) (respells : Respells more text other) {numeral : JsonNumeral}
    (read : readNumber negative text = some (numeral, after)) :
    ∃ rest, readNumber negative other = some (numeral, rest) ∧ Respells more after rest := by
  obtain ⟨taken, left⟩ := takeWhile_respells stops respells
  rw [readNumber_eq] at read ⊢
  rw [taken]
  split at read
  · next leads =>
    rw [if_pos leads]
    exact readAfterWhole_respells stops left read
  · cases read

end

theorem readString_char {c : Char} (quote : c ≠ '"') (backslash : c ≠ '\\') (visible : ¬c.toNat < 0x20) (rest : Text) :
    readString (c :: rest) = (readString rest).map fun (units, after) => (.char c :: units, after) := by
  rw [readString, if_neg visible]
  all_goals intros; contradiction

theorem readString_wide {right : Text} (wide : ∀ c ∈ right, 0x80 ≤ c.toNat) {units : List JsonUnit}
    (read : readString text = some (units, after)) : ∃ others, readString (right ++ text) = some (others, after) := by
  induction right with
  | nil => exact ⟨units, read⟩
  | cons c rest ih =>
    rw [List.forall_mem_cons] at wide
    obtain ⟨others, read⟩ := ih wide.2
    refine ⟨.char c :: others, ?_⟩
    rw [List.cons_append, readString_char, read]
    · rfl
    · rintro rfl
      exact absurd wide.1 (by decide)
    · rintro rfl
      exact absurd wide.1 (by decide)
    · omega

theorem readString_escape {c plain : Char} (known : escape? c = some plain) (rest : Text) :
    readString ('\\' :: c :: rest) = (readString rest).map fun (units, after) => (.char plain :: units, after) := by
  have letter : c ≠ 'u' := by
    rintro rfl
    cases known
  rw [readString, known]
  · change Option.bind (readString rest) _ = _
    cases readString rest <;> rfl
  · intro _ _ _ _ _ same
    exact absurd same letter

theorem readString_code {a b c d : Char} {value : Nat} (code : hexCode? a b c d = some value) (rest : Text) :
    readString ('\\' :: 'u' :: a :: b :: c :: d :: rest) =
      (readString rest).map fun (units, after) => (.code value :: units, after) := by
  rw [readString, code]
  change Option.bind (readString rest) _ = _
  cases readString rest <;> rfl

theorem hexCode_ascii {a b c d : Char} {value : Nat} (code : hexCode? a b c d = some value) :
    ∀ x ∈ ['\\', 'u', a, b, c, d], x.toNat < 0x80 := by
  simp only [hexCode?, Option.bind_eq_bind, Option.bind_eq_some_iff] at code
  obtain ⟨first, ha, second, hb, third, hc, fourth, hd, -⟩ := code
  simp only [List.forall_mem_cons]
  exact ⟨by decide, by decide, (digit_ascii ha).2, (digit_ascii hb).2, (digit_ascii hc).2, (digit_ascii hd).2, by simp⟩

theorem readString_respells (respells : Respells more text other) {units : List JsonUnit}
    (read : readString text = some (units, after)) :
    ∃ others rest, readString other = some (others, rest) ∧ Respells more after rest := by
  fun_induction readString text generalizing units other with
  | case1 => cases read
  | case2 rest =>
    cases read
    obtain ⟨behind, rfl, tail⟩ := respells.cons_inv (by decide)
    exact ⟨[], behind, rfl, tail⟩
  | case3 a b c d rest ih =>
    simp only [Option.bind_eq_bind, Option.bind_eq_some_iff] at read
    obtain ⟨value, code, ⟨others, remaining⟩, read, same⟩ := read
    cases same
    obtain ⟨behind, rfl, tail⟩ := @Respells.append_inv _ rest other _ (hexCode_ascii code) respells
    obtain ⟨found, last, done, apart⟩ := ih tail read
    refine ⟨.code value :: found, last, ?_, apart⟩
    change readString ('\\' :: 'u' :: a :: b :: c :: d :: behind) = _
    rw [readString_code code, done]
    rfl
  | case4 c rest _ ih =>
    simp only [Option.bind_eq_bind, Option.bind_eq_some_iff] at read
    obtain ⟨plain, known, ⟨others, remaining⟩, read, same⟩ := read
    cases same
    obtain ⟨between, rfl, escaped⟩ := respells.cons_inv (by decide)
    obtain ⟨behind, rfl, tail⟩ := escaped.cons_inv (escape_ascii known).2
    obtain ⟨found, last, done, apart⟩ := ih tail read
    exact ⟨.char plain :: found, last, by rw [readString_escape known, done]; rfl, apart⟩
  | case5 => cases read
  | case6 c rest _ _ _ _ => cases read
  | case7 c rest quote escaped plain last visible ih =>
    obtain ⟨⟨others, remaining⟩, read, same⟩ := Option.map_eq_some_iff.mp read
    cases same
    obtain low | high := Nat.lt_or_ge c.toNat 0x80
    · obtain ⟨behind, rfl, tail⟩ := respells.cons_inv low
      obtain ⟨found, last, done, apart⟩ := ih tail read
      -- A backslash at the end is the only one that is left here, and it is not followed by a quote.
      have backslash : c ≠ '\\' := by
        rintro rfl
        cases rest with
        | nil => cases read
        | cons next behind => exact plain next behind rfl rfl
      exact ⟨.char c :: found, last, by rw [readString_char quote backslash visible, done]; rfl, apart⟩
    · obtain ⟨right, behind, wide, rfl, tail⟩ := respells.wide_inv high
      obtain ⟨found, last, done, apart⟩ := ih tail read
      obtain ⟨others, done⟩ := readString_wide wide done
      exact ⟨others, last, done, apart⟩

/-- The same token, but for what a string says. -/
inductive Alike : JsonToken → JsonToken → Prop
  | same (token : JsonToken) : Alike token token
  | string (units others : List JsonUnit) : Alike (.string units) (.string others)

theorem dropWhile_respells (respells : Respells more text other) :
    (text.dropWhile isBlank = [] ∧ other.dropWhile isBlank = more.dropWhile isBlank) ∨
      Respells more (text.dropWhile isBlank) (other.dropWhile isBlank) := by
  have visible {c : Char} (high : 0x80 ≤ c.toNat) : ¬isBlank c = true := by
    intro blank
    simp only [isBlank, Bool.or_eq_true, decide_eq_true_eq] at blank
    obtain ((rfl | rfl) | rfl) | rfl := blank <;> exact absurd high (by decide)
  induction respells with
  | done => exact .inl ⟨rfl, rfl⟩
  | @same c text other low rest ih =>
    by_cases blank : isBlank c = true
    · rw [List.dropWhile_cons_of_pos blank, List.dropWhile_cons_of_pos blank]
      exact ih
    · rw [List.dropWhile_cons_of_neg blank, List.dropWhile_cons_of_neg blank]
      exact .inr (.same low rest)
  | @wide left right text other some others lefts rights rest _ =>
    have whole := Respells.wide some others lefts rights rest
    obtain ⟨c, before, rfl⟩ := List.exists_cons_of_ne_nil some
    obtain ⟨d, behind, rfl⟩ := List.exists_cons_of_ne_nil others
    rw [List.cons_append, List.cons_append] at whole ⊢
    rw [List.dropWhile_cons_of_neg (visible (lefts c List.mem_cons_self)),
      List.dropWhile_cons_of_neg (visible (rights d List.mem_cons_self))]
    exact .inr whole

theorem readNumber_first {negative : Bool} {numeral : JsonNumeral}
    (read : readNumber negative text = some (numeral, after)) :
    ∃ c rest, text = c :: rest ∧ Text.isDigit c = true := by
  rw [readNumber_eq] at read
  split at read
  · next leads =>
    cases text with
    | nil => exact absurd rfl leads.1
    | cons c rest =>
      refine ⟨c, rest, rfl, ?_⟩
      by_contra other
      exact leads.1 (List.takeWhile_cons_of_neg other)
  · cases read

theorem read_respells (stops : Stops more) (respells : Respells more text other) {token : JsonToken}
    (done : read text = some (token, after)) :
    ∃ found rest, read other = some (found, rest) ∧ Alike token found ∧ Respells more after rest := by
  -- A token that is one word of ASCII stands in both texts.
  have whole {word before : Text} (low : word.all (fun c => c.toNat < 0x80) = true)
      (respells : Respells more (word ++ before) other) {token : JsonToken}
      (known : ∀ rest, read (word ++ rest) = some (token, rest)) :
      ∃ found rest, read other = some (found, rest) ∧ Alike token found ∧ Respells more before rest := by
    obtain ⟨behind, rfl, tail⟩ := respells.append_inv (by simpa using low)
    exact ⟨token, behind, known behind, .same token, tail⟩
  unfold read at done
  split at done
  case h_1 | h_2 | h_3 | h_4 | h_5 | h_6 =>
    cases done
    exact @whole [_] _ rfl respells _ fun _ => rfl
  case h_7 | h_8 =>
    cases done
    exact @whole [_, _, _, _] _ rfl respells _ fun _ => rfl
  case h_9 =>
    cases done
    exact @whole [_, _, _, _, _] _ rfl respells _ fun _ => rfl
  case h_10 rest =>
    obtain ⟨⟨units, last⟩, inside, same⟩ := Option.map_eq_some_iff.mp done
    cases same
    obtain ⟨behind, rfl, tail⟩ := respells.cons_inv (by decide)
    obtain ⟨others, rest, found, tail⟩ := readString_respells tail inside
    refine ⟨.string others, rest, ?_, .string units others, tail⟩
    change (readString behind).map _ = _
    rw [found]
    rfl
  case h_11 rest =>
    obtain ⟨⟨numeral, last⟩, digits, same⟩ := Option.map_eq_some_iff.mp done
    cases same
    obtain ⟨behind, rfl, tail⟩ := respells.cons_inv (by decide)
    obtain ⟨rest, found, tail⟩ := readNumber_respells stops true tail digits
    refine ⟨.number numeral, rest, ?_, .same _, tail⟩
    change (readNumber true behind).map _ = _
    rw [found]
    rfl
  case h_12 =>
    obtain ⟨⟨numeral, last⟩, digits, same⟩ := Option.map_eq_some_iff.mp done
    cases same
    obtain ⟨c, before, rfl, digit⟩ := readNumber_first digits
    obtain ⟨rest, found, tail⟩ := readNumber_respells stops false respells digits
    obtain ⟨behind, rfl, -⟩ := respells.cons_inv (Text.isDigit_low digit)
    refine ⟨.number numeral, rest, ?_, .same _, tail⟩
    rw [read_digit digit, found]
    rfl

theorem readAll_respells (stops : Stops more) (respells : Respells more text other) {tokens : List JsonToken}
    (done : readAll text = some tokens) : ∃ others, List.Forall₂ Alike tokens others ∧
      readAll other = (readAll more).map (others ++ ·) := by
  induction tokens generalizing text other with
  | nil =>
    obtain ⟨none, -⟩ | ⟨_, _, _, _, _, same⟩ := readAll_cases done
    · have same : other.dropWhile isBlank = more.dropWhile isBlank := by
        obtain ⟨-, same⟩ | rest := dropWhile_respells respells
        · exact same
        · rw [none] at rest
          obtain ⟨-, rest⟩ | ⟨_, _, _, some, -⟩ | ⟨_, _, _, _, some, -⟩ := rest.cases_head
          · rw [← rest, List.dropWhile_idempotent]
          · cases some
          · cases some
      refine ⟨[], .nil, ?_⟩
      rw [readAll_eq other, same, ← readAll_eq more]
      simp
    · cases same
  | cons token tokens ih =>
    obtain ⟨-, none⟩ | ⟨_, after, _, first, rest, same⟩ := readAll_cases done
    · cases none
    · cases same
      obtain ⟨none, -⟩ | tail := dropWhile_respells respells
      · rw [none] at first
        exact absurd (read_length first) (Nat.not_lt_zero _)
      · obtain ⟨found, behind, second, alike, tail⟩ := read_respells stops tail first
        obtain ⟨others, all, rest⟩ := ih tail rest
        refine ⟨found :: others, .cons alike all, ?_⟩
        rw [readAll_token second, rest, Option.map_map]
        rfl

end JsonToken

end LiteralSql
