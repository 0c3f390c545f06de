import Mathlib.Tactic.Ring
import LiteralSql.Time
import LiteralSql.Proofs.Text

/-! The language of zone names.

A relation says which texts name a zone and which zone that is; it has as a
parameter what may stand in front of an offset. The parser decides it, but for
texts that end in a colon with nothing behind it. What a parsed zone is printed
as is a name of the same zone.
-/

set_option autoImplicit false

namespace LiteralSql

namespace TimeZone

def documentedSigns : List (Char × Int) := [('+', 1), ('-', -1)]

def acceptedSigns : List (Char × Int) := (' ', 1) :: documentedSigns

inductive Pair : Text → Prop
  | intro {tens ones : Char} : Text.isDigit tens = true → Text.isDigit ones = true → Pair [tens, ones]

inductive Minutes : Text → Nat → Prop
  | absent : Minutes [] 0
  | joined {digits : Text} : Pair digits → Minutes digits (Text.toNat digits)
  | apart {digits : Text} : Pair digits → Minutes (':' :: digits) (Text.toNat digits)

inductive Names (signs : List (Char × Int)) : Text → TimeZone → Prop
  | «local» : Names signs "local".toList .local
  | zulu : Names signs "Z".toList utc
  | offset {sign : Char} {direction : Int} {hours minutes : Text} {count : Nat} (signed : (sign, direction) ∈ signs)
      (pair : Pair hours) (counted : Minutes minutes count)
      (within : (direction * (Text.toNat hours * 3600 + count * 60)).natAbs < 86400) :
      Names signs (sign :: (hours ++ minutes)) (.offset (direction * (Text.toNat hours * 3600 + count * 60)) within)

/-- A sign and hours with a colon behind them that no minutes follow. -/
def Dangling (text : Text) : Prop :=
  ∃ sign direction hours, (sign, direction) ∈ acceptedSigns ∧ Pair hours ∧ text = sign :: (hours ++ [':'])

theorem twoDigits?_eq_some {tens ones : Char} {value : Nat} :
    twoDigits? tens ones = some value ↔ Pair [tens, ones] ∧ value = Text.toNat [tens, ones] := by
  have reads : Text.toNat [tens, ones] = 10 * (tens.toNat - 48) + (ones.toNat - 48) := by
    simp [Text.toNat]
  rw [twoDigits?, reads]
  constructor
  · intro found
    split at found
    · rename_i digits
      rw [Bool.and_eq_true] at digits
      exact ⟨.intro digits.1 digits.2, (Option.some.inj found).symm⟩
    · cases found
  · rintro ⟨⟨first, second⟩, rfl⟩
    rw [if_pos (Bool.and_eq_true_iff.mpr ⟨first, second⟩)]

theorem signum?_eq_some {sign : Char} {direction : Int} :
    signum? sign = some direction ↔ (sign, direction) ∈ acceptedSigns := by
  simp only [acceptedSigns, documentedSigns, List.mem_cons, List.not_mem_nil, or_false, Prod.mk.injEq]
  fun_cases signum? sign <;> grind

theorem minutes?_eq_some {text : Text} {count : Nat} :
    minutes? text = some count ↔ Minutes text count ∨ text = [':'] ∧ count = 0 := by
  constructor
  · intro found
    fun_cases minutes? text with
    | case1 =>
      rw [minutes?, Option.some.injEq] at found
      exact .inl (found ▸ .absent)
    | case2 =>
      rw [minutes?, Option.some.injEq] at found
      exact .inr ⟨rfl, found.symm⟩
    | case3 tens ones =>
      obtain ⟨pair, rfl⟩ := twoDigits?_eq_some.mp found
      exact .inl (.apart pair)
    | case4 tens ones =>
      rw [minutes?] at found
      obtain ⟨pair, rfl⟩ := twoDigits?_eq_some.mp found
      exact .inl (.joined pair)
    | case5 none bare apart joined =>
      rw [minutes?] at found <;> first | assumption | cases found
  · rintro (written | ⟨rfl, rfl⟩)
    · cases written with
      | absent => rfl
      | joined pair =>
        obtain ⟨first, second⟩ := pair
        rw [minutes?]
        exact twoDigits?_eq_some.mpr ⟨.intro first second, rfl⟩
      | apart pair =>
        obtain ⟨first, second⟩ := pair
        exact twoDigits?_eq_some.mpr ⟨.intro first second, rfl⟩
    · rfl

theorem ofSeconds?_eq_some {east : Int} {zone : TimeZone} :
    ofSeconds? east = some zone ↔ ∃ within, zone = .offset east within := by
  rw [ofSeconds?]
  split
  · rename_i within
    rw [Option.some.injEq]
    exact ⟨fun same => ⟨within, same.symm⟩, fun ⟨_, same⟩ => same.symm⟩
  · rename_i beyond
    exact ⟨nofun, fun ⟨within, _⟩ => absurd within beyond⟩

theorem offset?_eq_some {text : Text} {zone : TimeZone} :
    offset? text = some zone ↔ ∃ sign direction hours rest count within, (sign, direction) ∈ acceptedSigns ∧
      Pair hours ∧ minutes? rest = some count ∧ text = sign :: (hours ++ rest) ∧
      zone = .offset (direction * (Text.toNat hours * 3600 + count * 60)) within := by
  constructor
  · intro found
    fun_cases offset? text with
    | case1 sign tens ones rest =>
      simp only [offset?, Option.bind_eq_bind, Option.bind_eq_some_iff, signum?_eq_some, twoDigits?_eq_some,
        ofSeconds?_eq_some] at found
      obtain ⟨direction, signed, value, ⟨pair, rfl⟩, count, counted, within, rfl⟩ := found
      exact ⟨sign, direction, [tens, ones], rest, count, within, signed, pair, counted, rfl, rfl⟩
    | case2 short => rw [offset?] at found <;> first | assumption | cases found
  · rintro ⟨sign, direction, hours, rest, count, within, signed, pair, counted, rfl, rfl⟩
    obtain ⟨first, second⟩ := pair
    rw [List.cons_append, List.cons_append, List.nil_append, offset?, signum?_eq_some.mpr signed,
      twoDigits?_eq_some.mpr ⟨.intro first second, rfl⟩, counted]
    exact ofSeconds?_eq_some.mpr ⟨within, rfl⟩

theorem ofText?_of_signed {sign : Char} {direction : Int} {rest : Text} (signed : (sign, direction) ∈ acceptedSigns) :
    ofText? (sign :: rest) = offset? (sign :: rest) := by
  have letters : ∀ accepted ∈ acceptedSigns, accepted.1 ≠ 'l' ∧ accepted.1 ≠ 'Z' := by decide
  obtain ⟨notLocal, notZulu⟩ : sign ≠ 'l' ∧ sign ≠ 'Z' := letters _ signed
  have other : sign :: rest ≠ "local".toList ∧ sign :: rest ≠ "Z".toList :=
    ⟨fun same => notLocal (Option.some.inj (congrArg List.head? same)),
      fun same => notZulu (Option.some.inj (congrArg List.head? same))⟩
  rw [ofText?, if_neg other.1, if_neg other.2]

theorem ofText?_of_names {text : Text} {zone : TimeZone} (names : Names acceptedSigns text zone) :
    ofText? text = some zone := by
  cases names with
  | «local» => rfl
  | zulu => rfl
  | offset signed pair counted within =>
    rw [ofText?_of_signed signed, offset?_eq_some]
    exact ⟨_, _, _, _, _, within, signed, pair, minutes?_eq_some.mpr (.inl counted), rfl, rfl⟩

theorem names_of_ofText? {text : Text} {zone : TimeZone} (found : ofText? text = some zone) :
    Names acceptedSigns text zone ∨ Dangling text ∧ offset? text = some zone := by
  rw [ofText?] at found
  split at found
  · rename_i word
    exact .inl (word ▸ Option.some.inj found ▸ .local)
  · split at found
    · rename_i word
      exact .inl (word ▸ Option.some.inj found ▸ .zulu)
    · obtain ⟨sign, direction, hours, rest, count, within, signed, pair, counted, rfl, rfl⟩ := offset?_eq_some.mp found
      obtain counted | ⟨rfl, -⟩ := minutes?_eq_some.mp counted
      · exact .inl (.offset signed pair counted within)
      · exact .inr ⟨⟨sign, direction, hours, signed, pair, rfl⟩, found⟩

theorem pair_padded {number : Nat} (small : number < 100) :
    Pair (Text.padded 2 number) ∧ Text.toNat (Text.padded 2 number) = number := by
  have digits : ∀ number < 100, (Text.padded 2 number).length = 2 ∧ (Text.padded 2 number).all Text.isDigit = true ∧
      Text.toNat (Text.padded 2 number) = number := by decide
  obtain ⟨two, all, value⟩ := digits number small
  obtain ⟨tens, ones, written⟩ := List.length_eq_two.mp two
  rw [written] at all value ⊢
  simp only [List.all_cons, List.all_nil, Bool.and_true, Bool.and_eq_true] at all
  exact ⟨.intro all.1 all.2, value⟩

/-- A zone of whole minutes is printed as one of its names. -/
theorem names_toText {zone : TimeZone} (whole : ∀ east within, zone = .offset east within → east % 60 = 0) :
    Names documentedSigns zone.toText zone := by
  cases zone with
  | «local» => exact .local
  | offset east within =>
    have whole := whole east within rfl
    have hoursSmall : east.natAbs / 3600 < 100 := by omega
    have minutesSmall : east.natAbs / 60 % 60 < 100 := by omega
    obtain ⟨hours, hoursValue⟩ := pair_padded hoursSmall
    obtain ⟨minutes, minutesValue⟩ := pair_padded minutesSmall
    have signed : ((if east < 0 then '-' else '+'), (if east < 0 then -1 else 1 : Int)) ∈ documentedSigns := by
      split <;> decide
    have value : (if east < 0 then -1 else 1 : Int) * (Text.toNat (Text.padded 2 (east.natAbs / 3600)) * 3600 +
        Text.toNat (Text.padded 2 (east.natAbs / 60 % 60)) * 60) = east := by
      rw [hoursValue, minutesValue]
      split <;> omega
    have named := Names.offset signed hours (.apart minutes) (value.symm ▸ within)
    have noSeconds : east.natAbs % 60 = 0 := by omega
    simp only [value] at named
    rw [toText]
    simp only [noSeconds, if_true, List.append_nil]
    exact named

theorem whole_of_ofText? {text : Text} {east : Int} {within : east.natAbs < 86400}
    (found : ofText? text = some (.offset east within)) : east % 60 = 0 := by
  rw [ofText?] at found
  split at found
  · cases found
  · split at found
    · cases found
      rfl
    · obtain ⟨sign, direction, hours, rest, count, within, -, -, -, -, same⟩ := offset?_eq_some.mp found
      cases same
      exact Int.emod_eq_zero_of_dvd ⟨direction * (Text.toNat hours * 60 + count), by ring⟩

theorem Names.accepted {text : Text} {zone : TimeZone} (names : Names documentedSigns text zone) :
    Names acceptedSigns text zone := by
  cases names with
  | «local» => exact .local
  | zulu => exact .zulu
  | offset signed pair counted within => exact .offset (List.mem_cons_of_mem _ signed) pair counted within

theorem parse_eq_ok {text : Text} {zone : TimeZone} : parse text = .ok zone ↔ ofText? text = some zone := by
  rw [parse]
  cases ofText? text with
  | none => exact ⟨nofun, nofun⟩
  | some found =>
    exact ⟨fun same => congrArg some (Except.ok.inj same), fun same => congrArg Except.ok (Option.some.inj same)⟩

/-- Dangling texts aside, the texts that name a zone are the ones that are
read, as the zone that they name. -/
theorem parse_language (text : Text) :
    (¬ Dangling text → ∀ zone, parse text = .ok zone ↔ Names acceptedSigns text zone) ∧
    (∀ zone, parse text = .ok zone → parse zone.toText = .ok zone) ∧
    ((∀ zone, parse text ≠ .ok zone) → parse text = .error (.invalidTimeZone text)) := by
  refine ⟨fun closed zone => ?_, fun zone parsed => ?_, fun rejected => ?_⟩
  · rw [parse_eq_ok]
    exact ⟨fun found => (names_of_ofText? found).resolve_right fun dangling => closed dangling.1, ofText?_of_names⟩
  · have whole (east : Int) (within : east.natAbs < 86400) (same : zone = .offset east within) : east % 60 = 0 := by
      subst same
      exact whole_of_ofText? (parse_eq_ok.mp parsed)
    exact parse_eq_ok.mpr (ofText?_of_names (names_toText whole).accepted)
  · cases found : ofText? text with
    | none => rw [parse, found]
    | some zone => exact absurd (parse_eq_ok.mpr found) (rejected zone)

theorem parse_language_westward :
    (¬ Dangling "-0530".toList ∧ Names acceptedSigns "-0530".toList (.offset (-19800) (by decide)) ∧
      parse "-0530".toList = .ok (.offset (-19800) (by decide))) ∧
    (toText (.offset (-19800) (by decide)) = "-05:30".toList ∧
      parse "-05:30".toList = .ok (.offset (-19800) (by decide))) ∧
    (∀ zone, parse "+24:00".toList ≠ .ok zone) ∧
      parse "+24:00".toList = .error (.invalidTimeZone "+24:00".toList) := by
  have closed : ¬ Dangling "-0530".toList := by
    rintro ⟨sign, direction, hours, -, ⟨-, -⟩, same⟩
    have length : 5 = 4 := congrArg List.length same
    omega
  have parsed : parse "-0530".toList = .ok (.offset (-19800) (by decide)) := parse_eq_ok.mpr (by decide)
  have names := ((parse_language "-0530".toList).1 closed _).mp parsed
  have rejected : ∀ zone, parse "+24:00".toList ≠ .ok zone := nofun
  exact ⟨⟨closed, names, parsed⟩, ⟨by decide, (parse_language _).2.1 _ parsed⟩, rejected,
    (parse_language _).2.2 rejected⟩

theorem parse_blank_sign :
    parse " 05".toList = .ok (.offset 18000 (by decide)) ∧ ¬ ∃ zone, Names documentedSigns " 05".toList zone := by
  refine ⟨parse_eq_ok.mpr (by decide), ?_⟩
  rintro ⟨zone, names⟩
  have begins : " 05".toList.head? = some ' ' := by decide
  generalize " 05".toList = text at names begins
  cases names with
  | «local» => exact absurd begins (by decide)
  | zulu => exact absurd begins (by decide)
  | @offset sign direction =>
    rename_i signed _ _ _
    have signs : ∀ signed ∈ documentedSigns, signed.1 ≠ ' ' := by decide
    exact signs _ signed (Option.some.inj begins)

end TimeZone

end LiteralSql
