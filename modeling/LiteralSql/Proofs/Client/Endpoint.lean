import LiteralSql.Config
import LiteralSql.Http.Url
import LiteralSql.Proofs.Text
import Mathlib.Data.List.TakeWhile
import Mathlib.Tactic.ByContra

/-! The host of an endpoint, and the paths below it.

Jobs and statements are sent to different paths. What is put behind the path of
statements does not change the host that is read from the base of an endpoint,
and a job whose name needs no escape has a path of its own.
-/

set_option autoImplicit false

namespace LiteralSql

namespace Url

theorem dropWhile_isControl {text : Text} (visible : text.any isControl = false) :
    text.dropWhile isControl = text := by
  cases text with
  | nil => rfl
  | cons c rest =>
    rw [List.any_cons, Bool.or_eq_false_iff] at visible
    rw [List.dropWhile_cons, if_neg (ne_true_of_eq_false visible.1)]

theorem dropWhile_isControl_append {suffix : Text} (visible : suffix.any isControl = false) (base : Text) :
    (base ++ suffix).dropWhile isControl = base.dropWhile isControl ++ suffix := by
  rw [List.dropWhile_append, dropWhile_isControl visible]
  split
  · next none => rw [List.isEmpty_iff.mp none, List.nil_append]
  · rfl

theorem dropWhile_reverse_append {suffix : Text} (visible : suffix.any isControl = false) (some : suffix ≠ [])
    (base : Text) : (base ++ suffix).reverse.dropWhile isControl = (base ++ suffix).reverse := by
  have reversed : suffix.reverse.dropWhile isControl = suffix.reverse :=
    dropWhile_isControl (List.any_reverse.trans visible)
  rw [List.reverse_append, List.dropWhile_append, reversed, if_neg]
  exact fun none => some (List.reverse_eq_nil_iff.mp (List.isEmpty_iff.mp none))

theorem filter_visible {text : Text} (visible : text.any isControl = false) :
    text.filter (fun c => !(c = '\t' || c = '\n' || c = '\r')) = text := by
  refine List.filter_eq_self.mpr fun c member => ?_
  have other := List.any_eq_false.mp visible c member
  by_contra blank
  simp only [Bool.not_eq_true, Bool.not_eq_false', Bool.or_eq_true, decide_eq_true_eq] at blank
  obtain (rfl | rfl) | rfl := blank
  · exact other rfl
  · exact other rfl
  · exact other rfl

section
variable {middle : Text} (visible : middle.any isControl = false) (some : middle ≠ []) (base : Text)
include visible some

theorem clean_append : clean (base ++ middle) =
    ((base.dropWhile isControl).filter fun c => !(c = '\t' || c = '\n' || c = '\r')) ++ middle := by
  rw [clean, dropWhile_isControl_append visible, dropWhile_reverse_append visible some, List.reverse_reverse,
    List.filter_append, filter_visible visible]

theorem clean_append_append (more : Text) : ∃ kept, clean (base ++ middle ++ more) =
    ((base.dropWhile isControl).filter fun c => !(c = '\t' || c = '\n' || c = '\r')) ++ middle ++ kept := by
  have front : (base ++ middle ++ more).dropWhile isControl = base.dropWhile isControl ++ middle ++ more := by
    rw [List.dropWhile_append, dropWhile_isControl_append visible, if_neg]
    exact fun none => some (List.append_eq_nil_iff.mp (List.isEmpty_iff.mp none)).2
  have back : ∃ kept, ((base.dropWhile isControl ++ middle ++ more).reverse.dropWhile isControl).reverse =
      base.dropWhile isControl ++ middle ++ kept := by
    rw [List.reverse_append, List.dropWhile_append]
    split
    · exact ⟨[], by rw [dropWhile_reverse_append visible some, List.reverse_reverse, List.append_nil]⟩
    · exact ⟨(more.reverse.dropWhile isControl).reverse, by rw [List.reverse_append, List.reverse_reverse]⟩
  obtain ⟨kept, back⟩ := back
  refine ⟨kept.filter fun c => !(c = '\t' || c = '\n' || c = '\r'), ?_⟩
  rw [clean, front, back, List.filter_append, List.filter_append, filter_visible visible]

end

theorem takeWhile_endsAuthority_append (rest more : Text) :
    (rest ++ '/' :: more).takeWhile (fun c => !endsAuthority c) = rest.takeWhile fun c => !endsAuthority c := by
  have stops : ('/' :: more).takeWhile (fun c => !endsAuthority c) = [] := rfl
  rw [List.takeWhile_append, stops, List.append_nil]
  split
  · next whole => exact ((List.takeWhile_prefix _).eq_of_length whole).symm
  · rfl

theorem dropScheme?_slash {text : Text} (slash : '/' ∈ text.takeWhile (· ≠ ':')) : dropScheme? text = none := by
  have lowered : '/' ∈ (text.takeWhile (· ≠ ':')).map Char.toLower := List.mem_map.mpr ⟨'/', slash, rfl⟩
  rw [dropScheme?]
  split
  · refine if_neg ?_
    rintro (http | https)
    · exact absurd (http ▸ lowered) (by decide)
    · exact absurd (https ▸ lowered) (by decide)
  · rfl

theorem dropScheme?_colon {scheme : Text} (absent : ':' ∉ scheme) (rest : Text) :
    dropScheme? (scheme ++ ':' :: rest) =
      if rest.take 2 = "//".toList ∧
          (scheme.map Char.toLower = "http".toList ∨ scheme.map Char.toLower = "https".toList) then
        some (rest.drop 2)
      else none := by
  have other : ∀ c ∈ scheme, decide (c ≠ ':') = true := fun c member =>
    decide_eq_true fun same => absent (same ▸ member)
  have read : (scheme ++ ':' :: rest).takeWhile (· ≠ ':') = scheme := by
    rw [List.takeWhile_append_of_pos other]
    exact List.append_nil scheme
  have left : (scheme ++ ':' :: rest).dropWhile (· ≠ ':') = ':' :: rest := by
    rw [List.dropWhile_append_of_pos other]
    rfl
  rw [dropScheme?, read, left]
  split
  · next slashed =>
    obtain rfl := (List.cons.inj slashed).2
    simp
  · next unslashed =>
    refine (if_neg fun both => unslashed (rest.drop 2) ?_).symm
    exact congrArg (List.cons ':') ((List.take_append_drop 2 rest).symm.trans (congrArg (· ++ rest.drop 2) both.1))

theorem dropScheme?_append (front more : Text) : dropScheme? (front ++ "/sql".toList ++ more) =
    (dropScheme? (front ++ "/sql".toList)).map (· ++ more) := by
  by_cases colon : ':' ∈ front
  · obtain ⟨scheme, rest, rfl, absent⟩ := List.eq_append_cons_of_mem colon
    have long : 2 ≤ (rest ++ "/sql".toList).length := by
      rw [List.length_append]
      exact Nat.le_add_left_of_le (by decide)
    have whole : scheme ++ ':' :: rest ++ "/sql".toList = scheme ++ ':' :: (rest ++ "/sql".toList) :=
      List.append_assoc scheme (':' :: rest) _
    rw [whole, List.append_assoc, List.cons_append, dropScheme?_colon absent, dropScheme?_colon absent,
      List.take_append_of_le_length long, List.drop_append_of_le_length long]
    split <;> rfl
  · -- The first colon, if there is one, is behind the slash.
    have slash (more : Text) : '/' ∈ (front ++ "/sql".toList ++ more).takeWhile (· ≠ ':') := by
      have other : ∀ c ∈ front ++ "/sql".toList, decide (c ≠ ':') = true := fun c member =>
        decide_eq_true fun same => absurd (same ▸ member) (by simpa using colon)
      rw [List.takeWhile_append_of_pos other]
      simp
    have bare := slash []
    rw [List.append_nil] at bare
    rw [dropScheme?_slash (slash more), dropScheme?_slash bare, Option.map_none]

theorem map_authority_ofText? (text : Text) : (ofText? text).map Url.authority = (dropScheme? (clean text)).bind
    fun rest => if (rest.takeWhile fun c => !endsAuthority c).isEmpty then none
      else some (rest.takeWhile fun c => !endsAuthority c) := by
  rw [ofText?]
  cases dropScheme? (clean text) with
  | none => rfl
  | some rest =>
    change Option.map Url.authority (if _ then _ else _) = _
    rw [apply_ite (Option.map Url.authority)]
    rfl

end Url

theorem Config.authority_below (config : Config) (more : Text) :
    (Url.ofText? (config.baseUrl ++ "/sql/".toList ++ more)).map Url.authority =
      (Url.ofText? config.sqlUrl).map Url.authority := by
  obtain ⟨kept, cleaned⟩ := @Url.clean_append_append "/sql/".toList (by decide) (by decide) config.baseUrl
    more
  rw [Url.map_authority_ofText?, Url.map_authority_ofText?, cleaned, Config.sqlUrl,
    Url.clean_append (by decide) (by decide)]
  have path (front : Text) : front ++ "/sql/".toList ++ kept = front ++ "/sql".toList ++ '/' :: kept := by simp
  rw [path, Url.dropScheme?_append, Option.bind_map]
  refine congrArg _ (funext fun rest => ?_)
  rw [Function.comp_apply, Url.takeWhile_endsAuthority_append]

theorem Config.authority_jobUrl (config : Config) :
    (Url.ofText? config.jobUrl).map Url.authority = (Url.ofText? config.sqlUrl).map Url.authority := by
  have below := config.authority_below "job".toList
  rwa [List.append_assoc] at below

theorem Config.authority_jobStatusUrl (config : Config) (job : Text) :
    (Url.ofText? (config.jobStatusUrl job)).map Url.authority = (Url.ofText? config.sqlUrl).map Url.authority := by
  have below := config.authority_below ("job/".toList ++ job)
  rwa [← List.append_assoc, List.append_assoc config.baseUrl] at below

namespace Url

/-- These characters stand for themselves in a path. -/
def isUnreserved (c : Char) : Bool := c.isAlphanum || c = '-' || c = '.' || c = '_' || c = '~'

theorem toNat_of_isUnreserved {c : Char} (plain : isUnreserved c = true) : 0x20 < c.toNat ∧ c.toNat < 0x7F := by
  delta isUnreserved Char.isAlphanum Char.isAlpha Char.isUpper Char.isLower Char.isDigit at plain
  simp only [Bool.or_eq_true, Bool.and_eq_true, decide_eq_true_eq, ge_iff_le, UInt32.le_iff_toNat_le] at plain
  change 0x20 < c.val.toNat ∧ c.val.toNat < 0x7F
  rcases plain with (((((⟨low, high⟩ | ⟨low, high⟩) | ⟨low, high⟩) | rfl) | rfl) | rfl) | rfl
  iterate 3 exact ⟨Nat.lt_of_lt_of_le (by decide) low, Nat.lt_of_le_of_lt high (by decide)⟩
  all_goals decide

theorem plain_below {c : Char} (plain : isUnreserved c = true ∨ c = '/') : isControl c = false ∧ c ≠ '?' ∧ c ≠ '#' := by
  rcases plain with plain | rfl
  · refine ⟨decide_eq_false (Nat.not_le.mpr (toNat_of_isUnreserved plain).1), ?_, ?_⟩
    all_goals
      rintro rfl
      cases plain
  · decide

section
variable {name : Text} (plain : ∀ c ∈ name, isUnreserved c = true)
include plain

theorem not_mem_of_plain {c : Char} (reserved : isUnreserved c = false) : c ∉ name := fun member =>
  Bool.false_ne_true (reserved.symm.trans (plain c member))

theorem escape_plain : escape pathSpecial name = name := by
  have each : ∀ c ∈ name, (if c.toNat < 0x20 ∨ 0x7F ≤ c.toNat ∨ c ∈ pathSpecial
      then (Utf8.encodeChar c).flatMap escapeByte
      else [c]) = [c] := by
    intro c member
    refine if_neg ?_
    rintro (low | high | special)
    · exact absurd (toNat_of_isUnreserved (plain c member)).1 (by omega)
    · exact absurd (toNat_of_isUnreserved (plain c member)).2 (by omega)
    · have reserved : pathSpecial.all (fun c => !isUnreserved c) = true := by decide
      have other := List.all_eq_true.mp reserved c special
      rw [Bool.not_eq_true'] at other
      exact not_mem_of_plain plain other member
  rw [escape, List.flatMap_congr each, List.flatMap_singleton']

theorem dots_plain : dots name = name := by
  rw [dots]
  induction name with
  | nil => rfl
  | cons c rest ih =>
    have other : c ≠ '%' := fun same => not_mem_of_plain plain (c := '%') rfl (same ▸ List.mem_cons_self)
    rw [dots.go, ih fun c member => plain c (List.mem_cons_of_mem _ member)]
    · exact fun _ same => absurd same other
    · exact fun _ same => absurd same other

theorem map_slash_plain : (name.map fun c => if c = '\\' then '/' else c) = name := by
  refine (List.map_congr_left fun c member => if_neg ?_).trans (List.map_id name)
  rintro rfl
  exact not_mem_of_plain plain rfl member

end

def enter (kept : List Text) (segment : Text) : List Text :=
  if dots segment = "..".toList then kept.drop 1
  else if dots segment = ".".toList then kept
  else segment :: kept

theorem resolve_append (kept segments : List Text) {last : Text}
    (dotless : dots last ≠ "..".toList ∧ dots last ≠ ".".toList) :
    resolve kept (segments ++ [last]) = (segments.foldl enter kept).reverse ++ [last] := by
  induction segments generalizing kept with
  | nil => rw [List.nil_append, resolve, if_neg dotless.1, if_neg dotless.2]; rfl
  | cons first others ih =>
    obtain ⟨next, more, split⟩ :=
      List.exists_cons_of_ne_nil (List.append_ne_nil_of_right_ne_nil others (List.cons_ne_nil last []))
    rw [List.foldl_cons, ← ih, List.cons_append, split, resolve, enter]
    · split_ifs <;> rfl
    · simp

def segments (text : Text) : List Text :=
  match text.map fun c => if c = '\\' then '/' else c with
  | '/' :: rest => Text.split '/' rest
  | rest => Text.split '/' rest

theorem normalPath_eq (text : Text) :
    normalPath text = (resolve [] (segments text)).flatMap fun segment => '/' :: escape pathSpecial segment := rfl

theorem segments_append {name : Text} (plain : ∀ c ∈ name, isUnreserved c = true) (front : Text) :
    ∃ before, segments (front ++ '/' :: name) = before ++ [name] ∧ (front ≠ [] → before = segments front) := by
  have single : Text.split '/' name = [name] := Text.split_of_not_mem (not_mem_of_plain plain rfl)
  have slashed : (front ++ '/' :: name).map (fun c => if c = '\\' then '/' else c) =
      front.map (fun c => if c = '\\' then '/' else c) ++ '/' :: name := by
    rw [List.map_append, List.map_cons, map_slash_plain plain]
    rfl
  rw [segments, segments, slashed]
  cases mapped : front.map fun c => if c = '\\' then '/' else c with
  | nil =>
    refine ⟨[], single, fun some => absurd ?_ some⟩
    exact List.map_eq_nil_iff.mp mapped
  | cons c rest =>
    by_cases slash : c = '/'
    · subst slash
      refine ⟨Text.split '/' rest, ?_, fun _ => rfl⟩
      rw [← single]
      exact Text.split_append '/' rest name
    · refine ⟨Text.split '/' (c :: rest), ?_, fun _ => ?_⟩
      · rw [← single, ← Text.split_append]
        split
        · next other => exact absurd (List.cons.inj other).1 slash
        · rfl
      · split
        · next other => exact absurd (List.cons.inj other).1 slash
        · rfl

theorem normalPath_append {folder name : Text} (plain : ∀ c ∈ folder, isUnreserved c = true)
    (named : ∀ c ∈ name, isUnreserved c = true) (descends : folder ≠ "..".toList ∧ folder ≠ ".".toList)
    (dotless : name ≠ "..".toList ∧ name ≠ ".".toList) (front : Text) :
    normalPath (front ++ '/' :: folder ++ '/' :: name) = normalPath (front ++ '/' :: folder) ++ '/' :: name := by
  obtain ⟨before, parted, -⟩ := segments_append plain front
  obtain ⟨whole, longer, same⟩ := segments_append named (front ++ '/' :: folder)
  obtain rfl := same (by simp)
  rw [← dots_plain named] at dotless
  rw [← dots_plain plain] at descends
  rw [normalPath_eq, normalPath_eq, longer, resolve_append _ _ dotless, parted, resolve_append _ _ descends,
    List.foldl_append, List.foldl_cons, List.foldl_nil, enter, if_neg descends.1, if_neg descends.2]
  simp [escape_plain named]

theorem mem_of_dropScheme? {text rest : Text} (read : dropScheme? text = some rest) {c : Char} (member : c ∈ rest) :
    c ∈ text := by
  rw [dropScheme?] at read
  split at read
  · next dropped =>
    split_ifs at read
    cases read
    have inside : ':' :: '/' :: '/' :: rest <:+ text := dropped ▸ List.dropWhile_suffix _
    exact inside.subset (List.mem_append_right [':', '/', '/'] member)
  · cases read

theorem dropWhile_endsAuthority_append (rest more : Text) :
    (rest ++ '/' :: more).dropWhile (fun c => !endsAuthority c) =
      rest.dropWhile (fun c => !endsAuthority c) ++ '/' :: more := by
  have stops : ('/' :: more).dropWhile (fun c => !endsAuthority c) = '/' :: more := rfl
  rw [List.dropWhile_append, stops]
  split
  · next none => rw [List.isEmpty_iff.mp none, List.nil_append]
  · rfl

theorem ofText?_path {text rest : Text} (read : dropScheme? (clean text) = some rest)
    (bare : ∀ c ∈ rest, c ≠ '?' ∧ c ≠ '#') : ofText? text =
      if (rest.takeWhile fun c => !endsAuthority c).isEmpty then none
      else some ⟨rest.takeWhile fun c => !endsAuthority c,
        normalPath (rest.dropWhile fun c => !endsAuthority c), none⟩ := by
  have kept : ∀ c ∈ rest.dropWhile (fun c => !endsAuthority c), c ≠ '?' ∧ c ≠ '#' := fun c member =>
    bare c (List.dropWhile_suffix _ |>.subset member)
  have sent : (rest.dropWhile fun c => !endsAuthority c).takeWhile (· ≠ '#') =
      rest.dropWhile fun c => !endsAuthority c :=
    List.takeWhile_eq_self_iff.mpr fun c member => decide_eq_true (kept c member).2
  have path : (rest.dropWhile fun c => !endsAuthority c).takeWhile (· ≠ '?') =
      rest.dropWhile fun c => !endsAuthority c :=
    List.takeWhile_eq_self_iff.mpr fun c member => decide_eq_true (kept c member).1
  have query : (rest.dropWhile fun c => !endsAuthority c).dropWhile (· ≠ '?') = [] :=
    List.dropWhile_eq_nil_iff.mpr fun c member => decide_eq_true (kept c member).1
  rw [ofText?, read]
  simp only [bind, Option.bind, sent, path, query]

end Url

theorem Config.bare_sqlUrl {config : Config} (bare : ∀ c ∈ config.baseUrl, c ≠ '?' ∧ c ≠ '#') {rest : Text}
    (read : Url.dropScheme? (Url.clean config.sqlUrl) = some rest) : ∀ c ∈ rest, c ≠ '?' ∧ c ≠ '#' := by
  intro c member
  have inside := Url.mem_of_dropScheme? read member
  rw [Config.sqlUrl, Url.clean_append (by decide) (by decide), List.mem_append] at inside
  rcases inside with front | path
  · exact bare c ((List.dropWhile_suffix _).subset (List.mem_of_mem_filter front))
  · have plain : "/sql".toList.all (fun c => c != '?' && c != '#') = true := by decide
    simpa using List.all_eq_true.mp plain c path

/-- What is put below the place of statements becomes the end of its path. -/
theorem Config.ofText?_below {config : Config} (bare : ∀ c ∈ config.baseUrl, c ≠ '?' ∧ c ≠ '#') (more : Text)
    (plain : ∀ c ∈ more, Url.isUnreserved c = true ∨ c = '/') :
    Url.ofText? (config.baseUrl ++ "/sql/".toList ++ more) =
        (Url.dropScheme? (Url.clean config.sqlUrl)).bind fun rest =>
      if (rest.takeWhile fun c => !Url.endsAuthority c).isEmpty then none
      else some ⟨rest.takeWhile fun c => !Url.endsAuthority c,
        Url.normalPath (rest.dropWhile (fun c => !Url.endsAuthority c) ++ '/' :: more), none⟩ := by
  have below : ∀ c ∈ '/' :: more, Url.isControl c = false ∧ c ≠ '?' ∧ c ≠ '#' := fun c member =>
    Url.plain_below ((List.mem_cons.mp member).elim .inr (plain c))
  have visible : ("/sql".toList ++ '/' :: more).any Url.isControl = false := by
    rw [List.any_append, Bool.or_eq_false_iff]
    exact ⟨by decide, List.any_eq_false.mpr fun c member => ne_true_of_eq_false (below c member).1⟩
  have whole : config.baseUrl ++ "/sql/".toList ++ more = config.baseUrl ++ ("/sql".toList ++ '/' :: more) := by simp
  have cleaned : Url.dropScheme? (Url.clean (config.baseUrl ++ ("/sql".toList ++ '/' :: more))) =
      (Url.dropScheme? (Url.clean config.sqlUrl)).map (· ++ '/' :: more) := by
    rw [Url.clean_append visible (by simp), Config.sqlUrl, Url.clean_append (by decide) (by decide),
      ← List.append_assoc, Url.dropScheme?_append]
  rw [whole]
  cases read : Url.dropScheme? (Url.clean config.sqlUrl) with
  | none =>
    rw [read] at cleaned
    rw [Url.ofText?, cleaned]
    rfl
  | some rest =>
    rw [read] at cleaned
    rw [Url.ofText?_path cleaned, Url.takeWhile_endsAuthority_append, Url.dropWhile_endsAuthority_append]
    · rfl
    · intro c member
      rcases List.mem_append.mp member with front | behind
      · exact Config.bare_sqlUrl bare read c front
      · exact (below c behind).2

/-- A job whose name is plain is looked at right below the place where jobs are submitted. -/
theorem Config.place_of_job {config : Config} {job : Text} (bare : ∀ c ∈ config.baseUrl, c ≠ '?' ∧ c ≠ '#')
    (plain : ∀ c ∈ job, Url.isUnreserved c = true) (dotless : job ≠ "..".toList ∧ job ≠ ".".toList) {address : Url}
    (found : Url.ofText? config.jobUrl = some address) :
    Url.ofText? (config.jobStatusUrl job) = some ⟨address.authority, address.path ++ '/' :: job, none⟩ := by
  have folder : ∀ c ∈ "job".toList, Url.isUnreserved c = true := List.all_eq_true.mp (by decide)
  have submitted := Config.ofText?_below bare "job".toList fun c member => .inl (folder c member)
  have looked := Config.ofText?_below bare ("job".toList ++ '/' :: job)
    (by simp +contextual [or_imp, folder, plain])
  rw [List.append_assoc] at submitted
  change Url.ofText? config.jobUrl = _ at submitted
  rw [found] at submitted
  have place : config.baseUrl ++ "/sql/".toList ++ ("job".toList ++ '/' :: job) = config.jobStatusUrl job := by
    simp [Config.jobStatusUrl]
  rw [place] at looked
  rw [looked]
  cases read : Url.dropScheme? (Url.clean config.sqlUrl) with
  | none =>
    rw [read] at submitted
    cases submitted
  | some rest =>
    rw [read] at submitted
    simp only [Option.bind_some] at submitted ⊢
    split_ifs at submitted with host
    cases submitted
    rw [if_neg host]
    have path := Url.normalPath_append folder plain (by decide) dotless (rest.dropWhile fun c => !Url.endsAuthority c)
    rw [List.append_assoc, List.cons_append] at path
    rw [path]

end LiteralSql
