import LiteralSql.Dictionary

/-! Looking names up in dictionaries, and which names a dictionary has. -/

set_option autoImplicit false

namespace LiteralSql

variable {α : Type}

theorem mem_keys_insertSorted {name key : Text} {value : α} {pairs : List (Text × α)} :
    key ∈ (insertSorted name value pairs).map Prod.fst ↔ key = name ∨ key ∈ pairs.map Prod.fst := by
  induction pairs with
  | nil => simp [insertSorted]
  | cons head rest ih =>
    obtain ⟨other, held⟩ := head
    rw [insertSorted]
    split
    · simp
    · split
      · next same =>
        subst same
        simp
      · rw [List.map_cons, List.mem_cons, ih, List.map_cons, List.mem_cons]
        exact or_left_comm

theorem mem_insertSorted_self (name : Text) (value : α) (pairs : List (Text × α)) :
    (name, value) ∈ insertSorted name value pairs := by
  induction pairs with
  | nil => exact List.mem_cons_self
  | cons head rest ih =>
    rw [insertSorted]
    split
    · exact List.mem_cons_self
    · split
      · exact List.mem_cons_self
      · exact List.mem_cons_of_mem _ ih

theorem filter_insertSorted (name : Text) (value : α) (pairs : List (Text × α)) :
    (insertSorted name value pairs).filter (·.1 ≠ name) = pairs.filter (·.1 ≠ name) := by
  have dropped (held : α) (rest : List (Text × α)) :
      ((name, held) :: rest).filter (·.1 ≠ name) = rest.filter (·.1 ≠ name) :=
    List.filter_cons_of_neg (by simp)
  induction pairs with
  | nil => exact dropped value []
  | cons head rest ih =>
    obtain ⟨other, held⟩ := head
    rw [insertSorted]
    split
    · exact dropped value _
    · split
      · next same =>
        subst same
        rw [dropped, dropped]
      · rw [List.filter_cons, List.filter_cons, ih]

theorem mem_keys_sortPairs {key : Text} {pairs : List (Text × α)} :
    key ∈ (sortPairs pairs).map Prod.fst ↔ key ∈ pairs.map Prod.fst := by
  suffices general : ∀ (rest sorted : List (Text × α)),
      key ∈ (rest.foldl (fun sorted pair => insertSorted pair.1 pair.2 sorted) sorted).map Prod.fst ↔
        key ∈ rest.map Prod.fst ∨ key ∈ sorted.map Prod.fst by
    simpa [sortPairs] using general pairs []
  intro rest
  induction rest with
  | nil => simp
  | cons pair rest ih =>
    intro sorted
    rw [List.foldl_cons, ih, mem_keys_insertSorted, List.map_cons, List.mem_cons]
    exact or_left_comm.trans or_assoc.symm

theorem insertSorted_perm {name : Text} {value : α} {pairs : List (Text × α)}
    (new : name ∉ pairs.map Prod.fst) : (insertSorted name value pairs).Perm ((name, value) :: pairs) := by
  induction pairs with
  | nil => exact .refl _
  | cons head rest ih =>
    obtain ⟨other, held⟩ := head
    rw [List.map_cons, List.mem_cons, not_or] at new
    rw [insertSorted]
    split
    · exact .refl _
    · rw [if_neg new.1]
      exact ((ih new.2).cons _).trans (.swap _ _ _)

theorem sortPairs_perm {pairs : List (Text × α)} (distinct : (pairs.map Prod.fst).Nodup) :
    (sortPairs pairs).Perm pairs := by
  suffices general : ∀ (rest sorted : List (Text × α)), ((rest ++ sorted).map Prod.fst).Nodup →
      (rest.foldl (fun sorted pair => insertSorted pair.1 pair.2 sorted) sorted).Perm (rest ++ sorted) by
    simpa [sortPairs] using general pairs [] (by simpa using distinct)
  intro rest
  induction rest with
  | nil => exact fun sorted _ => .refl sorted
  | cons pair rest ih =>
    intro sorted distinct
    have new : pair.1 ∉ sorted.map Prod.fst := by
      rw [List.cons_append, List.map_cons, List.nodup_cons, List.map_append, List.mem_append, not_or] at distinct
      exact distinct.1.2
    have moved : (rest ++ insertSorted pair.1 pair.2 sorted).Perm (pair :: rest ++ sorted) :=
      ((insertSorted_perm new).append_left rest).trans List.perm_middle
    exact (ih _ ((moved.map Prod.fst).nodup_iff.mpr distinct)).trans moved

theorem insertSorted_last {name : Text} {value : α} {pairs : List (Text × α)}
    (above : ∀ key ∈ pairs.map Prod.fst, key < name) : insertSorted name value pairs = pairs ++ [(name, value)] := by
  induction pairs with
  | nil => rfl
  | cons head rest ih =>
    obtain ⟨other, held⟩ := head
    rw [List.map_cons, List.forall_mem_cons] at above
    rw [insertSorted, if_neg (List.lt_asymm above.1), if_neg fun same => List.lt_irrefl _ (same ▸ above.1), ih above.2]
    rfl

theorem sortPairs_of_ascending {pairs : List (Text × α)} (ascending : Ascending pairs) : sortPairs pairs = pairs := by
  suffices general : ∀ (rest sorted : List (Text × α)), Ascending (sorted ++ rest) →
      rest.foldl (fun sorted pair => insertSorted pair.1 pair.2 sorted) sorted = sorted ++ rest from
    general pairs [] ascending
  intro rest
  induction rest with
  | nil => exact fun sorted _ => (List.append_nil sorted).symm
  | cons pair rest ih =>
    intro sorted ascending
    have above : ∀ key ∈ sorted.map Prod.fst, key < pair.1 := by
      rw [Ascending, List.map_append, List.pairwise_append] at ascending
      exact fun key member => ascending.2.2 key member pair.1 List.mem_cons_self
    rw [List.foldl_cons, insertSorted_last above, ih _ (by rwa [List.append_assoc]), List.append_assoc]
    rfl

namespace Dictionary

theorem mem_keys_ofList {key : Text} {pairs : List (Text × α)} :
    key ∈ (ofList pairs).keys ↔ key ∈ pairs.map Prod.fst := mem_keys_sortPairs

theorem get?_eq_some_iff {dictionary : Dictionary α} {name : Text} {value : α} :
    dictionary.get? name = some value ↔ (name, value) ∈ dictionary.entries := by
  rw [get?, List.lookup_eq_some_iff]
  constructor
  · rintro ⟨before, after, split, -⟩
    rw [split]
    exact List.mem_append_right before List.mem_cons_self
  · intro member
    obtain ⟨before, after, split⟩ := List.append_of_mem member
    refine ⟨before, after, split, fun pair earlier => ?_⟩
    have ascending := dictionary.ascending
    rw [Ascending, split, List.map_append, List.map_cons, List.pairwise_append] at ascending
    have less := ascending.2.2 pair.1 (List.mem_map_of_mem earlier) name List.mem_cons_self
    rw [bne_iff_ne]
    rintro rfl
    exact List.lt_irrefl _ less

theorem get?_insert (dictionary : Dictionary α) (name : Text) (value : α) :
    (dictionary.insert name value).get? name = some value :=
  get?_eq_some_iff.mpr (mem_insertSorted_self name value dictionary.entries)

theorem keys_ofList_keys (dictionary : Dictionary α) :
    (ofList (dictionary.keys.map fun key => (key, ()))).keys = dictionary.keys := by
  have keys : (dictionary.keys.map fun key => (key, ())).map Prod.fst = dictionary.keys := by
    rw [List.map_map]
    exact List.map_id _
  have ascending : Ascending (dictionary.keys.map fun key => (key, ())) := by
    rw [Ascending, keys]
    exact dictionary.ascending
  exact (congrArg (List.map Prod.fst) (sortPairs_of_ascending ascending)).trans keys

end Dictionary

end LiteralSql
