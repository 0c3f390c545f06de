import LiteralSql.Text

/-! Maps from names to values, kept as lists in the order of the names.

Names are compared character by character, by code point, which is also the
order of their UTF-8 bytes.
-/

set_option autoImplicit false

namespace LiteralSql

def insertSorted {α : Type} (name : Text) (value : α) : List (Text × α) → List (Text × α)
  | [] => [(name, value)]
  | (other, held) :: rest =>
    if name < other then (name, value) :: (other, held) :: rest
    else if name = other then (name, value) :: rest
    else (other, held) :: insertSorted name value rest

/-- Binds one pair after the other, so the last binding of a name stays. -/
def sortPairs {α : Type} (pairs : List (Text × α)) : List (Text × α) :=
  pairs.foldl (fun sorted pair => insertSorted pair.1 pair.2 sorted) []

def Ascending {α : Type} (pairs : List (Text × α)) : Prop :=
  (pairs.map Prod.fst).Pairwise (· < ·)

theorem mem_insertSorted {α : Type} {name : Text} {value : α} {pairs : List (Text × α)}
    {pair : Text × α} (member : pair ∈ insertSorted name value pairs) :
    pair = (name, value) ∨ pair ∈ pairs := by
  induction pairs with
  | nil => simpa [insertSorted] using member
  | cons head rest ih =>
    rw [insertSorted] at member
    split at member
    · simpa using member
    · split at member <;> grind

theorem Ascending.insertSorted {α : Type} {name : Text} {value : α} {pairs : List (Text × α)}
    (sorted : Ascending pairs) : Ascending (insertSorted name value pairs) := by
  induction pairs with
  | nil => simp [LiteralSql.insertSorted, Ascending]
  | cons head rest ih =>
    obtain ⟨other, held⟩ := head
    have tail : Ascending rest := List.Pairwise.of_cons sorted
    have above : ∀ pair ∈ rest, other < pair.1 := by
      intro pair member
      exact List.rel_of_pairwise_cons sorted (List.mem_map_of_mem member)
    rw [LiteralSql.insertSorted]
    split
    · rename_i before
      refine List.Pairwise.cons ?_ sorted
      intro key member
      simp only [List.map_cons, List.mem_cons, List.mem_map] at member
      rcases member with rfl | ⟨pair, found, rfl⟩
      · exact before
      · exact List.lt_trans before (above pair found)
    · split
      · rename_i same
        subst same
        refine List.Pairwise.cons ?_ tail
        intro key member
        obtain ⟨pair, found, rfl⟩ := List.mem_map.1 member
        exact above pair found
      · rename_i notBefore different
        have after : other < name :=
          Std.lt_of_le_of_ne (Std.not_lt.1 notBefore) (Ne.symm different)
        refine List.Pairwise.cons ?_ (ih tail)
        intro key member
        obtain ⟨pair, found, rfl⟩ := List.mem_map.1 member
        rcases mem_insertSorted found with rfl | older
        · exact after
        · exact above pair older

theorem ascending_sortPairs {α : Type} (pairs : List (Text × α)) : Ascending (sortPairs pairs) := by
  suffices general : ∀ (rest : List (Text × α)) (sorted : List (Text × α)), Ascending sorted →
      Ascending (rest.foldl (fun sorted pair => insertSorted pair.1 pair.2 sorted) sorted) from
    general pairs [] List.Pairwise.nil
  intro rest
  induction rest with
  | nil => exact fun _ sorted => sorted
  | cons pair rest ih => exact fun _ sorted => ih _ sorted.insertSorted

structure Dictionary (α : Type) where
  entries : List (Text × α)
  ascending : Ascending entries

namespace Dictionary

variable {α : Type}

def empty : Dictionary α := ⟨[], List.Pairwise.nil⟩

instance : Inhabited (Dictionary α) := ⟨empty⟩

/-- Of two bindings of one name the later one stays. -/
def ofList (pairs : List (Text × α)) : Dictionary α := ⟨sortPairs pairs, ascending_sortPairs pairs⟩

def insert (dictionary : Dictionary α) (name : Text) (value : α) : Dictionary α :=
  ⟨insertSorted name value dictionary.entries, dictionary.ascending.insertSorted⟩

def get? (dictionary : Dictionary α) (name : Text) : Option α := dictionary.entries.lookup name

def keys (dictionary : Dictionary α) : List Text := dictionary.entries.map Prod.fst

end Dictionary

end LiteralSql
