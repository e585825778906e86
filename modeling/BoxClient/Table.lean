/-!
Tables: finite maps from names to values, kept as lists in strictly increasing order of the names.
Names compare by code points, which is also the order of their UTF-8 bytes. `insert` keeps the order
and replaces, so a table built from any list of pairs has each name once, with its last value.
-/
namespace BoxClient

abbrev Table (α : Type) := List (String × α)

namespace Table

variable {α β : Type}

def find? (t : Table α) (name : String) : Option α := List.lookup name t

def contains (t : Table α) (name : String) : Bool := (t.find? name).isSome

def insert (name : String) (a : α) : Table α → Table α
  | [] => [(name, a)]
  | (name', a') :: t =>
    if name < name' then (name, a) :: (name', a') :: t
    else if name = name' then (name, a) :: t
    else (name', a') :: insert name a t

def erase (t : Table α) (name : String) : Table α := t.filter (·.1 ≠ name)

/-- Pairs later in the list win. -/
def insertAll (t : Table α) (pairs : List (String × α)) : Table α :=
  pairs.foldl (fun t p => t.insert p.1 p.2) t

def ofList (pairs : List (String × α)) : Table α := insertAll [] pairs

def names (t : Table α) : List String := t.map (·.1)

def mapValues (f : α → β) (t : Table α) : Table β := t.map fun p => (p.1, f p.2)

/-- The names increase strictly from entry to entry. -/
def Sorted (t : Table α) : Prop := List.Pairwise (fun p q => p.1 < q.1) t

@[simp] theorem find?_nil (name : String) : find? ([] : Table α) name = none := rfl

@[simp] theorem names_mapValues (f : α → β) (t : Table α) : (t.mapValues f).names = t.names := by
  simp [mapValues, names]

end Table
end BoxClient
