import TabCompletion.Text.Case

/-!
Tables keyed by text that keep their entries in the order of first insertion. A present key keeps
its place when its value is replaced.
-/

namespace TabCompletion

/-- A table keyed by text, oldest entry first. -/
abbrev Assoc (α : Type) := List (Text × α)

namespace Assoc

variable {α : Type}

def get? (table : Assoc α) (key : Text) : Option α := List.lookup key table

def has (table : Assoc α) (key : Text) : Bool := (get? table key).isSome

/-- Replaces the value of a present key in place, and appends an absent one. -/
def set (table : Assoc α) (key : Text) (value : α) : Assoc α :=
  match table with
  | [] => [(key, value)]
  | (other, old) :: rest =>
      if other == key then (other, value) :: rest else (other, old) :: set rest key value

def ofList (entries : List (Text × α)) : Assoc α :=
  entries.foldl (fun table (key, value) => set table key value) []

def values (table : Assoc α) : List α := table.map (·.2)

end Assoc

def dedupeBy (key : α → Text) (items : List α) : List α :=
  let step := fun (state : List Text × List α) item =>
    let k := key item
    if state.1.contains k then state else (k :: state.1, item :: state.2)
  (items.foldl step ([], [])).2.reverse

end TabCompletion
