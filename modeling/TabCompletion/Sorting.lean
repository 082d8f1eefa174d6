import TabCompletion.Text.Case

/-!
Sorting. `stableSort` orders by a text key; `insertionSort` fixes a result also for comparisons
under which some elements are incomparable: it takes the leading run as it is and then inserts
each further element by binary search, after its equals.
-/

namespace TabCompletion

def stableSort (key : α → Text) (items : List α) : List α :=
  items.mergeSort fun a b => Text.compare (key a) (key b) != .gt

def sortIgnoringCase (key : α → Text) (items : List α) : List α :=
  (stableSort Prod.fst (items.map fun item => (Text.lower (key item), item))).map Prod.snd

def runLength (less : α → α → Bool) (descending : Bool) (previous : α) : List α → Nat
  | [] => 0
  | current :: rest =>
      if less current previous == descending then runLength less descending current rest + 1 else 0

def searchPlace (less : α → α → Bool) (pivot : α) (sorted : Array α) : Nat → Nat → Nat → Nat
  | 0, left, _ => left
  | fuel + 1, left, right =>
      if left < right then
        let middle := left + (right - left) / 2
        match sorted[middle]? with
        | some other =>
            if less pivot other then searchPlace less pivot sorted fuel left middle
            else searchPlace less pivot sorted fuel (middle + 1) right
        | none => left
      else left

def insertAll (less : α → α → Bool) (sorted : Array α) : List α → Array α
  | [] => sorted
  | pivot :: rest =>
      let place := searchPlace less pivot sorted (sorted.size + 1) 0 sorted.size
      insertAll less (sorted.toList.take place ++ pivot :: sorted.toList.drop place).toArray rest

/-- Insertion sort after the leading run; a strictly descending run is turned round first. -/
def insertionSort (less : α → α → Bool) (items : List α) : List α :=
  match items with
  | first :: second :: rest =>
      let descending := less second first
      let length := runLength less descending second rest + 2
      let run := if descending then (items.take length).reverse else items.take length
      (insertAll less run.toArray (items.drop length)).toList
  | _ => items

end TabCompletion
