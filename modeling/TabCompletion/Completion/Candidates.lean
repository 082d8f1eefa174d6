import TabCompletion.Completion.Result
import TabCompletion.Failure
import TabCompletion.Number.Decimal
import TabCompletion.Quoting

/-!
Completing a word from a list of values. The word may be quoted; a value is written in the quote
that the word opened, or in single quotes when it cannot stand bare.
-/

namespace TabCompletion

structure Candidate where
  value : Text
  toolTip : Option Text := none

inductive ValueOrder where
  | exactFirst
  | numeric
  | asGiven
  deriving DecidableEq

def quoteValue (value : Text) (quote : Quoting.Quote) : Text :=
  match quote with
  | .none => if Quoting.needed value then Quoting.Quote.single.wrap value else value
  | _ => quote.wrap value

def ValueOrder.arrange (order : ValueOrder) (word : Text) (candidates : List Candidate) : List Candidate :=
  match order with
  | .exactFirst => sortExactFirst word (·.value) candidates
  | .numeric => insertionSort (fun a b => (Number.ofText a.value).lt (Number.ofText b.value)) candidates
  | .asGiven => candidates

def completeValues (candidates : List Candidate) (word : Text) (order : ValueOrder := .exactFirst) :
    Except Failure (List Result) := do
  let (quote, value) := Quoting.strip word
  let pattern ← compilePattern (value ++ "*")
  let found := order.arrange value (candidates.filter fun c => pattern.test c.value)
  return Result.dedupe (found.map fun c =>
    Result.of (quoteValue c.value quote) .parameterValue c.value (c.toolTip.getD c.value))

end TabCompletion
