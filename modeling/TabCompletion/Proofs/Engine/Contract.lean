import TabCompletion.Paths.Memory
import TabCompletion.Proofs.Engine.Beside
import TabCompletion.Proofs.Types.Elements

/-!
A broken contract is never kept back, and where no pattern is refused nothing else ends a call. The
session keeps its contract on every query but the last; if it breaks it there, the call ends with
that complaint.
-/

namespace TabCompletion.Engine

/-- The session kept its contract on every query added to those of `base`. -/
def Answered (session : Option Session) (base : List Query) : List Query → Prop :=
  Added (fun q => complaint? session q = none) base

/-- Either a pattern was refused after queries that were answered, or the session broke its contract
on one more query and the failure is its complaint. -/
def Broken (session : Option Session) (base : List Query) (failure : Failure)
    (queries : List Query) : Prop :=
  Refused failure ∧ Answered session base queries ∨
    ∃ earlier q collaborator message, Answered session base earlier ∧ queries = earlier ++ [q] ∧
      complaint? session q = some (collaborator, message) ∧
      failure = .contract collaborator message

end TabCompletion.Engine
