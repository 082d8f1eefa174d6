import TabCompletion.Wildcard.Pattern

/-!
Failures and their texts. Only a broken contract and a refused pattern leave a completion request;
every other failure of a collaborator means fewer suggestions.
-/

namespace TabCompletion

inductive Failure where
  /-- A collaborator broke its contract. -/
  | contract (collaborator message : Text)
  /-- A wildcard pattern was refused. -/
  | pattern (error : Wildcard.PatternError)
  /-- Element types lead on without end. -/
  | endlessElements

def Failure.name : Failure → Text
  | .contract _ _ => "CompletionContractError"
  | .pattern .tooLong => "TypeError"
  | .pattern .uncompilable => "SyntaxError"
  | .endlessElements => "RangeError"

def Failure.message? : Failure → Option Text
  | .contract collaborator message => some (collaborator ++ ": " ++ message)
  | .pattern .tooLong => some "pattern is too long"
  | _ => none

def compilePattern (source : Text) : Except Failure Wildcard.Pattern :=
  match Wildcard.Pattern.compile source with
  | .ok pattern => .ok pattern
  | .error error => .error (.pattern error)

/-! Texts of the failures that are only logged. -/

def sessionUnavailableText : Text := "No live session is available for completion"

def evaluationText (kind reason : Text) : Text := "Cannot evaluate " ++ kind ++ ": " ++ reason

def queryFailedText (command cause : Text) : Text := "Helper command '" ++ command ++ "' failed: " ++ cause

end TabCompletion
