import TabCompletion.Syntax.Node

/-!
Which expressions can be evaluated without side effects: literals, variables, type literals, member
and index access, operators over those and collection literals. A script block may be mentioned,
since it is never run.
-/

namespace TabCompletion.Evaluation

def changesOperand (operator : Text) : Bool :=
  operator == Text.ofString "++" || operator == Text.ofString "--"
    || operator == Text.ofString "PostfixPlusPlus" || operator == Text.ofString "PostfixMinusMinus"

mutual

def isSafe : Node → Bool
  | .mk _ _ form =>
      match form with
      | .constant _ | .stringConstant _ _ | .variable _ _ | .typeExpression _
      | .scriptBlockExpression _ => true
      | .expandableString _ _ nested => allSafe nested
      | .member target name _ => isSafe target && isSafe name
      | .index target position => isSafe target && isSafe position
      | .unary operator child => !changesOperand operator && isSafe child
      | .binary _ left right _ => isSafe left && isSafe right
      | .convert _ child => isSafe child
      | .arrayLiteral elements => allSafe elements
      | .arrayExpression body | .subExpression body => isSafe body
      | .statementBlock statements => allSafe statements
      | .hashtable pairs => allPairsSafe pairs
      | .paren inner => isSafe inner
      | .pipeline [element] => isSafe element
      | .commandExpression expression [] => isSafe expression
      | _ => false

def allSafe : List Node → Bool
  | [] => true
  | node :: rest => isSafe node && allSafe rest

def allPairsSafe : List (Node × Node) → Bool
  | [] => true
  | (key, value) :: rest => isSafe key && isSafe value && allPairsSafe rest

end

end TabCompletion.Evaluation
