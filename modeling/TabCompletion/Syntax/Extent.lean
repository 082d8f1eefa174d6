import TabCompletion.Text.Case

/-!
Extents and tokens of a script. Offsets count units from the start of the script; the end of an
extent is exclusive.
-/

namespace TabCompletion

structure Extent where
  start : Nat
  stop : Nat
  text : Text
  deriving DecidableEq

namespace Extent

def ofSource (source : Text) (start stop : Nat) : Extent := ⟨start, stop, Text.between source start stop⟩

def touches (e : Extent) (cursor : Int) : Bool := (e.start : Int) < cursor && cursor ≤ e.stop

def endsBefore (e : Extent) (cursor : Int) : Bool := (e.stop : Int) < cursor

end Extent

inductive TokenKind where
  | variable | splattedVariable | parameter | number | identifier | generic
  | stringLiteral | stringExpandable | hereStringLiteral | hereStringExpandable
  | comment | dot | colonColon | comma | lBracket | rBracket | lParen | rParen | lCurly | rCurly
  | atCurly | atParen | dollarParen | semi | pipe | ampersand | minus | equals | multiply
  | redirection | keyword | operator | lineContinuation | newLine | endOfInput | unknown
  deriving DecidableEq

def TokenKind.names : List (TokenKind × String) := [
  (.variable, "Variable"), (.splattedVariable, "SplattedVariable"), (.parameter, "Parameter"),
  (.number, "Number"), (.identifier, "Identifier"), (.generic, "Generic"),
  (.stringLiteral, "StringLiteral"), (.stringExpandable, "StringExpandable"),
  (.hereStringLiteral, "HereStringLiteral"), (.hereStringExpandable, "HereStringExpandable"),
  (.comment, "Comment"), (.dot, "Dot"), (.colonColon, "ColonColon"), (.comma, "Comma"),
  (.lBracket, "LBracket"), (.rBracket, "RBracket"), (.lParen, "LParen"), (.rParen, "RParen"),
  (.lCurly, "LCurly"), (.rCurly, "RCurly"), (.atCurly, "AtCurly"), (.atParen, "AtParen"),
  (.dollarParen, "DollarParen"), (.semi, "Semi"), (.pipe, "Pipe"), (.ampersand, "Ampersand"),
  (.minus, "Minus"), (.equals, "Equals"), (.multiply, "Multiply"), (.redirection, "Redirection"),
  (.keyword, "Keyword"), (.operator, "Operator"), (.lineContinuation, "LineContinuation"),
  (.newLine, "NewLine"), (.endOfInput, "EndOfInput"), (.unknown, "Unknown")]

def TokenKind.ofText? (name : Text) : Option TokenKind :=
  (TokenKind.names.find? fun entry => Text.ofString entry.2 == name).map (·.1)

inductive TokenFlag where
  | keyword | binaryOperator | unaryOperator | commandName | typeName | memberName | attributeName
  deriving DecidableEq

def TokenFlag.names : List (TokenFlag × String) := [
  (.keyword, "Keyword"), (.binaryOperator, "BinaryOperator"), (.unaryOperator, "UnaryOperator"),
  (.commandName, "CommandName"), (.typeName, "TypeName"), (.memberName, "MemberName"),
  (.attributeName, "AttributeName")]

def TokenFlag.ofText? (name : Text) : Option TokenFlag :=
  (TokenFlag.names.find? fun entry => Text.ofString entry.2 == name).map (·.1)

structure Token where
  kind : TokenKind
  text : Text
  extent : Extent
  flags : List TokenFlag := []
  /-- The path of a variable, without its sigil. -/
  variablePath : Option Text := none

namespace Token

def hasFlag (t : Token) (flag : TokenFlag) : Bool := t.flags.contains flag

def isInteresting (t : Token) : Bool := t.kind != .newLine && t.kind != .endOfInput

end Token

end TabCompletion
