import TabCompletion.Number.Decimal
import TabCompletion.Syntax.Script

/-!
Reading a command line: one command, a name followed by words that space separates. A word is a
quoted string, a parameter, a variable, a number or a bare word.
-/

namespace TabCompletion

structure Parse where
  tree : Node
  tokens : List Token

namespace CommandLine

def quoteAfter (opened : Option CodeUnit) (u : CodeUnit) : Option CodeUnit :=
  match opened with
  | some quote => if u == quote then none else some quote
  | none => if u == '\x27' || u == '"' then some u else none

/-- The spans of the words of a text. The state is the offset and, inside a word, where the word
starts and which quote is open; space inside quotes belongs to the word. -/
def spans : Nat → Option (Nat × Option CodeUnit) → Text → List (Nat × Nat)
  | _, none, [] => []
  | offset, some (start, _), [] => [(start, offset)]
  | offset, none, u :: rest =>
      if Text.isSpace u then spans (offset + 1) none rest
      else spans (offset + 1) (some (offset, quoteAfter none u)) rest
  | offset, some (start, quote), u :: rest =>
      if quote.isNone && Text.isSpace u then (start, offset) :: spans (offset + 1) none rest
      else spans (offset + 1) (some (start, quoteAfter quote u)) rest

def unquote (word : Text) : Text :=
  let body := word.drop 1
  if Text.endsWith body (word.take 1) then body.dropLast else body

def element (extent : Extent) (isCommandName : Bool) : Form × Token :=
  let word := extent.text
  let token (kind : TokenKind) : Token := { kind, text := word, extent }
  let singleQuoted := Text.startsWith word "'"
  if singleQuoted || Text.startsWith word "\"" then
    (.stringConstant (unquote word) (if singleQuoted then .singleQuoted else .doubleQuoted),
      token (if singleQuoted then .stringLiteral else .stringExpandable))
  else if !isCommandName && Text.startsWith word "-" && 1 < word.length then
    let name := word.drop 1
    (.commandParameter (if Text.endsWith name ":" then name.dropLast else name) none, token .parameter)
  else if Text.startsWith word "$" && 1 < word.length then
    (.variable (word.drop 1) false, { token .variable with variablePath := some (word.drop 1) })
  else if !isCommandName && !word.isEmpty && word.all Text.isDigit then
    (.constant (.number (Number.ofText word)), token .number)
  else
    (.stringConstant word .bareWord,
      { token .generic with flags := if isCommandName then [.commandName] else [] })

def parse (source : Text) : Parse :=
  let extents := (spans 0 none source).map fun (start, stop) => Extent.ofSource source start stop
  let parts := extents.zipIdx.map fun (extent, i) => (extent, element extent (i == 0))
  let elements := parts.map fun (extent, form, _) => Node.new extent form
  let tokens := parts.map fun (_, _, token) => token
  let statements := match extents, extents.getLast? with
    | first :: _, some last =>
        let whole := Extent.ofSource source first.start last.stop
        [Node.new whole (.pipeline [Node.new whole (.command elements none [])])]
    | _, _ => []
  let stop : Extent := ⟨source.length, source.length, []⟩
  { tree := Node.new (Extent.ofSource source 0 source.length) (.scriptBlock none [] statements)
    tokens := tokens ++ [{ kind := .endOfInput, text := [], extent := stop }] }

end CommandLine

end TabCompletion
