import TabCompletion.Text.Case

/-!
Quotes of the shell. Typographic quotes count as quotes; a quote is doubled inside single quotes
and escaped with a backtick inside double quotes.
-/

namespace TabCompletion.Quoting

inductive Quote where
  | none
  | single
  | double
  deriving DecidableEq, Repr

def Quote.text : Quote → Text
  | .none => []
  | .single => "'"
  | .double => "\""

def isSingleQuote (u : CodeUnit) : Bool :=
  u == '\x27' || u == 0x2018 || u == 0x2019 || u == 0x201A || u == 0x201B

def isDoubleQuote (u : CodeUnit) : Bool :=
  u == '"' || u == 0x201C || u == 0x201D || u == 0x201E

def opening (t : Text) : Quote :=
  match t with
  | [] => .none
  | u :: _ => if isSingleQuote u then .single else if isDoubleQuote u then .double else .none

def Quote.holds (q : Quote) (u : CodeUnit) : Bool :=
  match q with
  | .none => false
  | .single => isSingleQuote u
  | .double => isDoubleQuote u

def strip (t : Text) : Quote × Text :=
  match opening t with
  | .none => (.none, t)
  | quote =>
      let inner := t.drop 1
      match inner.getLast? with
      | some u => (quote, if quote.holds u then inner.dropLast else inner)
      | none => (quote, inner)

def isSpecial (u : CodeUnit) : Bool :=
  Text.isSpace u || u == '\x60' || u == '$' || u == '\x27' || u == '"' || u == '(' || u == ')'
    || u == 0x7B || u == 0x7D || u == ';' || u == ',' || u == '|' || u == '&' || u == '@'
    || u == '#' || u == '<' || u == '>' || (0x2018 ≤ u && u ≤ 0x201E)

def isBracket (u : CodeUnit) : Bool := u == '[' || u == ']'

/-- Whether a text cannot be written bare in argument position. Brackets do not count when they
are going to be escaped. -/
def needed (t : Text) (bracketsEscaped : Bool := false) : Bool :=
  t.isEmpty || t.any isSpecial || (!bracketsEscaped && t.any isBracket)

def isIdentifier (t : Text) : Bool :=
  !t.isEmpty && (Text.points t).all fun p =>
    p == 0x5F || Text.Category.holds Text.Category.letter p || Text.Category.holds Text.Category.number p

def escapeSingle (t : Text) : Text := t.flatMap fun (u : CodeUnit) => if isSingleQuote u then [u, u] else [u]

def escapeDouble (t : Text) : Text :=
  t.flatMap fun (u : CodeUnit) => if u == '\x60' || u == '$' || isDoubleQuote u then ['\x60', u] else [u]

def Quote.wrap (q : Quote) (t : Text) : Text :=
  match q with
  | .none => t
  | .single => "'" ++ escapeSingle t ++ "'"
  | .double => "\"" ++ escapeDouble t ++ "\""

def escapeBrackets (t : Text) : Text := t.flatMap fun (u : CodeUnit) => if isBracket u then ['\x60', u] else [u]

end TabCompletion.Quoting
