import TabCompletion.Number.Decimal
import TabCompletion.Text.Case

/-!
Type names as text: namespace and short name, the arity suffix of generic definitions, and the
notation `Name`, `Name[]`, `Name[A,B]`, `Name[A][]`.
-/

namespace TabCompletion.TypeName

def namespaceOf (fullName : Text) : Text :=
  match Text.lastIndexOf? "." fullName with
  | some dot => fullName.take dot
  | none => []

def shortName (fullName : Text) : Text :=
  match Text.lastIndexOf? "." fullName with
  | some dot => fullName.drop (dot + 1)
  | none => fullName

def leadingInt? (t : Text) : Option Int :=
  let t := Text.trimLeft t
  let (negative, t) := match t with
    | u :: rest => if u == '-' then (true, rest) else if u == '+' then (false, rest) else (false, t)
    | [] => (false, t)
  (Number.natInBase? 10 (t.takeWhile Text.isDigit)).map fun n =>
    if negative then -(n : Int) else n

def splitArity (name : Text) : Text × Int :=
  match Text.lastIndexOf? "\x60" name with
  | some tick =>
      match leadingInt? (name.drop (tick + 1)) with
      | some arity => (name.take tick, arity)
      | none => (name, 0)
  | none => (name, 0)

structure Parsed where
  baseName : Text
  arguments : List Text
  isArray : Bool

/-- Splits at the commas that stand outside brackets; `depth` may go below zero. -/
def splitArguments (depth : Int) (current : Text) : Text → List Text
  | [] => [current.reverse]
  | u :: rest =>
      if u == '[' then splitArguments (depth + 1) (u :: current) rest
      else if u == ']' then splitArguments (depth - 1) (u :: current) rest
      else if u == ',' && depth == 0 then current.reverse :: splitArguments depth [] rest
      else splitArguments depth (u :: current) rest

def parse (text : Text) : Parsed :=
  let trimmed := Text.trim text
  let isArray := Text.endsWith trimmed "[]"
  let name := if isArray then trimmed.take (trimmed.length - 2) else trimmed
  match Text.indexOf? "[" name with
  | some opened =>
      if Text.endsWith name "]" then
        let inner := Text.slice name (opened + 1) (name.length - 1)
        { baseName := name.take opened, isArray,
          arguments := ((splitArguments 0 [] inner).map Text.trim).filter (!·.isEmpty) }
      else { baseName := name, arguments := [], isArray }
  | none => { baseName := name, arguments := [], isArray }

def Parsed.element (p : Parsed) : Text :=
  if p.arguments.isEmpty then p.baseName
  else p.baseName ++ "[" ++ Text.join "," p.arguments ++ "]"

def Parsed.definition (p : Parsed) : Text :=
  if p.arguments.isEmpty then p.baseName else p.baseName ++ "\x60" ++ Text.ofNat p.arguments.length

def placeholders (arity : Int) : Text :=
  if arity ≤ 1 then "T"
  else Text.join ", " ((List.range arity.toNat).map fun i => "T" ++ Text.ofNat (i + 1))

end TabCompletion.TypeName
