import TabCompletion.Binding.Completer
import TabCompletion.Binding.Elements

/-!
Binding: which parameter of a command each written argument belongs to.
-/

namespace TabCompletion

structure ParameterSet where
  name : Text
  position : Option Int := none
  takesRemaining : Bool := false

def allParameterSets : Text := "__AllParameterSets"

structure Parameter where
  name : Text
  typeName : Text
  isArray : Bool := false
  aliases : List Text := []
  sets : List ParameterSet
  validValues : Option (List Text) := none
  completer : Option ArgumentCompleter := none
  isCommon : Option Bool := none

inductive CommandKind where
  | shortcut | function | filter | cmdlet | configuration | externalScript | application
  deriving DecidableEq

def CommandKind.names : List (CommandKind × String) := [
  (.shortcut, "Alias"), (.function, "Function"), (.filter, "Filter"), (.cmdlet, "Cmdlet"),
  (.configuration, "Configuration"), (.externalScript, "ExternalScript"), (.application, "Application")]

def CommandKind.ofText? (name : Text) : Option CommandKind :=
  (CommandKind.names.find? fun entry => Text.ofString entry.2 == name).map (·.1)

structure CommandInfo where
  name : Text
  kind : CommandKind := .cmdlet
  parameters : List Parameter := []
  outputTypes : List Text := []
  defaultSet : Option Text := none

inductive ArgumentForm where
  /-- A value, with its parameter when that is written. -/
  | value (parameter : Option Node) (specified : Bool) (argument : Option Node)
  /-- A switch without a value. -/
  | switch (parameter : Node) (value : Bool)
  /-- A parameter whose value is still to be written. -/
  | pending (parameter : Node)

/-- An argument of a command; `slot` is its place among all of them and tells it from the others. -/
structure Argument where
  slot : Nat
  form : ArgumentForm

def Argument.parameter? (a : Argument) : Option Node :=
  match a.form with
  | .value parameter _ _ => parameter
  | .switch parameter _ | .pending parameter => some parameter

structure Binding where
  succeeded : Bool := true
  commandName : Text
  command : Option CommandInfo
  /-- Every argument in source order. -/
  arguments : List Argument
  /-- Arguments by declared parameter name. -/
  boundArguments : Assoc Argument
  boundParameters : Assoc Parameter
  unbound : List Parameter
  validSets : List Text := []
  defaultSet : Option Text := none

abbrev Binder := Node → Option Binding

def Parameter.isNamed (p : Parameter) (name : Text) : Bool :=
  let lowered := Text.lower name
  Text.lower p.name == lowered || p.aliases.any fun other => Text.lower other == lowered

def findParameter? (parameters : List Parameter) (name : Text) : Option Parameter :=
  parameters.find? (·.isNamed name)

/-- The parameter of a written name: the name, an alias, or the start of one name only. -/
def resolveParameter? (parameters : List Parameter) (written : Text) : Option Parameter :=
  match findParameter? parameters written with
  | some exact => some exact
  | none =>
      if written.isEmpty then none
      else
        let lowered := Text.lower written
        match parameters.filter fun p => Text.startsWith (Text.lower p.name) lowered with
        | [only] => some only
        | _ => none

end TabCompletion
