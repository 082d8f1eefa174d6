import TabCompletion.Binding.Basic

/-!
Locating the argument at the cursor among the written arguments of a command, and finding the
parameter that a positional argument would bind to.
-/

namespace TabCompletion

inductive ArgumentLocation where
  /-- It is the value of a written parameter. -/
  | named (argument : Argument)
  /-- It is the positional argument with this index, perhaps already written. -/
  | positional (index : Nat) (argument : Option Argument)

def ArgumentLocation.argument? : ArgumentLocation → Option Argument
  | .named argument => some argument
  | .positional _ argument => argument

namespace ArgumentLocation

/-- Where an argument goes that is typed after `previous`. A parameter that ends in a colon takes
the value, a switch does not. -/
def after (previous : Option Argument) (index : Nat) : ArgumentLocation :=
  match previous with
  | none => .positional 0 none
  | some argument =>
      let colonEnds (parameter : Node) : Bool := Text.endsWith parameter.text ":"
      match argument.form with
      | .value (some parameter) true _ | .switch parameter _ =>
          if colonEnds parameter then .named argument else .positional index none
      | .value _ _ _ => .positional index none
      | .pending _ => .named argument

/-- Where an argument goes that follows the token starting at `start`: the walk ends at the first
argument that is written after the token. -/
def byTokenFrom (start : Nat) : Option Argument → Nat → List Argument → ArgumentLocation
  | previous, index, [] => after previous index
  | previous, index, argument :: rest =>
      match argument.form with
      | .value (some parameter) true value =>
          if start < parameter.start then after previous index
          else if ((parameter.parameterParts?.bind (·.2)).isNone) && (value.any (start < ·.start)) then
            .named argument
          else byTokenFrom start (some argument) index rest
      | .value _ _ value =>
          if value.any (start < ·.start) then after previous index
          else byTokenFrom start (some argument) (index + 1) rest
      | .switch parameter _ | .pending parameter =>
          if start < parameter.start then after previous index
          else byTokenFrom start (some argument) index rest

def byToken (arguments : List Argument) (token : Token) : ArgumentLocation :=
  byTokenFrom token.extent.start none 0 arguments

def byNodeFrom (expression : Node) : Nat → List Argument → Option ArgumentLocation
  | _, [] => none
  | index, argument :: rest =>
      match argument.form with
      | .value _ specified (some value) =>
          if value.same expression then
            some (if specified then .named argument else .positional index (some argument))
          else byNodeFrom expression (if specified then index else index + 1) rest
      | _ => byNodeFrom expression index rest

def byNode? (arguments : List Argument) (expression : Node) : Option ArgumentLocation :=
  byNodeFrom expression 0 arguments

end ArgumentLocation

namespace Binding

def boundName? (b : Binding) (argument : Argument) : Option Text :=
  (b.boundArguments.find? fun entry => entry.2.slot == argument.slot).map (·.1)

def isValidSet (validSets : List Text) (set : ParameterSet) : Bool :=
  set.name == allParameterSets || validSets.isEmpty ||
    validSets.any fun name => Text.lower name == Text.lower set.name

/-- The unbound parameter that takes the positional argument with this index: one of the default
set first, then one of any valid set, then one that takes all remaining arguments. -/
def positionalParameter? (b : Binding) (index : Int) : Option Parameter :=
  let declares (test : ParameterSet → Bool) : Option Parameter := b.unbound.find? fun p => p.sets.any test
  let byDefault := match b.defaultSet with
    | some name =>
        let lowered := Text.lower name
        if !name.isEmpty && (b.validSets.isEmpty || b.validSets.any fun n => Text.lower n == lowered) then
          declares fun set => Text.lower set.name == lowered && set.position == some index
        else none
    | none => none
  byDefault.or
    ((declares fun set => isValidSet b.validSets set && set.position == some index).or
      (declares fun set => isValidSet b.validSets set && set.takesRemaining))

end Binding

end TabCompletion
