import TabCompletion.Binding.Basic

/-!
A binder over a table of declared commands. Named arguments bind by name, alias or the start of
one name; the other expressions bind by declared position.
-/

namespace TabCompletion

structure BindingOverrides where
  succeeded : Option Bool := none
  validSets : Option (List Text) := none
  /-- A default set, or that there is none. -/
  defaultSet : Option (Option Text) := none
  hidesCommand : Bool := false

structure CommandTable where
  commands : List CommandInfo
  overrides : BindingOverrides := {}

namespace CommandTable

def isSwitch (p : Parameter) : Bool :=
  let lowered := Text.lower p.typeName
  ["switch", "switchparameter", "system.management.automation.switchparameter"].any
    fun (name : String) => Text.ofString name == lowered

structure Progress where
  arguments : List Argument := []
  bound : Assoc Argument := []
  parameters : Assoc Parameter := []

def Progress.bindTo (b : Progress) (p : Parameter) (argument : Argument) : Progress :=
  { b with bound := Assoc.set b.bound p.name argument, parameters := Assoc.set b.parameters p.name p }

def Progress.add (b : Progress) (form : ArgumentForm) (p : Option Parameter) : Progress :=
  let argument : Argument := { slot := b.arguments.length, form }
  let b := { b with arguments := b.arguments ++ [argument] }
  match p with
  | some p => b.bindTo p argument
  | none => b

def readElements (declared : List Parameter) : Progress → List Node → Progress
  | b, [] => b
  | b, element :: rest =>
      match element.parameterParts? with
      | none => readElements declared (b.add (.value none false (some element)) none) rest
      | some (name, attached) =>
          let p := resolveParameter? declared name
          match attached with
          | some argument =>
              readElements declared (b.add (.value (some element) true (some argument)) p) rest
          | none =>
              if p.any isSwitch then readElements declared (b.add (.switch element true) p) rest
              else match rest with
                | next :: more =>
                    if next.isExpression then
                      readElements declared (b.add (.value (some element) true (some next)) p) more
                    else readElements declared (b.add (.pending element) p) (next :: more)
                | [] => b.add (.pending element) p

def positionals (arguments : List Argument) : List Argument :=
  arguments.filter fun argument =>
    match argument.form with
    | .value _ specified _ => !specified
    | _ => false

def bindPositionals (declared : List Parameter) : Nat → Progress → List Argument → Progress
  | _, b, [] => b
  | index, b, argument :: rest =>
      let free := declared.find? fun p =>
        !Assoc.has b.parameters p.name && p.sets.any fun set => set.position == some (index : Int)
      let b := match free with
        | some p => b.bindTo p argument
        | none => b
      bindPositionals declared (index + 1) b rest

def bindTo (table : CommandTable) (info : CommandInfo) (command : Node) : Binding :=
  let read := readElements info.parameters {} (command.commandElements.drop 1)
  let done := bindPositionals info.parameters 0 read (positionals read.arguments)
  { succeeded := table.overrides.succeeded.getD true
    commandName := info.name
    command := if table.overrides.hidesCommand then none else some info
    arguments := done.arguments
    boundArguments := done.bound
    boundParameters := done.parameters
    unbound := info.parameters.filter fun p => !Assoc.has done.parameters p.name
    validSets := table.overrides.validSets.getD []
    defaultSet := table.overrides.defaultSet.getD info.defaultSet }

def toBinder (table : CommandTable) : Binder := fun command =>
  match command.commandName? with
  | none => none
  | some name =>
      if name.isEmpty then none
      else (table.commands.find? fun info => Text.lower info.name == Text.lower name).map
        (table.bindTo · command)

end CommandTable

end TabCompletion
