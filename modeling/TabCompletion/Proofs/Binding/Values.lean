import TabCompletion.Binding.Location
import TabCompletion.Binding.Table
import TabCompletion.Proofs.Syntax.Words

/-!
What a written parameter still takes. Behind a token an argument goes to a parameter only while the
value of that parameter is not written, with one exception: a colon at the end of a parameter is read
as a sign that its value is missing, also where the value is there.
-/

namespace TabCompletion

namespace ArgumentForm

/-- The parameter that names an argument. -/
def name? : ArgumentForm → Option Node
  | .value (some parameter) true _ => some parameter
  | .value _ _ _ => none
  | .switch parameter _ | .pending parameter => some parameter

/-- No value is written up to a place: it is waited for, or it starts behind the place. A switch
takes a value behind a colon only. -/
def Lacks (place : Nat) : ArgumentForm → Prop
  | .pending _ => True
  | .switch parameter _ => Text.endsWith parameter.text ":" = true
  | .value _ _ argument => ∀ written ∈ argument, place < written.start

/-- The parameter ends in a colon although its value is written up to the place. -/
def Misleads (place : Nat) : ArgumentForm → Prop
  | .value (some parameter) true (some written) =>
      written.start ≤ place ∧ Text.endsWith parameter.text ":" = true
  | _ => False

instance decidableLacks (place : Nat) : (form : ArgumentForm) → Decidable (form.Lacks place)
  | .pending _ => inferInstanceAs (Decidable True)
  | .switch _ _ => inferInstanceAs (Decidable (_ = true))
  | .value _ _ argument => inferInstanceAs (Decidable (∀ written ∈ argument, place < written.start))

instance decidableMisleads (place : Nat) : (form : ArgumentForm) → Decidable (form.Misleads place)
  | .value (some _) true (some _) => inferInstanceAs (Decidable (_ ∧ _))
  | .value none _ _ | .value (some _) false _ | .value (some _) true none
  | .switch _ _ | .pending _ => inferInstanceAs (Decidable False)

/-- Without a written parameter an argument has no name. -/
theorem name?_value {parameter : Option Node} {specified : Bool} {value : Option Node}
    (notNamed : ∀ p, parameter = some p → specified = true → False) :
    (ArgumentForm.value parameter specified value).name? = none := by
  cases parameter with
  | none => rfl
  | some p =>
      cases specified with
      | false => rfl
      | true => exact (notNamed p rfl rfl).elim

theorem lacks_of_colon {place : Nat} {parameter : Node} {value : Option Node}
    (colon : Text.endsWith parameter.text ":" = true)
    (settled : ¬(ArgumentForm.value (some parameter) true value).Misleads place) :
    (ArgumentForm.value (some parameter) true value).Lacks place := by
  intro written isValue
  subst isValue
  by_cases later : place < written.start
  · exact later
  · exact absurd ⟨Nat.le_of_not_lt later, colon⟩ settled

end ArgumentForm

namespace ArgumentLocation

variable {previous : Option Argument} {index place : Nat} {argument : Argument}

/-- Behind an argument only that argument can be named. -/
theorem after_named (settled : ¬argument.form.Misleads place)
    (located : after previous index = .named argument) :
    previous = some argument ∧ argument.form.name?.isSome ∧ argument.form.Lacks place := by
  cases previous with
  | none => cases located
  | some last =>
      simp only [after] at located
      split at located
      · rename_i parameter value form
        split at located
        · rename_i colon
          obtain rfl := named.inj located
          rw [form] at settled ⊢
          exact ⟨rfl, rfl, ArgumentForm.lacks_of_colon colon settled⟩
        · cases located
      · rename_i parameter value form
        split at located
        · rename_i colon
          obtain rfl := named.inj located
          rw [form]
          exact ⟨rfl, rfl, colon⟩
        · cases located
      · cases located
      · rename_i parameter form
        obtain rfl := named.inj located
        rw [form]
        exact ⟨rfl, rfl, trivial⟩

/-- The parameter of a named argument starts up to a place. -/
def IsBegun (place : Nat) (argument : Argument) : Prop :=
  ∃ parameter, argument.form.name? = some parameter ∧ parameter.start ≤ place

theorem begun_of_form {parameter : Node} (isName : argument.form.name? = some parameter)
    (notLater : ¬place < parameter.start) : IsBegun place argument :=
  ⟨parameter, isName, Nat.le_of_not_lt notLater⟩

/-- What the walk does at an argument: it stops before it, it gives it what comes next, or it passes
it. A named argument is reached only when its parameter starts up to the token. -/
theorem byTokenFrom_cons (place : Nat) (previous : Option Argument) (index : Nat) (first : Argument)
    (rest : List Argument) :
    byTokenFrom place previous index (first :: rest) = after previous index ∨
    (byTokenFrom place previous index (first :: rest) = .named first ∧ IsBegun place first ∧
      first.form.Lacks place) ∨
    ∃ next, byTokenFrom place previous index (first :: rest) =
        byTokenFrom place (some first) next rest ∧
      (first.form.name?.isSome → IsBegun place first) := by
  simp only [byTokenFrom]
  split
  · rename_i parameter value form
    split
    · exact Or.inl rfl
    · rename_i notLater
      have begun := begun_of_form (by rw [form]; rfl) notLater
      split
      · rename_i waits
        have lacks : first.form.Lacks place := by
          rw [form]
          intro written isValue
          have later := (Bool.and_eq_true_iff.mp waits).2
          rw [Option.mem_def.mp isValue] at later
          exact of_decide_eq_true later
        exact Or.inr (Or.inl ⟨rfl, begun, lacks⟩)
      · exact Or.inr (Or.inr ⟨index, rfl, fun _ => begun⟩)
  · rename_i parameter specified value notNamed form
    split
    · exact Or.inl rfl
    · have noName : first.form.name? = none := by
        rw [form]
        exact ArgumentForm.name?_value notNamed
      exact Or.inr (Or.inr ⟨index + 1, rfl, fun isNamed => by rw [noName] at isNamed; cases isNamed⟩)
  · rename_i parameter value form
    split
    · exact Or.inl rfl
    · rename_i notLater
      have begun := begun_of_form (by rw [form]; rfl) notLater
      exact Or.inr (Or.inr ⟨index, rfl, fun _ => begun⟩)
  · rename_i parameter form
    split
    · exact Or.inl rfl
    · rename_i notLater
      have begun := begun_of_form (by rw [form]; rfl) notLater
      exact Or.inr (Or.inr ⟨index, rfl, fun _ => begun⟩)

/-- The walk names the argument that it passed last or one that it was given. -/
theorem byTokenFrom_named {arguments : List Argument}
    (passed : ∀ last ∈ previous, last.form.name?.isSome → IsBegun place last)
    (settled : ¬argument.form.Misleads place)
    (located : byTokenFrom place previous index arguments = .named argument) :
    (previous = some argument ∨ argument ∈ arguments) ∧ IsBegun place argument ∧
      argument.form.Lacks place := by
  induction arguments generalizing previous index with
  | nil =>
      obtain ⟨isLast, isNamed, lacks⟩ := after_named settled located
      exact ⟨Or.inl isLast, passed argument isLast isNamed, lacks⟩
  | cons first rest ih =>
      rcases byTokenFrom_cons place previous index first rest with
        stops | ⟨names, begun, lacks⟩ | ⟨next, goesOn, begun⟩
      · obtain ⟨isLast, isNamed, lacks⟩ := after_named settled (stops.symm.trans located)
        exact ⟨Or.inl isLast, passed argument isLast isNamed, lacks⟩
      · obtain rfl := named.inj (names.symm.trans located)
        exact ⟨Or.inr List.mem_cons_self, begun, lacks⟩
      · obtain ⟨found, holds⟩ := ih (by simpa using begun) (goesOn.symm.trans located)
        rcases found with isFirst | later
        · exact ⟨Or.inr (Option.some.inj isFirst ▸ List.mem_cons_self), holds⟩
        · exact ⟨Or.inr (List.mem_cons_of_mem _ later), holds⟩

/-- A parameter is given an argument only while its value is not written. For every list of arguments
and every token: the argument that is named behind the token is one of the list, its parameter starts
up to the token, and its value is not written there. The exception is a parameter that ends in a colon
although its value is written. -/
theorem named_argument_lacks_value (arguments : List Argument) (token : Token) (argument : Argument)
    (settled : ¬argument.form.Misleads token.extent.start)
    (located : byToken arguments token = .named argument) :
    argument ∈ arguments ∧ IsBegun token.extent.start argument ∧
      argument.form.Lacks token.extent.start := by
  have nothingPassed : ∀ last ∈ (none : Option Argument), last.form.name?.isSome →
      IsBegun token.extent.start last := nofun
  obtain ⟨found, holds⟩ := byTokenFrom_named nothingPassed settled located
  rcases found with isPrevious | listed
  · cases isPrevious
  · exact ⟨listed, holds⟩

/-! Parameters that end in a colon. -/

/-- A command with a parameter that takes a value. -/
def findTable : CommandTable :=
  { commands := [{ name := "Find", parameters := [{ name := "In", typeName := "string", sets := [] }] }] }

/-- The arguments on a command line. -/
def argumentsOn (line : Text) : List Argument :=
  (((CommandLine.commandOf? line).bind findTable.toBinder).map (·.arguments)).getD []

/-- The argument that takes what is typed behind a word of a line. -/
def namedBehind? (line : Text) (index : Nat) : Option (Token × Argument) :=
  (CommandLine.parse line).tokens[index]?.bind fun token =>
    match byToken (argumentsOn line) token with
    | .named argument => some (token, argument)
    | .positional _ _ => none

theorem namedBehind?_eq {line : Text} {index : Nat} {token : Token} {argument : Argument}
    (found : namedBehind? line index = some (token, argument)) :
    (CommandLine.parse line).tokens[index]? = some token ∧
      byToken (argumentsOn line) token = .named argument := by
  obtain ⟨token', isToken, isNamed⟩ := Option.bind_eq_some_iff.mp found
  split at isNamed
  · rename_i argument' located
    cases isNamed
    exact ⟨isToken, located⟩
  · cases isNamed

/-- Behind the colon the value is still to come. -/
theorem colon_waits_for_value : ∃ token argument,
    (CommandLine.parse "Find -In: a").tokens[1]? = some token ∧
      byToken (argumentsOn "Find -In: a") token = .named argument ∧
      argument ∈ argumentsOn "Find -In: a" ∧ IsBegun token.extent.start argument ∧
      argument.form.Lacks token.extent.start := by
  have known : (namedBehind? "Find -In: a" 1).any (fun (token, argument) =>
      !decide (argument.form.Misleads token.extent.start)) = true := by decide +kernel
  obtain ⟨⟨token, argument⟩, found, settled⟩ := (Option.any_eq_true ..).mp known
  obtain ⟨isToken, located⟩ := namedBehind?_eq found
  exact ⟨token, argument, isToken, located,
    named_argument_lacks_value _ token argument (by simpa using settled) located⟩

/-- Behind the value the parameter is given another one. -/
theorem colon_takes_second_value : ∃ token argument,
    (CommandLine.parse "Find -In: a ").tokens[2]? = some token ∧
      byToken (argumentsOn "Find -In: a ") token = .named argument ∧
      ¬argument.form.Lacks token.extent.start := by
  have known : (namedBehind? "Find -In: a " 2).any (fun (token, argument) =>
      !decide (argument.form.Lacks token.extent.start)) = true := by decide +kernel
  obtain ⟨⟨token, argument⟩, found, written⟩ := (Option.any_eq_true ..).mp known
  obtain ⟨isToken, located⟩ := namedBehind?_eq found
  exact ⟨token, argument, isToken, located, by simpa using written⟩

end ArgumentLocation

end TabCompletion
