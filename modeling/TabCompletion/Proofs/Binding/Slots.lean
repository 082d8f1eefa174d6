import TabCompletion.Binding.Location
import TabCompletion.Binding.Table
import TabCompletion.Proofs.Syntax.Words

/-!
The slot that an argument fills. Behind a finished word the slot is found from the last token, and
once a word is started it is found from the node of that word. Both scans walk over the written
arguments; the started word itself changes only how the last one of them is written.
-/

namespace TabCompletion

/-! Arguments as they are written. -/

namespace CommandTable

/-- The forms of the arguments that some elements make. -/
def forms (declared : List Parameter) : List Node → List ArgumentForm
  | [] => []
  | element :: rest =>
      match element.parameterParts? with
      | none => .value none false (some element) :: forms declared rest
      | some (name, attached) =>
          match attached with
          | some argument => .value (some element) true (some argument) :: forms declared rest
          | none =>
              if (resolveParameter? declared name).any isSwitch then
                .switch element true :: forms declared rest
              else match rest with
                | next :: more =>
                    if next.isExpression then
                      .value (some element) true (some next) :: forms declared more
                    else .pending element :: forms declared (next :: more)
                | [] => [.pending element]

section Forms

variable {declared : List Parameter} {element next : Node} {rest : List Node} {name : Text}

theorem forms_value (noParameter : element.parameterParts? = none) :
    forms declared (element :: rest) =
      .value none false (some element) :: forms declared rest := by
  rw [forms.eq_def]
  simp only [noParameter]

theorem forms_attached {argument : Node}
    (parts : element.parameterParts? = some (name, some argument)) :
    forms declared (element :: rest) =
      .value (some element) true (some argument) :: forms declared rest := by
  rw [forms.eq_def]
  simp only [parts]

theorem forms_switch (parts : element.parameterParts? = some (name, none))
    (isSwitch : (resolveParameter? declared name).any isSwitch) :
    forms declared (element :: rest) = .switch element true :: forms declared rest := by
  rw [forms.eq_def]
  simp only [parts, if_pos isSwitch]

theorem forms_named (parts : element.parameterParts? = some (name, none))
    (noSwitch : ¬(resolveParameter? declared name).any isSwitch)
    (isExpression : next.isExpression) :
    forms declared (element :: next :: rest) =
      .value (some element) true (some next) :: forms declared rest := by
  rw [forms.eq_def]
  simp only [parts, if_neg noSwitch, if_pos isExpression]

theorem forms_pending (parts : element.parameterParts? = some (name, none))
    (noSwitch : ¬(resolveParameter? declared name).any isSwitch)
    (noExpression : ¬next.isExpression) :
    forms declared (element :: next :: rest) =
      .pending element :: forms declared (next :: rest) := by
  rw [forms.eq_def]
  simp only [parts, if_neg noSwitch, if_neg noExpression]

theorem forms_last (parts : element.parameterParts? = some (name, none))
    (noSwitch : ¬(resolveParameter? declared name).any isSwitch) :
    forms declared [element] = [.pending element] := by
  rw [forms.eq_def]
  simp only [parts, if_neg noSwitch]

theorem forms_ne_nil (element : Node) (rest : List Node) :
    forms declared (element :: rest) ≠ [] := by
  rw [forms.eq_def]
  simp only
  repeat' split
  all_goals simp

end Forms

theorem add_forms (b : Progress) (form : ArgumentForm) (p : Option Parameter) :
    (b.add form p).arguments.map (·.form) = b.arguments.map (·.form) ++ [form] := by
  cases p <;> simp [Progress.add, Progress.bindTo]

theorem readElements_forms (declared : List Parameter) (b : Progress) (elements : List Node) :
    (readElements declared b elements).arguments.map (·.form) =
      b.arguments.map (·.form) ++ forms declared elements := by
  fun_induction readElements declared b elements with
  | case1 b => simp [forms]
  | case2 b element rest noParameter ih => simp [ih, add_forms, forms_value noParameter]
  | case3 b element rest name p argument parts ih => simp [ih, add_forms, forms_attached parts]
  | case4 b element rest name p isSwitch parts ih =>
      simp [ih, add_forms, forms_switch parts isSwitch]
  | case5 b element name p noSwitch next more isExpression parts ih =>
      simp [ih, add_forms, forms_named parts noSwitch isExpression]
  | case6 b element name p noSwitch next more noExpression parts ih =>
      simp [ih, add_forms, forms_pending parts noSwitch noExpression]
  | case7 b element name p noSwitch parts => simp [add_forms, forms_last parts noSwitch]

theorem bindPositionals_arguments (declared : List Parameter) (index : Nat) (b : Progress)
    (arguments : List Argument) :
    (bindPositionals declared index b arguments).arguments = b.arguments := by
  induction arguments generalizing index b with
  | nil => rfl
  | cons argument rest ih =>
      rw [bindPositionals, ih]
      split <;> rfl

theorem bindTo_forms (table : CommandTable) (info : CommandInfo) (command : Node) :
    (table.bindTo info command).arguments.map (·.form) =
      forms info.parameters (command.commandElements.drop 1) := by
  simp only [bindTo, bindPositionals_arguments, readElements_forms, List.map_nil, List.nil_append]

/-- What arguments are made of, where no argument is attached to a parameter. -/
inductive Written (elements : List Node) : ArgumentForm → Prop where
  | value {e : Node} : e ∈ elements → Written elements (.value none false (some e))
  | named {p e : Node} : p ∈ elements → p.parameterParts?.isSome → e ∈ elements →
      Written elements (.value (some p) true (some e))
  | switch {p : Node} : p ∈ elements → p.parameterParts?.isSome → Written elements (.switch p true)
  | pending {p : Node} : p ∈ elements → Written elements (.pending p)

def Unattached (elements : List Node) : Prop :=
  ∀ e ∈ elements, ∀ parts, e.parameterParts? = some parts → parts.2 = none

theorem forms_written {declared : List Parameter} {all elements : List Node}
    (unattached : Unattached all) (listed : ∀ e ∈ elements, e ∈ all) :
    ∀ form ∈ forms declared elements, Written all form := by
  fun_induction forms declared elements with
  | case1 => simp
  | case2 element rest noParameter ih =>
      have here := listed element List.mem_cons_self
      simp only [List.mem_cons, forall_eq_or_imp]
      exact ⟨.value here, ih fun e isRest => listed e (List.mem_cons_of_mem _ isRest)⟩
  | case3 element rest name argument parts ih =>
      exact absurd (unattached element (listed element List.mem_cons_self) _ parts) (by simp)
  | case4 element rest name isSwitch parts ih =>
      have here := listed element List.mem_cons_self
      simp only [List.mem_cons, forall_eq_or_imp]
      exact ⟨.switch here (by simp [parts]),
        ih fun e isRest => listed e (List.mem_cons_of_mem _ isRest)⟩
  | case5 element name noSwitch next more isExpression parts ih =>
      have here := listed element List.mem_cons_self
      have following := listed next (List.mem_cons_of_mem _ List.mem_cons_self)
      simp only [List.mem_cons, forall_eq_or_imp]
      exact ⟨.named here (by simp [parts]) following, ih fun e isMore =>
        listed e (List.mem_cons_of_mem _ (List.mem_cons_of_mem _ isMore))⟩
  | case6 element name noSwitch next more noExpression parts ih =>
      have here := listed element List.mem_cons_self
      simp only [List.mem_cons, forall_eq_or_imp]
      exact ⟨.pending here,
        by simpa using ih fun e isRest => listed e (List.mem_cons_of_mem _ isRest)⟩
  | case7 element name noSwitch parts =>
      simp only [List.mem_singleton, forall_eq]
      exact .pending (listed element List.mem_cons_self)

/-! One more element. -/

/-- How an expression behind the last element is taken up: a parameter that waits for its value
takes it, otherwise it is an argument of its own. -/
inductive Continued (e : Node) : List ArgumentForm → List ArgumentForm → Prop where
  | taken (earlier : List ArgumentForm) (p : Node) :
      Continued e (earlier ++ [.pending p]) (earlier ++ [.value (some p) true (some e)])
  | added (earlier : List ArgumentForm) : (∀ p, earlier.getLast? ≠ some (.pending p)) →
      Continued e earlier (earlier ++ [.value none false (some e)])

theorem Continued.cons {e : Node} {before after : List ArgumentForm}
    (continued : Continued e before after) {form : ArgumentForm}
    (settled : before ≠ [] ∨ ∀ p, form ≠ .pending p) :
    Continued e (form :: before) (form :: after) := by
  cases continued with
  | taken earlier p => exact .taken (form :: earlier) p
  | added _ last =>
      refine .added (form :: before) fun p isLast => ?_
      cases before with
      | nil =>
          rcases settled with nonempty | settled
          · exact nonempty rfl
          · exact settled p (Option.some.inj isLast)
      | cons first rest => exact last p (by simpa [List.getLast?_cons] using isLast)

theorem forms_append {declared : List Parameter} {e : Node} (isValue : e.parameterParts? = none)
    (isExpression : e.isExpression = true) (elements : List Node) :
    Continued e (forms declared elements) (forms declared (elements ++ [e])) := by
  fun_induction forms declared elements with
  | case1 =>
      rw [List.nil_append, forms_value isValue]
      exact .added [] (by simp)
  | case2 element rest noParameter ih =>
      rw [List.cons_append, forms_value noParameter]
      exact ih.cons (Or.inr (by simp))
  | case3 element rest name argument parts ih =>
      rw [List.cons_append, forms_attached parts]
      exact ih.cons (Or.inr (by simp))
  | case4 element rest name isSwitch parts ih =>
      rw [List.cons_append, forms_switch parts isSwitch]
      exact ih.cons (Or.inr (by simp))
  | case5 element name noSwitch next more isExpression' parts ih =>
      rw [List.cons_append, List.cons_append, forms_named parts noSwitch isExpression']
      exact ih.cons (Or.inr (by simp))
  | case6 element name noSwitch next more noExpression parts ih =>
      rw [List.cons_append, List.cons_append, forms_pending parts noSwitch noExpression]
      exact ih.cons (Or.inl (forms_ne_nil next more))
  | case7 element name noSwitch parts =>
      -- The one case where the new element is taken: the parameter before it waits for a value.
      rw [List.cons_append, List.nil_append, forms_named parts noSwitch isExpression]
      exact .taken [] element

end CommandTable

/-! The two scans. -/

namespace ArgumentLocation

open CommandTable (Written Continued)

/-- What a location says of the slot: the index of a positional argument or the parameter whose
value it is. -/
def slot : ArgumentLocation → Nat ⊕ Option Node
  | .positional index _ => .inl index
  | .named argument => .inr argument.parameter?

/-- Whether an argument stands without a parameter. -/
def isAlone : ArgumentForm → Bool
  | .value none _ _ => true
  | _ => false

section Scans

variable {elements : List Node}

/-- From a token behind which no argument starts the scan goes on to the last argument. -/
theorem byTokenFrom_last {start : Nat} (before : ∀ e ∈ elements, e.start ≤ start)
    (arguments : List Argument)
    (written : ∀ form ∈ arguments.map (·.form), Written elements form)
    (previous : Option Argument) (index : Nat) :
    byTokenFrom start previous index arguments =
      after (arguments.getLast?.or previous)
        (index + (arguments.map (·.form)).countP isAlone) := by
  induction arguments generalizing previous index with
  | nil => simp [byTokenFrom]
  | cons argument rest ih =>
      have goesOn := fun index => ih (fun form listed => written form (List.mem_cons_of_mem _ listed))
        (some argument) index
      have last : (argument :: rest).getLast?.or previous = rest.getLast?.or (some argument) := by
        rw [List.getLast?_cons]
        cases rest.getLast? <;> rfl
      rw [last, List.map_cons, List.countP_cons]
      have form := written argument.form List.mem_cons_self
      obtain ⟨number, _⟩ := argument
      cases form with
      | value isElement =>
          have starts := before _ isElement
          simp only [byTokenFrom, Option.any_some, decide_eq_true_eq, Nat.not_lt.mpr starts,
            if_false, goesOn, isAlone, if_true]
          congr 1
          omega
      | named isElement isParameter isElement' =>
          have starts := before _ isElement
          have starts' := before _ isElement'
          simp [byTokenFrom, Nat.not_lt.mpr starts, Nat.not_lt.mpr starts', goesOn, isAlone]
      | switch isElement isParameter =>
          have starts := before _ isElement
          simp [byTokenFrom, Nat.not_lt.mpr starts, goesOn, isAlone]
      | pending isElement =>
          have starts := before _ isElement
          simp [byTokenFrom, Nat.not_lt.mpr starts, goesOn, isAlone]

/-- A node that is none of the elements is looked for behind their arguments. -/
theorem byNodeFrom_skip {e : Node} (different : ∀ x ∈ elements, x.same e = false)
    (arguments more : List Argument)
    (written : ∀ form ∈ arguments.map (·.form), Written elements form)
    (index : Nat) :
    byNodeFrom e index (arguments ++ more) =
      byNodeFrom e (index + (arguments.map (·.form)).countP isAlone) more := by
  induction arguments generalizing index with
  | nil => simp
  | cons argument rest ih =>
      have goesOn := fun index =>
        ih (fun form listed => written form (List.mem_cons_of_mem _ listed)) index
      rw [List.cons_append, List.map_cons, List.countP_cons]
      have form := written argument.form List.mem_cons_self
      obtain ⟨number, _⟩ := argument
      cases form with
      | value isElement =>
          simp only [byNodeFrom, different _ isElement, goesOn, isAlone, if_true]
          simp only [Bool.false_eq_true, if_false]
          congr 1
          omega
      | named isElement isParameter isElement' =>
          simp [byNodeFrom, different _ isElement', goesOn, isAlone]
      | switch isElement isParameter => simp [byNodeFrom, goesOn, isAlone]
      | pending isElement => simp [byNodeFrom, goesOn, isAlone]

theorem byNodeFrom_here (e : Node) (parameter : Option Node) (specified : Bool)
    (index number : Nat) (rest : List Argument) :
    let argument : Argument := ⟨number, .value parameter specified (some e)⟩
    byNodeFrom e index (argument :: rest) =
      some (if specified then .named argument else .positional index (some argument)) := by
  simp [byNodeFrom, Node.same]

/-- Behind arguments of which none waits for a value and none ends in a colon the next one is
positional. -/
theorem after_settled {previous : Option Argument} {index : Nat}
    (written : ∀ a, previous = some a → Written elements a.form)
    (noColon : ∀ p ∈ elements, p.parameterParts?.isSome → Text.endsWith p.text ":" = false)
    (settled : ∀ a p, previous = some a → a.form ≠ .pending p)
    (starts : previous = none → index = 0) : after previous index = .positional index none := by
  cases previous with
  | none => rw [starts rfl, after]
  | some argument =>
      have form := written argument rfl
      have waits := fun p => settled argument p rfl
      obtain ⟨number, _⟩ := argument
      cases form with
      | value isElement => rfl
      | named isElement isParameter isElement' => simp [after, noColon _ isElement isParameter]
      | switch isElement isParameter => simp [after, noColon _ isElement isParameter]
      | pending isElement => exact absurd rfl (waits _)

/-- Both scans find the same slot, before and after an expression was added. -/
theorem slot_continued {e : Node} {start : Nat} {arguments arguments' : List Argument}
    (continued : Continued e (arguments.map (·.form)) (arguments'.map (·.form)))
    (written : ∀ form ∈ arguments.map (·.form), Written elements form)
    (before : ∀ x ∈ elements, x.start ≤ start) (different : ∀ x ∈ elements, x.same e = false)
    (noColon : ∀ p ∈ elements, p.parameterParts?.isSome → Text.endsWith p.text ":" = false) :
    ∃ location, byNode? arguments' e = some location ∧
      location.slot = (byTokenFrom start none 0 arguments).slot := by
  rw [byTokenFrom_last before arguments written, byNode?, Option.or_none, Nat.zero_add]
  generalize same : arguments.map (·.form) = shapes at continued written
  generalize same' : arguments'.map (·.form) = shapes' at continued
  cases continued with
  | taken earlier p =>
      -- The waiting parameter was the last argument and is still the last one.
      obtain ⟨front, back, rfl, frontForms, backForms⟩ := List.map_eq_append_iff.mp same
      obtain ⟨front', back', rfl, frontForms', backForms'⟩ := List.map_eq_append_iff.mp same'
      obtain ⟨⟨number, _⟩, rfl, rfl⟩ := List.map_eq_singleton_iff.mp backForms
      obtain ⟨⟨number', _⟩, rfl, rfl⟩ := List.map_eq_singleton_iff.mp backForms'
      have skipped : ∀ form ∈ front'.map (·.form), Written elements form := by
        intro form listed
        rw [frontForms'] at listed
        exact written form (List.mem_append_left _ listed)
      rw [byNodeFrom_skip different front' _ skipped, byNodeFrom_here, List.getLast?_append,
        List.getLast?_singleton]
      exact ⟨_, rfl, rfl⟩
  | added _ last =>
      obtain ⟨front', back', rfl, frontForms', backForms'⟩ := List.map_eq_append_iff.mp same'
      obtain ⟨⟨number', _⟩, rfl, rfl⟩ := List.map_eq_singleton_iff.mp backForms'
      have settled : after arguments.getLast? (shapes.countP isAlone) =
          .positional (shapes.countP isAlone) none := by
        subst same
        refine after_settled ?_ noColon ?_ ?_
        · intro a isLast
          exact written a.form (List.mem_map_of_mem (List.mem_of_getLast? isLast))
        · intro a p isLast waits
          refine last p ?_
          rw [List.getLast?_map, isLast, Option.map_some, waits]
        · intro empty
          rw [List.getLast?_eq_none_iff.mp empty]
          rfl
      rw [settled, byNodeFrom_skip different front' _ (frontForms' ▸ written), byNodeFrom_here,
        frontForms', Nat.zero_add]
      exact ⟨_, rfl, rfl⟩

end Scans

end ArgumentLocation

/-! Command lines. -/

namespace CommandLine

open CommandTable

/-- The two scans over the bound arguments of a command, before and after a node was added. -/
theorem slot_bound (table : CommandTable) (info : CommandInfo) (whole whole' : Extent) (first : Node)
    {rest : List Node} {node : Node} {start : Nat} (isValue : node.parameterParts? = none)
    (isExpression : node.isExpression = true) (unattached : Unattached rest)
    (before : ∀ e ∈ rest, e.start ≤ start) (different : ∀ e ∈ rest, e.same node = false)
    (noColon : ∀ p ∈ rest, p.parameterParts?.isSome → Text.endsWith p.text ":" = false) :
    let command := Node.mk 2 whole (.command (first :: rest) none [])
    let command' := Node.mk 2 whole' (.command (first :: rest ++ [node]) none [])
    ∃ location, ArgumentLocation.byNode? (table.bindTo info command').arguments node =
        some location ∧ location.slot =
      (ArgumentLocation.byTokenFrom start none 0 (table.bindTo info command).arguments).slot := by
  intro command command'
  refine ArgumentLocation.slot_continued ?_ ?_ before different noColon
  · rw [bindTo_forms, bindTo_forms]
    exact forms_append isValue isExpression rest
  · rw [bindTo_forms]
    exact forms_written unattached fun e listed => listed

theorem toBinder_declared {table : CommandTable} {command : Node} {name : Text} {info : CommandInfo}
    (isName : command.commandName? = some name) (nonempty : name ≠ [])
    (declared : table.commands.find? (fun info => Text.lower info.name == Text.lower name) =
      some info) :
    table.toBinder command = some (table.bindTo info command) := by
  simp only [toBinder, isName, List.isEmpty_iff, if_neg nonempty, declared, Option.map_some]

/-- The first word names a command of the table. -/
def NamesCommand (table : CommandTable) (line : Text) : Prop :=
  ∃ command name, commandOf? line = some command ∧ command.commandName? = some name ∧ name ≠ [] ∧
    ∃ info ∈ table.commands, Text.lower info.name = Text.lower name

/-- Both scans find the same slot. Behind the finished words of a line an argument goes where the
last token says; once a word is started there, its node is found in that very slot. -/
theorem started_word_fills_slot (table : CommandTable) (line word : Text) (token : Token)
    (named : NamesCommand table line)
    (noColon : ∀ t ∈ (parse line).tokens, t.kind = .parameter → Text.endsWith t.text ":" = false)
    (isLast : (parse line).tokens.dropLast.getLast? = some token)
    (ended : token.extent.stop < line.length) (bare : Bare word) :
    ∃ command command' binding binding' node location,
      commandOf? line = some command ∧ table.toBinder command = some binding ∧
      commandOf? (line ++ word) = some command' ∧ table.toBinder command' = some binding' ∧
      command'.commandElements.getLast? = some node ∧ node.extent = added line word ∧
      ArgumentLocation.byNode? binding'.arguments node = some location ∧
      location.slot = (ArgumentLocation.byToken binding.arguments token).slot := by
  obtain ⟨_, name, found, isName, nonempty, info, isListed, sameName⟩ := named
  have lastWord := last_token isLast
  obtain ⟨whole, isCommand⟩ := commandOf?_eq lastWord
  obtain rfl := Option.some.inj (found.symm.trans isCommand)
  obtain ⟨whole', node, isCommand', continues⟩ := commandOf?_append bare lastWord ended
  -- The line has a first word, and the longer line begins with the same one.
  obtain ⟨first, rest, split⟩ : ∃ first rest, elements line = first :: rest := by
    cases listed : elements line with
    | nil => simp [Node.commandName?, Node.commandElements, Node.form, listed] at isName
    | cons first rest => exact ⟨first, rest, rfl⟩
  rw [split] at isCommand isCommand' isName
  have isName' : (Node.mk 2 whole' (.command (first :: rest ++ [node]) none [])).commandName? =
      some name := isName
  obtain ⟨declared, isDeclared⟩ : ∃ declared, table.commands.find? (fun info =>
      Text.lower info.name == Text.lower name) = some declared := by
    rw [← Option.isSome_iff_exists, List.find?_isSome]
    exact ⟨info, isListed, beq_iff_eq.mpr sameName⟩
  have onLine : ∀ e ∈ rest, OnLine line token.extent e := fun e listed =>
    elements_onLine lastWord (split ▸ List.mem_cons_of_mem _ listed)
  have different : ∀ e ∈ rest, e.same node = false := by
    intro e listed
    have below := (onLine e listed).numbered
    rw [← continues.numbered] at below
    exact beq_eq_false_iff_ne.mpr (Nat.ne_of_lt below)
  have noColonEnds : ∀ p ∈ rest, p.parameterParts?.isSome → Text.endsWith p.text ":" = false := by
    intro p listed isParameter
    obtain ⟨t, isToken, kind, sameText⟩ := (onLine p listed).token isParameter
    rw [← sameText]
    exact noColon t isToken kind
  obtain ⟨location, located, sameSlot⟩ := slot_bound table declared whole whole' first
    continues.isValue continues.isExpression (fun e listed => (onLine e listed).unattached)
    (fun e listed => (onLine e listed).starts) different noColonEnds
  refine ⟨_, _, _, _, node, location, isCommand, toBinder_declared isName nonempty isDeclared,
    isCommand', toBinder_declared isName' nonempty isDeclared, ?_, continues.extent, located,
    sameSlot⟩
  exact List.getLast?_concat

/-- A command with a switch and a parameter that takes a value. -/
def copyTable : CommandTable :=
  { commands := [{ name := "Copy", parameters :=
    [{ name := "Force", typeName := "switch", sets := [] },
      { name := "To", typeName := "string", sets := [] }] }] }

theorem waiting_parameter_takes_word :
    let line : Text := "Copy a -Force b -To "
    ∃ token command command' binding binding' node location,
      (parse line).tokens.dropLast.getLast? = some token ∧
      commandOf? line = some command ∧ copyTable.toBinder command = some binding ∧
      commandOf? (line ++ "c") = some command' ∧ copyTable.toBinder command' = some binding' ∧
      command'.commandElements.getLast? = some node ∧ node.extent = added line "c" ∧
      ArgumentLocation.byNode? binding'.arguments node = some location ∧
      location.slot = (ArgumentLocation.byToken binding.arguments token).slot := by
  intro line
  have some_token : (parse line).tokens.dropLast.getLast?.isSome = true := by decide +kernel
  obtain ⟨token, isLast⟩ := Option.isSome_iff_exists.mp some_token
  have lastWord : (wordExtents line).getLast? = some ⟨16, 19, "-To"⟩ := by decide +kernel
  have extent : token.extent = ⟨16, 19, "-To"⟩ :=
    Option.some.inj ((last_token isLast).symm.trans lastWord)
  obtain ⟨whole, isCommand⟩ := commandOf?_eq lastWord
  have isName : (elements line).head?.bind Node.stringConstant? = some (Text.ofString "Copy") := by
    decide +kernel
  have named : NamesCommand copyTable line :=
    ⟨_, "Copy", isCommand, isName, by decide +kernel, by decide +kernel⟩
  have ended : token.extent.stop < line.length := by
    rw [extent]
    decide +kernel
  have units : Text.ofString "c" = [0x63] := by decide +kernel
  have bare : Bare "c" := by
    rw [units]
    exact ⟨List.cons_ne_nil _ _, List.forall_mem_singleton.mpr (by decide),
      List.forall_mem_singleton.mpr (by decide), by decide⟩
  obtain ⟨command, command', binding, binding', node, location, sameSlot⟩ :=
    started_word_fills_slot copyTable line "c" token named (by decide +kernel) isLast ended bare
  exact ⟨token, command, command', binding, binding', node, location, isLast, sameSlot⟩

end CommandLine

end TabCompletion
