import TabCompletion.Proofs.Engine.ReplacedSpan
import TabCompletion.Proofs.Syntax.Words

/-!
The member access that ends a string is found in the value of the string, where no escapes are left,
and is replaced in the input, where they still stand. The span is the access in the input as long as
no escape starts before the end of the access.
-/

namespace TabCompletion

/-! What a string is written as and what it says. -/

section Escapes

open Quoting

/-- Whether an escape starts a text: a backtick, or a double quote that is doubled. -/
def startsEscape : Text → Bool
  | [] => false
  | [u] => u == '\x60'
  | u :: next :: _ => u == '\x60' || (isDoubleQuote u && isDoubleQuote next)

/-- Whether no escape starts among the first units of a text. -/
def plainUpTo : Nat → Text → Bool
  | 0, _ => true
  | _, [] => true
  | count + 1, u :: rest => !startsEscape (u :: rest) && plainUpTo count rest

/-- A content between double quotes and the value that is left of it without escapes. A backtick and
what it escapes stand for some text, and two quotes stand for one of them. -/
inductive Unescaped : Text → Text → Prop
  | nil : Unescaped [] []
  | plain {u : CodeUnit} {rest value : Text} (isPlain : startsEscape (u :: rest) = false)
      (others : Unescaped rest value) : Unescaped (u :: rest) (u :: value)
  | doubled {quote next one : CodeUnit} {rest value : Text} (isQuote : isDoubleQuote quote = true)
      (isNext : isDoubleQuote next = true) (isOne : one = quote ∨ one = next)
      (others : Unescaped rest value) : Unescaped (quote :: next :: rest) (one :: value)
  | backtick {escaped meaning rest value : Text} (escapes : escaped ≠ [])
      (others : Unescaped rest value) : Unescaped ('\x60' :: (escaped ++ rest)) (meaning ++ value)

theorem startsEscape_backtick (rest : Text) : startsEscape ('\x60' :: rest) = true := by
  cases rest <;> rfl

theorem startsEscape_doubled {quote next : CodeUnit} (rest : Text)
    (isQuote : isDoubleQuote quote = true) (isNext : isDoubleQuote next = true) :
    startsEscape (quote :: next :: rest) = true := by
  rw [startsEscape, isQuote, isNext, Bool.and_self, Bool.or_true]

theorem plainUpTo_escape {u : CodeUnit} {rest : Text} (escape : startsEscape (u :: rest) = true)
    {count : Nat} (plain : plainUpTo count (u :: rest) = true) : count = 0 := by
  cases count with
  | zero => rfl
  | succ count =>
      rw [plainUpTo, escape] at plain
      contradiction

/-- A value starts as its content does, up to the first escape. -/
theorem Unescaped.take_eq {content value : Text} (unescaped : Unescaped content value) {count : Nat}
    (plain : plainUpTo count content = true) : value.take count = content.take count := by
  induction unescaped generalizing count with
  | nil => rfl
  | plain isPlain others ih =>
      cases count with
      | zero => rfl
      | succ count =>
          rw [plainUpTo, Bool.and_eq_true] at plain
          rw [List.take_succ_cons, List.take_succ_cons, ih plain.2]
  | doubled isQuote isNext isOne others ih =>
      rw [plainUpTo_escape (startsEscape_doubled _ isQuote isNext) plain]
      rfl
  | backtick escapes others ih =>
      rw [plainUpTo_escape (startsEscape_backtick _) plain]
      rfl

/-- A content without escapes is its own value. -/
theorem unescaped_self {content : Text} (plain : plainUpTo content.length content = true) :
    Unescaped content content := by
  induction content with
  | nil => exact .nil
  | cons u rest ih =>
      rw [List.length_cons, plainUpTo, Bool.and_eq_true, Bool.not_eq_true'] at plain
      exact .plain plain.1 (ih plain.2)

end Escapes

namespace Analysis

open Cursor

/-! The end of what was typed. -/

/-- What was typed of a string up to the cursor. -/
def typedIn (token : Token) (cursor : Int) (value : Text) : Text :=
  value.take (cursor - token.extent.start - 1).toNat

/-- The member access at the end of what was typed. -/
def accessAtEnd? (typed : Text) : Option Text := (variableAccess? typed).or (staticAccess? typed)

/-! The route into the string and back. -/

section Route

variable {world : World} {state ended : EngineState} {c final : Context} {token : Token}
  {found : List Result}

theorem run_get_bind {α : Type} (next : Context → Step α) :
    Engine.run world state ((get >>= next).run c) = Engine.run world state ((next c).run c) := rfl

/-- Where an access that ends what was typed is taken to start in the input. -/
def accessIndex (token : Token) (typed access : Text) : Int :=
  (token.extent.start : Int) + 1 + typed.length - access.length

/-- The context after the access in a string was completed. -/
def onAccess (c : Context) (token : Token) (typed access : Text) : Context :=
  { c with
    replacementIndex := accessIndex token typed access
    replacementLength := access.length }

theorem insideString_final {inner : Step (List Result)} {typed access : Text}
    (ran : Engine.run world state ((insideString inner token typed access).run c) =
      (.ok (found, final), ended))
    (offers : found ≠ []) : final = onAccess c token typed access := by
  have ensured : Ensures (fun d => d = c) (insideString inner token typed access)
      (fun results d => results ≠ [] → d = onAccess c token typed access) := by
    refine ensures_bind _ ensures_read fun world => ?_
    split
    · exact ensures_pure fun d same offers => absurd rfl offers
    · apply ensures_get
      intro d same
      subst same
      refine ensures_bind (fun _ e => e = d) (ensures_lift fun _ _ same => same) ?_
      rintro ⟨results, last⟩
      apply ensures_ite
      · exact fun _ => ensures_pure fun e same offers => absurd rfl offers
      · intro _
        refine ensures_bind (fun _ e => e = onAccess d token typed access) ?_ fun _ => ?_
        · exact setSpan_ensures fun e same => same ▸ rfl
        · exact ensures_pure fun e same _ => same
  exact ensured world state c rfl found final ended ran offers

theorem orElse_found {first second : Step (List Result)}
    (ran : Engine.run world state (first.run c) = (.ok (found, final), ended)) (offers : found ≠ []) :
    Engine.run world state ((orElse first second).run c) = (.ok (found, final), ended) := by
  rw [orElse, StateT.run_bind, Engine.run_bind, ran, Engine.goOn_ok]
  rw [if_neg fun none => offers (List.isEmpty_iff.mp none)]
  rfl

theorem stringToken_access {inner : Step (List Result)} {node : Node} {value access : Text}
    (isString : stringParts? node = some (value, .doubleQuoted))
    (isAccess : accessAtEnd? (typedIn token c.cursor value) = some access) :
    Engine.run world state ((stringToken inner token (some node)).run c) =
      Engine.run world state
        ((insideString inner token (typedIn token c.cursor value) access).run c) := by
  have asks : stringToken inner token (some node) = get >>= fun d =>
      (accessAtEnd? (typedIn token d.cursor value)).elim (stringAsWord node)
        (insideString inner token (typedIn token d.cursor value)) := by
    rw [stringToken, isString]
    apply bind_congr
    intro d
    have style : (StringStyle.doubleQuoted == .doubleQuoted) = true := rfl
    simp only [accessAtEnd?, typedIn, if_pos style]
    cases (variableAccess? _).or (staticAccess? _) <;> rfl
  rw [asks, run_get_bind, isAccess, Option.elim_some]

theorem atToken_string {route : Token → Option Node → Step (List Result)}
    (isString : token.kind = .stringExpandable ∨ token.kind = .stringLiteral) :
    Engine.run world state ((atToken (some route) token).run c) =
      Engine.run world state ((route token c.innermost?).run c) := by
  unfold atToken
  rcases isString with kind | kind <;> simp only [kind] <;> rfl

/-- The context with the span of the token under the cursor. -/
def onTokenAt (c : Context) (token : Token) : Context :=
  { c with
    replacementIndex := token.extent.start
    replacementLength := (token.extent.stop : Int) - token.extent.start }

/-- What the access in a string offers is what the cursor in it asks for. -/
theorem results_access {node : Node} {value access : Text} (under : c.tokenAt = some token)
    (isToken : token.kind = .stringExpandable ∨ token.kind = .stringLiteral)
    (isLast : c.innermost? = some node)
    (isString : stringParts? node = some (value, .doubleQuoted))
    (isAccess : accessAtEnd? (typedIn token c.cursor value) = some access)
    (completed : Engine.run world state ((insideString routeInString token
      (typedIn token c.cursor value) access).run (onTokenAt c token)) = (.ok (found, final), ended))
    (offers : found ≠ []) :
    Engine.run world state (results c) = (.ok (found, final), ended) := by
  have isLast : (onTokenAt c token).innermost? = some node := isLast
  have sameCursor : c.cursor = (onTokenAt c token).cursor := rfl
  rw [sameCursor] at completed isAccess
  rw [← stringToken_access isString isAccess, ← isLast, ← atToken_string isToken] at completed
  apply orElse_found _ offers
  rw [run_get_bind, under, ← completed]
  rfl

end Route

end Analysis

namespace Engine

open Analysis

/-- The context in which an input is completed. -/
def opened (world : World) (parse : Text → Nat → Parse) (input : Text) (cursor : Int)
    (request : RequestOptions) : Context :=
  let parsed := parse input (clampCursor input cursor)
  Cursor.context (Script.ofTree input parsed.tree) parsed.tokens (clampCursor input cursor)
    { request with session := request.session.or world.session }

theorem completeInput_found {world : World} {state ended : EngineState} {parse : Text → Nat → Parse}
    {input : Text} {cursor : Int} {request : RequestOptions} {found : List Result} {final : Context}
    (parses : world.parse = some parse)
    (ready : obstacle? world (request.session.or world.session) = none)
    (ran : run world state (results (opened world parse input cursor request)) =
      (.ok (found, final), ended)) (offers : found ≠ []) :
    run world state (completeInput input cursor request) =
      (.ok { results := found, index := final.replacementIndex, length := final.replacementLength },
        ended) := by
  rw [opened] at ran
  unfold completeInput
  rw [run_bind, run_read, goOn_ok]
  simp only [parses, ready]
  rw [run_bind, ran, goOn_ok]
  simp only [if_neg fun none => offers (List.isEmpty_iff.mp none)]
  rfl

/-- The cursor stands in a string of the input that is written between double quotes, with a member
access before it. The value of the string is what it is written as without escapes. -/
structure InString (world : World) (parse : Text → Nat → Parse) (input : Text) (cursor : Int)
    (request : RequestOptions) (token : Token) (content value access : Text) : Prop where
  under : (opened world parse input cursor request).tokenAt = some token
  isToken : token.kind = .stringExpandable ∨ token.kind = .stringLiteral
  isString : ((opened world parse input cursor request).innermost?.bind stringParts?) =
    some (value, .doubleQuoted)
  written : ∃ quote closing, Quoting.isDoubleQuote quote = true ∧
    (closing = [] ∨ ∃ last, Quoting.isDoubleQuote last = true ∧ closing = [last]) ∧
    Text.slice input token.extent.start token.extent.stop = quote :: (content ++ closing)
  unescaped : Unescaped content value
  isAccess : accessAtEnd? (typedIn token (clampCursor input cursor) value) = some access

variable {world : World} {parse : Text → Nat → Parse} {input : Text} {cursor : Int}
  {request : RequestOptions} {token : Token} {content value access : Text}

/-- The run that completes the access in the string. -/
def accessRun (world : World) (state : EngineState) (parse : Text → Nat → Parse) (input : Text)
    (cursor : Int) (request : RequestOptions) (token : Token) (value access : Text) :
    Except Failure (List Result × Context) × EngineState :=
  run world state ((insideString routeInString token
    (typedIn token (clampCursor input cursor) value) access).run
    (onTokenAt (opened world parse input cursor request) token))

theorem completeInput_access {state ended : EngineState} {found : List Result} {final : Context}
    (inString : InString world parse input cursor request token content value access)
    (parses : world.parse = some parse)
    (ready : obstacle? world (request.session.or world.session) = none)
    (completed : accessRun world state parse input cursor request token value access =
      (.ok (found, final), ended)) (offers : found ≠ []) :
    run world state (completeInput input cursor request) =
      (.ok { results := found,
             index := accessIndex token (typedIn token (clampCursor input cursor) value) access
             length := access.length }, ended) := by
  obtain ⟨node, isLast, isString⟩ := Option.bind_eq_some_iff.mp inString.isString
  have analysed := results_access inString.under inString.isToken isLast isString
    inString.isAccess completed offers
  rw [completeInput_found parses ready analysed offers, insideString_final completed offers]
  rfl

/-- Where no escape starts before the end of what was typed, a content starts with it. -/
theorem typed_prefix (unescaped : Unescaped content value) {place : Int}
    (plain : plainUpTo (typedIn token place value).length content = true) :
    typedIn token place value <+: content := by
  have starts := unescaped.take_eq plain
  have whole : value.take (typedIn token place value).length = typedIn token place value := by
    rw [typedIn, List.length_take, ← List.take_eq_take_min]
  rw [← whole, starts]
  exact List.take_prefix _ _

theorem between_middle (before middle after : Text) :
    Text.between (before ++ (middle ++ after)) before.length
      ((before.length : Int) + middle.length) = middle := by
  rw [← Int.natCast_add, CommandLine.between_eq (Nat.le_add_right _ _), ← List.append_assoc,
    ← List.length_append, List.take_left, List.drop_left]

/-- What a slice of the input holds stands in the input. -/
theorem slice_placed {text shown : Text} {start stop : Nat} (nonempty : shown ≠ [])
    (isSlice : Text.slice text start stop = shown) :
    ∃ before after, text = before ++ (shown ++ after) ∧ before.length = start := by
  rw [Text.slice] at isSlice
  refine ⟨(text.take stop).take start, text.drop stop, ?_, ?_⟩
  · rw [← isSlice, ← List.append_assoc, List.take_append_drop, List.take_append_drop]
  · rw [List.length_take, Nat.min_eq_left]
    by_contra short
    rw [List.drop_eq_nil_of_le (by omega)] at isSlice
    exact nonempty isSlice.symm

theorem access_placed
    (inString : InString world parse input cursor request token content value access)
    (plain : plainUpTo (typedIn token (clampCursor input cursor) value).length content = true) :
    Text.between input (accessIndex token (typedIn token (clampCursor input cursor) value) access)
      (accessIndex token (typedIn token (clampCursor input cursor) value) access + access.length) =
      access := by
  obtain ⟨quote, closing, -, -, written⟩ := inString.written
  obtain ⟨front, isTyped⟩ := access_suffix inString.isAccess
  obtain ⟨rest, isContent⟩ := typed_prefix inString.unescaped plain
  obtain ⟨before, after, placed, start⟩ := slice_placed (List.cons_ne_nil _ _) written
  have spelled : input = (before ++ quote :: front) ++ (access ++ (rest ++ closing ++ after)) := by
    rw [placed, ← isContent, ← isTyped]
    simp only [List.append_assoc, List.cons_append]
  have index : accessIndex token (typedIn token (clampCursor input cursor) value) access =
      (before ++ quote :: front).length := by
    rw [accessIndex, ← isTyped]
    simp only [List.length_append, List.length_cons]
    omega
  rw [index, spelled]
  exact between_middle _ _ _

/-- Completion in a string replaces the text it completed. For every world, state, input, cursor and
request, when the member access before the cursor in a double-quoted string is completed, the input
over the replaced span is the access, if no escape starts before its end. -/
theorem completed_access_replaced (world : World) (state ended : EngineState)
    (parse : Text → Nat → Parse) (input : Text) (cursor : Int) (request : RequestOptions) (token : Token)
    (content value access : Text) (found : List Result) (final : Context)
    (parses : world.parse = some parse)
    (ready : obstacle? world (request.session.or world.session) = none)
    (inString : InString world parse input cursor request token content value access)
    (plain : plainUpTo (typedIn token (clampCursor input cursor) value).length content = true)
    (completed : accessRun world state parse input cursor request token value access =
      (.ok (found, final), ended)) (offers : found ≠ []) :
    ∃ completion, run world state (completeInput input cursor request) =
        (.ok completion, ended) ∧ completion.results = found ∧
      Text.between input completion.index (completion.index + completion.length) = access :=
  ⟨_, completeInput_access inString parses ready completed offers, rfl,
    access_placed inString plain⟩

/-! A string with a member access, without and with escapes before it. -/

section Strings

def accessText : Text := "$x.Na"

/-- The access as an input of its own. -/
def accessParse : Parse :=
  let extent := Extent.ofSource accessText
  let access := Node.new (extent 0 5) (.member (.new (extent 0 2) (.variable "x" false))
    (.new (extent 3 5) (.stringConstant "Na" .bareWord)) false)
  { tree := .new (extent 0 5) (.scriptBlock none [] [access])
    tokens := [
      { kind := .variable, text := "$x", extent := extent 0 2, variablePath := some "x" },
      { kind := .dot, text := ".", extent := extent 2 3 },
      { kind := .identifier, text := "Na", extent := extent 3 5, flags := [.memberName] }] }

/-- The token of an input that is one string. -/
def wholeToken (input : Text) : Token :=
  { kind := .stringExpandable, text := input, extent := ⟨0, input.length, input⟩ }

/-- An input that is one string with a value, and the access that ends the value. -/
def stringParse (value input : Text) (_cursor : Nat) : Parse :=
  if input = accessText then accessParse
  else
    let string := Node.new ⟨0, input.length, input⟩ (.expandableString value .doubleQuoted [])
    { tree := .new ⟨0, input.length, input⟩ (.scriptBlock none [] [string])
      tokens := [wholeToken input] }

def accessWorld (value : Text) : World :=
  { session := some (propertySession "Name"), parse := some (stringParse value), paths := noPaths }

/-- A content as an input that is one string. -/
def inQuotes (content : Text) : Text := "\"" ++ content ++ "\""

theorem answered {α : Type} {ran : Except Failure (List α × Context) × EngineState}
    (known : ran.1.toOption.any (fun answer => !answer.1.isEmpty) = true) :
    ∃ found final ended, ran = (.ok (found, final), ended) ∧ found ≠ [] := by
  obtain ⟨answer, ended⟩ := ran
  cases answer with
  | error failure => contradiction
  | ok answer =>
      obtain ⟨found, final⟩ := answer
      refine ⟨found, final, ended, rfl, fun nothing => ?_⟩
      subst nothing
      contradiction

theorem inQuotes_written (content : Text) : Text.slice (inQuotes content)
    (wholeToken (inQuotes content)).extent.start (wholeToken (inQuotes content)).extent.stop =
      inQuotes content := by
  change ((inQuotes content).take (inQuotes content).length).drop 0 = inQuotes content
  rw [List.take_length, List.drop_zero]

theorem inQuotes_inString {content value : Text} {cursor : Int}
    (under : (opened (accessWorld value) (stringParse value) (inQuotes content) cursor {}).tokenAt =
      some (wholeToken (inQuotes content)))
    (isString : (opened (accessWorld value) (stringParse value) (inQuotes content) cursor
      {}).innermost?.bind stringParts? = some (value, .doubleQuoted))
    (unescaped : Unescaped content value)
    (isAccess : accessAtEnd? (typedIn (wholeToken (inQuotes content))
      (clampCursor (inQuotes content) cursor) value) = some accessText) :
    InString (accessWorld value) (stringParse value) (inQuotes content) cursor {}
      (wholeToken (inQuotes content)) content value accessText where
  under := under
  isToken := Or.inl rfl
  isString := isString
  written := ⟨'"', "\"", rfl, Or.inr ⟨'"', rfl, rfl⟩, inQuotes_written content⟩
  unescaped := unescaped
  isAccess := isAccess

set_option maxRecDepth 10000 in
/-- The string `"$x.Na"` with the cursor behind the name. -/
theorem plain_access_replaced : ∃ completion ended,
    run (accessWorld accessText) {} (completeInput (inQuotes accessText) 6) =
      (.ok completion, ended) ∧ completion.results ≠ [] ∧
      Text.between (inQuotes accessText) completion.index (completion.index + completion.length) =
        accessText := by
  have inString : InString (accessWorld accessText) (stringParse accessText) (inQuotes accessText) 6
      {} (wholeToken (inQuotes accessText)) accessText accessText accessText :=
    inQuotes_inString rfl (by decide +kernel) (unescaped_self (by decide)) (by decide +kernel)
  have known : (accessRun (accessWorld accessText) {} (stringParse accessText) (inQuotes accessText)
      6 {} (wholeToken (inQuotes accessText)) accessText accessText).1.toOption.any
        (fun answer => !answer.1.isEmpty) = true := by decide +kernel
  obtain ⟨found, final, ended, completed, offers⟩ := answered known
  obtain ⟨completion, ran, rfl, replaced⟩ := completed_access_replaced _ _ _ _ _ _ _ _ _ _ _ _ _
    rfl rfl inString (by decide +kernel) completed offers
  exact ⟨completion, ended, ran, offers, replaced⟩

/-- The access in a string is completed, and the input over the replaced span is not the access. -/
def Misplaced (content value : Text) (cursor : Int) : Prop :=
  InString (accessWorld value) (stringParse value) (inQuotes content) cursor {}
    (wholeToken (inQuotes content)) content value accessText ∧
  ∃ found final ended completion,
    accessRun (accessWorld value) {} (stringParse value) (inQuotes content) cursor {}
      (wholeToken (inQuotes content)) value accessText = (.ok (found, final), ended) ∧ found ≠ [] ∧
    run (accessWorld value) {} (completeInput (inQuotes content) cursor) = (.ok completion, ended) ∧
    completion.results = found ∧
    Text.between (inQuotes content) completion.index (completion.index + completion.length) ≠
      accessText

theorem misplaced_of {content value : Text} {cursor : Int}
    (inString : InString (accessWorld value) (stringParse value) (inQuotes content) cursor {}
      (wholeToken (inQuotes content)) content value accessText)
    (known : (accessRun (accessWorld value) {} (stringParse value) (inQuotes content) cursor {}
      (wholeToken (inQuotes content)) value accessText).1.toOption.any
        (fun answer => !answer.1.isEmpty) = true)
    (elsewhere :
      let index := accessIndex (wholeToken (inQuotes content))
        (typedIn (wholeToken (inQuotes content)) (clampCursor (inQuotes content) cursor) value)
        accessText
      Text.between (inQuotes content) index (index + accessText.length) ≠ accessText) :
    Misplaced content value cursor := by
  obtain ⟨found, final, ended, completed, offers⟩ := answered known
  have ran := completeInput_access inString rfl rfl completed offers
  exact ⟨inString, found, final, ended, _, completed, offers, ran, rfl, elsewhere⟩

set_option maxRecDepth 10000 in
/-- A backtick that is escaped, or a quote that is doubled, moves the span to the left. -/
theorem escaped_access_misplaced :
    Misplaced "``$x.Na" "`$x.Na" 8 ∧ Misplaced "a\"\"$x.Na" "a\"$x.Na" 9 := by
  have isPlain : Unescaped accessText accessText := unescaped_self (by decide)
  constructor
  · have unescaped : Unescaped "``$x.Na" "`$x.Na" :=
      @Unescaped.backtick "`" "`" _ _ (by decide) isPlain
    exact misplaced_of (inQuotes_inString rfl (by decide +kernel) unescaped (by decide +kernel))
      (by decide +kernel) (by decide +kernel)
  · have unescaped : Unescaped "a\"\"$x.Na" "a\"$x.Na" :=
      .plain rfl (.doubled rfl rfl (Or.inl rfl) isPlain)
    exact misplaced_of (inQuotes_inString rfl (by decide +kernel) unescaped (by decide +kernel))
      (by decide +kernel) (by decide +kernel)

end Strings

end Engine

end TabCompletion
