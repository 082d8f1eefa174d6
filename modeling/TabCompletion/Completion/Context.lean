import TabCompletion.Completion.Candidates
import TabCompletion.Engine.Basic
import TabCompletion.Evaluation.Evaluate
import TabCompletion.Inference
import TabCompletion.Options

/-!
The context of a completion request: the word, the nodes and tokens around the cursor, and the span
that a chosen completion replaces.
-/

namespace TabCompletion

structure Context where
  /-- The script in which the nodes of the context stand. -/
  script : Script
  word : Text := []
  cursor : Int := 0
  /-- Nodes that hold the cursor or end at it, from the root inwards. -/
  related : List Node := []
  tokenAt : Option Token := none
  tokenBefore : Option Token := none
  binding : Option Binding := none
  options : Options := {}
  session : Option Session := none
  replacementIndex : Int := 0
  replacementLength : Int := 0
  currentType : Option Node := none
  /-- Completers by lower-case `command:parameter` or `parameter`. -/
  completers : Assoc ArgumentCompleter := []

def Script.empty : Script := Script.ofTree [] (.new ⟨0, 0, []⟩ (.scriptBlock none [] []))

namespace Context

def ofWord (word : Text) (session : Option Session) : Context :=
  { script := Script.empty, word, cursor := word.length, session,
    replacementIndex := 0, replacementLength := word.length }

def root? (c : Context) : Option Node := c.related.head?.filter (·.kind == .scriptBlock)

def innermost? (c : Context) : Option Node := c.related.getLast?

def parent? (c : Context) (n : Node) : Option Node := c.script.parent? n

def command? (c : Context) : Option Node := c.innermost?.bind (c.script.ancestorOfKind? .command)

def hasSession (c : Context) : Bool := c.session.any (·.isAvailable)

def scope (c : Context) : Evaluation.Variables := Session.scope? c.session

end Context

namespace Engine

def inference (c : Context) : Engine Inference := do
  let state ← get
  let world ← read
  return { registry := state.registry, attachments := state.attachments, binder := world.binder,
           script := c.script }

def registry : Engine Registry := return (← get).registry

end Engine

end TabCompletion
