import TabCompletion.Proofs.Completion.Inferred
import TabCompletion.Proofs.Completion.Queries
import TabCompletion.Proofs.Engine.Alike

/-!
When two worlds lead to the same completions: what the worlds, the states and the contexts have to
share, and which computations of the engine have to agree so that every completion does.
-/

namespace TabCompletion

/-! Refused patterns. -/

/-- The failure of a pattern that does not compile. -/
inductive Refused : Failure → Prop where
  | intro {source : Text} {error : Wildcard.PatternError} :
      Wildcard.Pattern.compile source = .error error → Refused (.pattern error)

theorem refused_of_compilePattern {source : Text} {failure : Failure}
    (failed : compilePattern source = .error failure) : Refused failure := by
  rw [compilePattern] at failed
  split at failed
  · contradiction
  · rename_i error refused
    cases failed
    exact .intro refused

theorem refused_of_completeValues {candidates : List Candidate} {word : Text} {order : ValueOrder}
    {failure : Failure} (failed : completeValues candidates word order = .error failure) :
    Refused failure := by
  cases compiled : compilePattern ((Quoting.strip word).2 ++ "*") with
  | ok pattern =>
      simp only [completeValues, compiled] at failed
      contradiction
  | error refusal =>
      simp only [completeValues, compiled] at failed
      cases failed
      exact refused_of_compilePattern compiled

theorem refused_of_lookup {catalog : Catalog} {word : Text} {error : Wildcard.PatternError}
    (failed : catalog.lookup word = .error error) : Refused (.pattern error) := by
  rw [Catalog.lookup] at failed
  split at failed
  · contradiction
  · cases compiled : Wildcard.Pattern.compile
        (if Text.endsWith word "*" then word else word ++ "*") with
    | ok pattern =>
        rw [compiled] at failed
        contradiction
    | error refusal =>
        rw [compiled] at failed
        cases failed
        exact .intro compiled

/-! Concord. -/

/-- What evaluation sees of a session. -/
def Session.surface (session : Session) : Bool × (Text → Value) :=
  (session.isAvailable, session.readVariable)

/-- Contexts of corresponding requests: they differ in their sessions, which correspond, and in
completers that fail on one side and decline on the other. -/
inductive Context.Corresponds (p : Pairing) (c : Context) : Context → Prop where
  | intro (binding : Option Binding) (completers : Assoc ArgumentCompleter)
      (session : Option Session) :
      c.binding.map Binding.quiet = binding.map Binding.quiet →
      Assoc.mapValues quietCompleter c.completers = Assoc.mapValues quietCompleter completers →
      p.sessions c.session session →
      Corresponds p c { c with binding, completers, session }

/-- The two worlds of a pairing give the same completions from states with `kept`. A share listing
may be missing on the left and empty on the right, where a refused pattern is excused. Session
queries have to agree for the commands that completion runs. -/
structure Concord (p : Pairing) (kept : StateRelation) : Prop where
  parse : p.left.parse = p.right.parse
  binder : p.left.binder.map Binder.quiet = p.right.binder.map Binder.quiet
  paths : { p.right.paths with shares := p.left.paths.shares } = p.left.paths
  shares : ∀ server, p.left.paths.shares server = p.right.paths.shares server ∨
    p.left.paths.shares server = none ∧ p.right.paths.shares server = some [] ∧
      ∀ error, p.excused (.pattern error)
  surface : ∀ {a b : Option Session}, p.sessions a b →
    a.map Session.surface = b.map Session.surface
  registry : ∀ {s t : EngineState}, kept s t → s.registry = t.registry
  attachments : ∀ {s t : EngineState}, kept s t → s.attachments = t.attachments
  refused : ∀ {failure : Failure}, Refused failure → ∀ s t, kept s t → p.failed failure s t
  endless : ∀ {s t : EngineState} (typeName : Text), kept s t →
    s.registry.elementChain? (s.registry.elementBound typeName) typeName = none →
    p.failed .endlessElements s t
  catalog : Agree p kept Engine.catalog Engine.catalog
  query : ∀ {a b : Option Session}, p.sessions a b → ∀ q : Query,
    q.command ∈ Completion.queryCommands → Agree p kept (Engine.query a q) (Engine.query b q)
  isStopped : ∀ {a b : Option Session}, p.sessions a b →
    Agree p kept (Engine.isStopped a) (Engine.isStopped b)
  classInfo : ∀ {a b : Option Session}, p.sessions a b → ∀ nameSpace className : Text,
    Agree p kept (Cim.classInfo a nameSpace className) (Cim.classInfo b nameSpace className)
  associatedNames : ∀ {a b : Option Session}, p.sessions a b → ∀ nameSpace className : Text,
    Agree p kept (Cim.associatedNames a nameSpace className)
      (Cim.associatedNames b nameSpace className)
  childNamespaces : ∀ {a b : Option Session}, p.sessions a b → ∀ nameSpace : Text,
    Agree p kept (Cim.childNamespaces a nameSpace) (Cim.childNamespaces b nameSpace)

namespace Concord

variable {α β : Type} {p : Pairing} {kept after : StateRelation} {related : α → β → Prop}
  (concord : Concord p kept)

include concord

theorem pattern (source : Text) : Agree p kept (Engine.pattern source) (Engine.pattern source) :=
  agree_ofExcept fun _ failed => concord.refused (refused_of_compilePattern failed)

theorem values (candidates : List Candidate) (word : Text) (order : ValueOrder) :
    Agree p kept (Engine.ofExcept (completeValues candidates word order))
      (Engine.ofExcept (completeValues candidates word order)) :=
  agree_ofExcept fun _ failed => concord.refused (refused_of_completeValues failed)

theorem registryOf : Agree p kept Engine.registry Engine.registry := by
  intro s t start
  exact .answered (concord.registry start) start

/-- What was typed may be evaluated in both sessions alike. -/
theorem scope {a b : Option Session} (corresponds : p.sessions a b) :
    Session.scope? a = Session.scope? b := by
  have ofSurface : ∀ session : Option Session, Session.scope? session =
      (session.map Session.surface).bind fun seen =>
        if seen.1 then some seen.2 else none := by
    intro session
    cases session <;> rfl
  rw [ofSurface, ofSurface, concord.surface corresponds]

theorem isAvailable {a b : Option Session} (corresponds : p.sessions a b) :
    a.any (·.isAvailable) = b.any (·.isAvailable) := by
  have ofSurface : ∀ session : Option Session, session.any (·.isAvailable) =
      (session.map Session.surface).any Prod.fst := by
    intro session
    cases session <;> rfl
  rw [ofSurface, ofSurface, concord.surface corresponds]

/-- Both sides infer in the same script, from the same types and with the same bindings. -/
theorem inference {c d : Context} (sameScript : c.script = d.script)
    {f g : Inference → Engine α}
    (next : ∀ (m : Inference) (binder : Option Binder),
      m.binder.map Binder.quiet = binder.map Binder.quiet →
      m.script = c.script → Agree p kept (f m) (g { m with binder })) :
    Agree p kept (Engine.inference c >>= f) (Engine.inference d >>= g) := by
  intro s t start
  change Ends p kept Eq
    (Engine.run p.left s (f ⟨s.registry, s.attachments, p.left.binder, c.script⟩))
    (Engine.run p.right t (g ⟨t.registry, t.attachments, p.right.binder, d.script⟩))
  rw [← concord.registry start, ← concord.attachments start, ← sameScript]
  exact next _ p.right.binder concord.binder rfl s t start

end Concord

end TabCompletion
