import TabCompletion.Assoc
import TabCompletion.Binding.Basic
import TabCompletion.Binding.Completer
import TabCompletion.Binding.Elements
import TabCompletion.Binding.Location
import TabCompletion.Binding.Table
import TabCompletion.Cim.Basic
import TabCompletion.Cim.Cache
import TabCompletion.Completion.Analysis
import TabCompletion.Completion.Argument
import TabCompletion.Completion.Candidates
import TabCompletion.Completion.Command
import TabCompletion.Completion.Context
import TabCompletion.Completion.Cursor
import TabCompletion.Completion.HashtableKey
import TabCompletion.Completion.History
import TabCompletion.Completion.Member
import TabCompletion.Completion.Native
import TabCompletion.Completion.NativeTable
import TabCompletion.Completion.Operator
import TabCompletion.Completion.Parameter
import TabCompletion.Completion.Path
import TabCompletion.Completion.Result
import TabCompletion.Completion.TypeName
import TabCompletion.Completion.Value
import TabCompletion.Completion.Variable
import TabCompletion.Editor.Configuration
import TabCompletion.Editor.Document
import TabCompletion.Editor.Item
import TabCompletion.Editor.Notifier
import TabCompletion.Editor.Server
import TabCompletion.Editor.Services
import TabCompletion.Engine.Basic
import TabCompletion.Engine.Complete
import TabCompletion.Evaluation.Evaluate
import TabCompletion.Evaluation.Safety
import TabCompletion.Exchange.Editor
import TabCompletion.Exchange.Model
import TabCompletion.Exchange.Tree
import TabCompletion.Exchange.Value
import TabCompletion.Exchange.World
import TabCompletion.Failure
import TabCompletion.Inference
import TabCompletion.Json.Basic
import TabCompletion.Json.Reader
import TabCompletion.Json.Writer
import TabCompletion.Language
import TabCompletion.Log.Basic
import TabCompletion.Number.Basic
import TabCompletion.Number.Decimal
import TabCompletion.Options
import TabCompletion.Paths.Memory
import TabCompletion.Paths.Posix
import TabCompletion.Paths.Provider
import TabCompletion.Quoting
import TabCompletion.Session.Basic
import TabCompletion.Sorting
import TabCompletion.Syntax.CommandLine
import TabCompletion.Syntax.Extent
import TabCompletion.Syntax.Node
import TabCompletion.Syntax.Script
import TabCompletion.Syntax.View
import TabCompletion.Text.Basic
import TabCompletion.Text.Case
import TabCompletion.Text.Category
import TabCompletion.Types.Bundled
import TabCompletion.Types.Bundled.Automation
import TabCompletion.Types.Bundled.Collections
import TabCompletion.Types.Bundled.Library
import TabCompletion.Types.Bundled.Primitives
import TabCompletion.Types.Bundled.Values
import TabCompletion.Types.Catalog
import TabCompletion.Types.Declaration
import TabCompletion.Types.Loading
import TabCompletion.Types.Model
import TabCompletion.Types.Name
import TabCompletion.Types.Registry
import TabCompletion.Value.Basic
import TabCompletion.Value.Json
import TabCompletion.Wildcard.CharSet
import TabCompletion.Wildcard.Matcher
import TabCompletion.Wildcard.Pattern
import TabCompletion.Proofs.Engine.Run
import TabCompletion.Proofs.Evaluation.Safety
import TabCompletion.Proofs.Syntax.Numbering
import TabCompletion.Proofs.Syntax.WellFormed
import TabCompletion.Proofs.Analysis.Step
import TabCompletion.Proofs.Analysis.Span
import TabCompletion.Proofs.Engine.ReplacedSpan
import TabCompletion.Proofs.Completion.Quiet
import TabCompletion.Proofs.Completion.Inferred
import TabCompletion.Proofs.Completion.Queries
import TabCompletion.Proofs.Engine.Alike
import TabCompletion.Proofs.Completion.Concord
import TabCompletion.Proofs.Completion.Congruence
import TabCompletion.Proofs.Completion.ValueCongruence
import TabCompletion.Proofs.Analysis.Congruence
import TabCompletion.Proofs.Engine.Call
import TabCompletion.Proofs.Engine.Beside
import TabCompletion.Proofs.Engine.ReadOnly
import TabCompletion.Proofs.Cim.Tame
import TabCompletion.Proofs.Engine.Tame
import TabCompletion.Proofs.Cim.Request
import TabCompletion.Proofs.Cim.Kept
import TabCompletion.Proofs.Cim.Faithful
import TabCompletion.Proofs.Engine.History
import TabCompletion.Proofs.Binding.Slots
import TabCompletion.Proofs.Text.Literals
import TabCompletion.Proofs.Text.CaseClass
import TabCompletion.Proofs.Wildcard.Signs
import TabCompletion.Proofs.Wildcard.Starred
import TabCompletion.Proofs.Wildcard.Literal
import TabCompletion.Proofs.Text.Lowering
import TabCompletion.Proofs.Types.Filling
import TabCompletion.Proofs.Types.Completeness
import TabCompletion.Proofs.Types.Elements
import TabCompletion.Proofs.Engine.Contract
import TabCompletion.Proofs.Analysis.CursorInSpan
import TabCompletion.Proofs.Engine.CursorInSpan
import TabCompletion.Proofs.Syntax.Typed
import TabCompletion.Proofs.Evaluation.Parts
import TabCompletion.Proofs.Evaluation.Reads
import TabCompletion.Proofs.Evaluation.Coverage
import TabCompletion.Proofs.Analysis.CursorPath
import TabCompletion.Proofs.Wildcard.Pieces
import TabCompletion.Proofs.Wildcard.Compiling
import TabCompletion.Proofs.Wildcard.Extension
import TabCompletion.Proofs.Completion.Offered
import TabCompletion.Proofs.Quoting.Reading
import TabCompletion.Proofs.Quoting.Lowering
import TabCompletion.Proofs.Completion.Commands
import TabCompletion.Proofs.Paths.Memory
import TabCompletion.Proofs.Paths.Words
import TabCompletion.Proofs.Quoting.Stripping
import TabCompletion.Proofs.Completion.Paths
import TabCompletion.Proofs.Completion.Directories
import TabCompletion.Proofs.Evaluation.Filling
import TabCompletion.Proofs.Engine.StringAccess
import TabCompletion.Proofs.Binding.Values
import TabCompletion.Proofs.Completion.Scopes
import TabCompletion.Proofs.Completion.VariableWords
import TabCompletion.Proofs.Types.Lineage
import TabCompletion.Proofs.Completion.ClassSources
import TabCompletion.Proofs.Completion.InferredClasses
import TabCompletion.Proofs.Completion.Members
import TabCompletion.Proofs.Types.Hiding
import TabCompletion.Proofs.Completion.ClassMembers
import TabCompletion.Proofs.Completion.Values
import TabCompletion.Proofs.Types.Notation
import TabCompletion.Proofs.Types.Canonical
import TabCompletion.Proofs.Types.Arrays
import TabCompletion.Proofs.Syntax.Ancestors
import TabCompletion.Proofs.Completion.HashtableKeys
import TabCompletion.Proofs.Number.Order
import TabCompletion.Proofs.InsertionSort
import TabCompletion.Proofs.Completion.HistorySearch
import TabCompletion.Proofs.Completion.InferenceCalls
import TabCompletion.Proofs.Text.Uncased
import TabCompletion.Proofs.Wildcard.Brackets
import TabCompletion.Proofs.Wildcard.Effects
import TabCompletion.Proofs.Wildcard.Backticks
import TabCompletion.Proofs.Text.Folding
import TabCompletion.Proofs.Wildcard.SameLetters
import TabCompletion.Proofs.Wildcard.Outline
import TabCompletion.Proofs.Completion.AcceptedValues
import TabCompletion.Proofs.Editor.SortTexts
import TabCompletion.Proofs.Number.Rounding
import TabCompletion.Proofs.Json.Numbers
import TabCompletion.Proofs.Editor.HistoryLimit
import TabCompletion.Proofs.Number.Steps
import TabCompletion.Proofs.Evaluation.Counting
import TabCompletion.Proofs.Evaluation.Ranges
import TabCompletion.Proofs.Types.Recursion
import TabCompletion.Proofs.Types.Reading
