import TabCompletion.Text.Basic

/-!
The services of the server by name. Most of them come with it; a host has to provide those that
reach a live shell: the session, the parser, the binder and the management server.
-/

namespace TabCompletion.Editor

structure Service where
  key : String
  /-- Whether the service comes with the server. -/
  isBound : Bool := true

def services : List Service := [
  { key := "IArgumentValueDispatcher" },
  { key := "ICimMetadataCache" },
  { key := "ICimSessionFactory", isBound := false },
  { key := "ICommandArgumentCompleter" },
  { key := "ICommandCompleter" },
  { key := "ICompletionAnalysis" },
  { key := "ICompletionEngine" },
  { key := "ICompletionExecutionHelper", isBound := false },
  { key := "IHashtableKeyCompleter" },
  { key := "IHistoryCompleter" },
  { key := "IMemberCompleter" },
  { key := "INativeCommandCompleters" },
  { key := "IOperatorCompleter" },
  { key := "IParameterCompleter" },
  { key := "IPathCompleter" },
  { key := "IPathProvider" },
  { key := "IPseudoBinder", isBound := false },
  { key := "ISafeExpressionEvaluator" },
  { key := "IScriptParser", isBound := false },
  { key := "ITypeCatalog" },
  { key := "ITypeDataTable" },
  { key := "ITypeInferenceService" },
  { key := "ITypeNameCompleter" },
  { key := "ITypeRegistry" },
  { key := "IVariableCompleter" }]

end TabCompletion.Editor
