import TabCompletion.Json.Basic
import TabCompletion.Log.Basic
import TabCompletion.Options

/-!
The settings of a client. Only well-typed values are kept; a setting that is left out keeps its
value, and the level of the log follows the settings.
-/

namespace TabCompletion.Editor

structure Configuration where
  logLevel : Text := "info"
  /-- Options of every completion request. -/
  completion : OptionOverrides := {}

namespace Configuration

def readOptions (settings : Json) : OptionOverrides :=
  { literalPaths := (settings.get "literalPaths").bool?
    relativePaths := (settings.get "relativePaths").bool?
    ignoreHiddenShares := (settings.get "ignoreHiddenShares").bool?
    maxHistoryEntries := (settings.get "maxHistoryEntries").number?.filter (·.isFinite) }

def apply (c : Configuration) (settings : Json) : Configuration :=
  { logLevel := (settings.get "logLevel").text?.getD c.logLevel
    completion := ((settings.field? "completion").map readOptions).getD c.completion }

end Configuration

structure Setup where
  configuration : Configuration := {}
  logger : Log.Logger := {}

namespace Setup

def logLabel : Text := "Completion-LSP"

def tuneLog (s : Setup) : Setup :=
  let settings : Log.Settings :=
    { level := some (Log.Level.ofSetting s.configuration.logLevel), label := some logLabel }
  { s with logger := s.logger.clearPinned.configure settings }

def isObject : Json → Bool
  | .object _ => true
  | _ => false

def start (s : Setup) (options : Json) : Setup × List Log.Line :=
  if isObject options then
    (tuneLog { s with configuration := s.configuration.apply options },
      s.logger.write .info "🔧 Configuration loaded from initialization options")
  else (s.tuneLog, [])

/-- Takes changed settings. The change of the level is told at the level that held before. -/
def update (s : Setup) (settings : Json) : Setup × List Log.Line :=
  if isObject settings then
    let changed := { s with configuration := s.configuration.apply settings }
    let level := changed.configuration.logLevel
    if level == s.configuration.logLevel then (changed, [])
    else
      (changed.tuneLog,
        s.logger.write .info ("🔧 Log level configuration changed: \"" ++ level ++ "\""))
  else (s, [])

end Setup

end TabCompletion.Editor
