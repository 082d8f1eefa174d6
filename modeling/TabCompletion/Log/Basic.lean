import TabCompletion.Value.Json

/-!
The log. Lines go to the editor while a connection is attached, and to the console otherwise or
when the connection fails. A pinned level outlives every later configuration.
-/

namespace TabCompletion.Log

inductive Level where
  | error | warn | info | debug
  deriving DecidableEq

namespace Level

def all : List Level := [.error, .warn, .info, .debug]

/-- The rank of a level; the editor's message types count from one. -/
def rank : Level → Nat
  | .error => 0
  | .warn => 1
  | .info => 2
  | .debug => 3

def text : Level → Text
  | .error => "ERROR"
  | .warn => "WARN"
  | .info => "INFO"
  | .debug => "DEBUG"

def ofText? (name : Text) : Option Level := all.find? (·.text == name)

/-- The level that a setting names, in any letter case; anything unknown means `info`. -/
def ofSetting (name : Text) : Level :=
  let lowered := Text.lower name
  let is (word : String) : Bool := lowered == Text.ofString word
  if is "error" then .error
  else if is "warn" || is "warning" then .warn
  else if is "debug" || is "trace" then .debug
  else .info

end Level

structure Connection where
  failure : Option Text := none

inductive Channel where
  | log | warn | error
  deriving DecidableEq

def Channel.text : Channel → Text
  | .log => "log"
  | .warn => "warn"
  | .error => "error"

inductive Line where
  | console (channel : Channel) (text : Text)
  | notify (level : Level) (text : Text)

structure Logger where
  enabled : Bool := false
  level : Level := .info
  /-- Shown in brackets before every message. -/
  label : Option Text := none
  connection : Option Connection := none
  pinned : Option Level := none

def lineText (label : Option Text) (message : Text) (arguments : List Value) : Text :=
  let head := match label with
    | some name => if name.isEmpty then message else "[" ++ name ++ "] " ++ message
    | none => message
  Text.join " " (head :: arguments.map Value.logText)

structure Settings where
  enabled : Option Bool := none
  level : Option Level := none
  label : Option Text := none
  connection : Option (Option Connection) := none

namespace Logger

/-- Turns the log on. The connection stays unless another one is named, and the label goes unless
it is given again. -/
def configure (l : Logger) (s : Settings) : Logger :=
  { enabled := s.enabled.getD true
    level := l.pinned.getD (s.level.getD .info)
    label := s.label
    connection := s.connection.getD l.connection
    pinned := l.pinned }

def setConnection (l : Logger) (connection : Option Connection) : Logger := { l with connection }

def setLevel (l : Logger) (level : Level) : Logger := { l with enabled := true, level, pinned := some level }

def clearPinned (l : Logger) : Logger := { l with pinned := none }

def consoleLine (level : Level) (text : Text) : Line :=
  match level with
  | .error => .console .error text
  | .warn => .console .warn text
  | .info => .console .log text
  | .debug => .console .log ("DEBUG: " ++ text)

def write (l : Logger) (level : Level) (message : Text) (arguments : List Value := []) : List Line :=
  if !l.enabled || l.level.rank < level.rank then []
  else
    let text := lineText l.label message arguments
    match l.connection with
    | none => [consoleLine level text]
    | some connection =>
        match connection.failure with
        | none => [.notify level text]
        | some failure =>
            [.console .warn ("[Logger] window/logMessage failed, using the console: " ++ failure),
              consoleLine level text]

end Logger

end TabCompletion.Log
