import TabCompletion.Editor.Configuration
import TabCompletion.Editor.Item
import TabCompletion.Editor.Notifier

/-!
The language server. It takes the events of a client one at a time; each event gives a reply,
messages to the client and the server that takes the next event. Completions are answered once the
client has said that it is ready.
-/

namespace TabCompletion.Editor

inductive Event where
  | started (options : Json)
  | ready
  | configurationChanged (settings : Json)
  | completionAsked (document : Text) (position : Position)
  | opened (document text : Text)
  | changed (document : Text) (hasVersion : Bool) (changes : List Change)
  | closed (document : Text)

structure ReadyNotice where
  message : Text
  sessionAvailable : Bool

inductive Message where
  | listen
  | log (line : Log.Line)
  /-- Asks for a section of the client's settings. -/
  | askConfiguration (part : Text)
  | ready (notice : ReadyNotice)

inductive Reply where
  | nothing
  | capabilities
  | items (items : List Item)
  /-- Nobody answers such an event yet. -/
  | unhandled

inductive EventError where
  | completion (failure : Failure)
  | change (error : ChangeError)

structure Client where
  /-- The settings of the client, or why it does not give them. -/
  configuration : Except Text Json := .ok .null
  /-- Why notifications do not arrive. -/
  notificationFailure : Option Text := none

def settingsSection : Text := "shellCompletion"

def triggerCharacters : List String := [".", ":", "-", "$", "\\", "/", "["]

structure Server where
  setup : Setup := {}
  notifier : Notifier Unit := {}
  documents : Documents := []
  engine : EngineState := {}
  /-- Whether completions are answered. -/
  completes : Bool := false

namespace Server

def log (s : Server) (level : Log.Level) (message : Text) : List Message :=
  (s.setup.logger.write level message).map .log

def start : Server × List Message :=
  let server : Server :=
    { setup := { logger := Log.Logger.setConnection {} (some {}) }, notifier := Notifier.connect {} () }
  (server, .listen :: server.log .info "🎯 Completion LSP Server started and listening...")

def hasSession (world : World) : Bool := world.session.any (·.isAvailable)

def yesNo (b : Bool) : Text := if b then "yes" else "no"

def begin (world : World) (s : Server) (options : Json) : Server × List Message :=
  let (setup, lines) := s.setup.start options
  let server := { s with setup }
  let told := server.log .info ("🚀 Initializing completion server (parser: " ++ yesNo world.parse.isSome
    ++ ", session: " ++ yesNo (hasSession world) ++ ")")
  (server, lines.map .log ++ told)

def configure (s : Server) (settings : Json) : Server × List Message :=
  let (setup, lines) := s.setup.update settings
  ({ s with setup }, lines.map .log)

def refresh (client : Client) (s : Server) : Server × List Message :=
  match client.configuration with
  | .ok settings =>
      let (server, told) := s.configure settings
      (server, .askConfiguration settingsSection :: told)
  | .error failure =>
      (s, .askConfiguration settingsSection
        :: s.log .warn ("⚠️ Could not read client configuration: " ++ Value.errorText failure))

def announce (world : World) (client : Client) (s : Server) : List Message :=
  let notice : ReadyNotice :=
    { message := "Completion server is ready."
      sessionAvailable := world.parse.isSome && hasSession world }
  (s.notifier.ready notice).flatMap fun (_, sent) =>
    .ready sent :: client.notificationFailure.toList.flatMap fun failure =>
      s.log .warn ("⚠️ Failed to send " ++ Notifier.readyMethod ++ ": " ++ Value.errorText failure)

def complete (world : World) (s : Server) (document : Text) (position : Position) :
    Server × List Message × Except Failure (List Item) :=
  match Assoc.get? s.documents document with
  | none => (s, [], .ok [])
  | some d =>
      let (outcome, engine) := Engine.run world s.engine
        (Engine.completeInput d.text (d.offsetAt position) { options := s.setup.configuration.completion })
      let told := if Engine.obstacle? world world.session == some .noParser then
          s.log .warn "⚠️ No script parser registered, input completion is unavailable"
        else []
      ({ s with engine }, told, outcome.map fun completion => items completion d)

def handle (world : World) (client : Client) (s : Server) (event : Event) :
    Server × List Message × Except EventError Reply :=
  match event with
  | .started options =>
      let (server, told) := s.begin world options
      (server, told, .ok .capabilities)
  | .ready =>
      let (server, told) := { s with completes := true }.refresh client
      (server, told ++ server.announce world client, .ok .nothing)
  | .configurationChanged settings =>
      let noted := s.log .info "🔄 Configuration changed, updating server settings..."
      let (server, told) := match settings.field? settingsSection with
        | some found => s.configure found
        | none => s.refresh client
      (server, noted ++ told, .ok .nothing)
  | .completionAsked document position =>
      if s.completes then
        let (server, told, outcome) := s.complete world document position
        (server, told, match outcome with
          | .ok found => .ok (.items found)
          | .error failure => .error (.completion failure))
      else (s, [], .ok .unhandled)
  | .opened document text => ({ s with documents := s.documents.openText document text }, [], .ok .nothing)
  | .changed document hasVersion changes =>
      let (documents, error) := s.documents.change document hasVersion changes
      ({ s with documents }, [], match error with
        | some e => .error (.change e)
        | none => .ok .nothing)
  | .closed document => ({ s with documents := s.documents.close document }, [], .ok .nothing)

end Server

end TabCompletion.Editor
