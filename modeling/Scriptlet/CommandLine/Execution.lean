import Scriptlet.CommandLine.Request
import Scriptlet.Session.Conversation
import Scriptlet.Session.Screen
import Scriptlet.Settings.Load
import Scriptlet.Settings.LogSetup
import Scriptlet.Settings.Version

/-!
# Executing requests

A request is executed in a world: the files, the environment and the input
that the program finds.  What it leaves behind are an exit code and what it
wrote.
-/

namespace Scriptlet.CommandLine

structure World where
  files : Files := []
  environment : Environment := []
  input : Bytes := []
  directory : Bytes := utf8 "/"
  cancelled : Bool := false
  time : Moment := ⟨1, 1, 1, 0, 0, 0, 0⟩
  ids : Ids
  version : Version := Version.current [] []
  decoders : Settings.Decoders := {}
  replacement : Json.Replacement := .escaped

structure Completion where
  exit : Nat
  console : Console

namespace Completion

def succeeded (c : Console) : Completion := ⟨Exit.ok, c⟩

def complain (f : Fault) (c : Console) : Console :=
  c.write .stderr (utf8 "Error: " ++ f.text ++ [newline])

/-- Ends with a fault; one that has no code of its own is an error of usage. -/
def failed (f : Fault) (c : Console) : Completion :=
  ⟨if f.code == Code.unknown then Exit.usage else Exit.ofFault f, complain f c⟩

/-- Ends with an exit code; the fault is reported if the code is not that of success. -/
def withCode (code : Nat) (fault : Option Fault) (c : Console) : Completion :=
  match fault with
  | some f => ⟨code, if code == Exit.ok then c else complain f c⟩
  | none => ⟨code, c⟩

def ofStep (step : Step) (c : Console) : Completion := withCode step.exit step.fault c

end Completion

/-! ## Settings -/

def World.settings (w : World) (o : Options) : Except Fault Settings :=
  let loaded :=
    if o.config.isEmpty then Settings.loadDefault w.files w.environment w.decoders
    else Settings.load w.files w.environment o.config w.decoders
  match loaded with
  | .error f => .error f
  | .ok loaded =>
    let settings := loaded.apply o.patch
    match settings.invalid? with
    | some f => .error f
    | none => .ok settings

def World.setup (w : World) (o : Options) (s : Settings) : Setup :=
  let log := LogSetup.ofNames (utf8 "lox") s.logLevel s.logFormat o.logLevel o.verbose
  { policy := s.policy
    renderer := { color := s.color }
    logger := { log.logger with replacement := w.replacement }
    time := w.time
    ids := w.ids }

def loadedEvent (command : Command) (o : Options) (s : Settings) : Event :=
  Event.debug "configuration loaded" <| Fields.ofList
    [(utf8 "command", .ofName command.name), (utf8 "config", .text o.config),
      (utf8 "unterminated", .text s.unterminated)]

/-! ## Actions -/

def runFile (w : World) (s : Setup) (path : Bytes) (c : Console) : Completion :=
  let step := Runner.runFile s w.files w.input path {} (s.opened c)
  Completion.ofStep step step.console

/-- Writes one line after the other, whether or not a line is refused. -/
def writeLines (lines : List Bytes) (c : Console) : Console :=
  c.writeAll .stdout (lines.map fun line => line ++ [newline])

def list (w : World) (s : Setup) (depth : Depth) (items : Run → List Bytes) (path : Bytes)
    (c : Console) : Completion :=
  match Runner.readSource w.files w.input path with
  | .error f => Completion.withCode Exit.inputOutput (some f) c
  | .ok source =>
    let step := Runner.inspect s depth source {} (s.opened c)
    let found := match step.run with
      | some run => items run
      | none => []
    Completion.ofStep step (writeLines found step.console)

def converse (w : World) (s : Setup) (settings : Settings) (c : Console) : Completion :=
  let setup := { s with echo := settings.echo }
  let dialogue := Dialogue.ofTexts settings.prompt settings.exitCommand
  let opened := setup.opened c
  if settings.tui then
    if w.cancelled then Completion.succeeded opened
    else
      let cause := utf8 "could not open a new TTY: open /dev/tty: no such device or address"
      Completion.failed ((Fault.plain cause).wrap (utf8 "terminal session")) opened
  else
    let ended :=
      Conversation.start setup dialogue (LineSource.ofStream w.input) w.cancelled opened
    match ended.fault with
    | some f => Completion.failed f ended.console
    | none => Completion.succeeded ended.console

def describeVersion (w : World) (s : Setup) (c : Console) : Completion :=
  let description := s.renderer.title w.version.short ++ newline :: w.version.details
  if c.accepts .stdout then Completion.succeeded (c.write .stdout description)
  else Completion.failed (.plain Console.refusal) (c.write .stdout description)

/-! ### Watching -/

def World.absolute (w : World) (path : Bytes) : Bytes :=
  if Path.isAbsolute path then Path.clean path else Path.join [w.directory, path]

def unwatchable (directory : Bytes) (problem : FileProblem) : Fault :=
  ((Fault.plain (utf8 problem.message)).wrap (utf8 "watch directory")).update fun own =>
    { (own.withCode .inputOutput).withDetail (utf8 "dir") (.text directory) with
      operation := utf8 "watch.file" }

def watchEvents (target : Bytes) (debounce : Duration) : List Event :=
  let watched (message : String) (fields : Fields) : Event :=
    (Event.debug message (Fields.merge [(utf8 "path", .text target)] fields)).within
      "component" "watch"
  [watched "watching"
      [(utf8 "debounce_ms", .int (debounce.nanoseconds / Duration.millisecond))],
    watched "stopping watcher" []]

/--
Runs a file, and runs it again whenever it changes.  The files of a world do
not change, so one run is all there is until the watch is stopped.
-/
def watch (w : World) (s : Setup) (debounce : Duration) (path : Bytes) (c : Console) :
    Completion :=
  let step := Runner.runFile s w.files w.input path {} (s.opened c)
  let noted := s.note (step.fault.map Event.ofFault).toList step.console
  let runId := match step.run with
    | some run => run.id
    | none => []
  let separated := noted.write .stderr (s.renderer.separator (Path.base path) runId ++ [newline])
  match w.files.find (Path.directory (Path.clean path)) with
  | .error problem =>
    Completion.failed (unwatchable (Path.directory (w.absolute path)) problem) separated
  | .ok _ => Completion.succeeded (s.note (watchEvents (w.absolute path) debounce) separated)

/-! ## Requests -/

def perform (w : World) (s : Setup) (settings : Settings) (c : Console) : Action → Completion
  | .run path => runFile w s path c
  | .watch path => watch w s settings.debounce path c
  | .converse => converse w s settings c
  | .listTokens path => list w s .tokens (fun run => run.scan.tokens.map Token.dump) path c
  | .listTree path => list w s .program (fun run => run.program.stmts.map Stmt.shown) path c
  | .describeVersion => describeVersion w s c

def usage : Command → String
  | .root => "lox [file] [flags]"
  | .run => "lox run <file> [flags]"
  | .repl => "lox repl [flags]"
  | .tokens => "lox tokens <file|-> [flags]"
  | .tree => "lox ast <file|-> [flags]"
  | .version => "lox version [flags]"

def executeRequest (w : World) (c : Console) : Request → Completion
  | .help command =>
    Completion.succeeded (writeLines [utf8 "Usage:", utf8 "  " ++ utf8 (usage command)] c)
  | .versionNumber =>
    Completion.succeeded (writeLines [utf8 "lox version " ++ w.version.number] c)
  | .perform command options action =>
    match w.settings options with
    | .error f => Completion.failed f c
    | .ok settings =>
      let setup := w.setup options settings
      perform w setup settings (setup.note [loadedEvent command options settings] c) action

def execute (w : World) (arguments : List Bytes) (c : Console) : Completion :=
  match Request.ofArguments arguments with
  | .error e => Completion.failed (.plain e.message) c
  | .ok request => executeRequest w c request

end Scriptlet.CommandLine
