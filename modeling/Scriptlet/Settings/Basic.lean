import Scriptlet.Clock.Duration
import Scriptlet.Fault.Basic
import Scriptlet.Journal.Logger
import Scriptlet.Token.Scan
import Scriptlet.Toml.Draft
import Scriptlet.World.Files
import Scriptlet.Yaml.Mapping

/-!
# Settings

The settings of the program come in layers: the defaults, a configuration
file, the environment and the command line.  A layer is a patch; it changes
the settings that it names and no others.
-/

namespace Scriptlet

structure Settings where
  color : Bool := true
  unterminated : Bytes := utf8 "error"
  prompt : Bytes := utf8 "> "
  echo : Bool := true
  exitCommand : Bytes := utf8 "exit"
  tui : Bool := false
  debounce : Duration := Duration.ofMilliseconds 200
  logLevel : Bytes := utf8 "warn"
  logFormat : Bytes := utf8 "text"
  deriving Inhabited

structure Patch where
  color : Option Bool := none
  unterminated : Option Bytes := none
  prompt : Option Bytes := none
  echo : Option Bool := none
  exitCommand : Option Bytes := none
  tui : Option Bool := none
  debounce : Option Duration := none
  logLevel : Option Bytes := none
  logFormat : Option Bytes := none
  deriving Inhabited

namespace Settings

def apply (s : Settings) (p : Patch) : Settings :=
  { color := p.color.getD s.color
    unterminated := p.unterminated.getD s.unterminated
    prompt := p.prompt.getD s.prompt
    echo := p.echo.getD s.echo
    exitCommand := p.exitCommand.getD s.exitCommand
    tui := p.tui.getD s.tui
    debounce := p.debounce.getD s.debounce
    logLevel := p.logLevel.getD s.logLevel
    logFormat := p.logFormat.getD s.logFormat }

/-! ## Validation -/

def problems (s : Settings) : List Bytes :=
  let complain (ok : Bool) (label : String) (complaint : Bytes) : List Bytes :=
    if ok then [] else [utf8 label ++ complaint]
  complain (Level.parse? s.logLevel).isSome "log.level: " (Level.complaint s.logLevel)
    ++ complain (Format.parse? s.logFormat).isSome "log.format: " (Format.complaint s.logFormat)
    ++ complain (Unterminated.parse? s.unterminated).isSome "scanner.unterminated: "
      (Unterminated.complaint s.unterminated)
    ++ complain (0 < s.debounce.nanoseconds) "watch.debounce: must be positive, got "
      s.debounce.text

def invalid? (s : Settings) : Option Fault :=
  match s.problems with
  | [] => none
  | problems =>
    let own : Particulars :=
      { message := utf8 "invalid configuration: " ++ Bytes.join (utf8 "; ") problems }
    some (.coded { own.withCode .configuration with operation := utf8 "config.validate" })

/-- The scanning policy; a name that is no policy means `error`. -/
def policy (s : Settings) : Unterminated := (Unterminated.parse? s.unterminated).getD .error

end Settings

namespace Patch

/-- An empty text and a duration of zero name nothing. -/
def withoutEmpty (p : Patch) : Patch :=
  let nonempty (s : Option Bytes) : Option Bytes := s.filter fun t => !t.isEmpty
  { p with
    unterminated := nonempty p.unterminated
    prompt := nonempty p.prompt
    exitCommand := nonempty p.exitCommand
    logLevel := nonempty p.logLevel
    logFormat := nonempty p.logFormat
    debounce := p.debounce.filter fun d => d.nanoseconds != 0 }

/-! ## Environment -/

def boolean? (s : Bytes) : Option Bool :=
  if (["1", "t", "T", "true", "TRUE", "True"].map utf8).contains s then some true
  else if (["0", "f", "F", "false", "FALSE", "False"].map utf8).contains s then some false
  else none

/-- What the environment names; the mere presence of one variable turns color off. -/
def ofEnvironment (env : Environment) : Patch :=
  { logLevel := env.nonempty? (utf8 "LOX_LOG_LEVEL")
    logFormat := env.nonempty? (utf8 "LOX_LOG_FORMAT")
    prompt := env.nonempty? (utf8 "LOX_PROMPT")
    unterminated := env.nonempty? (utf8 "LOX_UNTERMINATED")
    color :=
      if (env.get? (utf8 "NO_COLOR")).isSome then some false
      else (env.nonempty? (utf8 "LOX_COLOR")).bind boolean? }

/-! ## Files -/

structure Key (Item : Type) where
  group : String
  name : String
  read : Item → Patch → Option Patch

def keys {Item : Type} (boolean : Item → Option (Option Bool))
    (text : Item → Option (Option Bytes)) (duration : Item → Option (Option Duration)) :
    List (Key Item) :=
  [⟨"general", "color", fun i p => (boolean i).map fun v => { p with color := v.or p.color }⟩,
    ⟨"scanner", "unterminated",
      fun i p => (text i).map fun v => { p with unterminated := v.or p.unterminated }⟩,
    ⟨"repl", "prompt", fun i p => (text i).map fun v => { p with prompt := v.or p.prompt }⟩,
    ⟨"repl", "echo", fun i p => (boolean i).map fun v => { p with echo := v.or p.echo }⟩,
    ⟨"repl", "exit_command",
      fun i p => (text i).map fun v => { p with exitCommand := v.or p.exitCommand }⟩,
    ⟨"repl", "tui", fun i p => (boolean i).map fun v => { p with tui := v.or p.tui }⟩,
    ⟨"watch", "debounce",
      fun i p => (duration i).map fun v => { p with debounce := v.or p.debounce }⟩,
    ⟨"log", "level", fun i p => (text i).map fun v => { p with logLevel := v.or p.logLevel }⟩,
    ⟨"log", "format", fun i p => (text i).map fun v => { p with logFormat := v.or p.logFormat }⟩]

def sections : List String := ["general", "scanner", "repl", "watch", "log"]

def duration? (s : Bytes) : Option Duration :=
  match Duration.parse s with
  | .ok d => some d
  | .error _ => none

end Patch

/-! ### Tables -/

namespace Toml

/--
Letters that differ only in case are the same in a key; two characters beyond
ASCII have an ASCII letter as their other case.
-/
def folded (key : Bytes) : Bytes :=
  (Utf8.runes key).flatMap fun r =>
    if r.code == 0x17F then utf8 "s"
    else if r.code == 0x212A then utf8 "k"
    else r.bytes.map Bytes.lowerAscii

/-- The items under a key: those in other letters first, the exact one last. -/
def itemsOf (t : Table) (key : String) : List Item :=
  let same := t.filter fun entry => folded entry.1 == utf8 key
  ((same.filter fun entry => entry.1 != utf8 key)
    ++ (same.filter fun entry => entry.1 == utf8 key)).map Prod.snd

def boolean : Item → Option (Option Bool)
  | .boolean b => some (some b)
  | _ => none

def text : Item → Option (Option Bytes)
  | .text s => some (some s)
  | _ => none

/-- A duration is a text; a number is read as its digits, and only zero needs no unit. -/
def duration : Item → Option (Option Duration)
  | .text s => (Patch.duration? s).map some
  | .integer i => (Patch.duration? (Bytes.ofInt i)).map some
  | _ => none

def entriesOf? : Item → Option Table
  | .table t => some t
  | _ => none

def patch? (document : Table) : Option Patch :=
  if Patch.sections.all fun name => (itemsOf document name).all fun i => (entriesOf? i).isSome
  then
    (Patch.keys boolean text duration).foldlM (fun p (key : Patch.Key Item) =>
      ((itemsOf document key.group).filterMap entriesOf?).foldlM (fun p t =>
        (itemsOf t key.name).foldlM (fun p i => key.read i p) p) p) {}
  else none

end Toml

/-! ### Mappings -/

namespace Yaml

def boolean (d : Document) (node : Node) : Option (Option Bool) :=
  match d.meaning? node with
  | some .null => some none
  | some (.boolean b) => some (some b)
  | some (.text s) =>
    if isOneOf ["y", "Y", "yes", "on"] s then some (some true)
    else if isOneOf ["n", "N", "no", "off"] s then some (some false)
    else none
  | _ => none

def text (d : Document) (node : Node) : Option (Option Bytes) := d.text? node

/-- A duration is read from the text of its scalar, whatever the scalar means. -/
def duration (d : Document) (node : Node) : Option (Option Duration) :=
  match d.target? node with
  | some (.scalar tag isPlain s) =>
    if Node.isNull (.scalar tag isPlain s) then (d.meaning? node).map fun _ => none
    else (Patch.duration? s).map some
  | _ => none

def sectionEntries? (d : Document) (known : List String) (node : Node) :
    Option (List (Bytes × Node)) :=
  match d.target? node with
  | some (.mapping _ _) => d.entries? (known.map utf8) node
  | some (.scalar _ _ _) => if d.meaning? node == some .null then some [] else none
  | _ => none

def itemsOf (entries : List (Bytes × Node)) (key : String) : List Node :=
  (entries.filter fun entry => entry.1 == utf8 key).map Prod.snd

def patch? (d : Document) : Option Patch :=
  let keys := Patch.keys (boolean d) (text d) (duration d)
  let namesIn (group : String) : List String :=
    (keys.filter fun key => key.group == group).map fun key => key.name
  match sectionEntries? d Patch.sections d.root with
  | none => none
  | some entries =>
    Patch.sections.foldlM (fun p group =>
      (itemsOf entries group).foldlM (fun p node =>
        match sectionEntries? d (namesIn group) node with
        | none => none
        | some inner =>
          (keys.filter fun key => key.group == group).foldlM (fun p key =>
            (itemsOf inner key.name).foldlM (fun p item => key.read item p) p) p) p) {}

end Yaml

end Scriptlet
