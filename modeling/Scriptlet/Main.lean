import Std.Time.DateTime.Timestamp
import Scriptlet.CommandLine.Execution

/-!
# The program

Finds out what the world is like, executes the arguments in it, and writes
what is to be written.
-/

namespace Scriptlet.Main

def bytesOf (b : ByteArray) : Bytes := b.data.toList

def textOf (s : Bytes) : String := String.fromUTF8! ⟨(Utf8.repair s).toArray⟩

def relevant : List String :=
  ["LOX_CONFIG", "LOX_LOG_LEVEL", "LOX_LOG_FORMAT", "LOX_PROMPT", "LOX_UNTERMINATED",
    "LOX_COLOR", "NO_COLOR", "HOME"]

def names (s : Bytes) : List Bytes :=
  (s.splitOnP fun b => !Environment.isNameByte b).filter fun n => !n.isEmpty

def lookUp (names : List String) : IO Environment :=
  names.filterMapM fun name => do
    return (← IO.getEnv name).map fun value => (utf8 name, utf8 value)

def visit (path : Bytes) : IO (Option (Bytes × Bytes)) := do
  match ← (IO.FS.readBinFile (textOf path)).toBaseIO with
  | .ok content => return some (path, bytesOf content)
  | .error (.inappropriateType ..) => return some (path ++ [Path.slash], [])
  | .error _ => return none

def paths (arguments : List Bytes) (env : Environment) : List Bytes :=
  let words := arguments.flatMap fun a => a :: (a.splitOn CommandLine.equals).drop 1
  let named := words ++ (env.nonempty? (utf8 "LOX_CONFIG")).toList
  let expanded := named ++ named.map env.expand
  (expanded ++ Settings.defaultPaths env
    ++ expanded.map fun p => Path.directory (Path.clean p)).eraseDups

partial def readAll (input : IO.FS.Stream) (done : ByteArray) : IO ByteArray := do
  let part ← input.read 65536
  if part.isEmpty then return done else readAll input (done ++ part)

def readsInput (arguments : List Bytes) : Bool :=
  match CommandLine.Request.ofArguments arguments with
  | .ok (.perform _ _ action) =>
    match action with
    | .converse => true
    | .run path | .watch path | .listTokens path | .listTree path => path == utf8 "-"
    | .describeVersion => false
  | _ => false

def look (arguments : List Bytes) : IO CommandLine.World := do
  let known ← lookUp relevant
  let mentioned := (arguments ++ known.map Prod.snd).flatMap names
  let env := known ++ (← lookUp (mentioned.map textOf).eraseDups)
  let files ← (paths arguments env).filterMapM visit
  let input ← if readsInput arguments then readAll (← IO.getStdin) ⟨#[]⟩ else pure ⟨#[]⟩
  let time ← Std.Time.Timestamp.now
  let seed := (← IO.getRandomBytes 16).data.foldl (fun n b => 256 * n + b.toNat) 0
  return {
    files := files
    environment := env
    input := bytesOf input
    directory := utf8 (← IO.currentDir).toString
    time := Moment.ofSeconds time.toSecondsSinceUnixEpoch.val.toNat
    ids := Ids.ofSeed seed
    version := Version.current (utf8 "unknown") (utf8 "unknown") }

def emit (w : Write) : IO Unit := do
  let stream ← if w.stream == .stderr then IO.getStderr else IO.getStdout
  stream.write ⟨w.content.toArray⟩
  stream.flush

end Scriptlet.Main

def main (arguments : List String) : IO UInt32 := do
  let arguments := arguments.map Scriptlet.utf8
  let world ← Scriptlet.Main.look arguments
  let ended := Scriptlet.CommandLine.execute world arguments {}
  for write in ended.console.accepted 0 do
    Scriptlet.Main.emit write
  return ended.exit.toUInt32
