import Scriptlet.Settings.Basic

/-!
# Loading settings
-/

namespace Scriptlet.Settings

def loadFault (path : Bytes) (f : Fault) : Fault :=
  f.update fun own =>
    { (own.withCode .configuration).withDetail (utf8 "path") (.text path) with
      operation := utf8 "config.load" }

/-- How the content of a file is read in either format; none if it cannot be read. -/
structure Decoders where
  toml : Bytes → Option Patch := fun content => (Toml.parse? content).bind Toml.patch?
  yaml : Bytes → Option Patch := fun content =>
    (Yaml.parse? content).bind fun document => (document.map Yaml.patch?).getD (some {})

def patch? (decoders : Decoders) (suffix content : Bytes) : Option (Option Patch) :=
  if suffix == utf8 ".toml" then some (decoders.toml content)
  else if suffix == utf8 ".yaml" || suffix == utf8 ".yml" then some (decoders.yaml content)
  else none

def layered (file : Patch) (env : Environment) : Settings :=
  (({} : Settings).apply file.withoutEmpty).apply (Patch.ofEnvironment env)

def malformed : Fault := .coded { message := utf8 "parse config" }

def load (files : Files) (env : Environment) (path : Bytes) (decoders : Decoders := {}) :
    Except Fault Settings :=
  let path := env.expand path
  match files.read path with
  | .error complaint =>
    .error (loadFault path ((Fault.plain complaint).wrap (utf8 "read config")))
  | .ok content =>
    let suffix := Lowercase.lower (Path.suffix path)
    match patch? decoders suffix content with
    | none =>
      let message := utf8 "unsupported config format " ++ Quoted.quoted suffix
      .error (loadFault path (.coded { message := message }))
    | some none => .error (loadFault path malformed)
    | some (some patch) => .ok (layered patch env)

def defaultPaths (env : Environment) : List Bytes :=
  [utf8 "./lox.toml", utf8 "./lox.yaml", utf8 "./lox.yml"]
    ++ ((env.nonempty? (utf8 "HOME")).map fun home =>
      Path.join [home, utf8 ".config", utf8 "lox", utf8 "config.toml"]).toList

def loadDefault (files : Files) (env : Environment) (decoders : Decoders := {}) :
    Except Fault Settings :=
  match env.nonempty? (utf8 "LOX_CONFIG") with
  | some path => load files env path decoders
  | none =>
    match (defaultPaths env).find? files.exists? with
    | some path => load files env path decoders
    | none => .ok (layered {} env)

end Scriptlet.Settings
