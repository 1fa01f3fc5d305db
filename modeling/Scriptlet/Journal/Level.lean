import Scriptlet.Text.Blank
import Scriptlet.Text.Lowercase

/-!
# Levels and formats of the log

Levels are ranked by their importance.  A number that is none of the ranks is
still comparable.  An entry is written if its level reaches the least level
of the logger; the level `off` is never written and turns a logger off.
-/

namespace Scriptlet

structure Level where
  rank : Int
  deriving DecidableEq, Repr, Inhabited

namespace Level

def trace : Level := ⟨0⟩

def debug : Level := ⟨1⟩

def info : Level := ⟨2⟩

def warn : Level := ⟨3⟩

def error : Level := ⟨4⟩

def off : Level := ⟨5⟩

def all : List Level := [trace, debug, info, warn, error, off]

def name (l : Level) : String :=
  match l.rank with
  | 0 => "trace"
  | 1 => "debug"
  | 2 => "info"
  | 3 => "warn"
  | 4 => "error"
  | 5 => "off"
  | _ => "unknown"

def shortName (l : Level) : String :=
  match l.rank with
  | 0 => "TRC"
  | 1 => "DBG"
  | 2 => "INF"
  | 3 => "WRN"
  | 4 => "ERR"
  | _ => "???"

def color (l : Level) : String :=
  match l.rank with
  | 0 => "\x1b[37m"
  | 1 => "\x1b[36m"
  | 2 => "\x1b[32m"
  | 3 => "\x1b[33m"
  | 4 => "\x1b[31m"
  | _ => "\x1b[0m"

def reaches (l least : Level) : Bool :=
  l != off && least != off && least.rank ≤ l.rank

def spellings : List (Level × List String) :=
  [(trace, ["trace", "trc"]), (debug, ["debug", "dbg"]),
    (info, ["info", "inf", "information"]), (warn, ["warn", "wrn", "warning"]),
    (error, ["error", "err"]), (off, ["off", "none", "silent"])]

def parse? (s : Bytes) : Option Level :=
  let word := Lowercase.lower (Blank.trim s)
  (spellings.find? fun entry => entry.2.any fun n => utf8 n == word).map Prod.fst

def complaint (s : Bytes) : Bytes := utf8 "invalid level: " ++ s

end Level

inductive Format where
  | json
  | text
  | console
  | logfmt
  | unknown
  deriving DecidableEq, Repr, Inhabited

namespace Format

def ofCode : Int → Format
  | 0 => json
  | 1 => text
  | 2 => console
  | 3 => logfmt
  | _ => unknown

def name : Format → String
  | json => "json"
  | text => "text"
  | console => "console"
  | logfmt => "logfmt"
  | unknown => "unknown"

/-- An unknown format writes JSON. -/
def effective : Format → Format
  | unknown => json
  | f => f

def parse? (s : Bytes) : Option Format :=
  let word := Lowercase.lower (Blank.trim s)
  [json, text, console, logfmt].find? fun f => utf8 f.name == word

def complaint (s : Bytes) : Bytes := utf8 "invalid format: " ++ s

end Format

end Scriptlet
