import Scriptlet.Text.Bytes

/-!
# Version
-/

namespace Scriptlet

structure Version where
  number : Bytes
  commit : Bytes
  date : Bytes
  compiler : Bytes
  platform : Bytes
  deriving Inhabited

namespace Version

def current (compiler platform : Bytes) : Version :=
  ⟨utf8 "0.3.0", utf8 "development", utf8 "unknown", compiler, platform⟩

def short (v : Version) : Bytes := utf8 "lox v" ++ v.number

def details (v : Version) : Bytes :=
  let line (label : String) (s : Bytes) : Bytes := utf8 label ++ s ++ [newline]
  line "  Git Commit: " v.commit ++ line "  Build Date: " v.date
    ++ line "  Go Version: " v.compiler ++ line "  OS/Arch:    " v.platform

def full (v : Version) : Bytes := v.short ++ newline :: v.details

end Version

end Scriptlet
