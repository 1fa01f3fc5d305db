import Scriptlet.Diagnostics.Record
import Scriptlet.Fault.Basic

/-!
# Diagnostics as a fault
-/

namespace Scriptlet.Diagnostics

def code (d : Diagnostics) : Code :=
  if 0 < d.count .scan then .lexical
  else if 0 < d.count .parse then .grammatical
  else .runtime

def fault? (d : Diagnostics) : Option Fault :=
  match d with
  | [] => none
  | first :: _ =>
    let own : Particulars := { message := report d }
    some <| .coded <|
      ((own.withCode (code d)).withDetail (utf8 "errors") (.ofNat d.length)).withDetail
        (utf8 "first_line") (.int first.line)

end Scriptlet.Diagnostics
