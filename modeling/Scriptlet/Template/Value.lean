import Scriptlet.Datum.Basic
import Scriptlet.Template.Number

/-!
# Values in templates

How a verb writes a value.  A verb that does not suit a value is reported in
its place, together with the type of the value and the value itself, which is
then written under the same options.
-/

namespace Scriptlet.Template

def typeName : Datum → String
  | .nil => "<nil>"
  | .int _ => "int"
  | .float _ => "float64"
  | .text _ => "string"
  | .bool _ => "bool"
  | .list _ => "[]interface \x7b\x7d"
  | .map _ => "map[string]interface \x7b\x7d"
  | .error _ [] => "*errors.errorString"
  | .error .. => "*error.Error"

def refusal (verb : Char) (described : Bytes) : Bytes :=
  utf8 "%!" ++ Rune.encode verb.toNat ++ utf8 "(" ++ described ++ utf8 ")"

def mismatch (verb : Char) (value : Datum) (shown : Bytes) : Bytes :=
  refusal verb (utf8 (typeName value) ++ utf8 "=" ++ shown)

def braced (s : Bytes) : Bytes := utf8 "\x7b" ++ s ++ utf8 "\x7d"

def truth (b : Bool) : Bytes := utf8 (if b then "true" else "false")

def errorRecord (o : Options) (text : Bytes) : Bytes :=
  utf8 "&" ++ (if o.denoting then utf8 "errors.errorString" else [])
    ++ braced ((if o.denoting || o.named then utf8 "s:" else []) ++ text)

def writeText (o : Options) (verb : Char) (s : Bytes) : Bytes :=
  (text? o verb s).getD (mismatch verb (.text s) ((text? o 'v' s).getD s))

def reportedError (o : Options) (s : Bytes) : Bytes :=
  errorRecord o (writeText o 'v' s)

def writeError (o : Options) (verb : Char) (nested : Bool) (s : Bytes) : Bytes :=
  if verb == 'w' then mismatch verb (.error s []) (reportedError o s)
  else if o.denoting then reportedError o s
  else
    (text? o verb s).getD
      (if nested then mismatch verb (.error s []) (reportedError o s)
      else errorRecord o (writeText o verb s))

mutual

/-- A value as a verb writes it; inside a list or map an absent value has one form. -/
def write (o : Options) (verb : Char) (nested : Bool) : Datum → Bytes
  | .nil =>
    if nested then utf8 (if o.denoting then "interface \x7b\x7d(nil)" else "<nil>")
    else if verb == 'v' then o.pad (utf8 "<nil>")
    else refusal verb (utf8 "<nil>")
  | .int i => (integer? o verb i).getD (mismatch verb (.int i) ((integer? o 'v' i).getD []))
  | .float x => (float? o verb x).getD (mismatch verb (.float x) ((float? o 'v' x).getD []))
  | .text s => writeText o verb s
  | .bool b =>
    if verb == 'v' || verb == 't' then o.pad (truth b)
    else mismatch verb (.bool b) (o.pad (truth b))
  | .error s [] => writeError o verb nested s
  -- The record of an error that exports more holds addresses, and its text stands for it.
  | .error s _ => writeText o verb s
  | .list items =>
    let parts := writeList o verb items
    if o.denoting then utf8 (typeName (.list [])) ++ braced (Bytes.join (utf8 ", ") parts)
    else utf8 "[" ++ Bytes.join [space] parts ++ utf8 "]"
  | .map entries =>
    let parts := writeEntries o verb entries
    if o.denoting then utf8 (typeName (.map [])) ++ braced (Bytes.join (utf8 ", ") parts)
    else utf8 "map[" ++ Bytes.join [space] parts ++ utf8 "]"

def writeList (o : Options) (verb : Char) : List Datum → List Bytes
  | [] => []
  | item :: items => write o verb true item :: writeList o verb items

def writeEntries (o : Options) (verb : Char) : List (Bytes × Datum) → List Bytes
  | [] => []
  | (key, value) :: entries =>
    (writeText o verb key ++ utf8 ":" ++ write o verb true value) :: writeEntries o verb entries

end

def isComposite : Datum → Bool
  | .list _ | .map _ => true
  | _ => false

/--
The text of one directive.  The verbs `v` and `w` give two flags a meaning of
their own, and `w` suits no value.
-/
def directive (o : Options) (verb : Char) (value : Datum) : Bytes :=
  let general : Options :=
    { o with denoting := o.sharp, named := o.plus, sharp := false, plus := false }
  match verb, value with
  | 'T', .nil => o.pad (utf8 (typeName .nil))
  | 'T', _ => o.pad (o.truncate (utf8 (typeName value)))
  | 'v', _ => write general 'v' false value
  | 'w', _ =>
    if isComposite value then mismatch 'w' value (write general 'v' false value)
    else write general 'w' false value
  | _, _ => write o verb false value

end Scriptlet.Template
