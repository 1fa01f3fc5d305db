import Scriptlet.Journal.Entry
import Scriptlet.Text.Columns
import Scriptlet.Text.Quoted
import Scriptlet.Tree.Value

/-!
# Rendering for terminals

Reports, echoed values, separators and titles have a style each.  A style
shows as color sequences where the terminal has colors; where color is asked
for, tabs are widened and the lines of a text are made equally long in any
case.
-/

namespace Scriptlet

structure Renderer where
  /-- Whether styles are applied at all. -/
  color : Bool := false
  /-- Whether the terminal shows colors. -/
  sequences : Bool := false
  deriving DecidableEq, Repr, Inhabited

inductive Style where
  | diagnostics
  | echo
  | separator
  | title
  deriving DecidableEq, Repr

namespace Style

def parameters : Style → String
  | diagnostics => "38;2;239;68;68"
  | echo => "38;2;245;158;11"
  | separator => "38;2;107;113;128"
  | title => "1;38;2;124;58;237"

def line (s : Style) (sequences : Bool) (content : Bytes) : Bytes :=
  if sequences then
    utf8 "\x1b[" ++ utf8 s.parameters ++ utf8 "m" ++ content ++ utf8 "\x1b[0m"
  else content

def widenTabs (s : Bytes) : Bytes := s.flatMap fun b => if b == 0x09 then Bytes.spaces 4 else [b]

/--
A newline for each carriage return and newline.  The second component says
whether the text so far starts with a newline that is not yet part of a pair.
-/
def unifyBreaks (s : Bytes) : Bytes :=
  (s.foldr (fun b (rest, unpaired) =>
    if b == 0x0D && unpaired then (rest, false) else (b :: rest, b == newline)) ([], false)).1

def apply (s : Style) (sequences : Bool) (content : Bytes) : Bytes :=
  let lines := (Bytes.pieces (unifyBreaks (widenTabs content))).map (s.line sequences)
  let widest := (lines.map Columns.width).foldl max 0
  Bytes.join [newline] <| lines.map fun l => l ++ Bytes.spaces (widest - Columns.width l)

end Style

namespace Renderer

def styled (r : Renderer) (s : Style) (content : Bytes) : Bytes :=
  if r.color then s.apply r.sequences content else content

def diagnostics (r : Renderer) (report : Bytes) : Bytes :=
  if r.color && !report.isEmpty then
    Bytes.join [newline] ((Bytes.pieces report).map (r.styled .diagnostics))
  else report

def echo (r : Renderer) (v : Value) : Bytes :=
  r.styled .echo <|
    match v with
    | .text s => Quoted.quoted s
    | v => v.shown

def separator (r : Renderer) (name runId : Bytes) : Bytes :=
  r.styled .separator
    (utf8 "---- " ++ name ++ utf8 " (run " ++ Entry.shortRunId runId ++ utf8 ") ----")

def title (r : Renderer) (content : Bytes) : Bytes := r.styled .title content

end Renderer

end Scriptlet
