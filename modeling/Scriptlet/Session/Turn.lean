import Scriptlet.Text.Blank

/-!
# Turns

Interactive sessions treat an entered line in one of three ways.  White space
around the line does not matter to the choice.
-/

namespace Scriptlet

/-- What an interactive session shows and listens to; neither text is empty. -/
structure Dialogue where
  prompt : Bytes := utf8 "> "
  exitCommand : Bytes := utf8 "exit"
  prompt_ne_nil : prompt ≠ [] := by decide
  exitCommand_ne_nil : exitCommand ≠ [] := by decide
  deriving DecidableEq, Repr

instance : Inhabited Dialogue := ⟨{}⟩

namespace Dialogue

private theorem ite_isEmpty_ne_nil {usual : Bytes} (h : usual ≠ []) (s : Bytes) :
    (if s.isEmpty then usual else s) ≠ [] := by
  cases s with
  | nil => exact h
  | cons b s => exact List.cons_ne_nil b s

/-- A dialogue in which empty texts stand for the usual ones. -/
def ofTexts (prompt exitCommand : Bytes) : Dialogue :=
  let usual : Dialogue := {}
  ⟨if prompt.isEmpty then usual.prompt else prompt,
    if exitCommand.isEmpty then usual.exitCommand else exitCommand,
    ite_isEmpty_ne_nil usual.prompt_ne_nil prompt,
    ite_isEmpty_ne_nil usual.exitCommand_ne_nil exitCommand⟩

end Dialogue

inductive Turn where
  | skip
  | leave
  | run
  deriving DecidableEq, Repr, Inhabited

def Dialogue.turn (d : Dialogue) (line : Bytes) : Turn :=
  let trimmed := Blank.trim line
  if trimmed == d.exitCommand then .leave
  else if trimmed.isEmpty then .skip
  else .run

end Scriptlet
