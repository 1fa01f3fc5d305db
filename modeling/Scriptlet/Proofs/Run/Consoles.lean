import Scriptlet.Proofs.Run.Execution

/-!
# Attempts on a console

A console keeps every attempt, so what happened between two consoles is a list
of writes (`Console.Wrote`).  A script fixes that list, and what becomes of the
attempts on one stream does not depend on the other streams
(`Agree.exists_wrote_filter`).
-/

namespace Scriptlet

namespace Console

/-- The attempts that lead from one console to another, in order. -/
inductive Wrote : Console → List Write → Console → Prop
  | nil (c : Console) : Wrote c [] c
  | cons {c after : Console} {stream : Stream} {content : Bytes} {ws : List Write}
      (rest : Wrote (c.write stream content) ws after) :
      Wrote c (⟨stream, content, c.accepts stream⟩ :: ws) after

namespace Wrote

variable {a b c : Console} {us ws : List Write}

theorem single (c : Console) (stream : Stream) (content : Bytes) :
    Wrote c [⟨stream, content, c.accepts stream⟩] (c.write stream content) :=
  .cons (.nil _)

theorem append (h : Wrote a us b) (h' : Wrote b ws c) : Wrote a (us ++ ws) c := by
  induction h with
  | nil => exact h'
  | cons rest ih => exact .cons (ih h')

theorem writes (h : Wrote a ws b) : b.writes.toList = a.writes.toList ++ ws := by
  induction h with
  | nil => simp
  | cons rest ih =>
      rw [ih]
      simp [write]

theorem accepted_of_unlimited (h : Wrote a ws b) {w : Write} (hw : w ∈ ws)
    (hlimit : a.limit w.stream = none) : w.accepted = true := by
  induction h with
  | nil => cases hw
  | cons rest ih =>
      rcases List.mem_cons.mp hw with rfl | hlater
      · exact accepts_of_unlimited hlimit
      · exact ih hlater hlimit

theorem output (h : Wrote a ws b) (stream : Stream) :
    b.output stream a.writes.size =
      ((ws.filter Write.accepted).filter fun w => w.stream == stream).flatMap
        Write.content := by
  rw [Console.output, Console.accepted, h.writes, ← Array.length_toList, List.drop_left]

end Wrote

/-! ## Scripts -/

theorem Wrote.unique {a b c : Console} {us ws : List Write} (h : a.Wrote us b)
    (h' : a.Wrote ws c)
    (hsame : us.map (fun w => (w.stream, w.content)) = ws.map fun w => (w.stream, w.content)) :
    us = ws := by
  induction h generalizing ws c with
  | nil =>
      rw [List.map_nil, eq_comm, List.map_eq_nil_iff] at hsame
      exact hsame.symm
  | cons rest ih =>
      cases h' with
      | nil => simp at hsame
      | cons rest' =>
          obtain ⟨hfirst, hlater⟩ := List.cons.inj hsame
          cases hfirst
          rw [ih rest' hlater]

theorem exists_wrote_perform (c : Console) (script : Script) :
    ∃ ws, Wrote c ws (c.perform script) ∧
      ws.map (fun w => (w.stream, w.content)) = script := by
  induction script generalizing c with
  | nil => exact ⟨[], .nil c, rfl⟩
  | cons entry script ih =>
      obtain ⟨ws, hwrote, hcontents⟩ := ih (c.write entry.1 entry.2)
      exact ⟨_, .cons hwrote, by rw [List.map_cons, hcontents]⟩

theorem writeAll_eq_perform (c : Console) (stream : Stream) (contents : List Bytes) :
    c.writeAll stream contents = c.perform (contents.map (stream, ·)) := by
  rw [writeAll, perform, List.foldl_map]

theorem exists_wrote_writeAll (c : Console) (stream : Stream) (lines : List Bytes) :
    ∃ ws, Wrote c ws (c.writeAll stream lines) ∧ (∀ w ∈ ws, w.stream = stream) ∧
      ws.map Write.content = lines := by
  obtain ⟨ws, hwrote, hcontents⟩ := c.exists_wrote_perform (lines.map (stream, ·))
  rw [← writeAll_eq_perform] at hwrote
  refine ⟨ws, hwrote, fun w hw => ?_, ?_⟩
  · have hentry : (w.stream, w.content) ∈ lines.map (stream, ·) :=
      hcontents ▸ List.mem_map_of_mem hw
    obtain ⟨line, -, hline⟩ := List.mem_map.mp hentry
    exact (Prod.mk.inj hline).1.symm
  · simpa [Function.comp_def] using congrArg (List.map Prod.snd) hcontents

/-! ## Consoles that agree on a stream -/

/-- Both consoles have accepted and will accept as much on the stream. -/
structure Agree (stream : Stream) (c c' : Console) : Prop where
  limit : c.limit stream = c'.limit stream
  attempts : c.attempts stream = c'.attempts stream

namespace Agree

variable {stream : Stream} {c c' : Console}

theorem refl (stream : Stream) (c : Console) : c.Agree stream c := ⟨rfl, rfl⟩

variable (h : c.Agree stream c')
include h

theorem accepts : c.accepts stream = c'.accepts stream := by
  rw [Console.accepts, Console.accepts, h.limit, h.attempts]

theorem write (other : Stream) (content : Bytes) :
    (c.write other content).Agree stream (c'.write other content) := by
  refine ⟨h.limit, ?_⟩
  rw [attempts_write, attempts_write, h.attempts]

private theorem write_other {other : Stream} (hother : other ≠ stream) (content : Bytes) :
    (c.write other content).Agree stream c' := by
  refine ⟨h.limit, ?_⟩
  rw [attempts_write, if_neg hother, Nat.add_zero, h.attempts]

theorem perform (script : Script) : (c.perform script).Agree stream (c'.perform script) := by
  induction script generalizing c c' with
  | nil => exact h
  | cons entry script ih => exact ih (h.write entry.1 entry.2)

theorem writeAll (other : Stream) (contents : List Bytes) :
    (c.writeAll other contents).Agree stream (c'.writeAll other contents) := by
  rw [writeAll_eq_perform, writeAll_eq_perform]
  exact h.perform _

/-- What becomes of the attempts on one stream does not depend on the others. -/
theorem exists_wrote_filter {ws : List Write} {after : Console} (hwrote : c.Wrote ws after) :
    ∃ after', c'.Wrote (ws.filter fun w => w.stream == stream) after' := by
  induction hwrote generalizing c' with
  | nil => exact ⟨c', .nil c'⟩
  | @cons c after other content ws rest ih =>
      by_cases hother : other = stream
      · subst hother
        obtain ⟨after', hrest⟩ := ih (h.write other content)
        rw [List.filter_cons_of_pos (by simp), h.accepts]
        exact ⟨after', .cons hrest⟩
      · rw [List.filter_cons_of_neg (by simpa using hother)]
        exact ih (h.write_other hother content)

end Agree

end Console

end Scriptlet
