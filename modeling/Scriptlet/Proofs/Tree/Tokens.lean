import Mathlib.Data.List.TakeWhile
import Scriptlet.Tree.Program

/-!
# Where a token list ends

Reading sees the tokens before the first end token, and that end token or the
one that stands in for it.
-/

namespace Scriptlet.Tokens

theorem body_ofList (ts : List Token) :
    (ofList ts).body = ts.takeWhile fun t => t.kind != .eof := by
  unfold ofList
  split
  · rfl
  · rename_i hnone
    exact (List.takeWhile_eq_self_iff.mpr (List.dropWhile_eq_nil_iff.mp hnone)).symm

theorem kind_ne_eof_of_mem_body {ts : List Token} {t : Token}
    (h : t ∈ (ofList ts).body) : t.kind ≠ .eof := by
  rw [body_ofList] at h
  simpa using List.mem_takeWhile_imp h

theorem kind_stop_ofList (ts : List Token) : (ofList ts).stop.kind = .eof := by
  unfold ofList
  split
  · rename_i stop rest hsome
    have hhead := List.head?_dropWhile_not (fun t : Token => t.kind != .eof) ts
    rw [hsome] at hhead
    simpa using hhead
  · rfl

section Append

variable {front : List Token} (hfront : ∀ t ∈ front, t.kind ≠ .eof)
include hfront

theorem body_ofList_append (ts : List Token) :
    (ofList (front ++ ts)).body = front ++ (ofList ts).body := by
  rw [body_ofList, body_ofList, List.takeWhile_append_of_pos (by simpa using hfront)]

theorem body_ofList_of_forall : (ofList front).body = front := by
  simpa [ofList] using body_ofList_append hfront []

theorem stop_ofList_append {ts : List Token} (hts : ts ≠ []) :
    (ofList (front ++ ts)).stop = (ofList ts).stop := by
  have hdrop : (front ++ ts).dropWhile (fun t => t.kind != .eof) =
      ts.dropWhile fun t => t.kind != .eof :=
    List.dropWhile_append_of_pos (by simpa using hfront)
  unfold ofList
  rw [hdrop]
  split
  · rfl
  · simp [List.getLast?_eq_some_getLast hts]

end Append

end Scriptlet.Tokens
