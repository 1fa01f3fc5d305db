import Mathlib.Order.Bounds.Basic
import Scriptlet.Proofs.Tree.Beginnings
import Scriptlet.Proofs.Tree.Blame

/-!
# Recovery as a segmentation

Reading a token list is a sequence of passages.  A passage is a statement up to
the next semicolon, or a failure that blames one token and reaches to the next
place where a statement can start.  `Segmented` says so by indices into the list
and by the grammar alone; it leaves no choice (`Segmented.unique`), and it is
what the attempts do (`Program.ofTokens_segmented`).
-/

namespace Scriptlet

namespace Tokens

def closed (ts : List Token) : List Token :=
  match ts.getLast? with
  | some last => if last.kind = .eof then ts else ts ++ [⟨.eof, [], last.line, .none⟩]
  | none => [⟨.eof, [], 1, .none⟩]

theorem exists_closed (ts : List Token) :
    ∃ more, closed ts = (ofList ts).body ++ (ofList ts).stop :: more := by
  cases hdrop : ts.dropWhile fun t => t.kind != .eof with
  | nil =>
      have hall : ∀ t ∈ ts, t.kind ≠ .eof := by
        simpa using List.dropWhile_eq_nil_iff.mp hdrop
      refine ⟨[], ?_⟩
      cases hlast : ts.getLast? with
      | none =>
          obtain rfl := List.getLast?_eq_none_iff.mp hlast
          rfl
      | some last =>
          have hne := hall last (List.mem_of_getLast? hlast)
          simp [closed, ofList, hdrop, hlast, hne]
  | cons stop behind =>
      have hsplit : ts = (ofList ts).body ++ (ofList ts).stop :: behind := by
        have hwhole := List.takeWhile_append_dropWhile (p := fun t : Token => t.kind != .eof)
          (l := ts)
        rw [hdrop] at hwhole
        simp only [ofList, hdrop]
        exact hwhole.symm
      unfold closed
      split
      · split
        · exact ⟨behind, hsplit⟩
        · rename_i last _ _
          refine ⟨behind ++ [⟨.eof, [], last.line, .none⟩], ?_⟩
          rw [← List.cons_append, ← List.append_assoc, ← hsplit]
      · rename_i hnone
        rw [List.getLast?_eq_none_iff.mp hnone] at hdrop
        cases hdrop

end Tokens

namespace Recovery

open Grammar

/-! ## Passages -/

def kindAt (toks : List Token) (i : Nat) : Option Kind := (toks[i]?).map Token.kind

def span (toks : List Token) (s i : Nat) : List Token := (toks.drop s).take (i - s)

/-- At index `j` the tokens end, a statement has just ended, or one can start. -/
def Resumes (toks : List Token) (j : Nat) : Prop :=
  kindAt toks j = some .eof ∨
    (∃ k, j = k + 1 ∧ kindAt toks k = some .semicolon) ∨
    ∃ kind, kindAt toks j = some kind ∧ kind.startsStatement = true

inductive Passage where
  /-- A statement from one index to that of its semicolon. -/
  | statement (first last : Nat) (stmt : Stmt)
  /-- A failure of what starts at one index, for which the token at another is to blame. -/
  | failure (first blamed : Nat) (misfit : Misfit)

namespace Passage

def result : Passage → Stmt ⊕ Misfit
  | statement _ _ stmt => .inl stmt
  | failure _ _ misfit => .inr misfit

def stmt? (p : Passage) : Option Stmt := p.result.getLeft?

def misfit? (p : Passage) : Option Misfit := p.result.getRight?

def record? : Passage → Option Record
  | statement _ _ _ => none
  | failure _ _ ⟨t, expected⟩ =>
    if t.kind = .error then none
    else some ⟨.parse, t.line, t.site, utf8 expected.message⟩

theorem record?_eq : record? = fun p => p.misfit?.bind Misfit.record? := by
  funext p
  cases p <;> rfl

end Passage

/-- From index `s` on, the token list divides into these passages. -/
inductive Segmented (toks : List Token) : Nat → List Passage → Prop
  | done {s : Nat} (hend : kindAt toks s = some .eof) : Segmented toks s []
  | statement {s k : Nat} {stmt : Stmt} {passages : List Passage}
      (hlast : IsLeast {k | s ≤ k ∧ kindAt toks k = some .semicolon} k)
      (hstatement : Statement (span toks s (k + 1)) stmt)
      (rest : Segmented toks (k + 1) passages) :
      Segmented toks s (.statement s k stmt :: passages)
  | failure {s i j : Nat} {m : Misfit} {passages : List Passage}
      (hstart : kindAt toks s ≠ some .eof) (hle : s ≤ i) (htoken : toks[i]? = some m.token)
      (hopen : ∀ t ∈ span toks s i, t.kind ≠ .semicolon)
      (hblamed : ¬ Begins (span toks s (i + 1)))
      (hsuits : m.expected.Suits (span toks s i))
      (hresume : IsLeast {j | max i (s + 1) ≤ j ∧ Resumes toks j} j)
      (rest : Segmented toks j passages) :
      Segmented toks s (.failure s i m :: passages)

/-! ## There is one segmentation -/

theorem span_mono (toks : List Token) {s i j : Nat} (h : i ≤ j) :
    span toks s i <+: span toks s j :=
  List.take_prefix_take_left (by omega)

theorem mem_span {toks : List Token} {s i k : Nat} {t : Token} (hs : s ≤ k) (hi : k < i)
    (ht : toks[k]? = some t) : t ∈ span toks s i := by
  refine List.mem_iff_getElem?.mpr ⟨k - s, ?_⟩
  rw [span, List.getElem?_take_of_lt (by omega), List.getElem?_drop, Nat.add_sub_cancel' hs, ht]

theorem exists_of_kindAt {toks : List Token} {i : Nat} {kind : Kind}
    (h : kindAt toks i = some kind) : ∃ t, toks[i]? = some t ∧ t.kind = kind :=
  Option.map_eq_some_iff.mp h

theorem not_statement_of_end {toks : List Token} {s k : Nat} {stmt : Stmt}
    (hend : kindAt toks s = some .eof) (hle : s ≤ k) :
    ¬ Statement (span toks s (k + 1)) stmt := by
  obtain ⟨t, ht, hkind⟩ := exists_of_kindAt hend
  exact fun h => h.kind_ne_eof t (mem_span (Nat.le_refl s) (Nat.lt_succ_of_le hle) ht) hkind

theorem begins_of_statement {toks : List Token} {s i k : Nat} {stmt : Stmt}
    (hopen : ∀ t ∈ span toks s i, t.kind ≠ .semicolon)
    (hlast : IsLeast {k | s ≤ k ∧ kindAt toks k = some .semicolon} k)
    (hstatement : Statement (span toks s (k + 1)) stmt) : Begins (span toks s (i + 1)) := by
  have hle : i ≤ k := by
    by_contra hlt
    obtain ⟨t, ht, hkind⟩ := exists_of_kindAt hlast.1.2
    exact hopen t (mem_span hlast.1.1 (Nat.lt_of_not_le hlt) ht) hkind
  exact hstatement.begins.of_prefix (span_mono toks (Nat.succ_le_succ hle))

/-- The blamed token is the first that ends the beginning of a statement. -/
theorem le_of_begins {toks : List Token} {s i j : Nat}
    (hblamed : ¬ Begins (span toks s (i + 1))) (h : Begins (span toks s j)) : j ≤ i := by
  by_contra hlt
  exact hblamed (h.of_prefix (span_mono toks (Nat.lt_of_not_le hlt)))

theorem Segmented.unique {toks : List Token} {s : Nat} {passages passages' : List Passage}
    (h : Segmented toks s passages) (h' : Segmented toks s passages') :
    passages = passages' := by
  induction h generalizing passages' with
  | done hend =>
      cases h' with
      | done => rfl
      | statement hlast hstatement rest =>
          exact absurd hstatement (not_statement_of_end hend hlast.1.1)
      | failure hstart hle htoken hopen hblamed hsuits hresume rest => contradiction
  | statement hlast hstatement rest ih =>
      cases h' with
      | done hend => exact absurd hstatement (not_statement_of_end hend hlast.1.1)
      | statement hlast' hstatement' rest' =>
          obtain rfl := hlast.unique hlast'
          obtain rfl := hstatement.unique hstatement'
          rw [ih rest']
      | failure hstart hle htoken hopen hblamed hsuits hresume rest =>
          exact absurd (begins_of_statement hopen hlast hstatement) hblamed
  | @failure s i j m passages hstart hle htoken hopen hblamed hsuits hresume rest ih =>
      cases h' with
      | done hend => contradiction
      | statement hlast hstatement rest =>
          exact absurd (begins_of_statement hopen hlast hstatement) hblamed
      | @failure _ i' j' m' passages' _ _ htoken' _ hblamed' hsuits' hresume' rest' =>
          obtain rfl : i = i' := Nat.le_antisymm (le_of_begins hblamed' hsuits.begins)
            (le_of_begins hblamed hsuits'.begins)
          obtain rfl := hresume.unique hresume'
          have hexpected := hsuits.unique hopen hsuits'
          have htokens := Option.some.inj (htoken.symm.trans htoken')
          obtain ⟨token, expected⟩ := m
          obtain ⟨token', expected'⟩ := m'
          cases hexpected
          cases htokens
          rw [ih rest']

/-! ## Positions -/

theorem getElem?_length_add (before ts : List Token) (n : Nat) :
    (before ++ ts)[before.length + n]? = ts[n]? := by
  rw [List.getElem?_append_right (Nat.le_add_right _ _), Nat.add_sub_cancel_left]

theorem kindAt_length (before : List Token) (t : Token) (ts : List Token) :
    kindAt (before ++ t :: ts) before.length = some t.kind := by
  simp [kindAt]

theorem span_append (before us rest : List Token) :
    span (before ++ (us ++ rest)) before.length (before.length + us.length) = us := by
  simp [span]

private theorem isLeast_semicolon (before : List Token) {front : List Token} {semicolon : Token}
    (rest : List Token) (hopen : ∀ t ∈ front, t.kind ≠ .semicolon)
    (hsemicolon : semicolon.kind = .semicolon) :
    IsLeast {k | before.length ≤ k ∧
        kindAt (before ++ (front ++ semicolon :: rest)) k = some .semicolon}
      (before.length + front.length) := by
  refine ⟨⟨Nat.le_add_right _ _, ?_⟩, ?_⟩
  · rw [← List.append_assoc, ← List.length_append, kindAt_length, hsemicolon]
  · rintro k ⟨hle, hk⟩
    obtain ⟨n, rfl⟩ := Nat.exists_eq_add_of_le hle
    obtain ⟨t, ht, hkind⟩ := exists_of_kindAt hk
    by_contra hlt
    rw [getElem?_length_add, List.getElem?_append_left (by omega)] at ht
    exact hopen t (List.mem_of_getElem? ht) hkind

private theorem not_resumes {before : List Token} (rest : List Token) {t : Token}
    (hbefore : ∀ u ∈ before.getLast?, u.kind ≠ .semicolon) (hend : t.kind ≠ .eof)
    (hstart : t.kind.startsStatement ≠ true) :
    ¬ Resumes (before ++ t :: rest) before.length := by
  rintro (heof | ⟨k, hk, hsemicolon⟩ | ⟨kind, hkind, hstarts⟩)
  · rw [kindAt_length] at heof
    exact hend (Option.some.inj heof)
  · obtain ⟨u, hu, hkind⟩ := exists_of_kindAt hsemicolon
    refine hbefore u ?_ hkind
    rw [List.getLast?_eq_getElem?, hk, Nat.add_sub_cancel]
    rwa [List.getElem?_append_left (by omega)] at hu
  · rw [kindAt_length] at hkind
    exact hstart (Option.some.inj hkind ▸ hstarts)

theorem isLeast_self {p : Nat → Prop} {n : Nat} (h : p n) : IsLeast {j | n ≤ j ∧ p j} n :=
  ⟨⟨Nat.le_refl n, h⟩, fun _ hj => hj.1⟩

theorem isLeast_of_succ {p : Nat → Prop} {n j : Nat} (h : IsLeast {j | n + 1 ≤ j ∧ p j} j)
    (hn : ¬ p n) : IsLeast {j | n ≤ j ∧ p j} j := by
  refine ⟨⟨Nat.le_of_succ_le h.1.1, h.1.2⟩, ?_⟩
  rintro k ⟨hle, hk⟩
  refine h.2 ⟨?_, hk⟩
  exact Nat.lt_of_le_of_ne hle fun heq => hn (heq ▸ hk)

/-- Skipping stops at the first place where reading can go on. -/
theorem exists_skipped (before behind : List Token) {rest : List Token} {stop : Token}
    (hbefore : ∀ u ∈ before.getLast?, u.kind ≠ .semicolon)
    (hrest : ∀ t ∈ rest, t.kind ≠ .eof) (hstop : stop.kind = .eof) :
    ∃ passed, rest = passed ++ Stmt.skip rest ∧
      IsLeast {j | before.length ≤ j ∧ Resumes (before ++ (rest ++ stop :: behind)) j}
        (before.length + passed.length) := by
  induction rest generalizing before with
  | nil =>
      refine ⟨[], rfl, isLeast_self (.inl ?_)⟩
      rw [List.nil_append, kindAt_length, hstop]
  | cons t rest ih =>
      by_cases hstart : t.kind.startsStatement = true
      · refine ⟨[], by simp [Stmt.skip, hstart], isLeast_self (.inr (.inr ⟨t.kind, ?_, hstart⟩))⟩
        rw [List.cons_append, kindAt_length]
      have hnot := not_resumes (rest ++ stop :: behind) hbefore
        (hrest t List.mem_cons_self) hstart
      by_cases hsemicolon : t.kind = .semicolon
      · refine ⟨[t], ?_, isLeast_of_succ (isLeast_self (.inr (.inl ⟨_, rfl, ?_⟩))) hnot⟩
        · rw [Stmt.skip, if_neg hstart, if_pos hsemicolon]
          rfl
        · rw [List.cons_append, kindAt_length, hsemicolon]
      · obtain ⟨passed, hpassed, hleast⟩ := ih (before ++ [t]) (by simpa using hsemicolon)
          (fun u hu => hrest u (List.mem_cons_of_mem t hu))
        refine ⟨t :: passed, ?_, isLeast_of_succ ?_ hnot⟩
        · rw [Stmt.skip, if_neg hstart, if_neg hsemicolon, List.cons_append, ← hpassed]
        · simpa [Nat.add_assoc, Nat.add_comm 1] using hleast

/-- A failure is left at the first such place behind its start and the blamed token. -/
theorem exists_resumed (before behind : List Token) {front rest : List Token} {stop : Token}
    (hfront : ∀ t ∈ front, t.kind ≠ .semicolon) (hrest : ∀ t ∈ rest, t.kind ≠ .eof)
    (hne : front ++ rest ≠ []) (hstop : stop.kind = .eof) :
    ∃ passed, front ++ rest = passed ++ Stmt.resume (front ++ rest) rest ∧
      IsLeast {j | max (before.length + front.length) (before.length + 1) ≤ j ∧
          Resumes (before ++ (front ++ rest ++ stop :: behind)) j}
        (before.length + passed.length) := by
  cases front with
  | cons u front =>
      have hlast : ∀ t ∈ (before ++ u :: front).getLast?, t.kind ≠ .semicolon := by
        intro t ht
        rw [List.getLast?_append, List.getLast?_eq_some_getLast (List.cons_ne_nil u front),
          Option.some_or, ← List.getLast?_eq_some_getLast] at ht
        exact hfront t (List.mem_of_getLast? ht)
      obtain ⟨passed, hpassed, hleast⟩ :=
        exists_skipped (before ++ u :: front) behind hlast hrest hstop
      refine ⟨u :: front ++ passed, ?_, ?_⟩
      · have hresume : Stmt.resume (u :: front ++ rest) rest = Stmt.skip rest := by
          unfold Stmt.resume
          exact if_pos (by
            rw [List.length_append, List.length_cons]
            omega)
        rw [hresume, List.append_assoc, ← hpassed]
      · have hmax : max (before.length + (u :: front).length) (before.length + 1) =
            (before ++ u :: front).length := by
          simp
        have hend : before.length + (u :: front ++ passed).length =
            (before ++ u :: front).length + passed.length := by
          simp only [List.length_append, Nat.add_assoc]
        rw [hmax, hend, List.append_assoc, ← List.append_assoc before]
        exact hleast
  | nil =>
      cases rest with
      | nil => contradiction
      | cons t rest =>
          have hmax : max (before.length + ([] : List Token).length) (before.length + 1) =
              before.length + 1 := by
            simp
          rw [hmax]
          by_cases hsemicolon : t.kind = .semicolon
          · refine ⟨[t], by simp [Stmt.resume, hsemicolon], isLeast_self (.inr (.inl ⟨_, rfl, ?_⟩))⟩
            rw [List.nil_append, List.cons_append, kindAt_length, hsemicolon]
          · obtain ⟨passed, hpassed, hleast⟩ :=
              exists_skipped (before ++ [t]) behind (by simpa using hsemicolon)
                (fun u hu => hrest u (List.mem_cons_of_mem t hu)) hstop
            refine ⟨t :: passed, ?_, ?_⟩
            · simpa [Stmt.resume, hsemicolon] using hpassed
            · simpa [Nat.add_assoc, Nat.add_comm 1] using hleast

/-! ## The attempts are the segmentation -/

theorem exists_blamed (stop : Token) (stuck : Stuck) (behind : List Token) :
    ∃ more, stuck.rest ++ stop :: behind = (Misfit.ofStuck stop stuck).token :: more := by
  obtain ⟨expected, rest⟩ := stuck
  cases rest with
  | nil => exact ⟨behind, rfl⟩
  | cons t rest => exact ⟨rest ++ stop :: behind, rfl⟩

theorem not_begins_of_failure {front : List Token} {stuck : Stuck} {stop : Token}
    (h : Stmt.Failure front stuck) (hstop : stop.kind = .eof) :
    ¬ Begins (front ++ [(Misfit.ofStuck stop stuck).token]) := by
  obtain ⟨expected, rest⟩ := stuck
  cases rest with
  | nil => exact fun hbegins => hbegins.kind_ne_eof stop (by simp [Misfit.ofStuck]) hstop
  | cons t rest => exact h.blamed t rfl

def resultBefore (stop : Token) : Attempt → Stmt ⊕ Misfit
  | .parsed stmt => .inl stmt
  | .failed stuck => .inr (Misfit.ofStuck stop stuck)

theorem stmt?_eq (stop : Token) : Attempt.stmt? = Sum.getLeft? ∘ resultBefore stop := by
  funext a
  cases a <;> rfl

theorem stuck?_eq (stop : Token) :
    (fun a => (Attempt.stuck? a).map (Misfit.ofStuck stop)) =
      Sum.getRight? ∘ resultBefore stop := by
  funext a
  cases a <;> rfl

private theorem Segmented.cons_statement (before : List Token) {used after : List Token}
    {stmt : Stmt}
    {passages : List Passage} (hstatement : Statement used stmt)
    (rest : Segmented (before ++ (used ++ after)) (before.length + used.length) passages) :
    ∃ last, Segmented (before ++ (used ++ after)) before.length
      (.statement before.length last stmt :: passages) := by
  have hspan := span_append before used after
  obtain ⟨front, semicolon, rfl, hsemicolon, hopen⟩ := hstatement.exists_last
  rw [List.length_append, List.length_singleton, ← Nat.add_assoc] at rest hspan
  refine ⟨before.length + front.length, .statement ?_ (hspan.symm ▸ hstatement) rest⟩
  rw [List.append_assoc front]
  exact isLeast_semicolon before after hopen hsemicolon

private theorem Segmented.cons_failure (before behind : List Token) {front : List Token}
    {stuck : Stuck}
    {stop : Token} {j : Nat} {passages : List Passage} (h : Stmt.Failure front stuck)
    (hfront : ∀ t ∈ front ++ stuck.rest, t.kind ≠ .eof) (hne : front ++ stuck.rest ≠ [])
    (hstop : stop.kind = .eof)
    (hresume : IsLeast {j | max (before.length + front.length) (before.length + 1) ≤ j ∧
      Resumes (before ++ (front ++ stuck.rest ++ stop :: behind)) j} j)
    (rest : Segmented (before ++ (front ++ stuck.rest ++ stop :: behind)) j passages) :
    Segmented (before ++ (front ++ stuck.rest ++ stop :: behind)) before.length
      (.failure before.length (before.length + front.length) (Misfit.ofStuck stop stuck) ::
        passages) := by
  have hstart : kindAt (before ++ (front ++ stuck.rest ++ stop :: behind)) before.length ≠
      some .eof := by
    obtain ⟨t, ts, hts⟩ := List.exists_cons_of_ne_nil hne
    rw [hts, List.cons_append, kindAt_length, ne_eq, Option.some.injEq]
    exact hfront t (hts ▸ List.mem_cons_self)
  obtain ⟨more, hmore⟩ := exists_blamed stop stuck behind
  rw [List.append_assoc, hmore] at hstart hresume rest ⊢
  have hspan := span_append before front ((Misfit.ofStuck stop stuck).token :: more)
  have hblamed := span_append before (front ++ [(Misfit.ofStuck stop stuck).token]) more
  rw [List.length_append, List.append_assoc front, ← Nat.add_assoc] at hblamed
  refine .failure hstart (Nat.le_add_right _ _) ?_ ?_ ?_ ?_ hresume rest
  · rw [getElem?_length_add, List.getElem?_append_right (Nat.le_refl _), Nat.sub_self]
    rfl
  · rw [hspan]
    exact h.unended
  · exact hblamed.symm ▸ not_begins_of_failure h hstop
  · rw [hspan]
    exact h.suits

theorem exists_segmented (before behind : List Token) {rest : List Token} {stop : Token}
    (hrest : ∀ t ∈ rest, t.kind ≠ .eof) (hstop : stop.kind = .eof) :
    ∃ passages, Segmented (before ++ (rest ++ stop :: behind)) before.length passages ∧
      passages.map Passage.result = (Attempt.all rest).map (resultBefore stop) := by
  induction rest using Attempt.reading_induction generalizing before with
  | nil =>
      refine ⟨[], .done ?_, by simp⟩
      rw [List.nil_append, kindAt_length, hstop]
  | @parsed ts after s hread ih =>
      obtain ⟨used, rfl, hstatement⟩ := Stmt.read_eq_ok_iff.mp hread
      obtain ⟨passages, hsegmented, hresults⟩ := ih (before ++ used)
        (fun t ht => hrest t (List.mem_append_right used ht))
      rw [List.length_append, List.append_assoc] at hsegmented
      obtain ⟨last, hwhole⟩ := Segmented.cons_statement before hstatement hsegmented
      refine ⟨.statement before.length last s :: passages, ?_, ?_⟩
      · rw [List.append_assoc used]
        exact hwhole
      · rw [Attempt.all_of_read_ok hread, List.map_cons, List.map_cons, hresults]
        rfl
  | @failed t ts stuck hread ih =>
      obtain ⟨front, hsplit, hfailure⟩ := Stmt.exists_failure hread
      have hne : front ++ stuck.rest ≠ [] := hsplit ▸ List.cons_ne_nil t ts
      have hall := Attempt.all_of_read_error hread
      rw [hsplit] at hrest ih hall ⊢
      obtain ⟨passed, hpassed, hresume⟩ := exists_resumed before behind hfailure.unended
        (fun u hu => hrest u (List.mem_append_right front hu)) hne hstop
      obtain ⟨passages, hsegmented, hresults⟩ := ih (before ++ passed)
        (fun u hu => hrest u (hpassed ▸ List.mem_append_right passed hu))
      rw [List.append_assoc, ← List.append_assoc passed, ← hpassed, List.length_append]
        at hsegmented
      refine ⟨_, .cons_failure before behind hfailure hrest hne hstop hresume hsegmented, ?_⟩
      rw [hall, List.map_cons, List.map_cons, hresults]
      rfl

end Recovery

namespace Program

open Recovery

/--
Reading divides the tokens into passages, one for each attempt.  A statement
reaches to the first semicolon.  A failure blames the first token that no
statement has in its place, names what could stand there, and is left at the
first place behind where reading can go on.  The statements, the syntax errors
and their records are those of the passages, and there is one such division.
-/
theorem ofTokens_segmented (ts : List Token) :
    ∃ passages, Segmented (Tokens.closed ts) 0 passages ∧
      (∀ others, Segmented (Tokens.closed ts) 0 others → others = passages) ∧
      passages.map Passage.result =
        (Attempt.all (Tokens.ofList ts).body).map (resultBefore (Tokens.ofList ts).stop) ∧
      (ofTokens ts).stmts = passages.filterMap Passage.stmt? ∧
      (ofTokens ts).misfits = passages.filterMap Passage.misfit? ∧
      (ofTokens ts).records = passages.filterMap Passage.record? := by
  obtain ⟨behind, hclosed⟩ := Tokens.exists_closed ts
  obtain ⟨passages, hsegmented, hresults⟩ :=
    exists_segmented [] behind (fun t ht => Tokens.kind_ne_eof_of_mem_body ht)
      (Tokens.kind_stop_ofList ts)
  rw [List.nil_append, ← hclosed, List.length_nil] at hsegmented
  have hstmts : (ofTokens ts).stmts = passages.filterMap Passage.stmt? := by
    rw [stmts_ofTokens, stmt?_eq (Tokens.ofList ts).stop, ← List.filterMap_map, ← hresults,
      List.filterMap_map]
    rfl
  have hmisfits : (ofTokens ts).misfits = passages.filterMap Passage.misfit? := by
    rw [misfits_ofTokens, List.map_filterMap, stuck?_eq, ← List.filterMap_map, ← hresults,
      List.filterMap_map]
    rfl
  refine ⟨passages, hsegmented, fun others hothers => hothers.unique hsegmented, hresults,
    hstmts, hmisfits, ?_⟩
  rw [records, hmisfits, List.filterMap_filterMap, Passage.record?_eq]

end Program

end Scriptlet
