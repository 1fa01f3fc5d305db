import Scriptlet.Proofs.Decimal.Numeral
import Scriptlet.Proofs.Token.MaximalMunch
import Scriptlet.Token.Scan

/-!
# Scanned tokens

The tokens of a source are the lexemes of its tiling in order, with their
values, followed by one end token (`ofSource_tokenizes`).  The line counter of the
scanner counts all newlines that it has passed (`foldl_pass`).
-/

namespace Scriptlet

/--
What a token denotes: the number that its lexeme spells, the text behind its
opening quote, or nothing.
-/
structure Token.Valued (policy : Unterminated) (t : Token) : Prop where
  number : t.kind = .number →
    ∃ x, Decimal.read? t.lexeme = some x ∧ t.payload = .number x
  string : t.kind = .string →
    ∃ content, quote ∉ content ∧ t.payload = .text content ∧
      (t.lexeme = quote :: content ++ [quote] ∨
        policy = .eof ∧ t.lexeme = quote :: content)
  plain : t.kind ≠ .number → t.kind ≠ .string → t.payload = .none

def lastLine (source : Bytes) : Nat := 1 + Bytes.countNewlines source

namespace Segment

def spelling? (policy : Unterminated) : Segment → Option (Kind × Bytes)
  | lexeme kind content => some (kind, content)
  | openString content =>
      if policy = .eof then some (.string, quote :: content) else none
  | _ => none

theorem spelling?_eq (policy : Unterminated) (line : Nat) (segment : Segment) :
    (segment.token? policy line).map (fun t => (t.kind, t.lexeme)) =
      segment.spelling? policy := by
  cases segment with
  | openString content => cases policy <;> rfl
  | _ => rfl

theorem map_filterMap_token? (policy : Unterminated) (numbered : List (Nat × Segment)) :
    (numbered.filterMap fun (line, segment) => segment.token? policy line).map
        (fun t => (t.kind, t.lexeme)) =
      (numbered.map Prod.snd).filterMap (spelling? policy) := by
  rw [List.map_filterMap, List.filterMap_map]
  apply List.filterMap_congr
  rintro ⟨line, segment⟩ -
  exact spelling?_eq policy line segment

/-! ## Tilings -/

theorem Tiles.formed {source : Bytes} {segments : List Segment}
    (h : Tiles source segments) :
    ∀ segment ∈ segments, Regular segment ∨ Foreign segment := by
  induction h with
  | nil => simp
  | cons longest hsource tiles ih =>
      intro other hother
      rcases List.mem_cons.mp hother with rfl | hlater
      · exact longest.fits.formed
      · exact ih other hlater

theorem Tiles.closed_dropLast {source : Bytes} {segments : List Segment}
    (h : Tiles source segments) :
    ∀ segment ∈ segments.dropLast, segment.isOpen = false := by
  induction h with
  | nil => simp
  | @cons source rest segment segments longest hsource tiles ih =>
      cases tiles with
      | nil => simp
      | @cons _ after second later longest' hrest tiles' =>
          rw [List.dropLast_cons_of_ne_nil (List.cons_ne_nil _ _)]
          intro other hother
          rcases List.mem_cons.mp hother with rfl | hlater
          · -- an open segment would leave nothing for the second one
            rw [Bool.eq_false_iff]
            intro hopen
            have hall := longest.fits.closed hopen
            rw [hsource, List.self_eq_append_right, hrest, List.append_eq_nil_iff] at hall
            exact text_ne_nil longest'.fits.formed hall.1
          · exact ih other hlater

/-! ## Newlines in segments -/

private theorem newline_not_mem_of_foreign {segment : Segment} (h : Foreign segment) :
    newline ∉ segment.text := by
  have hopens : Opens newline := ⟨.blank newline, [], .blank (by decide), rfl⟩
  intro hmem
  cases h with
  | @byte b hclosed =>
      rw [text, List.mem_singleton] at hmem
      exact hclosed (hmem ▸ hopens)
  | @char b more c hencode hclosed =>
      rw [text, ← hencode] at hmem
      rcases Utf8.large_or_alone hmem with hlarge | ⟨-, halone⟩
      · exact absurd hlarge (by decide)
      · rw [hencode, List.cons.injEq] at halone
        exact hclosed (halone.1 ▸ hopens)

theorem newlines_lexeme {kind : Kind} {content : Bytes} (hkind : kind ≠ .string)
    (hcontent : newline ∉ content) :
    (lexeme kind content).newlines = Bytes.countNewlines content := by
  rw [Bytes.countNewlines, List.count_eq_zero_of_not_mem hcontent]
  unfold newlines
  split <;> simp_all

/-- The line counter does not miss any newline. -/
theorem newlines_eq {segment : Segment} (h : Regular segment ∨ Foreign segment) :
    segment.newlines = Bytes.countNewlines segment.text := by
  have hdigit : Bytes.isDigit newline = false := by decide
  have hletter : Bytes.isLetter newline = false := by decide
  have hnot {p : UInt8 → Bool} (hp : p newline = false) {content : Bytes}
      (hcontent : ∀ b ∈ content, p b = true) : newline ∉ content := fun hmem => by
    rw [hcontent newline hmem] at hp
    cases hp
  rcases h with hregular | hforeign
  · cases hregular with
    | @blank byte hbyte => simp [newlines, text, Bytes.countNewlines, List.count_singleton]
    | @line body hbody =>
        have hwhole : newline ∉ slash :: slash :: body := by
          rw [List.mem_cons, List.mem_cons, not_or, not_or]
          exact ⟨by decide, by decide, hbody⟩
        rw [text, Bytes.countNewlines, List.count_eq_zero_of_not_mem hwhole]
        rfl
    | block hbody => simp [newlines, text, Bytes.countNewlines, slash, star, newline]
    | operator hentry =>
        have hall : ∀ entry ∈ operators, entry.2 ≠ .string ∧ newline ∉ entry.1 := by decide
        exact newlines_lexeme (hall _ hentry).1 (hall _ hentry).2
    | integer hne hwhole => exact newlines_lexeme Kind.noConfusion (hnot hdigit hwhole)
    | decimal hne hwhole hne' hfraction =>
        refine newlines_lexeme Kind.noConfusion ?_
        rw [List.mem_append, List.mem_cons, not_or, not_or]
        exact ⟨hnot hdigit hwhole, by decide, hnot hdigit hfraction⟩
    | keyword hentry =>
        have hall : ∀ entry ∈ Kind.keywords, entry.2 ≠ .string := by decide
        exact newlines_lexeme (hall _ hentry) (hnot hletter (letters_keyword hentry).2)
    | identifier hne hletters =>
        exact newlines_lexeme Kind.noConfusion (hnot hletter hletters)
    | string hbody => rfl
    | openString hbody => simp [newlines, text, Bytes.countNewlines, quote, newline]
    | openComment hbody => rfl
  · have hnewline := newline_not_mem_of_foreign hforeign
    cases hforeign with
    | char => exact newlines_lexeme Kind.noConfusion hnewline
    | byte => exact newlines_lexeme Kind.noConfusion hnewline

/-! ## Numbered segments -/

def numberedFrom (line : Nat) : List Segment → List (Nat × Segment)
  | [] => []
  | segment :: rest =>
      (line + Bytes.countNewlines segment.text, segment) ::
        numberedFrom (line + Bytes.countNewlines segment.text) rest

private theorem foldl_pass {segments : List Segment}
    (h : ∀ segment ∈ segments, Regular segment ∨ Foreign segment) (p : Passed) :
    segments.foldl Passed.pass p =
      ⟨p.line + Bytes.countNewlines (segments.flatMap text),
        (numberedFrom p.line segments).reverse ++ p.segments⟩ := by
  induction segments generalizing p with
  | nil => rfl
  | cons segment rest ih =>
      obtain ⟨hsegment, hrest⟩ := List.forall_mem_cons.mp h
      rw [List.foldl_cons, ih hrest, Passed.pass, newlines_eq hsegment, numberedFrom]
      simp [Bytes.countNewlines, Nat.add_assoc]

theorem passed_eq (source : Bytes) :
    passed (segments source) =
      ⟨lastLine source, (numberedFrom 1 (segments source)).reverse⟩ := by
  rw [passed, foldl_pass (tiles_segments source).formed, flatten_segments, List.append_nil,
    lastLine]

theorem numbered_eq (source : Bytes) :
    numbered (segments source) = numberedFrom 1 (segments source) := by
  rw [numbered, passed_eq, List.reverse_reverse]

theorem map_snd_numberedFrom (line : Nat) (segments : List Segment) :
    (numberedFrom line segments).map Prod.snd = segments := by
  induction segments generalizing line with
  | nil => rfl
  | cons segment rest ih => rw [numberedFrom, List.map_cons, ih]

theorem map_snd_numbered (source : Bytes) :
    (numbered (segments source)).map Prod.snd = segments source := by
  rw [numbered_eq, map_snd_numberedFrom]

end Segment

/-! ## Tokens -/

namespace Scan

def lexed (policy : Unterminated) (source : Bytes) : List Token :=
  (Segment.numbered (Segment.segments source)).filterMap
    fun (line, segment) => segment.token? policy line

def stop (source : Bytes) : Token := ⟨.eof, [], lastLine source, .none⟩

theorem tokens_ofSource (policy : Unterminated) (source : Bytes) :
    (ofSource policy source).tokens = lexed policy source ++ [stop source] := by
  rw [ofSource, Segment.passed_eq]
  rfl

theorem exists_segment_of_mem_lexed {policy : Unterminated} {source : Bytes} {t : Token}
    (h : t ∈ lexed policy source) :
    ∃ line segment, (line, segment) ∈ Segment.numbered (Segment.segments source) ∧
      segment ∈ Segment.segments source ∧ segment.token? policy line = some t := by
  obtain ⟨⟨line, segment⟩, hmem, htoken⟩ := List.mem_filterMap.mp h
  have hsegment : segment ∈ (Segment.numbered (Segment.segments source)).map Prod.snd :=
    List.mem_map.mpr ⟨(line, segment), hmem, rfl⟩
  rw [Segment.map_snd_numbered] at hsegment
  exact ⟨line, segment, hmem, hsegment, htoken⟩

private theorem map_lexed (policy : Unterminated) (source : Bytes) :
    (lexed policy source).map (fun t => (t.kind, t.lexeme)) =
      (Segment.segments source).filterMap (Segment.spelling? policy) := by
  rw [lexed, Segment.map_filterMap_token?, Segment.map_snd_numbered]

end Scan

namespace Segment

private theorem kind_of_operators {spelling : Bytes} {kind : Kind}
    (hentry : (spelling, kind) ∈ operators) :
    kind ≠ .number ∧ kind ≠ .string ∧ kind ≠ .eof := by
  have hall : ∀ entry ∈ operators,
      entry.2 ≠ .number ∧ entry.2 ≠ .string ∧ entry.2 ≠ .eof := by decide
  exact hall (spelling, kind) hentry

private theorem kind_of_keywords {word : String} {kind : Kind}
    (hentry : (word, kind) ∈ Kind.keywords) :
    kind ≠ .number ∧ kind ≠ .string ∧ kind ≠ .eof := by
  have hall : ∀ entry ∈ Kind.keywords,
      entry.2 ≠ .number ∧ entry.2 ≠ .string ∧ entry.2 ≠ .eof := by decide
  exact hall (word, kind) hentry

private theorem payload_plain {kind : Kind} (content : Bytes) (hnumber : kind ≠ .number)
    (hstring : kind ≠ .string) : payload kind content = .none := by
  unfold payload
  split
  · exact absurd rfl hnumber
  · exact absurd rfl hstring
  · rfl

theorem valued_plain {kind : Kind} (policy : Unterminated) (content : Bytes) (line : Nat)
    (hnumber : kind ≠ .number) (hstring : kind ≠ .string) :
    Token.Valued policy ⟨kind, content, line, payload kind content⟩ :=
  ⟨fun h => absurd h hnumber, fun h => absurd h hstring,
    fun _ _ => payload_plain content hnumber hstring⟩

theorem valued_number (policy : Unterminated) {content : Bytes} (line : Nat)
    (hread : ∃ x, Decimal.read? content = some x) :
    Token.Valued policy ⟨.number, content, line, payload .number content⟩ := by
  obtain ⟨x, hx⟩ := hread
  refine ⟨fun _ => ⟨x, hx, ?_⟩, fun h => (by cases h), fun h => absurd rfl h⟩
  simp [payload, hx]

theorem valued_string {policy : Unterminated} {content lexeme : Bytes} (line : Nat)
    (hcontent : quote ∉ content)
    (hlexeme : lexeme = quote :: content ++ [quote] ∨
      policy = .eof ∧ lexeme = quote :: content) :
    Token.Valued policy ⟨.string, lexeme, line, .text content⟩ :=
  ⟨Kind.noConfusion, fun _ => ⟨content, hcontent, rfl, hlexeme⟩,
    fun _ h => absurd rfl h⟩

private theorem valued_of_token? {policy : Unterminated} {segment : Segment} {line : Nat}
    {t : Token} (hformed : Regular segment ∨ Foreign segment)
    (htoken : segment.token? policy line = some t) : t.Valued policy ∧ t.kind ≠ .eof := by
  rcases hformed with hregular | hforeign
  · cases hregular with
    | operator hentry =>
        cases htoken
        obtain ⟨hnumber, hstring, heof⟩ := kind_of_operators hentry
        exact ⟨valued_plain policy _ line hnumber hstring, heof⟩
    | integer hne hwhole =>
        cases htoken
        exact ⟨valued_number policy line (Decimal.read?_digits hne hwhole),
          Kind.noConfusion⟩
    | decimal hne hwhole hne' hfraction =>
        cases htoken
        exact ⟨valued_number policy line (Decimal.read?_point hne hwhole hfraction),
          Kind.noConfusion⟩
    | keyword hentry =>
        cases htoken
        obtain ⟨hnumber, hstring, heof⟩ := kind_of_keywords hentry
        exact ⟨valued_plain policy _ line hnumber hstring, heof⟩
    | identifier hne hletters hfree =>
        cases htoken
        exact ⟨valued_plain policy _ line Kind.noConfusion Kind.noConfusion,
          Kind.noConfusion⟩
    | @string body hbody =>
        cases htoken
        have hpayload : payload .string (quote :: body ++ [quote]) = .text body := by
          simp [payload]
        rw [hpayload]
        exact ⟨valued_string line hbody (.inl rfl), Kind.noConfusion⟩
    | @openString body hbody =>
        cases policy with
        | error => cases htoken
        | eof =>
            cases htoken
            exact ⟨valued_string line hbody (.inr ⟨rfl, rfl⟩), Kind.noConfusion⟩
    | _ => cases htoken
  · cases hforeign with
    | _ =>
        cases htoken
        exact ⟨valued_plain policy _ line Kind.noConfusion Kind.noConfusion,
          Kind.noConfusion⟩

end Segment

namespace Scan

theorem valued_of_mem_lexed {policy : Unterminated} {source : Bytes} {t : Token}
    (h : t ∈ lexed policy source) : t.Valued policy ∧ t.kind ≠ .eof := by
  obtain ⟨line, segment, -, hsegment, htoken⟩ := exists_segment_of_mem_lexed h
  have hformed := (Segment.tiles_segments source).formed segment hsegment
  exact Segment.valued_of_token? hformed htoken

/--
Scanning is the maximal munch tokenization of the lexical grammar: the source
has exactly one tiling, only its last segment can be open, and the tokens are
those that its segments spell, with their values, and an empty end token.
-/
theorem ofSource_tokenizes (policy : Unterminated) (source : Bytes) :
    ∃ (segments : List Segment) (body : List Token) (stop : Token),
      (Segment.Tiles source segments ∧
        ∀ other, Segment.Tiles source other → other = segments) ∧
      segments.flatMap Segment.text = source ∧
      (∀ segment ∈ segments.dropLast, segment.isOpen = false) ∧
      (ofSource policy source).tokens = body ++ [stop] ∧
      (stop.kind = .eof ∧ stop.lexeme = [] ∧ stop.payload = .none) ∧
      (∀ t ∈ body, t.kind ≠ .eof) ∧
      body.map (fun t => (t.kind, t.lexeme)) =
        segments.filterMap (Segment.spelling? policy) ∧
      ∀ t ∈ body, t.Valued policy := by
  have htiles := Segment.tiles_segments source
  refine ⟨Segment.segments source, lexed policy source, stop source,
    ⟨htiles, fun other hother => hother.eq_segments⟩, Segment.flatten_segments source,
    htiles.closed_dropLast, tokens_ofSource policy source, ⟨rfl, rfl, rfl⟩, ?_,
    map_lexed policy source, ?_⟩
  · intro t ht
    exact (valued_of_mem_lexed ht).2
  · intro t ht
    exact (valued_of_mem_lexed ht).1

end Scan

end Scriptlet
