import Scriptlet.Settings.Load

/-!
# What a file names

The settings as a family: each has a key, that is a section and a name, and a
value of its own type.  The patch of a file gives every setting the last
value that stands under its key, and names nothing else (`exact_stated?`).
-/

namespace Scriptlet

/-! ## The family of settings -/

inductive Setting where
  | color
  | unterminated
  | prompt
  | echo
  | exitCommand
  | tui
  | debounce
  | logLevel
  | logFormat
  deriving DecidableEq, Repr

namespace Setting

def Value : Setting → Type
  | color | echo | tui => Bool
  | debounce => Duration
  | unterminated | prompt | exitCommand | logLevel | logFormat => Bytes

def all : List Setting :=
  [color, unterminated, prompt, echo, exitCommand, tui, debounce, logLevel, logFormat]

theorem mem_all (k : Setting) : k ∈ all := by
  cases k <;> decide

theorem nodup_all : all.Nodup := by
  decide

def group : Setting → String
  | color => "general"
  | unterminated => "scanner"
  | prompt | echo | exitCommand | tui => "repl"
  | debounce => "watch"
  | logLevel | logFormat => "log"

private theorem group_mem_sections (k : Setting) : k.group ∈ Patch.sections := by
  cases k <;> decide

def name : Setting → String
  | color => "color"
  | unterminated => "unterminated"
  | prompt => "prompt"
  | echo => "echo"
  | exitCommand => "exit_command"
  | tui => "tui"
  | debounce => "debounce"
  | logLevel => "level"
  | logFormat => "format"

end Setting

def Settings.get (s : Settings) : (k : Setting) → k.Value
  | .color => s.color
  | .unterminated => s.unterminated
  | .prompt => s.prompt
  | .echo => s.echo
  | .exitCommand => s.exitCommand
  | .tui => s.tui
  | .debounce => s.debounce
  | .logLevel => s.logLevel
  | .logFormat => s.logFormat

namespace Patch

def get? (p : Patch) : (k : Setting) → Option k.Value
  | .color => p.color
  | .unterminated => p.unterminated
  | .prompt => p.prompt
  | .echo => p.echo
  | .exitCommand => p.exitCommand
  | .tui => p.tui
  | .debounce => p.debounce
  | .logLevel => p.logLevel
  | .logFormat => p.logFormat

def set (p : Patch) : (k : Setting) → Option k.Value → Patch
  | .color, v => { p with color := v }
  | .unterminated, v => { p with unterminated := v }
  | .prompt, v => { p with prompt := v }
  | .echo, v => { p with echo := v }
  | .exitCommand, v => { p with exitCommand := v }
  | .tui, v => { p with tui := v }
  | .debounce, v => { p with debounce := v }
  | .logLevel, v => { p with logLevel := v }
  | .logFormat, v => { p with logFormat := v }

@[simp]
theorem get?_set_self (p : Patch) (k : Setting) (v : Option k.Value) :
    (p.set k v).get? k = v := by
  cases k <;> rfl

private theorem get?_set_of_ne (p : Patch) {k k' : Setting} (h : k ≠ k') (v : Option k.Value) :
    (p.set k v).get? k' = p.get? k' := by
  cases k <;> cases k' <;> first | rfl | exact absurd rfl h

theorem get?_empty (k : Setting) : ({} : Patch).get? k = none := by
  cases k <;> rfl

end Patch

/-- A layer gives a setting the value it names for it, and leaves it alone otherwise. -/
theorem Settings.get_apply (s : Settings) (p : Patch) (k : Setting) :
    (s.apply p).get k = (p.get? k).getD (s.get k) := by
  cases k <;> rfl

/-! ## Reading values one after the other -/

theorem flatMap_ite {A B : Type} [DecidableEq A] {as : List A} (h : as.Nodup) (a : A)
    (f : A → List B) :
    (as.flatMap fun b => if a = b then f b else []) = if a ∈ as then f a else [] := by
  induction as with
  | nil => simp
  | cons b as ih =>
      obtain ⟨hfirst, hrest⟩ := List.nodup_cons.mp h
      rw [List.flatMap_cons, ih hrest]
      by_cases hb : a = b
      · subst hb
        simp [hfirst]
      · simp [hb]

namespace Patch

/-- The second patch names what the first does, except for the values read in between. -/
def Reads (values : (k : Setting) → List k.Value) (p p' : Patch) : Prop :=
  ∀ k, p'.get? k = (values k).getLast?.or (p.get? k)

theorem Reads.nil (p : Patch) : Reads (fun _ => []) p p := fun _ => rfl

theorem Reads.append {values values' : (k : Setting) → List k.Value} {p p' p'' : Patch}
    (h : Reads values p p') (h' : Reads values' p' p'') :
    Reads (fun k => values k ++ values' k) p p'' := by
  intro k
  rw [h' k, h k, List.getLast?_append, Option.or_assoc]

theorem reads_foldlM {A : Type} {step : Patch → A → Option Patch}
    {values : A → (k : Setting) → List k.Value} {as : List A} {p p' : Patch}
    (hstep : ∀ a ∈ as, ∀ q q', step q a = some q' → Reads (values a) q q')
    (h : as.foldlM step p = some p') : Reads (fun k => as.flatMap fun a => values a k) p p' := by
  induction as generalizing p with
  | nil =>
      obtain rfl := Option.some.inj h
      exact .nil p
  | cons a as ih =>
      rw [List.foldlM_cons] at h
      obtain ⟨q, hq, hrest⟩ := Option.bind_eq_some_iff.mp h
      exact (hstep a List.mem_cons_self p q hq).append
        (ih (fun b hb => hstep b (List.mem_cons_of_mem a hb)) hrest)

section Keys

variable {Item : Type} (boolean : Item → Option (Option Bool))
  (text : Item → Option (Option Bytes)) (duration : Item → Option (Option Duration))

/-- What an item means as a value of the setting: nothing valid, no value, or a value. -/
def meaning : (k : Setting) → Item → Option (Option k.Value)
  | .color | .echo | .tui => boolean
  | .debounce => duration
  | .unterminated | .prompt | .exitCommand | .logLevel | .logFormat => text

def valuesOf (k : Setting) (items : List Item) : List k.Value :=
  items.flatMap fun i => ((meaning boolean text duration k i).getD none).toList

def key (k : Setting) : Key Item :=
  ⟨k.group, k.name, fun i p =>
    (meaning boolean text duration k i).map fun v => p.set k (v.or (p.get? k))⟩

theorem keys_eq : keys boolean text duration = Setting.all.map (key boolean text duration) := rfl

theorem valuesOf_flatMap {A : Type} (k : Setting) (as : List A) (items : A → List Item) :
    valuesOf boolean text duration k (as.flatMap items) =
      as.flatMap fun a => valuesOf boolean text duration k (items a) :=
  List.flatMap_assoc

def only (k : Setting) (items : List Item) (k' : Setting) : List k'.Value :=
  if k' = k then valuesOf boolean text duration k' items else []

variable {boolean text duration}

theorem flatMap_only {A : Type} (as : List A) (items : A → List Item) (k k' : Setting) :
    (as.flatMap fun a => only boolean text duration k (items a) k') =
      only boolean text duration k (as.flatMap items) k' := by
  by_cases h : k' = k
  · simp only [only, h, if_true, valuesOf_flatMap]
  · simp [only, h]

theorem flatMap_only_keys {ks : List Setting} (hks : ks.Nodup) (items : Setting → List Item)
    (k' : Setting) :
    (ks.flatMap fun k => only boolean text duration k (items k) k') =
      if k' ∈ ks then valuesOf boolean text duration k' (items k') else [] :=
  flatMap_ite hks k' fun k => valuesOf boolean text duration k' (items k)

private theorem reads_read {k : Setting} {i : Item} {p p' : Patch}
    (h : (key boolean text duration k).read i p = some p') :
    Reads (only boolean text duration k [i]) p p' := by
  obtain ⟨v, hv, rfl⟩ := Option.map_eq_some_iff.mp h
  intro k'
  by_cases hk : k = k'
  · subst hk
    cases v <;> simp [only, valuesOf, hv]
  · simp [only, Ne.symm hk, get?_set_of_ne p hk]

theorem reads_items {k : Setting} {items : List Item} {p p' : Patch}
    (h : items.foldlM (fun p i => (key boolean text duration k).read i p) p = some p') :
    Reads (only boolean text duration k items) p p' := by
  have hreads := reads_foldlM (fun i _ q q' hread => reads_read hread) h
  simpa only [flatMap_only, List.flatMap_singleton'] using hreads

end Keys

end Patch

/-! ## Tables -/

namespace Toml

/-- The items under the key of a setting, the one that counts last. -/
def itemsUnder (document : Table) (k : Setting) : List Item :=
  ((itemsOf document k.group).filterMap entriesOf?).flatMap fun t => itemsOf t k.name

def setting? (document : Table) (k : Setting) : Option k.Value :=
  (Patch.valuesOf boolean text duration k (itemsUnder document k)).getLast?

theorem get?_patch? {document : Table} {p : Patch} (h : patch? document = some p)
    (k : Setting) : p.get? k = setting? document k := by
  unfold patch? at h
  split at h
  · rw [Patch.keys_eq, List.foldlM_map] at h
    have hreads := Patch.reads_foldlM (fun key _ _ _ hkey =>
      Patch.reads_foldlM (fun t _ _ _ ht => Patch.reads_items ht) hkey) h
    simp only [Patch.flatMap_only, Patch.flatMap_only_keys Setting.nodup_all, Setting.mem_all,
      if_true] at hreads
    rw [hreads k, Patch.get?_empty, Option.or_none]
    rfl
  · cases h

end Toml

/-! ## Mappings -/

namespace Yaml

def known (group : String) : List String :=
  (Setting.all.filter fun k => k.group == group).map Setting.name

def entriesIn (d : Document) (known : List String) (node : Node) : List (Bytes × Node) :=
  (sectionEntries? d known node).getD []

def itemsUnder (d : Document) (k : Setting) : List Node :=
  (itemsOf (entriesIn d Patch.sections d.root) k.group).flatMap fun node =>
    itemsOf (entriesIn d (known k.group) node) k.name

def setting? (d : Document) (k : Setting) : Option k.Value :=
  (Patch.valuesOf (boolean d) (text d) (duration d) k (itemsUnder d k)).getLast?

variable {d : Document} {p p' : Patch}

private theorem reads_section {group : String} {inner : List (Bytes × Node)}
    (h : ((Setting.all.filter fun k => k.group == group).map
      (Patch.key (boolean d) (text d) (duration d))).foldlM
        (fun p key => (itemsOf inner key.name).foldlM (fun p i => key.read i p) p) p = some p') :
    Patch.Reads (fun k => if k.group = group then
      Patch.valuesOf (boolean d) (text d) (duration d) k (itemsOf inner k.name) else []) p p' := by
  rw [List.foldlM_map] at h
  have hreads := Patch.reads_foldlM (fun key _ _ _ hkey => Patch.reads_items hkey) h
  simp only [Patch.flatMap_only_keys (Setting.nodup_all.filter _), List.mem_filter,
    Setting.mem_all, true_and, beq_iff_eq] at hreads
  exact hreads

private theorem reads_sections {group : String} {nodes : List Node}
    {step : Patch → Node → Option Patch}
    (hstep : ∀ q node q', step q node = some q' → ∃ inner,
      sectionEntries? d (known group) node = some inner ∧
        ((Setting.all.filter fun k => k.group == group).map
          (Patch.key (boolean d) (text d) (duration d))).foldlM
            (fun p key => (itemsOf inner key.name).foldlM (fun p i => key.read i p) p) q = some q')
    (h : nodes.foldlM step p = some p') :
    Patch.Reads (fun k => if k.group = group then nodes.flatMap fun node =>
      Patch.valuesOf (boolean d) (text d) (duration d) k
        (itemsOf (entriesIn d (known group) node) k.name) else []) p p' := by
  have hnode (node : Node) (q q' : Patch) (hstepped : step q node = some q') :
      Patch.Reads (fun k => if k.group = group then
        Patch.valuesOf (boolean d) (text d) (duration d) k
          (itemsOf (entriesIn d (known group) node) k.name) else []) q q' := by
    obtain ⟨inner, hinner, hloop⟩ := hstep q node q' hstepped
    have hentries : entriesIn d (known group) node = inner := congrArg (·.getD []) hinner
    rw [hentries]
    exact reads_section hloop
  intro k
  rw [Patch.reads_foldlM (fun node _ => hnode node) h k]
  by_cases hk : k.group = group
  · simp only [hk, if_true]
  · simp [hk, List.flatMap_eq_nil_iff.mpr]

theorem get?_patch? (h : patch? d = some p) (k : Setting) : p.get? k = setting? d k := by
  unfold patch? at h
  simp only [Patch.keys_eq, List.filter_map, List.map_map] at h
  split at h
  · cases h
  · rename_i entries hroot
    have hentries : entriesIn d Patch.sections d.root = entries := congrArg (·.getD []) hroot
    have hreads := Patch.reads_foldlM (fun group _ q q' hgroup =>
      reads_sections (fun r node r' hnode => by
        split at hnode
        · cases hnode
        · rename_i inner hinner
          exact ⟨inner, hinner, hnode⟩) hgroup) h
    rw [hreads k, Patch.get?_empty, Option.or_none, setting?, itemsUnder, hentries,
      Patch.valuesOf_flatMap]
    simp only [flatMap_ite (show Patch.sections.Nodup by decide), Setting.group_mem_sections,
      if_true]

end Yaml

/-! ## Files -/

namespace Settings

/-- What the content of a file says about each setting, by the suffix of the file's name. -/
abbrev Statement := (suffix content : Bytes) → (k : Setting) → Option k.Value

/-- The decoders set the keys that are stated to the values stated, and no others. -/
def Decoders.Exact (decoders : Decoders) (stated : Statement) : Prop :=
  ∀ suffix content p, patch? decoders suffix content = some (some p) →
    ∀ k, p.get? k = stated suffix content k

/-- Under each key the last value counts. -/
def stated? : Statement := fun suffix content k =>
  if suffix == utf8 ".toml" then
    (Toml.parse? content).bind fun document => Toml.setting? document k
  else (Yaml.parse? content).bind fun document => document.bind fun d => Yaml.setting? d k

theorem exact_stated? : Decoders.Exact {} stated? := by
  intro suffix content p h k
  rw [patch?] at h
  by_cases htoml : (suffix == utf8 ".toml") = true
  · rw [if_pos htoml] at h
    obtain ⟨document, hdocument, hp⟩ := Option.bind_eq_some_iff.mp (Option.some.inj h)
    rw [stated?, if_pos htoml, hdocument]
    exact Toml.get?_patch? hp k
  · rw [if_neg htoml] at h
    split at h
    · obtain ⟨document, hdocument, hp⟩ := Option.bind_eq_some_iff.mp (Option.some.inj h)
      rw [stated?, if_neg htoml, hdocument]
      cases document with
      | none =>
          obtain rfl := Option.some.inj hp
          exact Patch.get?_empty k
      | some d => exact Yaml.get?_patch? hp k
    · cases h

end Settings

end Scriptlet
