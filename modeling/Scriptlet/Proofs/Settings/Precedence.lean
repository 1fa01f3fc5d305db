import Scriptlet.CommandLine.Execution
import Scriptlet.Proofs.Settings.Keys

/-!
# The layers of settings

Flags count more than the environment, the environment more than the file and
the file more than the defaults; what is empty, zero or no truth value does not
count at all.  The settings of a program are those that the layers yield, if they
are valid, and the setup honours them (`settings_eq_ok_iff`).
-/

namespace Scriptlet

/-! ## Texts that may be empty -/

def firstGiven (texts : List Bytes) : Bytes := (texts.find? fun t => !t.isEmpty).getD []

theorem firstGiven_cons (t : Bytes) (texts : List Bytes) :
    firstGiven (t :: texts) = if t.isEmpty then firstGiven texts else t := by
  cases h : t.isEmpty <;> simp [firstGiven, h]

theorem firstGiven_ne_nil {texts : List Bytes} (h : ∃ t ∈ texts, t ≠ []) :
    firstGiven texts ≠ [] := by
  induction texts with
  | nil => simp at h
  | cons t texts ih =>
      rw [firstGiven_cons]
      cases t with
      | nil => exact ih (by simpa using h)
      | cons b t => simp

def Environment.value (env : Environment) (name : String) : Bytes :=
  (env.get? (utf8 name)).getD []

theorem Environment.nonempty?_eq (env : Environment) (name : String) :
    env.nonempty? (utf8 name) =
      if (env.value name).isEmpty then none else some (env.value name) := by
  rw [nonempty?, value]
  cases env.get? (utf8 name) with
  | none => rfl
  | some s => cases s <;> rfl

theorem getD_stated (stated : Option Bytes) {default : Bytes} (hdefault : default ≠ []) :
    (stated.filter fun t => !t.isEmpty).getD default = firstGiven [stated.getD [], default] := by
  have hlast : firstGiven [default] = default := by simp [firstGiven, hdefault]
  rw [firstGiven_cons, hlast]
  cases stated with
  | none => rfl
  | some s => cases s <;> rfl

theorem getD_text (env : Environment) (name : String) (stated : Option Bytes) {default : Bytes}
    (hdefault : default ≠ []) :
    (env.nonempty? (utf8 name)).getD ((stated.filter fun t => !t.isEmpty).getD default) =
      firstGiven [env.value name, stated.getD [], default] := by
  rw [env.nonempty?_eq, getD_stated stated hdefault, firstGiven_cons (env.value name)]
  split <;> rfl

private theorem bind_boolean? (env : Environment) (name : String) :
    (env.nonempty? (utf8 name)).bind Patch.boolean? = Patch.boolean? (env.value name) := by
  rw [env.nonempty?_eq]
  split
  · rename_i hempty
    rw [List.isEmpty_iff.mp hempty]
    rfl
  · rfl

/-! ## What the layers yield -/

namespace CommandLine

/--
The settings that count: of flags, environment, file and default the first one
that says anything.
-/
structure Effective (env : Environment) (o : Options) (file : Patch) (s : Settings) : Prop where
  logLevel : s.logLevel = if o.verbose then utf8 "debug" else
    firstGiven [o.logLevel, env.value "LOX_LOG_LEVEL", file.logLevel.getD [], utf8 "warn"]
  logFormat : s.logFormat =
    firstGiven [env.value "LOX_LOG_FORMAT", file.logFormat.getD [], utf8 "text"]
  prompt : s.prompt = firstGiven [env.value "LOX_PROMPT", file.prompt.getD [], utf8 "> "]
  unterminated : s.unterminated =
    firstGiven [env.value "LOX_UNTERMINATED", file.unterminated.getD [], utf8 "error"]
  exitCommand : s.exitCommand = firstGiven [file.exitCommand.getD [], utf8 "exit"]
  debounce : s.debounce = match file.debounce with
    | some d => if d.nanoseconds = 0 then .ofMilliseconds 200 else d
    | none => .ofMilliseconds 200
  color : s.color = if o.noColor = true ∨ (env.get? (utf8 "NO_COLOR")).isSome then false else
    ((Patch.boolean? (env.value "LOX_COLOR")).or file.color).getD true
  echo : s.echo = file.echo.getD true
  tui : s.tui = (o.tui || file.tui.getD false)

variable {env : Environment} {o : Options} {file : Patch} {s : Settings}

theorem effective_layered (env : Environment) (o : Options) (file : Patch) :
    Effective env o file ((Settings.layered file env).apply o.patch) where
  logLevel := by
    have htext := getD_text env "LOX_LOG_LEVEL" file.logLevel (show utf8 "warn" ≠ [] by decide)
    rw [firstGiven_cons, ← htext]
    simp only [Settings.apply, Settings.layered, Options.patch]
    split
    · rfl
    · split <;> rfl
  logFormat := getD_text env "LOX_LOG_FORMAT" file.logFormat (by decide)
  prompt := getD_text env "LOX_PROMPT" file.prompt (by decide)
  unterminated := getD_text env "LOX_UNTERMINATED" file.unterminated (by decide)
  exitCommand := getD_stated file.exitCommand (by decide)
  debounce := by
    simp only [Settings.apply, Settings.layered, Options.patch, Patch.ofEnvironment,
      Patch.withoutEmpty]
    cases file.debounce with
    | none => rfl
    | some d => by_cases hzero : d.nanoseconds = 0 <;> simp [Option.filter, hzero]
  color := by
    simp only [Settings.apply, Settings.layered, Options.patch, Patch.ofEnvironment,
      Patch.withoutEmpty, bind_boolean?]
    by_cases hflag : o.noColor = true
    · simp [hflag]
    · by_cases hset : (env.get? (utf8 "NO_COLOR")).isSome = true
      · simp [hflag, hset]
      · cases hbool : Patch.boolean? (env.value "LOX_COLOR") <;> simp [hflag, hset]
  echo := rfl
  tui := by
    simp only [Settings.apply, Settings.layered, Options.patch, Patch.ofEnvironment,
      Patch.withoutEmpty]
    cases o.tui <;> rfl

theorem Effective.unique {s t : Settings} (hs : Effective env o file s)
    (ht : Effective env o file t) : s = t := by
  cases s
  cases t
  rw [Settings.mk.injEq]
  exact ⟨hs.color.trans ht.color.symm, hs.unterminated.trans ht.unterminated.symm,
    hs.prompt.trans ht.prompt.symm, hs.echo.trans ht.echo.symm,
    hs.exitCommand.trans ht.exitCommand.symm, hs.tui.trans ht.tui.symm,
    hs.debounce.trans ht.debounce.symm, hs.logLevel.trans ht.logLevel.symm,
    hs.logFormat.trans ht.logFormat.symm⟩

theorem eq_layered_iff :
    s = (Settings.layered file env).apply o.patch ↔ Effective env o file s := by
  constructor
  · rintro rfl
    exact effective_layered env o file
  · exact fun h => h.unique (effective_layered env o file)

/-! ## Where the file comes from -/

namespace World

/--
The path of the file: the one that a flag names, the one that the environment
names, or the first default place at which something is.
-/
def place? (w : World) (o : Options) : Option Bytes :=
  if o.config.isEmpty then
    (w.environment.nonempty? (utf8 "LOX_CONFIG")).or
      ((Settings.defaultPaths w.environment).find? w.files.exists?)
  else some o.config

def suffix (w : World) (path : Bytes) : Bytes :=
  Lowercase.lower (Path.suffix (w.environment.expand path))

/--
The layer of the file: nothing if there is none, and else what its content states
about each setting.
-/
inductive Supplies (w : World) (stated : Settings.Statement) (o : Options) : Patch → Prop
  | nothing : w.place? o = none → Supplies w stated o {}
  | file {path content : Bytes} {p : Patch} :
      w.place? o = some path → w.files.read (w.environment.expand path) = .ok content →
      Settings.patch? w.decoders (w.suffix path) content = some (some p) →
      (∀ k, p.get? k = stated (w.suffix path) content k) → Supplies w stated o p

def loaded (w : World) (o : Options) : Except Fault Settings :=
  match w.place? o with
  | some path => Settings.load w.files w.environment path w.decoders
  | none => .ok (Settings.layered {} w.environment)

variable {w : World} {stated : Settings.Statement}

private theorem loaded_eq (w : World) (o : Options) :
    (if o.config.isEmpty then Settings.loadDefault w.files w.environment w.decoders
      else Settings.load w.files w.environment o.config w.decoders) = w.loaded o := by
  rw [loaded, place?]
  split
  · rw [Settings.loadDefault]
    cases w.environment.nonempty? (utf8 "LOX_CONFIG") with
    | some path => rfl
    | none => cases (Settings.defaultPaths w.environment).find? w.files.exists? <;> rfl
  · rfl

private theorem load_eq_ok_iff {path : Bytes} {t : Settings} :
    Settings.load w.files w.environment path w.decoders = .ok t ↔
      ∃ content p, w.files.read (w.environment.expand path) = .ok content ∧
        Settings.patch? w.decoders (w.suffix path) content = some (some p) ∧
        t = Settings.layered p w.environment := by
  rw [Settings.load, suffix]
  cases hread : w.files.read (w.environment.expand path) with
  | error complaint => simp
  | ok content =>
      simp only [Except.ok.injEq, exists_and_left, exists_eq_left']
      cases hpatch : Settings.patch? w.decoders
          (Lowercase.lower (Path.suffix (w.environment.expand path))) content with
      | none => simp
      | some read =>
          cases read with
          | none => simp
          | some p => simp [eq_comm]

theorem loaded_eq_ok_iff (hexact : w.decoders.Exact stated) {t : Settings} :
    w.loaded o = .ok t ↔
      ∃ file, w.Supplies stated o file ∧ t = Settings.layered file w.environment := by
  rw [loaded]
  cases hplace : w.place? o with
  | none =>
      constructor
      · intro h
        exact ⟨{}, .nothing hplace, (Except.ok.inj h).symm⟩
      · rintro ⟨file, hsupplies, rfl⟩
        cases hsupplies with
        | nothing => rfl
        | file hsome =>
            rw [hplace] at hsome
            cases hsome
  | some path =>
      simp only [load_eq_ok_iff]
      constructor
      · rintro ⟨content, p, hread, hpatch, rfl⟩
        exact ⟨p, .file hplace hread hpatch (hexact _ _ _ hpatch), rfl⟩
      · rintro ⟨file, hsupplies, rfl⟩
        cases hsupplies with
        | nothing hnone =>
            rw [hplace] at hnone
            cases hnone
        | file hsome hread hpatch =>
            obtain rfl := Option.some.inj (hplace.symm.trans hsome)
            exact ⟨_, _, hread, hpatch, rfl⟩

theorem settings_eq_ok_iff_valid (hexact : w.decoders.Exact stated) {s : Settings} :
    w.settings o = .ok s ↔
      ∃ file, w.Supplies stated o file ∧ s = (Settings.layered file w.environment).apply o.patch ∧
        s.invalid? = none := by
  simp only [settings, loaded_eq]
  cases hloaded : w.loaded o with
  | error f =>
      simp only [reduceCtorEq, false_iff]
      rintro ⟨file, hsupplies, -⟩
      rw [(loaded_eq_ok_iff hexact).mpr ⟨file, hsupplies, rfl⟩] at hloaded
      cases hloaded
  | ok t =>
      obtain ⟨file, hsupplies, rfl⟩ := (loaded_eq_ok_iff hexact).mp hloaded
      constructor
      · intro h
        dsimp only at h
        split at h
        · cases h
        · rename_i hvalid
          obtain rfl := Except.ok.inj h
          exact ⟨file, hsupplies, rfl, hvalid⟩
      · rintro ⟨file', hsupplies', rfl, hvalid⟩
        have hsame := (loaded_eq_ok_iff hexact).mpr ⟨file', hsupplies', rfl⟩
        rw [hloaded] at hsame
        rw [Except.ok.inj hsame]
        simp only [hvalid]

end World

end CommandLine

/-! ## Valid settings -/

namespace Settings

private theorem invalid?_eq_none_iff {s : Settings} :
    s.invalid? = none ↔ (Level.parse? s.logLevel).isSome ∧ (Format.parse? s.logFormat).isSome ∧
      (Unterminated.parse? s.unterminated).isSome ∧ 0 < s.debounce.nanoseconds := by
  have hproblems : s.invalid? = none ↔ s.problems = [] := by
    rw [invalid?]
    split <;> simp_all
  have hcomplain {ok : Prop} [Decidable ok] (text : Bytes) :
      (if ok then [] else [text]) = [] ↔ ok := by
    split <;> simp_all
  rw [hproblems, problems]
  simp only [List.append_eq_nil_iff, hcomplain, decide_eq_true_eq, and_assoc]

end Settings

/-! ## What the setup honours -/

namespace CommandLine

/-- The setup does what the settings say, and they say nothing that it does not know. -/
structure Honours (setup : Setup) (s : Settings) : Prop where
  level : Level.parse? s.logLevel = some setup.logger.level
  format : Format.parse? s.logFormat = some setup.logger.format
  policy : Unterminated.parse? s.unterminated = some setup.policy
  color : setup.renderer.color = s.color
  debounce : 0 < s.debounce.nanoseconds

private theorem Effective.level_ofNames (h : Effective env o file s) (name : Bytes) :
    (LogSetup.ofNames name s.logLevel s.logFormat o.logLevel o.verbose).level = s.logLevel := by
  have hne : s.logLevel ≠ [] := by
    rw [h.logLevel]
    split
    · decide
    · exact firstGiven_ne_nil ⟨utf8 "warn", by simp, by decide⟩
  simp only [LogSetup.ofNames, List.isEmpty_eq_false_iff.mpr hne]
  by_cases hverbose : o.verbose = true
  · simp [h.logLevel, hverbose]
  · cases hlevel : o.logLevel.isEmpty
    · simp [h.logLevel, hverbose, firstGiven_cons, hlevel]
    · simp [hverbose]

private theorem Effective.format_ofNames (h : Effective env o file s) (name : Bytes) :
    (LogSetup.ofNames name s.logLevel s.logFormat o.logLevel o.verbose).format = s.logFormat := by
  have hne : s.logFormat ≠ [] := by
    rw [h.logFormat]
    exact firstGiven_ne_nil ⟨utf8 "text", by simp, by decide⟩
  simp [LogSetup.ofNames, hne]

theorem eq_some_getD_iff {A : Type} {x : Option A} {a : A} :
    x = some (x.getD a) ↔ x.isSome = true := by
  cases x <;> simp

theorem honours_iff {w : World} (h : Effective w.environment o file s) :
    Honours (w.setup o s) s ↔ s.invalid? = none := by
  have hlevel : (w.setup o s).logger.level = (Level.parse? s.logLevel).getD .warn :=
    congrArg (fun name => (Level.parse? name).getD .warn) (h.level_ofNames _)
  have hformat : (w.setup o s).logger.format = (Format.parse? s.logFormat).getD .text :=
    congrArg (fun name => (Format.parse? name).getD .text) (h.format_ofNames _)
  have hpolicy : (w.setup o s).policy = (Unterminated.parse? s.unterminated).getD .error := rfl
  rw [Settings.invalid?_eq_none_iff]
  constructor
  · rintro ⟨hl, hf, hp, -, hd⟩
    rw [hlevel, eq_some_getD_iff] at hl
    rw [hformat, eq_some_getD_iff] at hf
    rw [hpolicy, eq_some_getD_iff] at hp
    exact ⟨hl, hf, hp, hd⟩
  · rintro ⟨hl, hf, hp, hd⟩
    rw [← eq_some_getD_iff] at hl hf hp
    exact ⟨hlevel ▸ hl, hformat ▸ hf, hpolicy ▸ hp, rfl, hd⟩

namespace World

/--
Where the decoders set exactly what a file states, settings are found if and only if
they are what the layers yield and the setup honours them.  Each setting has the value
of the last layer that names it, so that no layer changes a setting it does not name.
-/
theorem settings_eq_ok_iff (w : World) (hexact : w.decoders.Exact stated) (o : Options)
    (s : Settings) :
    w.settings o = .ok s ↔
      ∃ file, w.Supplies stated o file ∧ Effective w.environment o file s ∧
        Honours (w.setup o s) s ∧ ∀ k, s.get k =
          (((o.patch.get? k).or ((Patch.ofEnvironment w.environment).get? k)).or
            (file.withoutEmpty.get? k)).getD (Settings.get {} k) := by
  have hlayers (file : Patch) (k : Setting) :
      ((Settings.layered file w.environment).apply o.patch).get k =
        (((o.patch.get? k).or ((Patch.ofEnvironment w.environment).get? k)).or
          (file.withoutEmpty.get? k)).getD (Settings.get {} k) := by
    rw [Settings.layered, Settings.get_apply, Settings.get_apply, Settings.get_apply,
      Option.getD_or, Option.getD_or]
  rw [settings_eq_ok_iff_valid hexact]
  constructor
  · rintro ⟨file, hsupplies, hs, hvalid⟩
    have heffective := eq_layered_iff.mp hs
    exact ⟨file, hsupplies, heffective, (honours_iff heffective).mpr hvalid,
      fun k => hs ▸ hlayers file k⟩
  · rintro ⟨file, hsupplies, heffective, hhonours, -⟩
    exact ⟨file, hsupplies, eq_layered_iff.mpr heffective, (honours_iff heffective).mp hhonours⟩

/-- A file whose level and color are overruled, and whose pause of zero does not count. -/
def layered : World where
  files := [(utf8 "lox.toml", Bytes.join [newline] (List.map utf8
    ["[general]", "color = true", "[watch]", "debounce = \"0s\"", "[log]", "level = \"error\"",
      "format = \"json\"", "[repl]", "prompt = \"$ \""]))]
  environment := [(utf8 "LOX_LOG_LEVEL", utf8 "info"), (utf8 "LOX_PROMPT", []),
    (utf8 "LOX_COLOR", utf8 "maybe"), (utf8 "NO_COLOR", [])]
  ids := ⟨[], fun _ => []⟩

theorem settings_layered :
    layered.decoders.Exact Settings.stated? ∧
      ∃ s, layered.settings { logLevel := utf8 "trace" } = .ok s ∧
      (s.logLevel, s.logFormat, s.prompt, s.color) =
        (utf8 "trace", utf8 "json", utf8 "$ ", false) ∧
      s.debounce = .ofMilliseconds 200 ∧
      (layered.setup { logLevel := utf8 "trace" } s).logger.level = .trace := by
  refine ⟨Settings.exact_stated?, ?_⟩
  have hshown : (layered.settings { logLevel := utf8 "trace" }).toOption.map
      (fun s => ((s.logLevel, s.logFormat, s.prompt, s.color), s.debounce)) =
        some ((utf8 "trace", utf8 "json", utf8 "$ ", false), .ofMilliseconds 200) := by
    decide +kernel
  cases hs : layered.settings { logLevel := utf8 "trace" } with
  | error f =>
      rw [hs] at hshown
      cases hshown
  | ok s =>
      rw [hs] at hshown
      obtain ⟨htexts, hdebounce⟩ := Prod.mk.inj (Option.some.inj hshown)
      obtain ⟨file, -, -, hhonours, -⟩ :=
        (settings_eq_ok_iff layered Settings.exact_stated? { logLevel := utf8 "trace" } s).mp hs
      have hlevel := hhonours.level
      rw [(Prod.mk.inj htexts).1] at hlevel
      exact ⟨s, rfl, htexts, hdebounce, (Option.some.inj hlevel).symm⟩

end World

end CommandLine

end Scriptlet
