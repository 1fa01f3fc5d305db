import Scriptlet.Proofs.Fault.Search
import Scriptlet.Proofs.Text.Pieces
import Scriptlet.Session.Runner

/-!
# Layers around a fault

A layer is a wrapping, which takes over what the fault below it is classified by,
or a label.  Whatever layers stand around a fault, a later search classifies the
whole as it would classify the fault itself (`within_classified`).
-/

namespace Scriptlet

namespace Fault

inductive Layer where
  | wrap (message : Bytes)
  | label (prefixed : Bytes)

namespace Layer

def message : Layer → Bytes
  | wrap message => message
  | label prefixed => prefixed

def around : Layer → Fault → Fault
  | wrap message, f => f.wrap message
  | label prefixed, f => Fault.label prefixed (some f)

end Layer

def within (f : Fault) (layers : List Layer) : Fault := layers.foldr Layer.around f

def runId (f : Fault) : Bytes := (f.outermost?.map Particulars.runId).getD []

/-- What a wrapping takes over from the fault below it. -/
def bearing (f : Fault) : Code × Severity × Bytes := (f.code, f.severity, f.runId)

/-! ## One layer -/

theorem outermost?_eq (f : Fault) : f.outermost? = f.first?.bind own? := by
  rw [outermost?, chain_eq]
  cases hfirst : f.first? with
  | none => rfl
  | some g =>
      obtain ⟨own, hown⟩ := own?_of_first? hfirst
      obtain rfl | ⟨cause, rfl⟩ := eq_of_own? hown <;> rfl

private theorem outermost?_eq_none_iff (f : Fault) : f.outermost? = none ↔ ∀ own, ¬f.Holds own := by
  rw [← first?_eq_none_iff, outermost?_eq]
  cases hfirst : f.first? with
  | none => simp
  | some g =>
      obtain ⟨own, hown⟩ := own?_of_first? hfirst
      simp [hown]

theorem wrap_eq (f : Fault) (message : Bytes) :
    f.wrap message = .wrapped
      { message := message, code := f.code, severity := f.severity, runId := f.runId } f := by
  cases houter : f.outermost? <;> simp [wrap, code, severity, runId, houter]

@[simp]
theorem chain_wrap (f : Fault) (message : Bytes) :
    (f.wrap message).chain =
      { message := message, code := f.code, severity := f.severity, runId := f.runId } ::
        f.chain := by
  rw [wrap_eq, chain]

@[simp]
theorem chain_label (f : Fault) (prefixed : Bytes) :
    (label prefixed (some f)).chain = f.chain := by
  rw [label, chain]

private theorem bearing_around (layer : Layer) (f : Fault) :
    (layer.around f).bearing = f.bearing := by
  cases layer with
  | wrap message =>
      simp [Layer.around, bearing, code, severity, runId, outermost?]
  | label prefixed =>
      simp [Layer.around, bearing, code, severity, runId, outermost?]

private theorem hasCode_around (layer : Layer) (f : Fault) (c : Code) :
    (layer.around f).hasCode c = true ↔
      f.hasCode c = true ∨ c = f.code ∧ ∃ message, layer = .wrap message := by
  cases layer with
  | wrap message =>
      rw [Layer.around, hasCode_eq_true_iff, hasCode_eq_true_iff, chain_wrap]
      simp only [List.mem_cons, exists_eq_or_imp, Layer.wrap.injEq, exists_eq', and_true]
      rw [or_comm, eq_comm (a := c)]
  | label prefixed => simp [Layer.around, hasCode]

private theorem text_around (layer : Layer) (f : Fault) :
    (layer.around f).text = layer.message ++ utf8 ": " ++ f.text := by
  cases layer with
  | wrap message => rw [Layer.around, wrap_eq, text, Layer.message]
  | label prefixed => rw [Layer.around, label, text, Layer.message]

/-! ## Any number of layers -/

theorem bearing_within (f : Fault) (layers : List Layer) :
    (f.within layers).bearing = f.bearing := by
  induction layers with
  | nil => rfl
  | cons layer layers ih => exact (bearing_around layer _).trans ih

theorem code_within (f : Fault) (layers : List Layer) : (f.within layers).code = f.code :=
  congrArg Prod.fst (f.bearing_within layers)

theorem severity_within (f : Fault) (layers : List Layer) :
    (f.within layers).severity = f.severity :=
  congrArg (fun b => b.2.1) (f.bearing_within layers)

theorem runId_within (f : Fault) (layers : List Layer) : (f.within layers).runId = f.runId :=
  congrArg (fun b => b.2.2) (f.bearing_within layers)

theorem hasCode_within (f : Fault) (layers : List Layer) (c : Code) :
    (f.within layers).hasCode c = true ↔
      f.hasCode c = true ∨ c = f.code ∧ ∃ message, .wrap message ∈ layers := by
  induction layers with
  | nil => simp [within]
  | cons layer layers ih =>
      have hstep := hasCode_around layer (f.within layers) c
      rw [ih, code_within] at hstep
      have hmem : (∃ message, .wrap message ∈ layer :: layers) ↔
          (∃ message, .wrap message ∈ layers) ∨ ∃ message, layer = .wrap message := by
        simp only [List.mem_cons, exists_or, eq_comm (b := layer)]
        exact or_comm
      rw [show f.within (layer :: layers) = layer.around (f.within layers) from rfl, hstep,
        hmem, or_assoc, ← and_or_left]

theorem hasCode_code {f : Fault} {own : Particulars} (h : f.outermost? = some own) :
    f.hasCode f.code = true := by
  rw [hasCode_eq_true_iff, code, h]
  exact ⟨own, List.mem_of_mem_head? h, rfl⟩

theorem text_within (f : Fault) (layers : List Layer) :
    (f.within layers).text = Bytes.join (utf8 ": ") (layers.map Layer.message ++ [f.text]) := by
  induction layers with
  | nil => simp [within, Bytes.join, List.intercalate]
  | cons layer layers ih =>
      rw [show f.within (layer :: layers) = layer.around (f.within layers) from rfl,
        text_around, ih, List.map_cons, List.cons_append]
      cases layers with
      | nil => simp [Bytes.join_cons]
      | cons next layers => simp [Bytes.join_cons]

theorem exitCode_within (f : Fault) (layers : List Layer) :
    Exit.code none (some (f.within layers)) = Exit.code none (some f) := by
  simp only [Exit.code, Exit.ofFault, code_within]

theorem hasCode_within_of_ne {f : Fault} {c : Code} (layers : List Layer) (hc : c ≠ .unknown) :
    (f.within layers).hasCode c = f.hasCode c := by
  rw [Bool.eq_iff_iff, hasCode_within]
  refine or_iff_left_of_imp ?_
  rintro ⟨rfl, -⟩
  -- A wrapping repeats the fault's own code, which the search found before.
  cases houter : f.outermost? with
  | none => exact absurd (by simp [code, houter]) hc
  | some own => exact hasCode_code houter

theorem hasCode_unknown_within (f : Fault) (layers : List Layer) :
    (f.within layers).hasCode .unknown = true ↔ f.hasCode .unknown = true ∨
      (∀ own, ¬f.Holds own) ∧ ∃ message, .wrap message ∈ layers := by
  rw [hasCode_within, ← outermost?_eq_none_iff]
  cases houter : f.outermost? with
  | none => simp [code, houter]
  | some own =>
      simp only [reduceCtorEq, false_and, or_false, or_iff_left_iff_imp]
      rintro ⟨hcode, -⟩
      exact hcode ▸ hasCode_code houter

/--
Layers around a fault change neither its code, its severity nor its exit code.  A
wrapping around them all takes these over, and the run of the first coded fault of
the tree.  A search for a code answers as before, but finds `unknown` once a fault
without any coded fault is wrapped.  The text is the messages of the layers and the
text of the fault, with colons between them.
-/
theorem within_classified (f : Fault) (layers : List Layer) :
    (f.within layers).code = f.code ∧
    (f.within layers).severity = f.severity ∧
    Exit.code none (some (f.within layers)) = Exit.code none (some f) ∧
    (∀ message, ∃ own, ((f.within layers).wrap message).own? = some own ∧
      own.code = f.code ∧ own.severity = f.severity ∧
      own.runId = ((f.first?.bind own?).map Particulars.runId).getD []) ∧
    (∀ c, c ≠ .unknown → (f.within layers).hasCode c = f.hasCode c) ∧
    ((f.within layers).hasCode .unknown = true ↔ f.hasCode .unknown = true ∨
      (∀ own, ¬f.Holds own) ∧ ∃ message, .wrap message ∈ layers) ∧
    (f.within layers).text =
      Bytes.join (utf8 ": ") (layers.map Layer.message ++ [f.text]) := by
  refine ⟨f.code_within layers, f.severity_within layers, f.exitCode_within layers, ?_,
    fun c => hasCode_within_of_ne layers, f.hasCode_unknown_within layers,
    f.text_within layers⟩
  intro message
  rw [wrap_eq]
  refine ⟨_, rfl, f.code_within layers, f.severity_within layers, ?_⟩
  rw [← outermost?_eq]
  exact f.runId_within layers

example :
    Exit.code none (some ((coded { message := utf8 "write", code := .inputOutput }).within
      [.wrap (utf8 "run"), .label (utf8 "unit 1"), .wrap (utf8 "print")])) = 74 := by
  decide

end Fault

end Scriptlet
