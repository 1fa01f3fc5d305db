import Scriptlet.Journal.Logger
import Scriptlet.Proofs.Datum.Fields
import Scriptlet.Proofs.Fault.Wrapping

/-!
# Faults in the log

A fault is logged with the items and the details of its outermost coded fault,
all under keys with one prefix.  The details are written last, so they stand in
the entry whatever their keys are, and an item stands there unless a detail has its
name (`entry?_ofFault`).
-/

namespace Scriptlet

namespace Fields

def reportKey (key : Bytes) : Bytes := utf8 "error_" ++ key

def reported (fields : Fields) : Fields := fields.map fun entry => (reportKey entry.1, entry.2)

theorem reverse_reported (fields : Fields) :
    (reported fields).reverse = reported fields.reverse :=
  List.map_reverse.symm

private theorem get?_reported (fields : Fields) (key : Bytes) :
    get? (reported fields) (reportKey key) = get? fields key := by
  induction fields with
  | nil => rfl
  | cons entry fields ih =>
      rw [reported, List.map_cons, get?_cons, get?_cons]
      simp only [reportKey, List.append_cancel_left_eq]
      rw [← ih]
      rfl

private theorem get?_reported_of_not_prefix (fields : Fields) {key : Bytes}
    (h : ¬utf8 "error_" <+: key) : get? (reported fields) key = none := by
  rw [get?_eq_none_iff]
  intro hmem
  obtain ⟨entry, hentry, rfl⟩ := List.mem_map.mp hmem
  obtain ⟨field, -, rfl⟩ := List.mem_map.mp hentry
  exact h (List.prefix_append _ _)

end Fields

open Fields

namespace Particulars

def items (own : Particulars) : Fields :=
  [(utf8 "code", .text own.code), (utf8 "severity", .text (utf8 own.severity.name))] ++
    if own.operation.isEmpty then [] else [(utf8 "operation", .text own.operation)]

private theorem nodup_keys_items (own : Particulars) : (keys own.items).Nodup := by
  rw [items]
  split
  · show [utf8 "code", utf8 "severity"].Nodup
    decide
  · show [utf8 "code", utf8 "severity", utf8 "operation"].Nodup
    decide

end Particulars

namespace Event

variable {f : Fault} {own : Particulars}

theorem ofFault_eq (h : f.outermost? = some own) :
    ofFault f = ⟨levelOf own.severity, f.text,
      ofList (reported (own.items ++ own.details)), some f⟩ := by
  have hcode : utf8 "error_code" = reportKey (utf8 "code") := by decide
  have hseverity : utf8 "error_severity" = reportKey (utf8 "severity") := by decide
  have hoperation : utf8 "error_operation" = reportKey (utf8 "operation") := by decide
  rw [ofFault, h, hcode, hseverity, hoperation]
  cases hempty : own.operation.isEmpty <;>
    simp [Particulars.items, reported, reportKey, hempty, Datum.ofName]

theorem get?_ofFault (h : f.outermost? = some own) (hdetails : Ordered own.details)
    (key : Bytes) :
    get? (ofFault f).fields (reportKey key) =
      (get? own.details key).or (get? own.items key) := by
  -- The details are written after the items: reversed, they are found first.
  rw [ofFault_eq h, ofList, get?_merge_reverse, reverse_reported, get?_reported,
    List.reverse_append, get?_append, get?_reverse hdetails.nodup,
    get?_reverse own.nodup_keys_items, get?_nil, Option.or_none]

private theorem get?_ofFault_of_not_prefix (h : f.outermost? = some own) {key : Bytes}
    (hkey : ¬utf8 "error_" <+: key) : get? (ofFault f).fields key = none := by
  rw [ofFault_eq h, ofList, get?_merge_reverse, reverse_reported,
    get?_reported_of_not_prefix _ hkey, get?_nil, Option.or_none]

theorem ordered_ofFault (h : f.outermost? = some own) : Ordered (ofFault f).fields := by
  rw [ofFault_eq h]
  exact ordered_ofList _

private theorem levelOf_reaches (severity : Severity) :
    (levelOf severity).reaches .trace = true := by
  cases severity <;> decide

end Event

namespace Logger

/--
A fault with a coded fault in its tree is logged with its full text, on the level of
the first coded fault's severity.  Every detail of that coded fault is reported under
the detail's own key, and an item of it is reported if and only if no other detail has the
item's name.  All other fields are those of the logger.
-/
theorem entry?_ofFault {f : Fault} (hcoded : ∃ own, f.Holds own)
    (hdetails : ∀ own, f.Holds own → Ordered own.details) {l : Logger}
    (hlevel : l.level = .trace) (time : Moment) :
    ∃ own entry, f.first?.bind Fault.own? = some own ∧
      own.code = f.code ∧ own.severity = f.severity ∧
      l.entry? time (Event.ofFault f) = some entry ∧
      entry.message = f.text ∧ entry.error = some f ∧
      (entry.level = match own.severity with
        | .low => .info
        | .medium => .warn
        | _ => .error) ∧
      (∀ key value, get? own.details key = some value →
        get? entry.fields (reportKey key) = some value) ∧
      (∀ key value, get? own.items key = some value →
        (get? entry.fields (reportKey key) = some value ↔
          ∀ detail, get? own.details key = some detail → detail = value)) ∧
      ∀ key, ¬utf8 "error_" <+: key → get? entry.fields key = get? l.fields key := by
  obtain ⟨first, hfirst⟩ : ∃ first, f.first? = some first := by
    refine Option.ne_none_iff_exists'.mp fun hnone => ?_
    obtain ⟨own, hholds⟩ := hcoded
    exact (f.first?_eq_none_iff.mp hnone) own hholds
  obtain ⟨own, hown⟩ := Fault.own?_of_first? hfirst
  have hbind : f.first?.bind Fault.own? = some own := by rw [hfirst, Option.bind_some, hown]
  have houter : f.outermost? = some own := f.outermost?_eq.trans hbind
  have hholds : f.Holds own :=
    ⟨first, (Fault.mem_nodes f first).mp (List.mem_of_find?_eq_some hfirst), hown⟩
  have hevent := Event.ofFault_eq houter
  have hfields := (Event.ordered_ofFault houter).nodup
  -- On the trace level every report passes, and its fields are laid over the logger's.
  have hentry : l.entry? time (Event.ofFault f) =
      some { time := time, level := Event.levelOf own.severity, message := f.text,
             logger := l.name, runId := l.runId,
             fields := l.fields.merge (Event.ofFault f).fields, error := some f } := by
    unfold entry?
    rw [isEnabled, hlevel, hevent, Event.levelOf_reaches, if_pos rfl]
  refine ⟨own, _, hbind, ?_, ?_, hentry, rfl, rfl, ?_, ?_, ?_, ?_⟩
  · simp [Fault.code, houter]
  · simp [Fault.severity, houter]
  · cases own.severity <;> rfl
  · intro key value hvalue
    rw [get?_merge _ hfields, Event.get?_ofFault houter (hdetails own hholds), hvalue]
    rfl
  · intro key value hvalue
    rw [get?_merge _ hfields, Event.get?_ofFault houter (hdetails own hholds), hvalue]
    cases get? own.details key <;> simp
  · intro key hkey
    rw [get?_merge _ hfields, Event.get?_ofFault_of_not_prefix houter hkey, Option.none_or]

def refusedWrite : Fault :=
  .labelled (utf8 "run") (.coded
    { message := utf8 "write", code := .inputOutput, severity := .high,
      details := [(utf8 "path", .text (utf8 "a.lox"))] })

def engineLogger : Logger :=
  { level := .trace, fields := [(utf8 "component", .ofName "engine")] }

theorem entry?_ofFault_refusedWrite :
    (∃ own, refusedWrite.Holds own) ∧
      (∀ own, refusedWrite.Holds own → Ordered own.details) ∧ engineLogger.level = .trace ∧
      ∃ entry, engineLogger.entry? default (Event.ofFault refusedWrite) = some entry ∧
        entry.level = .error ∧
        get? entry.fields (utf8 "error_path") = some (.text (utf8 "a.lox")) ∧
        get? entry.fields (utf8 "error_code") = some (.text (utf8 "IO_ERROR")) ∧
        get? entry.fields (utf8 "component") = some (.ofName "engine") := by
  have hholds (own : Particulars) : refusedWrite.Holds own ↔
      own = { message := utf8 "write", code := .inputOutput, severity := .high,
              details := [(utf8 "path", .text (utf8 "a.lox"))] } := by
    simp [refusedWrite, Fault.Holds, ← Fault.mem_nodes, Fault.nodes, Fault.own?, eq_comm]
  have hcoded : ∃ own, refusedWrite.Holds own := ⟨_, (hholds _).mpr rfl⟩
  have hdetails (own : Particulars) (h : refusedWrite.Holds own) : Ordered own.details := by
    obtain rfl := (hholds own).mp h
    exact List.pairwise_singleton _ _
  obtain ⟨own, entry, hfirst, -, -, hentry, -, -, hlevel, hdetail, hitem, hother⟩ :=
    entry?_ofFault hcoded hdetails (show engineLogger.level = .trace from rfl) default
  obtain rfl := Option.some.inj hfirst
  refine ⟨hcoded, hdetails, rfl, entry, hentry, hlevel, ?_, ?_, ?_⟩
  · exact hdetail (utf8 "path") _ rfl
  · refine (hitem (utf8 "code") _ rfl).mpr fun detail h => ?_
    simp [show utf8 "path" ≠ utf8 "code" by decide] at h
  · exact hother (utf8 "component") (by decide)

/-- A detail has the name of an item: the code that is reported is not the fault's. -/
theorem entry?_ofFault_hidden_code :
    ∃ f entry, f = Fault.coded
        { message := utf8 "m", code := utf8 "A", details := [(utf8 "code", .text (utf8 "B"))] } ∧
      f.code = utf8 "A" ∧ engineLogger.entry? default (Event.ofFault f) = some entry ∧
      get? entry.fields (utf8 "error_code") = some (.text (utf8 "B")) :=
  ⟨_, _, rfl, rfl, rfl, rfl⟩

end Logger

end Scriptlet
