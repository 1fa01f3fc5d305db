import Scriptlet.Journal.Entry
import Scriptlet.Proofs.Datum.Fields
import Scriptlet.Proofs.Datum.JsonRoundTrip

/-!
# Log entries as lines of JSON

An entry in the JSON format is one line with one object.  The object holds the entry's
own items, whatever fields have their names, and all other fields (`line?_json`).
-/

namespace Scriptlet

/-! ## Timestamps -/

theorem Utf8.printable_padZeros (width n : Nat) :
    Utf8.Printable (Bytes.padZeros width (Bytes.ofNat n)) := by
  refine Utf8.printable_of_ascii fun b hb => ?_
  have hdigit := Bytes.isDigit_of_mem_padZeros hb
  rw [Bytes.isDigit_iff] at hdigit
  omega

namespace Moment

private theorem printable_timestamp (m : Moment) : Utf8.Printable m.timestamp := by
  have htwo (n : Nat) : Utf8.Printable (two n) := Utf8.printable_padZeros 2 n
  have hdash : Utf8.Printable (utf8 "-") := Utf8.printable_utf8 (by decide)
  have hcolon : Utf8.Printable (utf8 ":") := Utf8.printable_utf8 (by decide)
  have hdate : Utf8.Printable (Bytes.join (utf8 "-")
      [Bytes.padZeros 4 (Bytes.ofNat m.year), two m.month, two m.day]) :=
    Utf8.printable_join hdash (by simp [Utf8.printable_padZeros, htwo])
  have hclock : Utf8.Printable m.clock := Utf8.printable_join hcolon (by simp [htwo])
  have hzone : Utf8.Printable m.zone := by
    rw [zone]
    split
    · exact Utf8.printable_utf8 (by decide)
    · have hsign : Utf8.Printable (utf8 (if m.offset < 0 then "-" else "+")) := by
        split
        · exact hdash
        · exact Utf8.printable_utf8 (by decide)
      exact ((hsign.append (htwo _)).append hcolon).append (htwo _)
  exact ((hdate.append (Utf8.printable_utf8 (by decide))).append hclock).append hzone

end Moment

namespace Entry

/-! ## Items and fields -/

def itemNames : List Bytes :=
  [utf8 "timestamp", utf8 "level", utf8 "message", utf8 "logger", utf8 "run_id", utf8 "error",
    utf8 "duration_ms"]

theorem keys_ownItems_sublist (e : Entry) : (Fields.keys e.ownItems).Sublist itemNames := by
  have hoptional (c : Prop) [Decidable c] (key : Bytes) (value : Datum) :
      (Fields.keys (if c then [] else [(key, value)])).Sublist [key] := by
    split
    · exact List.nil_sublist _
    · exact .refl _
  have herror :
      (Fields.keys (e.error.map fun f => (utf8 "error", Datum.text f.text)).toList).Sublist
      [utf8 "error"] := by
    cases e.error with
    | none => exact List.nil_sublist _
    | some f => exact .refl _
  have hduration : (Fields.keys (if e.hasDuration then
      [(utf8 "duration_ms", .float e.duration.milliseconds)] else [])).Sublist
      [utf8 "duration_ms"] := by
    split
    · exact .refl _
    · exact List.nil_sublist _
  rw [ownItems, Fields.keys, List.map_append, List.map_append, List.map_append, List.map_append]
  exact ((((List.Sublist.refl _).append (hoptional _ _ _)).append (hoptional _ _ _)).append
    herror).append hduration

theorem nodup_keys_ownItems (e : Entry) : (Fields.keys e.ownItems).Nodup :=
  e.keys_ownItems_sublist.nodup (by decide)

theorem get?_jsonFields (e : Entry) (key : Bytes) :
    Fields.get? e.jsonFields key =
      (Fields.get? e.ownItems key).or ((Fields.get? e.fields key).map jsonValue) := by
  rw [jsonFields, Fields.get?_merge _ e.nodup_keys_ownItems]
  exact congrArg _ (Fields.get?_map jsonValue e.fields key)

theorem ordered_jsonFields {e : Entry} (h : Fields.Ordered e.fields) :
    Fields.Ordered e.jsonFields := by
  have hmap : Fields.Ordered (Fields.mapValues jsonValue e.fields) := by
    rw [Fields.Ordered, Fields.keys, Fields.mapValues, List.map_map]
    exact h
  exact hmap.merge e.ownItems

theorem wellFormed_keys_jsonFields {e : Entry}
    (h : ∀ key ∈ Fields.keys e.fields, Utf8.WellFormed key) :
    ∀ key ∈ Fields.keys e.jsonFields, Utf8.WellFormed key := by
  have hnames : ∀ key ∈ itemNames, Utf8.WellFormed key := by
    simp only [itemNames, List.forall_mem_cons]
    exact ⟨⟨_, rfl⟩, ⟨_, rfl⟩, ⟨_, rfl⟩, ⟨_, rfl⟩, ⟨_, rfl⟩, ⟨_, rfl⟩, ⟨_, rfl⟩,
      List.forall_mem_nil _⟩
  intro key hkey
  -- An ill-formed key is neither an item's nor a field's, so nothing is found under it.
  by_contra hbad
  have hitem : Fields.get? e.ownItems key = none :=
    Fields.get?_eq_none_iff.mpr fun hmem =>
      hbad (hnames key (e.keys_ownItems_sublist.subset hmem))
  have hfield : Fields.get? e.fields key = none :=
    Fields.get?_eq_none_iff.mpr fun hmem => hbad (h key hmem)
  refine Fields.get?_eq_none_iff.mp ?_ hkey
  rw [get?_jsonFields, hitem, hfield]
  rfl

theorem mem_memberTrees_jsonFields {e : Entry} (hfields : Fields.Ordered e.fields)
    (hkeys : ∀ key ∈ Fields.keys e.fields, Utf8.WellFormed key) {key : Bytes} {t : Json.Tree} :
    (key, t) ∈ Json.memberTrees e.jsonFields ↔
      ∃ value, Fields.get? e.jsonFields key = some value ∧ t = Json.tree value := by
  have hsame (entry : Bytes × Datum) (hentry : entry ∈ e.jsonFields) :
      Utf8.repair entry.1 = entry.1 :=
    Utf8.repair_of_wellFormed
      (wellFormed_keys_jsonFields hkeys entry.1 (List.mem_map_of_mem hentry))
  rw [Json.memberTrees_eq, List.mem_map]
  constructor
  · rintro ⟨entry, hentry, heq⟩
    cases heq
    rw [hsame entry hentry]
    exact ⟨entry.2, (Fields.mem_iff_get? (ordered_jsonFields hfields).nodup).mp hentry, rfl⟩
  · rintro ⟨value, hvalue, rfl⟩
    have hentry := (Fields.mem_iff_get? (ordered_jsonFields hfields).nodup).mpr hvalue
    exact ⟨(key, value), hentry, by rw [hsame _ hentry]⟩

private theorem keys_memberTrees_jsonFields {e : Entry}
    (hkeys : ∀ key ∈ Fields.keys e.fields, Utf8.WellFormed key) :
    (Json.memberTrees e.jsonFields).map Prod.fst = Fields.keys e.jsonFields := by
  rw [Json.memberTrees_eq, List.map_map]
  refine List.map_congr_left fun entry hentry => ?_
  exact Utf8.repair_of_wellFormed
    (wellFormed_keys_jsonFields hkeys entry.1 (List.mem_map_of_mem hentry))

/-! ## Faults as values -/

theorem jsonValue_datum (f : Fault) (time : Moment) :
    jsonValue (f.datum time) = .text f.text := by
  rw [Fault.datum]
  cases f.own? <;> rfl

/-- Among details and other values a coded fault is written as the fault by itself is. -/
theorem ofDatum?_datum {f : Fault} {own : Particulars} (h : f.own? = some own) (time : Moment)
    (replacement : Json.Replacement) :
    Json.ofDatum? replacement (f.datum time) = own.json? f.cause? time replacement := by
  rw [Fault.datum, h]
  rfl

/-! ## Lines -/

theorem line?_eq_json {e : Entry} {style : Style} (h : style.format.effective = .json) :
    e.line? style = (Json.ofDatum? style.replacement (.map e.jsonFields)).map (· ++ [newline]) := by
  simp [line?, h]

/--
An entry with a JSON form is one line: a newline ends it, and in front of the newline
stands one object with distinct keys in the order of their bytes.  The object holds each
item that the entry has, and it holds a field if and only if its key is not the name of
such an item.
-/
theorem line?_json {e : Entry} (hfields : Fields.Ordered e.fields)
    (hkeys : ∀ key ∈ Fields.keys e.fields, Utf8.WellFormed key) {style : Style}
    (hformat : style.format.effective = .json) {line : Bytes} (h : e.line? style = some line) :
    ∃ body members, line = body ++ [newline] ∧ newline ∉ body ∧ Utf8.WellFormed body ∧
      Json.ofBytes? body = some (.object members) ∧
      (members.map Prod.fst).Pairwise (· < ·) ∧
      (utf8 "timestamp", .text e.time.timestamp) ∈ members ∧
      (utf8 "level", .text (utf8 e.level.name)) ∈ members ∧
      (utf8 "message", .text (Utf8.repair e.message)) ∈ members ∧
      (e.logger ≠ [] → (utf8 "logger", .text (Utf8.repair e.logger)) ∈ members) ∧
      (e.runId ≠ [] → (utf8 "run_id", .text (Utf8.repair e.runId)) ∈ members) ∧
      (∀ f, e.error = some f → (utf8 "error", .text (Utf8.repair f.text)) ∈ members) ∧
      (0 < e.duration.nanoseconds →
        (utf8 "duration_ms", .number (Decimal.json.write e.duration.milliseconds)) ∈ members) ∧
      (∀ key value, Fields.get? e.fields key = some value → key ∉ Fields.keys e.ownItems →
        (key, Json.tree (jsonValue value)) ∈ members) ∧
      ∀ key t, (key, t) ∈ members → key ∉ Fields.keys e.ownItems →
        ∃ value, Fields.get? e.fields key = some value ∧ t = Json.tree (jsonValue value) := by
  rw [line?_eq_json hformat] at h
  obtain ⟨body, hbody, rfl⟩ := Option.map_eq_some_iff.mp h
  have hsays := Json.says_of_ofDatum? hbody
  have hitem (key : Bytes) (value : Datum) (hmem : (key, value) ∈ e.ownItems) :
      (key, Json.tree value) ∈ Json.memberTrees e.jsonFields := by
    refine (mem_memberTrees_jsonFields hfields hkeys).mpr ⟨value, ?_, rfl⟩
    rw [get?_jsonFields, (Fields.mem_iff_get? e.nodup_keys_ownItems).mp hmem]
    rfl
  refine ⟨body, Json.memberTrees e.jsonFields, rfl, hsays.printable.newline_not_mem,
    hsays.printable.wellFormed, Json.ofBytes?_of_ofDatum? hbody,
    ?_, ?_, ?_, ?_, ?_, ?_, ?_, ?_, ?_, ?_⟩
  · rw [keys_memberTrees_jsonFields hkeys]
    exact ordered_jsonFields hfields
  · rw [← Utf8.repair_of_wellFormed e.time.printable_timestamp.wellFormed]
    exact hitem _ (.text e.time.timestamp) (by simp [ownItems])
  · rw [← Utf8.repair_of_wellFormed (s := utf8 e.level.name) ⟨_, rfl⟩]
    exact hitem _ (.text (utf8 e.level.name)) (by simp [ownItems, Datum.ofName])
  · exact hitem _ (.text e.message) (by simp [ownItems])
  · intro hlogger
    exact hitem _ (.text e.logger) (by simp [ownItems, hlogger])
  · intro hrun
    exact hitem _ (.text e.runId) (by simp [ownItems, hrun])
  · intro f herror
    exact hitem _ (.text f.text) (by simp [ownItems, herror])
  · intro hduration
    exact hitem _ (.float e.duration.milliseconds) (by simp [ownItems, hasDuration, hduration])
  · intro key value hvalue hother
    refine (mem_memberTrees_jsonFields hfields hkeys).mpr ⟨jsonValue value, ?_, rfl⟩
    rw [get?_jsonFields, Fields.get?_eq_none_iff.mpr hother, hvalue]
    rfl
  · intro key t hmem hother
    obtain ⟨value, hvalue, rfl⟩ := (mem_memberTrees_jsonFields hfields hkeys).mp hmem
    rw [get?_jsonFields, Fields.get?_eq_none_iff.mpr hother, Option.none_or] at hvalue
    obtain ⟨field, hfield, rfl⟩ := Option.map_eq_some_iff.mp hvalue
    exact ⟨field, hfield, rfl⟩

/-- The message has two lines, and a field poses as the message. -/
def forgedEntry : Entry where
  time := ⟨2026, 1, 2, 3, 4, 5, 60⟩
  level := .warn
  message := utf8 "done\n\x7b\x7d"
  fields := [(utf8 "message", .text (utf8 "forged")),
    (utf8 "path", .map [(utf8 "name", .text (utf8 "a\nb"))])]

theorem line?_json_forgedEntry :
    Fields.Ordered forgedEntry.fields ∧
      (∀ key ∈ Fields.keys forgedEntry.fields, Utf8.WellFormed key) ∧
      Format.unknown.effective = .json ∧
      ∃ body members, forgedEntry.line? { format := .unknown } = some (body ++ [newline]) ∧
        newline ∉ body ∧ Json.ofBytes? body = some (.object members) ∧
        (utf8 "message", .text (utf8 "done\n\x7b\x7d")) ∈ members ∧
        (utf8 "path", .object [(utf8 "name", .text (utf8 "a\nb"))]) ∈ members := by
  have hfields : Fields.Ordered forgedEntry.fields := List.pairwise_pair.mpr (by decide)
  have hkeys : ∀ key ∈ Fields.keys forgedEntry.fields, Utf8.WellFormed key := by
    simp only [forgedEntry, Fields.keys, List.map_cons, List.map_nil, List.forall_mem_cons]
    exact ⟨⟨_, rfl⟩, ⟨_, rfl⟩, List.forall_mem_nil _⟩
  have hrepair (s : String) : Utf8.repair (utf8 s) = utf8 s := Utf8.repair_of_wellFormed ⟨s, rfl⟩
  have hformat : ({ format := .unknown } : Style).format.effective = .json := rfl
  obtain ⟨line, hline⟩ : ∃ line, forgedEntry.line? { format := .unknown } = some line := ⟨_, rfl⟩
  obtain ⟨body, members, rfl, hbody, -, hread, -, -, -, hmessage, -, -, -, -, hothers, -⟩ :=
    line?_json hfields hkeys hformat hline
  refine ⟨hfields, hkeys, rfl, body, members, hline, hbody, hread, ?_, ?_⟩
  · rw [forgedEntry, hrepair] at hmessage
    exact hmessage
  · have hpath := hothers (utf8 "path") _ rfl (by decide)
    simpa only [jsonValue, Json.tree, Json.memberTrees, hrepair] using hpath

end Entry

end Scriptlet
