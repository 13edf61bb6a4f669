import PipelineConfig.Proofs.CanonicalForm
import PipelineConfig.Proofs.JsonBuilders
import PipelineConfig.Proofs.JsonSpelling

/-!
# JSON output reads back

A configuration value is printed compactly, where a collection is shown in a message, and over several
lines, where the whole configuration is printed. This file shows that both texts are read back as the
value they were printed from, whether the reader makes values directly or by way of a tree
(`PipelineConfig.Value.read_printed`).

Three things are asked of the value. No float is in it (`PipelineConfig.Value.FloatFree`), since the
text of a float is not one of the texts that `PipelineConfig.Json.Spells` knows. It has no more levels
than the reader admits (`PipelineConfig.Value.depth`). And its keys ascend
(`PipelineConfig.Value.Canonical`), as those of every mapping do: then collecting the members that were
read neither moves nor drops any of them.

The printers only have to be shown to spell the value (`PipelineConfig.Json.printed`); that what is
spelled is read is known by then. Both printers are followed through the value at once, since each case
needs the same facts about its parts.
-/

namespace PipelineConfig

/-! ### Values without floats, and their depth -/

namespace Value

mutual

/-- No float is in the value. -/
def FloatFree : Value → Prop
  | .float _ => False
  | .sequence items => FloatFreeItems items
  | .mapping entries => FloatFreeEntries entries
  | _ => True
termination_by structural v => v

/-- No float is in the items. -/
def FloatFreeItems : List Value → Prop
  | [] => True
  | v :: rest => FloatFree v ∧ FloatFreeItems rest
termination_by structural vs => vs

/-- No float is in the values of the entries. -/
def FloatFreeEntries : List (String × Value) → Prop
  | [] => True
  | (_, v) :: rest => FloatFree v ∧ FloatFreeEntries rest
termination_by structural es => es

end

mutual

/-- How many sequences and mappings stand inside one another at most. -/
def depth : Value → Nat
  | .sequence items => depthItems items + 1
  | .mapping entries => depthEntries entries + 1
  | _ => 0
termination_by structural v => v

/-- The depth of the deepest item. -/
def depthItems : List Value → Nat
  | [] => 0
  | v :: rest => max (depth v) (depthItems rest)
termination_by structural vs => vs

/-- The depth of the deepest value of some entries. -/
def depthEntries : List (String × Value) → Nat
  | [] => 0
  | (_, v) :: rest => max (depth v) (depthEntries rest)
termination_by structural es => es

end

theorem floatFreeItems_iff {items : List Value} :
    FloatFreeItems items ↔ ∀ v ∈ items, v.FloatFree := by
  induction items with
  | nil => simp [FloatFreeItems]
  | cons v items ih => rw [FloatFreeItems, ih, List.forall_mem_cons]

theorem floatFreeEntries_iff {entries : List (String × Value)} :
    FloatFreeEntries entries ↔ ∀ e ∈ entries, e.2.FloatFree := by
  induction entries with
  | nil => simp [FloatFreeEntries]
  | cons e entries ih => rw [FloatFreeEntries, ih, List.forall_mem_cons]

theorem depthItems_le_iff {items : List Value} {levels : Nat} :
    depthItems items ≤ levels ↔ ∀ v ∈ items, v.depth ≤ levels := by
  induction items with
  | nil => simp [depthItems]
  | cons v items ih => rw [depthItems, Nat.max_le, ih, List.forall_mem_cons]

theorem depthEntries_le_iff {entries : List (String × Value)} {levels : Nat} :
    depthEntries entries ≤ levels ↔ ∀ e ∈ entries, e.2.depth ≤ levels := by
  induction entries with
  | nil => simp [depthEntries]
  | cons e entries ih => rw [depthEntries, Nat.max_le, ih, List.forall_mem_cons]

end Value

namespace Json

/-! ### The parts of a printed value -/

theorem holdsEither_toInt (n : Int64) : Width.holdsEither 64 n.toInt = true := by
  have hlow := n.le_toInt
  have hhigh := n.toInt_lt
  generalize n.toInt = m at hlow hhigh
  cases m with
  | ofNat m =>
    rw [Int.ofNat_eq_natCast] at hhigh
    exact decide_eq_true (show m < 2 ^ 64 by omega)
  | negSucc m => exact decide_eq_true (show m < 2 ^ 63 by omega)

theorem ofWhole_toInt (n : Int64) : Value.ofWhole n.toInt = .int n := by
  have hholds : Width.holdsSigned 64 n.toInt = true := by
    rw [Width.holdsSigned_iff]
    exact ⟨n.le_toInt, n.toInt_lt⟩
  rw [← Value.ofNumber_eq_ofWhole (holdsEither_toInt n), Value.ofNumber, Number.asInt64?,
    if_pos hholds, Int64.ofInt_toInt]

theorem blank_newline (level : Nat) : Blank (newline level) := by
  intro c hc
  rcases List.mem_cons.mp hc with rfl | hc
  · decide
  · rw [List.eq_of_mem_replicate hc]
    decide

theorem isLabel_quote {w : List Char} (hw : Blank w) (name : String) :
    IsLabel name (w ++ quote name ++ [':']) :=
  ⟨w, [], hw, blank_nil, by simp⟩

/-! ### Both printers spell the value -/

/-- Both printers spell the value, the second one at any level of indentation. -/
structure Printed (levels : Nat) (v : Value) : Prop where
  compact : Spells Value.builder levels v (compact v.toJson)
  pretty (level : Nat) : Spells Value.builder levels v (prettyAt level v.toJson)

section Collections

variable {levels : Nat}

theorem spellsItems_compact {item : Value} {items : List Value}
    (h : ∀ v ∈ item :: items, Printed levels v) :
    SpellsItems Value.builder levels (item :: items)
      (compactItems (Value.toJsonItems (item :: items))) := by
  induction items generalizing item with
  | nil => exact .one (.of_spells (h item List.mem_cons_self).compact)
  | cons next items ih =>
    rw [List.forall_mem_cons] at h
    exact .more (.of_spells h.1.compact) (ih h.2)

/-- The blanks in front of the closing bracket stand behind the last item. -/
theorem spellsItems_pretty {item : Value} {items : List Value}
    (h : ∀ v ∈ item :: items, Printed levels v) (level : Nat) {w : List Char} (hw : Blank w) :
    SpellsItems Value.builder levels (item :: items)
      (prettyItems level (Value.toJsonItems (item :: items)) ++ w) := by
  induction items generalizing item with
  | nil => exact .one (.intro (blank_newline level) ((h item List.mem_cons_self).pretty level) hw)
  | cons next items ih =>
    rw [List.forall_mem_cons] at h
    have hfirst := SpellsPadded.intro (blank_newline level) (h.1.pretty level) blank_nil
    have hitems := SpellsItems.more hfirst (ih h.2)
    simpa [Value.toJsonItems, prettyItems] using hitems

theorem spellsMembers_compact {entry : String × Value} {entries : List (String × Value)}
    (h : ∀ e ∈ entry :: entries, Printed levels e.2) :
    SpellsMembers Value.builder levels (entry :: entries)
      (compactMembers (Value.toJsonMembers (entry :: entries))) := by
  induction entries generalizing entry with
  | nil =>
    have hvalue := SpellsPadded.of_spells (h entry List.mem_cons_self).compact
    have hmember := SpellsMembers.one (isLabel_quote blank_nil entry.1) rfl hvalue
    simpa [Value.toJsonMembers, compactMembers] using hmember
  | cons next entries ih =>
    rw [List.forall_mem_cons] at h
    have hvalue := SpellsPadded.of_spells h.1.compact
    have hmembers := SpellsMembers.more (isLabel_quote blank_nil entry.1) rfl hvalue (ih h.2)
    simpa [Value.toJsonMembers, compactMembers] using hmembers

theorem spellsMembers_pretty {entry : String × Value} {entries : List (String × Value)}
    (h : ∀ e ∈ entry :: entries, Printed levels e.2) (level : Nat) {w : List Char} (hw : Blank w) :
    SpellsMembers Value.builder levels (entry :: entries)
      (prettyMembers level (Value.toJsonMembers (entry :: entries)) ++ w) := by
  have hspace : Blank [' '] := by simp [Blank, isSpace]
  induction entries generalizing entry with
  | nil =>
    have hvalue := SpellsPadded.intro hspace ((h entry List.mem_cons_self).pretty level) hw
    have hmember := SpellsMembers.one (isLabel_quote (blank_newline level) entry.1) rfl hvalue
    simpa [Value.toJsonMembers, prettyMembers] using hmember
  | cons next entries ih =>
    rw [List.forall_mem_cons] at h
    have hvalue := SpellsPadded.intro hspace (h.1.pretty level) blank_nil
    have hmembers :=
      SpellsMembers.more (isLabel_quote (blank_newline level) entry.1) rfl hvalue (ih h.2)
    simpa [Value.toJsonMembers, prettyMembers] using hmembers

end Collections

/-- The members are collected again when they are read; where the keys ascend already, nothing changes
by that. -/
theorem builder_object {entries : List (String × Value)} (h : Assoc.Sorted entries) :
    Value.builder.object entries = .mapping entries :=
  congrArg Value.mapping (Assoc.ofList_of_sorted h)

/-- **Both printers spell the value**, if it has no float and no more than so many levels. -/
theorem printed {levels : Nat} {v : Value} (hc : v.Canonical) (hf : v.FloatFree)
    (hd : v.depth ≤ levels) : Printed levels v := by
  induction v using Value.induction_on generalizing levels with
  | null => exact ⟨.null, fun _ => .null⟩
  | bool x =>
    cases x with
    | true => exact ⟨.true, fun _ => .true⟩
    | false => exact ⟨.false, fun _ => .false⟩
  | int n =>
    have h : Spells Value.builder levels (Value.ofWhole n.toInt) (intText n.toInt) :=
      .int (holdsEither_toInt n)
    rw [ofWhole_toInt] at h
    exact ⟨h, fun _ => h⟩
  | float x => exact hf.elim
  | string s => exact ⟨.string s, fun _ => .string s⟩
  | sequence items ih =>
    obtain ⟨levels, rfl⟩ : ∃ l, levels = l + 1 := ⟨levels - 1, by rw [Value.depth] at hd; omega⟩
    rw [Value.depth, Nat.add_le_add_iff_right, Value.depthItems_le_iff] at hd
    rw [Value.Canonical, Value.canonicalItems_iff] at hc
    rw [Value.FloatFree, Value.floatFreeItems_iff] at hf
    have hprinted : ∀ v ∈ items, Printed levels v :=
      fun v hv => ih v hv (hc v hv) (hf v hv) (hd v hv)
    cases items with
    | nil => exact ⟨.noItems, fun _ => .noItems⟩
    | cons item items =>
      exact ⟨.array (spellsItems_compact hprinted), fun level =>
        .array (spellsItems_pretty hprinted (level + 1) (blank_newline level))⟩
  | mapping entries ih =>
    obtain ⟨levels, rfl⟩ : ∃ l, levels = l + 1 := ⟨levels - 1, by rw [Value.depth] at hd; omega⟩
    rw [Value.depth, Nat.add_le_add_iff_right, Value.depthEntries_le_iff] at hd
    rw [Value.Canonical, Value.canonicalEntries_iff] at hc
    rw [Value.FloatFree, Value.floatFreeEntries_iff] at hf
    have hprinted : ∀ e ∈ entries, Printed levels e.2 :=
      fun e he => ih e he (hc.2 e he) (hf e he) (hd e he)
    have hobject := builder_object hc.1
    rw [← hobject]
    cases entries with
    | nil => exact ⟨.noMembers, fun _ => .noMembers⟩
    | cons entry entries =>
      exact ⟨hobject ▸ .object (spellsMembers_compact hprinted), fun level =>
        hobject ▸ .object (spellsMembers_pretty hprinted (level + 1) (blank_newline level))⟩

end Json

namespace Value

/-! ### Reading back what was printed -/

/-- **JSON output reads back**, compact or over several lines, and both directly and by way of a tree:
a value without floats that is no deeper than a document may be is the one its text stands for. -/
theorem read_printed {v : Value} (hc : v.Canonical) (hf : v.FloatFree)
    (hd : v.depth ≤ Json.maxLevels) :
    ∀ text ∈ [v.toJson.compactText, v.toJson.prettyText],
      readJson? text = some v ∧ (Json.read? text).map ofJson = some v := by
  have hprinted := Json.printed hc hf hd
  have hspelled : ∀ text ∈ [v.toJson.compactText, v.toJson.prettyText],
      Json.Spells builder Json.maxLevels v text.toList := by
    simp only [List.forall_mem_cons, Json.compactText, Json.prettyText, String.toList_ofList]
    exact ⟨hprinted.compact, hprinted.pretty 0, List.forall_mem_nil _⟩
  intro text htext
  have hread : readJson? text = some v :=
    Json.readWith?_of_spells (.of_spells (hspelled text htext))
  exact ⟨hread, (Json.readWith?_of_carries carries_ofJson text).symm.trans hread⟩

/-- An empty key, escapes of every kind, both ends of the integers and empty collections. -/
def assorted : Value :=
  .mapping [
    ("", .sequence [.int Int64.minValue, .int (-1), .int 0, .int Int64.maxValue]),
    ("a \"quoted\"\\\n\t key", .mapping [("empty", .mapping []), ("none", .null)]),
    ("b", .sequence [.bool true, .sequence [], .string "\x00\x08\x0c\r\x1f/\x7f é"])]

theorem read_printed_assorted :
    (assorted.Canonical ∧ assorted.FloatFree ∧ assorted.depth ≤ Json.maxLevels) ∧
      ∀ text ∈ [assorted.toJson.compactText, assorted.toJson.prettyText],
        readJson? text = some assorted ∧ (Json.read? text).map ofJson = some assorted := by
  have hc : assorted.Canonical := by
    simp only [assorted, Canonical, CanonicalItems, CanonicalEntries, Assoc.Sorted]
    decide
  have hf : assorted.FloatFree := by
    simp only [assorted, FloatFree, FloatFreeItems, FloatFreeEntries, and_self]
  have hd : assorted.depth ≤ Json.maxLevels := by decide
  exact ⟨⟨hc, hf, hd⟩, read_printed hc hf hd⟩

end Value

end PipelineConfig
