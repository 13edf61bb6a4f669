import PipelineConfig.Proofs.Assoc
import PipelineConfig.Proofs.JsonTokens

/-!
# The two ways of reading JSON

`PipelineConfig.Json.readWith?` reads a text through a builder. With `PipelineConfig.Value.builder` it
makes configuration values on the way; with `PipelineConfig.Json.tree` it makes a tree, which is turned
into a value afterwards, as is done for parameters and for the files of the pipeline environment. This
file shows that both ways agree on every text, also on those that are refused
(`PipelineConfig.Value.readJson?_eq_map_ofJson`).

It does not matter for the text what is built of it. If a function carries what one builder makes of
each kind of node over to what another builder makes of it (`PipelineConfig.Json.Builder.Carries`),
it carries whole readings over (`PipelineConfig.Json.readWith?_of_carries`). For trees and values
there are three cases to look at.

* The builder of values goes by whether a whole number has a sign, and a tree by whether it fits an
  integer. The two agree on numbers that fit 64 bits with a sign or without
  (`PipelineConfig.Value.ofNumber_eq_ofWhole`), and the reader finds no others. They would differ
  beyond.
* A key is a text in a tree, and a value of its own for the builder of values, which never refuses it.
* The members of a tree are sorted, and one of two with one name is dropped, before their values are
  turned over, while the builder of values does so afterwards.
-/

namespace PipelineConfig

namespace Json

variable {α β : Type}

/-- What one builder makes of a node is carried over to what another one makes of it. -/
structure Builder.Carries (b : Builder α) (c : Builder β) (f : α → β) : Prop where
  null : f b.null = c.null
  bool (x : Bool) : f (b.bool x) = c.bool x
  int (n : Int) (hn : Width.holdsEither 64 n = true) : f (b.int n) = c.int n
  float (x : Float) : f (b.float x) = c.float x
  string (s : String) : f (b.string s) = c.string s
  array (items : List α) : f (b.array items) = c.array (items.map f)
  key? (s : String) : b.key? s = c.key? s
  object (members : List (String × α)) : f (b.object members) = c.object (Assoc.mapValues f members)

/-- What was read, carried over, and the rest of the text as it is. -/
def carry {γ δ : Type} (g : γ → δ) (x : Option (γ × List Char)) : Option (δ × List Char) :=
  x.map (fun p => (g p.1, p.2))

variable {b : Builder α} {c : Builder β} {f : α → β}

/-! ### One step of each reading -/

theorem value?_of_carries (h : b.Carries c f) {fuel : Nat}
    (hitems : ∀ levels cs, items? c fuel levels cs = carry (List.map f) (items? b fuel levels cs))
    (hmembers : ∀ levels cs,
      members? c fuel levels cs = carry (Assoc.mapValues f) (members? b fuel levels cs))
    (levels : Nat) (cs : List Char) :
    value? c (fuel + 1) levels cs = carry f (value? b (fuel + 1) levels cs) := by
  rw [value?, value?]
  -- both readings look at the same text, so one case split serves both
  generalize skipSpace cs = ds
  split
  · simp [carry, h.null]
  · simp [carry, h.bool]
  · simp [carry, h.bool]
  · simp [carry, Function.comp_def, h.string]
  · cases levels with
    | zero => rfl
    | succ levels =>
      dsimp only
      split
      · simp [carry, h.array]
      · simp [hitems, carry, Function.comp_def, h.array]
  · cases levels with
    | zero => rfl
    | succ levels =>
      dsimp only
      split
      · simp [carry, h.object, Assoc.mapValues]
      · simp [hmembers, carry, Function.comp_def, h.object]
  · rcases hread : Number.read? ds with _ | ⟨n | x, rest⟩
    · rfl
    · simp [carry, h.int n (Number.holdsEither_of_read? hread)]
    · simp [carry, h.float]

theorem items?_of_carries {fuel : Nat}
    (hvalue : ∀ levels cs, value? c fuel levels cs = carry f (value? b fuel levels cs))
    (hitems : ∀ levels cs, items? c fuel levels cs = carry (List.map f) (items? b fuel levels cs))
    (levels : Nat) (cs : List Char) :
    items? c (fuel + 1) levels cs = carry (List.map f) (items? b (fuel + 1) levels cs) := by
  rw [items?, items?, hvalue]
  cases value? b fuel levels cs with
  | none => rfl
  | some p =>
    obtain ⟨item, rest⟩ := p
    simp only [carry, Option.map_some]
    split
    · rfl
    · simp [hitems, carry, Function.comp_def]
    · rfl

theorem members?_of_carries (hkey : ∀ s, b.key? s = c.key? s) {fuel : Nat}
    (hvalue : ∀ levels cs, value? c fuel levels cs = carry f (value? b fuel levels cs))
    (hmembers : ∀ levels cs,
      members? c fuel levels cs = carry (Assoc.mapValues f) (members? b fuel levels cs))
    (levels : Nat) (cs : List Char) :
    members? c (fuel + 1) levels cs
      = carry (Assoc.mapValues f) (members? b (fuel + 1) levels cs) := by
  rw [members?, members?]
  split
  · split
    · rfl
    · split
      · next behind _ =>
        rw [hvalue]
        cases value? b fuel levels behind with
        | none => rfl
        | some p =>
          obtain ⟨v, rest⟩ := p
          simp only [carry, Option.map_some, hkey]
          split
          · rfl
          · split
            · rfl
            · simp [hmembers, carry, Function.comp_def, Assoc.mapValues]
            · rfl
      · rfl
  · rfl

/-! ### Whole readings -/

/-- The three readings call each other with less fuel, so they are carried over together. -/
theorem readings_of_carries (h : b.Carries c f) (fuel : Nat) :
    (∀ levels cs, value? c fuel levels cs = carry f (value? b fuel levels cs)) ∧
    (∀ levels cs, items? c fuel levels cs = carry (List.map f) (items? b fuel levels cs)) ∧
    (∀ levels cs,
      members? c fuel levels cs = carry (Assoc.mapValues f) (members? b fuel levels cs)) := by
  induction fuel with
  | zero => exact ⟨fun _ _ => rfl, fun _ _ => rfl, fun _ _ => rfl⟩
  | succ fuel ih =>
    obtain ⟨hvalue, hitems, hmembers⟩ := ih
    exact ⟨value?_of_carries h hitems hmembers, items?_of_carries hvalue hitems,
      members?_of_carries h.key? hvalue hmembers⟩

/-- **A reading is carried over as a whole**, and a text is refused through both builders or through
none. -/
theorem readWith?_of_carries (h : b.Carries c f) (text : String) :
    readWith? c text = (readWith? b text).map f := by
  rw [readWith?, readWith?, (readings_of_carries h _).1]
  cases value? b (2 * text.toList.length + 2) maxLevels text.toList with
  | none => rfl
  | some p =>
    obtain ⟨a, rest⟩ := p
    simp only [carry, Option.map_some]
    split <;> rfl

end Json

/-! ### Trees and values -/

namespace Value

theorem ofJsonItems_eq_map (items : List Json) : ofJsonItems items = items.map ofJson := by
  induction items with
  | nil => rfl
  | cons j items ih => rw [ofJsonItems, ih, List.map_cons]

theorem ofJsonMembers_eq_mapValues (members : List (String × Json)) :
    ofJsonMembers members = Assoc.mapValues ofJson members := by
  induction members with
  | nil => rfl
  | cons m members ih =>
    rw [ofJsonMembers, ih]
    rfl

/-- **Whole numbers agree** as far as they fit 64 bits, with a sign or without: one with a sign is
the integer that it is, and one without is an integer or a float. -/
theorem ofNumber_eq_ofWhole {n : Int} (hn : Width.holdsEither 64 n = true) :
    ofNumber (.int n) = ofWhole n := by
  cases n with
  | ofNat n =>
    -- either side asks whether the sign bit is free
    have hsigned : Width.holdsSigned 64 (.ofNat n) = Width.holds 63 n := rfl
    rw [ofNumber, ofWhole, ofUnsigned, Json.Number.asInt64?, hsigned]
    by_cases hfits : Width.holds 63 n = true
    · rw [if_pos hfits, if_pos hfits]
      exact congrArg Value.int Int64.ofInt_eq_ofNat
    · rw [if_neg hfits, if_neg hfits]
      rfl
  | negSucc n =>
    have hsigned : Width.holdsSigned 64 (.negSucc n) = true := hn
    rw [ofNumber, Json.Number.asInt64?, if_pos hsigned]
    rfl

/-- Turning trees into values carries the builder of trees over to the builder of values. -/
theorem carries_ofJson : Json.tree.Carries builder ofJson where
  null := rfl
  bool _ := rfl
  int _ hn := ofNumber_eq_ofWhole hn
  float _ := rfl
  string _ := rfl
  array items := congrArg Value.sequence (ofJsonItems_eq_map items)
  key? _ := rfl
  object members := by
    change Value.mapping (Assoc.ofList (ofJsonMembers (Assoc.ofList members))) =
      Value.mapping (Assoc.ofList (Assoc.mapValues ofJson members))
    rw [ofJsonMembers_eq_mapValues, Assoc.ofList_mapValues, Assoc.ofList_mapValues,
      Assoc.ofList_of_sorted (Assoc.sorted_ofList members)]

/-- **The two ways of reading JSON agree**: a text is refused in both, or the value that is read from
it is the one that its tree stands for. -/
theorem readJson?_eq_map_ofJson (text : String) :
    readJson? text = (Json.read? text).map ofJson :=
  Json.readWith?_of_carries carries_ofJson text

end Value

end PipelineConfig
