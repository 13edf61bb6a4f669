import Mathlib.Data.List.DropRight
import PipelineConfig.Proofs.JsonTokens

/-!
# What the reader of JSON accepts

`PipelineConfig.Json.Spells` says which texts spell a node, without reading them: a collection spells
its items between brackets, or its members between braces, with commas in between and blanks wherever
they may stand. The relation goes along with a builder, so it speaks about trees and about
configuration values alike. The reader accepts whatever is spelled, and builds what is spelled
(`PipelineConfig.Json.readWith?_of_spells`). A printer then only has to be shown to spell what it
prints.

Two numbers bound the reader. The levels of arrays and objects are a part of the relation, since a
deeper text is refused. The fuel is not: twice the length of the text is enough, because of two calls
in a row at least one has a character fewer to read.

The reader drops the blanks in front of a value but not those behind it, which are left to whoever
reads on. So what is left of a text is known up to the blanks in front of it
(`PipelineConfig.Json.Finds`). Numbers are the one kind of node that does not show its own end; for
their sake each statement asks that what stands behind a node closes it.

The grammar is smaller than the one of the reader: floats are left out, and so are blanks inside an
empty collection and the escapes that no printer writes.
-/

namespace PipelineConfig

namespace Json

variable {α : Type}

/-! ### Texts that spell something -/

/-- The key of a member with its colon, and blanks around it. -/
def IsLabel (key : String) (cs : List Char) : Prop :=
  ∃ w w', Blank w ∧ Blank w' ∧ cs = w ++ quote key ++ w' ++ [':']

mutual

/-- **What a text spells** for a builder, with so many levels of arrays and objects in it at most.
Floats are left out. -/
inductive Spells (b : Builder α) : (levels : Nat) → α → List Char → Prop
  | null {levels : Nat} : Spells b levels b.null ['n', 'u', 'l', 'l']
  | true {levels : Nat} : Spells b levels (b.bool true) ['t', 'r', 'u', 'e']
  | false {levels : Nat} : Spells b levels (b.bool false) ['f', 'a', 'l', 's', 'e']
  | int {levels : Nat} {n : Int} (hn : Width.holdsEither 64 n = true) :
      Spells b levels (b.int n) (intText n)
  | string {levels : Nat} (s : String) : Spells b levels (b.string s) (quote s)
  | noItems {levels : Nat} : Spells b (levels + 1) (b.array []) ['[', ']']
  | array {levels : Nat} {items : List α} {cs : List Char} (hitems : SpellsItems b levels items cs) :
      Spells b (levels + 1) (b.array items) ('[' :: (cs ++ [']']))
  | noMembers {levels : Nat} : Spells b (levels + 1) (b.object []) ['\x7b', '\x7d']
  | object {levels : Nat} {members : List (String × α)} {cs : List Char}
      (hmembers : SpellsMembers b levels members cs) :
      Spells b (levels + 1) (b.object members) ('\x7b' :: (cs ++ ['\x7d']))

/-- The same with blanks around it. -/
inductive SpellsPadded (b : Builder α) : (levels : Nat) → α → List Char → Prop
  | intro {levels : Nat} {a : α} {w cs w' : List Char} (hw : Blank w) (h : Spells b levels a cs)
      (hw' : Blank w') : SpellsPadded b levels a (w ++ cs ++ w')

/-- Items with commas between them. -/
inductive SpellsItems (b : Builder α) : (levels : Nat) → List α → List Char → Prop
  | one {levels : Nat} {a : α} {cs : List Char} (h : SpellsPadded b levels a cs) :
      SpellsItems b levels [a] cs
  | more {levels : Nat} {a : α} {items : List α} {cs ds : List Char}
      (h : SpellsPadded b levels a cs) (hitems : SpellsItems b levels items ds) :
      SpellsItems b levels (a :: items) (cs ++ ',' :: ds)

/-- Members with commas between them, under the names that the builder makes of their keys. -/
inductive SpellsMembers (b : Builder α) : (levels : Nat) → List (String × α) → List Char → Prop
  | one {levels : Nat} {key name : String} {a : α} {ls cs : List Char} (hlabel : IsLabel key ls)
      (hkey : b.key? key = some name) (h : SpellsPadded b levels a cs) :
      SpellsMembers b levels [(name, a)] (ls ++ cs)
  | more {levels : Nat} {key name : String} {a : α} {members : List (String × α)}
      {ls cs ds : List Char} (hlabel : IsLabel key ls) (hkey : b.key? key = some name)
      (h : SpellsPadded b levels a cs) (hmembers : SpellsMembers b levels members ds) :
      SpellsMembers b levels ((name, a) :: members) (ls ++ (cs ++ ',' :: ds))

end

variable {b : Builder α}

theorem SpellsPadded.of_spells {levels : Nat} {a : α} {cs : List Char} (h : Spells b levels a cs) :
    SpellsPadded b levels a cs := by
  simpa using SpellsPadded.intro blank_nil h blank_nil

/-! ### Blanks in front

Each reading drops them first, so it does not matter whether they were dropped before. -/

theorem skipSpace_skipSpace (cs : List Char) : skipSpace (skipSpace cs) = skipSpace cs :=
  List.dropWhile_idempotent isSpace cs

theorem value?_skipSpace (fuel levels : Nat) (cs : List Char) :
    value? b fuel levels (skipSpace cs) = value? b fuel levels cs := by
  cases fuel with
  | zero => rfl
  | succ fuel => rw [value?, value?, skipSpace_skipSpace]

theorem items?_skipSpace (fuel levels : Nat) (cs : List Char) :
    items? b fuel levels (skipSpace cs) = items? b fuel levels cs := by
  cases fuel with
  | zero => rfl
  | succ fuel => rw [items?, items?, value?_skipSpace]

theorem members?_skipSpace (fuel levels : Nat) (cs : List Char) :
    members? b fuel levels (skipSpace cs) = members? b fuel levels cs := by
  cases fuel with
  | zero => rfl
  | succ fuel => rw [members?, members?, skipSpace_skipSpace]

/-! ### Reading one node -/

/-- No value begins with a closing bracket. -/
theorem items?_bracket (fuel levels : Nat) (cs : List Char) :
    items? b fuel levels (']' :: cs) = none := by
  rcases fuel with _ | _ | fuel <;> rfl

theorem members?_brace (fuel levels : Nat) (cs : List Char) :
    members? b fuel levels ('\x7d' :: cs) = none := by
  cases fuel <;> rfl

theorem value?_bracket (fuel levels : Nat) (cs : List Char) :
    value? b (fuel + 1) (levels + 1) ('[' :: cs) =
      match skipSpace cs with
      | ']' :: rest => some (b.array [], rest)
      | rest => (items? b fuel levels rest).map (fun p => (b.array p.1, p.2)) :=
  rfl

theorem value?_brace (fuel levels : Nat) (cs : List Char) :
    value? b (fuel + 1) (levels + 1) ('\x7b' :: cs) =
      match skipSpace cs with
      | '\x7d' :: rest => some (b.object [], rest)
      | rest => (members? b fuel levels rest).map (fun p => (b.object p.1, p.2)) :=
  rfl

/-- The items tell an array from an empty one: they do not begin with the closing bracket. -/
theorem value?_array {fuel levels : Nat} {cs rest : List Char} {items : List α}
    (h : items? b fuel levels cs = some (items, rest)) :
    value? b (fuel + 1) (levels + 1) ('[' :: cs) = some (b.array items, rest) := by
  rw [← items?_skipSpace] at h
  rw [value?_bracket]
  split
  · next heq =>
    rw [heq, items?_bracket] at h
    cases h
  · rw [h]
    rfl

theorem value?_object {fuel levels : Nat} {cs rest : List Char} {members : List (String × α)}
    (h : members? b fuel levels cs = some (members, rest)) :
    value? b (fuel + 1) (levels + 1) ('\x7b' :: cs) = some (b.object members, rest) := by
  rw [← members?_skipSpace] at h
  rw [value?_brace]
  split
  · next heq =>
    rw [heq, members?_brace] at h
    cases h
  · rw [h]
    rfl

/-- Whatever begins a number begins nothing else. -/
theorem value?_number {c : Char} (hc : c.isDigit = true ∨ c = '-') (fuel levels : Nat)
    (cs : List Char) :
    value? b (fuel + 1) levels (c :: cs) =
      match Number.read? (c :: cs) with
      | none => none
      | some (.int n, rest) => some (b.int n, rest)
      | some (.float x, rest) => some (b.float x, rest) := by
  have hspace : isSpace c = false := by
    by_contra h
    simp only [isSpace, Bool.not_eq_false, Bool.or_eq_true, decide_eq_true_eq] at h
    rcases h with ((rfl | rfl) | rfl) | rfl <;> exact absurd hc (by decide)
  rw [value?, skipSpace_cons hspace]
  split
  case h_7 => rfl
  all_goals
    rename_i heq
    obtain ⟨rfl, -⟩ := List.cons.inj heq
    exact absurd hc (by decide)

theorem value?_int {n : Int} (hn : Width.holdsEither 64 n = true) {rest : List Char}
    (hrest : Closes rest) (fuel levels : Nat) :
    value? b (fuel + 1) levels (intText n ++ rest) = some (b.int n, rest) := by
  have hread := Number.read?_intText hn hrest
  obtain ⟨c, ds, htext, hc⟩ := intText_head n
  rw [htext, List.cons_append] at hread ⊢
  rw [value?_number hc, hread]

theorem value?_quote (s : String) (rest : List Char) (fuel levels : Nat) :
    value? b (fuel + 1) levels (quote s ++ rest) = some (b.string s, rest) := by
  have hread := stringRest?_quoted s.toList rest
  change (stringRest? (s.toList.flatMap escapeChar ++ ['"'] ++ rest)).map
    (fun p => (b.string (String.ofList p.1), p.2)) = _
  rw [List.append_assoc, List.singleton_append, hread, Option.map_some, String.ofList_toList]

theorem IsLabel.ne_nil {key : String} {ls : List Char} (h : IsLabel key ls) : ls ≠ [] := by
  obtain ⟨w, w', -, -, rfl⟩ := h
  simp

/-- Behind its label the value of a member is read. -/
theorem members?_label {key name : String} {ls : List Char} (h : IsLabel key ls)
    (hkey : b.key? key = some name) (fuel levels : Nat) (cs : List Char) :
    members? b (fuel + 1) levels (ls ++ cs) =
      match value? b fuel levels cs with
      | none => none
      | some (v, rest) =>
        match skipSpace rest with
        | '\x7d' :: rest => some ([(name, v)], rest)
        | ',' :: rest => (members? b fuel levels rest).map (fun p => ((name, v) :: p.1, p.2))
        | _ => none := by
  obtain ⟨w, w', hw, hw', rfl⟩ := h
  have hread := stringRest?_quoted key.toList (w' ++ ':' :: cs)
  rw [show w ++ quote key ++ w' ++ [':'] ++ cs
      = w ++ ('"' :: (key.toList.flatMap escapeChar ++ '"' :: (w' ++ ':' :: cs))) by simp [quote],
    members?, skipSpace_append hw, skipSpace_cons (by decide)]
  simp only [hread, skipSpace_append hw', String.ofList_toList, hkey]
  rw [skipSpace_cons (by decide)]
  rfl

/-! ### Reading what is spelled -/

/-- A reading finds something and leaves a text, up to blanks in front of it. -/
def Finds (x : Option (α × List Char)) (a : α) (rest : List Char) : Prop :=
  ∃ rest', x = some (a, rest') ∧ skipSpace rest' = skipSpace rest

/-- With so many levels, everything that is spelled is read. -/
def Readable (b : Builder α) (levels : Nat) : Prop :=
  ∀ (a : α) (cs : List Char), Spells b levels a cs → ∀ fuel, 2 * cs.length + 1 ≤ fuel →
    ∀ rest, Closes rest → value? b fuel levels (cs ++ rest) = some (a, rest)

variable {levels : Nat}

/-- The blanks in front are dropped, and those behind are a part of what is left. -/
theorem Readable.finds (hread : Readable b levels) {a : α} {cs : List Char}
    (h : SpellsPadded b levels a cs) (fuel : Nat) (hfuel : 2 * cs.length + 1 ≤ fuel)
    {rest : List Char} (hrest : Closes rest) : Finds (value? b fuel levels (cs ++ rest)) a rest := by
  obtain @⟨_, _, w, cs, w', hw, h, hw'⟩ := h
  simp only [List.length_append] at hfuel
  refine ⟨w' ++ rest, ?_, skipSpace_append hw' rest⟩
  rw [List.append_assoc, List.append_assoc, ← value?_skipSpace, skipSpace_append hw,
    value?_skipSpace]
  exact hread a cs h fuel (by omega) _ (hrest.append hw')

theorem Readable.items? (hread : Readable b levels) {items : List α} {cs : List Char}
    (h : SpellsItems b levels items cs) (fuel : Nat) (hfuel : 2 * cs.length + 2 ≤ fuel)
    (rest : List Char) :
    Json.items? b fuel levels (cs ++ ']' :: rest) = some (items, rest) := by
  induction items generalizing cs fuel with
  | nil => cases h
  | cons a items ih =>
    obtain ⟨fuel, rfl⟩ : ∃ f, fuel = f + 1 := ⟨fuel - 1, by omega⟩
    cases h with
    | one h =>
      have hclose : Closes (']' :: rest) := closes_cons (by decide) rest
      obtain ⟨rest', hvalue, hrest'⟩ := hread.finds h fuel (by omega) hclose
      rw [skipSpace_cons (by decide)] at hrest'
      simp only [Json.items?, hvalue, hrest']
    | @more _ _ _ cs ds h hitems =>
      simp only [List.length_cons, List.length_append] at hfuel
      have hclose : Closes (',' :: (ds ++ ']' :: rest)) := closes_cons (by decide) _
      obtain ⟨rest', hvalue, hrest'⟩ := hread.finds h fuel (by omega) hclose
      rw [skipSpace_cons (by decide)] at hrest'
      rw [List.append_assoc, List.cons_append]
      simp only [Json.items?, hvalue, hrest', ih hitems fuel (by omega), Option.map_some]

theorem Readable.members? (hread : Readable b levels) {members : List (String × α)}
    {cs : List Char} (h : SpellsMembers b levels members cs) (fuel : Nat)
    (hfuel : 2 * cs.length + 2 ≤ fuel) (rest : List Char) :
    Json.members? b fuel levels (cs ++ '\x7d' :: rest) = some (members, rest) := by
  induction members generalizing cs fuel with
  | nil => cases h
  | cons member members ih =>
    obtain ⟨fuel, rfl⟩ : ∃ f, fuel = f + 1 := ⟨fuel - 1, by omega⟩
    cases h with
    | @one _ _ _ _ ls cs hlabel hkey h =>
      have hpos := List.length_pos_iff.mpr hlabel.ne_nil
      simp only [List.length_append] at hfuel
      have hclose : Closes ('\x7d' :: rest) := closes_cons (by decide) rest
      obtain ⟨rest', hvalue, hrest'⟩ := hread.finds h fuel (by omega) hclose
      rw [skipSpace_cons (by decide)] at hrest'
      rw [List.append_assoc, members?_label hlabel hkey]
      simp only [hvalue, hrest']
    | @more _ _ _ _ _ ls cs ds hlabel hkey h hmembers =>
      simp only [List.length_cons, List.length_append] at hfuel
      have hclose : Closes (',' :: (ds ++ '\x7d' :: rest)) := closes_cons (by decide) _
      obtain ⟨rest', hvalue, hrest'⟩ := hread.finds h fuel (by omega) hclose
      rw [skipSpace_cons (by decide)] at hrest'
      rw [List.append_assoc, List.append_assoc, List.cons_append,
        members?_label hlabel hkey]
      simp only [hvalue, hrest', ih hmembers fuel (by omega), Option.map_some]

/-- **Whatever is spelled is read**: a collection is read with one level less inside. -/
theorem readable (b : Builder α) (levels : Nat) : Readable b levels := by
  -- on the levels and not on the spelling, whose four relations depend on each other
  induction levels using Nat.strong_induction_on with
  | _ levels ih =>
    intro a cs h fuel hfuel rest hrest
    obtain ⟨fuel, rfl⟩ : ∃ f, fuel = f + 1 := ⟨fuel - 1, by omega⟩
    cases h with
    | null => rfl
    | true => rfl
    | false => rfl
    | int hn => exact value?_int hn hrest fuel levels
    | string s => exact value?_quote s rest fuel levels
    | noItems => rfl
    | @array inner _ _ hitems =>
      simp only [List.length_cons, List.length_append, List.length_nil] at hfuel
      rw [List.cons_append, List.append_assoc]
      exact value?_array ((ih inner (by omega)).items? hitems fuel (by omega) rest)
    | noMembers => rfl
    | @object inner _ _ hmembers =>
      simp only [List.length_cons, List.length_append, List.length_nil] at hfuel
      rw [List.cons_append, List.append_assoc]
      exact value?_object ((ih inner (by omega)).members? hmembers fuel (by omega) rest)

/-- **A document is read as what it spells**, through any builder. -/
theorem readWith?_of_spells {a : α} {text : String} (h : SpellsPadded b maxLevels a text.toList) :
    readWith? b text = some a := by
  have hclose : Closes [] := nofun
  obtain ⟨rest, hvalue, hrest⟩ := (readable b maxLevels).finds h (2 * text.toList.length + 2)
    (by omega) hclose
  rw [List.append_nil] at hvalue
  rw [readWith?]
  simp only [hvalue]
  rw [if_pos (show skipSpace rest = [] from hrest)]

end Json

end PipelineConfig
