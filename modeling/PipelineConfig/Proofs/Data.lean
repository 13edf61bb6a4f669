import Mathlib.Data.List.Basic
import PipelineConfig.Proofs.FirstError
import PipelineConfig.Yaml.Generic

/-!
# What a document says as data

`PipelineConfig.Yaml.Decoder.data` reads any node as data, and it fails on many: on a key that
occurs twice, on a number that is too large, on a reference too many. This file says what the data
of a node *are*, without a reading (`PipelineConfig.Yaml.Stands`): a scalar stands for what its text
means, a collection for the data of its parts, and a reference for the data of the node it refers
to. Nothing else stands for data.

The reading finds these data, and it fails on every node that stands for none
(`PipelineConfig.Yaml.Decoder.exactly_data`). For such a statement it has to be known of a reading
when it succeeds, and with how many references (`PipelineConfig.Yaml.Decoding.Exactly`); there is
one law for each way to make a reading from others.

What a text says as data decides on whether it has a key (`PipelineConfig.Yaml.hasKey_iff`). A
single scalar that stands for nothing, however deep it lies and whatever it lies below, takes all
keys from a text.
-/

namespace PipelineConfig.Yaml

/-! ### What nodes stand for -/

/-- The node that is meant by a node, and the number of references to it: a reference means the node
that it refers to, any other node means itself. -/
def Meant (document : Document) : Node → Node → Nat → Prop
  | .reference id, target, n => document.target? id = some target ∧ n = 1
  | node, target, n => target = node ∧ n = 0

/-- Data with the local tag of their node, if it has one. -/
def Data.marked (tag? : Option String) (content : Data) : Data :=
  ((Decoder.localTag? tag?).map (fun tag => Data.tagged tag content)).getD content

theorem meant_unique {document : Document} {node t t' : Node} {n n' : Nat}
    (h : Meant document node t n) (h' : Meant document node t' n') : t = t' := by
  cases node with
  | reference id => exact Option.some.inj (h.1.symm.trans h'.1)
  | _ => exact h.1.trans h'.1.symm

/-- Marked data are text only if they are text without a mark. -/
theorem Data.marked_ne_string {tag? : Option String} {content : Data} {text : String}
    (h : content ≠ .string text) : Data.marked tag? content ≠ .string text := by
  rw [marked]
  cases Decoder.localTag? tag? with
  | none => exact h
  | some tag => exact nofun

/-- The data of a scalar. A local tag stays, and the text means what it means without it. -/
def Decoder.scalarContent (tag? : Option String) (style : Style) (text : String) :
    Except Fault Data :=
  match Decoder.localTag? tag? with
  | some tag => (Decoder.scalarData none style text).map (Data.tagged tag)
  | none => Decoder.scalarData tag? style text

mutual

/-- **A node stands for data** if what is meant by it holds them. The first number says how many
levels of collections may be open, the last one how many references are followed. -/
inductive Stands (document : Document) : Nat → Node → Data → Nat → Prop
  | intro {levels k n : Nat} {node target : Node} {d : Data} (hmeant : Meant document node target k)
      (hholds : Holds document levels target d n) : Stands document levels node d (k + n)

/-- A node that is no reference holds data. -/
inductive Holds (document : Document) : Nat → Node → Data → Nat → Prop
  | scalar {levels : Nat} {tag? : Option String} {style : Style} {text : String} {d : Data}
      (hcontent : Decoder.scalarContent tag? style text = .ok d) :
      Holds document levels (.scalar tag? style text) d 0
  | sequence {levels n : Nat} {tag? : Option String} {items : List Node} {ds : List Data}
      (hitems : HoldsItems document levels items ds n) :
      Holds document (levels + 1) (.sequence tag? items) (.marked tag? (.sequence ds)) n
  /-- No key occurs twice. -/
  | mapping {levels n : Nat} {tag? : Option String} {es : List (Node × Node)}
      {pairs : List (Data × Data)} (hentries : HoldsEntries document levels es pairs n)
      (hdistinct : Data.hasRepeatedKey pairs = false) :
      Holds document (levels + 1) (.mapping tag? es) (.marked tag? (.mapping pairs)) n

/-- The items of a sequence stand for data, one by one. -/
inductive HoldsItems (document : Document) : Nat → List Node → List Data → Nat → Prop
  | nil {levels : Nat} : HoldsItems document levels [] [] 0
  | cons {levels k n : Nat} {item : Node} {items : List Node} {d : Data} {ds : List Data}
      (hitem : Stands document levels item d k) (hitems : HoldsItems document levels items ds n) :
      HoldsItems document levels (item :: items) (d :: ds) (k + n)

/-- The keys and values of a mapping stand for data, one by one. -/
inductive HoldsEntries (document : Document) :
    Nat → List (Node × Node) → List (Data × Data) → Nat → Prop
  | nil {levels : Nat} : HoldsEntries document levels [] [] 0
  | cons {levels k l n : Nat} {key node : Node} {es : List (Node × Node)} {c d : Data}
      {pairs : List (Data × Data)} (hkey : Stands document levels key c k)
      (hnode : Stands document levels node d l)
      (hentries : HoldsEntries document levels es pairs n) :
      HoldsEntries document levels ((key, node) :: es) ((c, d) :: pairs) (k + (l + n))

end

/-! ### Exact readings -/

namespace Decoding

variable {α β : Type} {document : Document}

/-- So many more references may be followed in a document. -/
def Within (document : Document) (followed n : Nat) : Prop :=
  n = 0 ∨ followed + n ≤ 100 * document.size

/-- **What a reading does, exactly**: it yields what is in a relation with a number of references,
and nothing else, and it follows as many references, as long as they are within the limit. -/
def Exactly (document : Document) (R : α → Nat → Prop) (x : Decoding α) : Prop :=
  ∀ followed a followed', (x.run document).run followed = .ok (a, followed') ↔
    ∃ n, R a n ∧ followed' = followed + n ∧ Within document followed n

theorem Exactly.congr {R S : α → Nat → Prop} {x : Decoding α} (h : Exactly document R x)
    (hiff : ∀ a n, R a n ↔ S a n) : Exactly document S x := by
  intro followed a followed'
  simp only [h followed a followed', hiff]

theorem exactly_pure (a : α) : Exactly document (fun b n => b = a ∧ n = 0) (pure a) := by
  intro followed b followed'
  constructor
  · rintro ⟨⟩
    exact ⟨0, ⟨rfl, rfl⟩, rfl, Or.inl rfl⟩
  · rintro ⟨n, ⟨rfl, rfl⟩, rfl, -⟩
    rfl

theorem exactly_fail (fault : Fault) :
    Exactly document (fun _ _ => False) (fail fault : Decoding α) := by
  intro followed b followed'
  constructor
  · rintro ⟨⟩
  · rintro ⟨n, hfalse, -⟩
    exact hfalse.elim

theorem exactly_ofExcept (x : Except Fault α) :
    Exactly document (fun a n => x = .ok a ∧ n = 0) (MonadExcept.ofExcept x) := by
  cases x with
  | error fault => exact (exactly_fail fault).congr fun a n => by simp
  | ok a => exact (exactly_pure a).congr fun b n => by simp [eq_comm]

/-- **One reading after the other**: the references of the two add up. -/
theorem Exactly.bind {R : α → Nat → Prop} {S : α → β → Nat → Prop} {x : Decoding α}
    {f : α → Decoding β} (hx : Exactly document R x) (hf : ∀ a, Exactly document (S a) (f a)) :
    Exactly document (fun b n => ∃ a k l, R a k ∧ S a b l ∧ n = k + l) (x >>= f) := by
  intro followed b followed'
  change Except.bind ((x.run document).run followed)
    (fun r => ((f r.1).run document).run r.2) = .ok (b, followed') ↔ _
  constructor
  · intro h
    rcases hr : (x.run document).run followed with e | ⟨a, between⟩
    · rw [hr] at h
      cases h
    · rw [hr] at h
      obtain ⟨k, hR, rfl, hk⟩ := (hx followed a between).mp hr
      obtain ⟨l, hS, rfl, hl⟩ := (hf a _ b followed').mp h
      refine ⟨k + l, ⟨a, k, l, hR, hS, rfl⟩, by omega, ?_⟩
      unfold Within at *
      omega
  · rintro ⟨n, ⟨a, k, l, hR, hS, rfl⟩, rfl, hn⟩
    -- what is within the limit altogether is so half way, too
    have hk : Within document followed k := by
      unfold Within at *
      omega
    have hl : Within document (followed + k) l := by
      unfold Within at *
      omega
    have hfirst := (hx followed a (followed + k)).mpr ⟨k, hR, rfl, hk⟩
    have hsecond := (hf a (followed + k) b (followed + (k + l))).mpr ⟨l, hS, by omega, hl⟩
    rw [hfirst]
    exact hsecond

/-- What is made of a reading costs no references. -/
theorem Exactly.map {R : α → Nat → Prop} {x : Decoding α} (hx : Exactly document R x) (f : α → β) :
    Exactly document (fun b n => ∃ a, R a n ∧ b = f a) (x >>= fun a => pure (f a)) := by
  refine (hx.bind fun a => exactly_pure (f a)).congr fun b n => ?_
  constructor
  · rintro ⟨a, k, _, hR, ⟨rfl, rfl⟩, rfl⟩
    exact ⟨a, hR, rfl⟩
  · rintro ⟨a, hR, rfl⟩
    exact ⟨a, n, 0, hR, ⟨rfl, rfl⟩, rfl⟩

theorem run_follow_reference (document : Document) (id followed : Nat) :
    ((follow (.reference id)).run document).run followed =
      if 100 * document.size ≤ followed then .error .malformed
      else match document.target? id with
        | some node => .ok (node, followed + 1)
        | none => .error .malformed := by
  change ((if 100 * document.size ≤ followed then fail .malformed else do
    set (followed + 1)
    match document.target? id with
    | some node => pure node
    | none => fail .malformed : Decoding Node).run document).run followed = _
  split
  · rfl
  · rcases document.target? id with _ | node <;> rfl

/-- To follow a node is to find the node that is meant by it. -/
theorem exactly_follow (node : Node) : Exactly document (Meant document node) (follow node) := by
  cases node with
  | reference id =>
    intro followed target followed'
    rw [run_follow_reference]
    constructor
    · intro h
      split at h
      · cases h
      · split at h <;> cases h
        exact ⟨1, ⟨‹_›, rfl⟩, rfl, Or.inr (by omega)⟩
    · rintro ⟨n, ⟨htarget, rfl⟩, rfl, hwithin⟩
      have hlimit : ¬ 100 * document.size ≤ followed := by
        unfold Within at hwithin
        omega
      rw [if_neg hlimit, htarget]
  | _ => exact exactly_pure _

end Decoding

/-! ### Exactly the data that a node stands for -/

namespace Decoder

open Decoding

variable {document : Document} {levels : Nat}

theorem exactly_items
    (hdata : ∀ node, Exactly document (Stands document levels node) (data levels node))
    (items : List Node) :
    Exactly document (HoldsItems document levels items) (items.mapM (data levels)) := by
  induction items with
  | nil =>
    refine (exactly_pure []).congr fun ds n => ?_
    constructor
    · rintro ⟨rfl, rfl⟩
      exact .nil
    · rintro ⟨⟩
      exact ⟨rfl, rfl⟩
  | cons item items ih =>
    rw [List.mapM_cons]
    refine ((hdata item).bind fun d => ih.map (d :: ·)).congr fun ds n => ?_
    constructor
    · rintro ⟨d, k, l, hitem, ⟨ds', hitems, rfl⟩, rfl⟩
      exact .cons hitem hitems
    · rintro (_ | ⟨hitem, hitems⟩)
      exact ⟨_, _, _, hitem, ⟨_, hitems, rfl⟩, rfl⟩

/-- Key and value of an entry, one after the other. -/
theorem exactly_entries
    (hdata : ∀ node, Exactly document (Stands document levels node) (data levels node))
    (es : List (Node × Node)) :
    Exactly document (HoldsEntries document levels es) (es.mapM (fun e => do
      let key ← data levels e.1
      let v ← data levels e.2
      pure (key, v))) := by
  induction es with
  | nil =>
    refine (exactly_pure []).congr fun pairs n => ?_
    constructor
    · rintro ⟨rfl, rfl⟩
      exact .nil
    · rintro ⟨⟩
      exact ⟨rfl, rfl⟩
  | cons e es ih =>
    rw [List.mapM_cons]
    have hentry := (hdata e.1).bind fun c => (hdata e.2).map (c, ·)
    refine (hentry.bind fun p => ih.map (p :: ·)).congr fun pairs n => ?_
    constructor
    · rintro ⟨_, _, m, ⟨c, k, l, hkey, ⟨d, hnode, rfl⟩, rfl⟩, ⟨ps, hentries, rfl⟩, rfl⟩
      rw [Nat.add_assoc]
      exact .cons hkey hnode hentries
    · rintro (_ | @⟨_, k, l, m, _, _, _, c, d, ps, hkey, hnode, hentries⟩)
      exact ⟨(c, d), k + l, m, ⟨c, k, l, hkey, ⟨d, hnode, rfl⟩, rfl⟩, ⟨ps, hentries, rfl⟩,
        (Nat.add_assoc k l m).symm⟩

theorem exactly_scalar (tag? : Option String) (style : Style) (text : String) :
    Exactly document (Holds document levels (.scalar tag? style text))
      (match localTag? tag? with
      | some tag => do return .tagged tag (← MonadExcept.ofExcept (scalarData none style text))
      | none => MonadExcept.ofExcept (scalarData tag? style text)) := by
  have hholds (d : Data) (n : Nat) : Holds document levels (.scalar tag? style text) d n ↔
      scalarContent tag? style text = .ok d ∧ n = 0 := by
    constructor
    · rintro ⟨hcontent⟩
      exact ⟨hcontent, rfl⟩
    · rintro ⟨hcontent, rfl⟩
      exact .scalar hcontent
  simp only [scalarContent] at hholds
  rcases htag : localTag? tag? with _ | tag
  · refine (exactly_ofExcept _).congr fun d n => ?_
    rw [hholds, htag]
  · refine ((exactly_ofExcept _).map (Data.tagged tag)).congr fun d n => ?_
    rw [hholds, htag, map_eq_ok_iff]
    constructor
    · rintro ⟨content, ⟨hcontent, rfl⟩, rfl⟩
      exact ⟨⟨content, hcontent, rfl⟩, rfl⟩
    · rintro ⟨⟨content, hcontent, rfl⟩, rfl⟩
      exact ⟨content, ⟨hcontent, rfl⟩, rfl⟩

theorem exactly_sequence
    (hdata : ∀ node, Exactly document (Stands document levels node) (data levels node))
    (tag? : Option String) (items : List Node) :
    Exactly document (Holds document (levels + 1) (.sequence tag? items)) (do
      return Data.marked tag? (.sequence (← items.mapM (data levels)))) := by
  refine ((exactly_items hdata items).map fun ds =>
    Data.marked tag? (.sequence ds)).congr fun d n => ?_
  constructor
  · rintro ⟨ds, hitems, rfl⟩
    exact .sequence hitems
  · rintro (_ | ⟨hitems⟩)
    exact ⟨_, hitems, rfl⟩

theorem exactly_mapping
    (hdata : ∀ node, Exactly document (Stands document levels node) (data levels node))
    (tag? : Option String) (es : List (Node × Node)) :
    Exactly document (Holds document (levels + 1) (.mapping tag? es)) (do
      let pairs ← es.mapM (fun e => do
        let key ← data levels e.1
        let v ← data levels e.2
        pure (key, v))
      if Data.hasRepeatedKey pairs then fail .malformed
      return Data.marked tag? (.mapping pairs)) := by
  -- keys are compared once all entries are read, so a repeated one comes after their references
  refine ((exactly_entries hdata es).bind (S := fun pairs d n =>
    Data.hasRepeatedKey pairs = false ∧ d = Data.marked tag? (.mapping pairs) ∧ n = 0)
    fun pairs => ?_).congr fun d n => ?_
  · by_cases hrepeated : Data.hasRepeatedKey pairs
    · simp only [hrepeated, if_true]
      exact (exactly_fail _).congr fun d n => by simp
    · simp only [hrepeated]
      exact (exactly_pure _).congr fun d n => by simp
  · constructor
    · rintro ⟨pairs, k, _, hentries, ⟨hdistinct, rfl, rfl⟩, rfl⟩
      exact .mapping hentries hdistinct
    · rintro (_ | _ | ⟨hentries, hdistinct⟩)
      exact ⟨_, _, 0, hentries, ⟨hdistinct, rfl, rfl⟩, rfl⟩

/-- **A reading finds the data that a node stands for**, and fails if it stands for none or if
there are more references than may be followed. -/
theorem exactly_data (levels : Nat) (node : Node) :
    Exactly document (Stands document levels node) (data levels node) := by
  -- a collection is read with one level less, so the levels carry the induction
  induction levels using Nat.strongRecOn generalizing node with
  | ind levels ih =>
    rw [data]
    refine ((exactly_follow node).bind (S := Holds document levels) fun target => ?_).congr
      fun d n => ?_
    · cases target with
      | scalar tag? style text => exact exactly_scalar tag? style text
      | sequence tag? items =>
        cases levels with
        | zero => exact (exactly_fail _).congr fun d n => ⟨False.elim, nofun⟩
        | succ levels => exact exactly_sequence (ih levels levels.lt_succ_self) tag? items
      | mapping tag? es =>
        cases levels with
        | zero => exact (exactly_fail _).congr fun d n => ⟨False.elim, nofun⟩
        | succ levels => exact exactly_mapping (ih levels levels.lt_succ_self) tag? es
      | reference id => exact (exactly_fail _).congr fun d n => ⟨False.elim, nofun⟩
      | unread => exact (exactly_fail _).congr fun d n => ⟨False.elim, nofun⟩
    · constructor
      · rintro ⟨target, k, l, hmeant, hholds, rfl⟩
        exact .intro hmeant hholds
      · rintro ⟨hmeant, hholds⟩
        exact ⟨_, _, _, hmeant, hholds, rfl⟩

end Decoder

/-! ### Texts as data -/

/-- The entries of the root of a document, if it is a mapping. -/
def Document.entries? (document : Document) : Option (List (Node × Node)) :=
  match document.root? with
  | some (.mapping _ es) => some es
  | _ => none

theorem Document.root?_of_entries? {document : Document} {es : List (Node × Node)}
    (h : document.entries? = some es) :
    ∃ tag?, document.root?.getD Node.absent = .mapping tag? es := by
  rw [entries?] at h
  rcases hroot : document.root? with _ | root <;> rw [hroot] at h
  · cases h
  · cases root <;> cases h
    exact ⟨_, rfl⟩

/-- **What a document whose root has these entries says as data**: it is the only one of its text,
and the entries stand for these pairs, with no more references than may be followed. The tag of the
root does not matter. -/
structure Document.Says (document : Document) (es : List (Node × Node))
    (pairs : List (Data × Data)) : Prop where
  alone : document.alone = true
  holds : ∃ n, Holds document maxLevels (.mapping none es) (.mapping pairs) n ∧
    n ≤ 100 * document.size

/-- A key is a text, without a local tag. -/
def Document.IsKey (document : Document) (key : Node) (text : String) : Prop :=
  ∃ tag? style n, Meant document key (.scalar tag? style text) n ∧
    Decoder.localTag? tag? = none

/-- The text of a scalar that has no tag. -/
def Node.untagged? : Node → Option String
  | .scalar none _ text => some text
  | _ => none

theorem isKey_of_untagged? {document : Document} {key : Node} {text : String}
    (h : key.untagged? = some text) : document.IsKey key text := by
  unfold Node.untagged? at h
  split at h <;> cases h
  exact ⟨none, _, 0, ⟨rfl, rfl⟩, rfl⟩

/-- A text that means nothing but itself. -/
structure Meaning.IsWord (text : String) : Prop where
  notEmpty : text.isEmpty = false
  notNull : isNullWord text = false
  notBool : bool? text = none
  notInt : ofIntText? text = none
  notFloat : float? text = none

namespace Decoder

open Decoding

variable {document : Document} {levels : Nat}

/-- One document, with no more references than may be followed. -/
theorem readText_eq_ok_iff {α : Type} {decoder : Decoder α} {s : String} {R : α → Nat → Prop}
    (hread : Exactly (Document.ofText s) R
      (decoder maxLevels ((Document.ofText s).root?.getD Node.absent))) (a : α) :
    decoder.readText s = .ok a ↔
      (Document.ofText s).alone = true ∧ ∃ n, R a n ∧ n ≤ 100 * (Document.ofText s).size := by
  have hfinds : (∃ n, R a n ∧ n ≤ 100 * (Document.ofText s).size) ↔
      ∃ followed, ((decoder maxLevels ((Document.ofText s).root?.getD Node.absent)).run
        (Document.ofText s)).run 0 = .ok (a, followed) := by
    constructor
    · rintro ⟨n, hR, hn⟩
      exact ⟨n, (hread 0 a n).mpr ⟨n, hR, n.zero_add.symm, Or.inr (by omega)⟩⟩
    · rintro ⟨followed, hrun⟩
      obtain ⟨n, hR, -, hwithin⟩ := (hread 0 a followed).mp hrun
      refine ⟨n, hR, ?_⟩
      unfold Within at hwithin
      omega
  rw [hfinds, readText]
  rcases ((decoder maxLevels ((Document.ofText s).root?.getD Node.absent)).run
    (Document.ofText s)).run 0 with fault | ⟨b, followed⟩
  · simp
  · by_cases halone : (Document.ofText s).alone <;> simp [halone]

/-- The root as a mapping, whatever its tag is. -/
theorem exactly_dataEntries (levels : Nat) (tag? : Option String) (es : List (Node × Node)) :
    Exactly document (fun pairs n => Holds document levels (.mapping none es) (.mapping pairs) n)
      (dataEntries levels (.mapping tag? es)) := by
  simp only [dataEntries, follow, pure_bind]
  refine ((exactly_data levels (.mapping none es)).bind
    (S := fun d pairs n => d = .mapping pairs ∧ n = 0) fun d => ?_).congr fun pairs n => ?_
  · cases d with
    | mapping pairs => exact (exactly_pure pairs).congr fun b n => by simp [eq_comm]
    | _ => exact (exactly_fail _).congr fun b n => by simp
  · constructor
    · rintro ⟨_, k, _, ⟨⟨rfl, rfl⟩, hholds⟩, ⟨rfl, rfl⟩, rfl⟩
      rw [Nat.zero_add]
      exact hholds
    · intro hholds
      exact ⟨_, n, 0, n.zero_add ▸ .intro ⟨rfl, rfl⟩ hholds, ⟨rfl, rfl⟩, rfl⟩

/-- A mapping is not null. -/
theorem exactly_optional {α : Type} {item : Decoder α} {R : α → Nat → Prop} {tag? : Option String}
    {es : List (Node × Node)} (hitem : Exactly document R (item levels (.mapping tag? es))) :
    Exactly document (fun a? n => ∃ a, R a n ∧ a? = some a)
      (optional item levels (.mapping tag? es)) := by
  change Exactly document _ (some <$> item levels (.mapping tag? es))
  rw [map_eq_pure_bind]
  exact hitem.map some

/-- The entries of a root, where they are read. -/
theorem readText_optional_dataEntries {s : String} {es : List (Node × Node)}
    (hroot : (Document.ofText s).entries? = some es) (pairs : List (Data × Data)) :
    (optional dataEntries).readText s = .ok (some pairs) ↔
      (Document.ofText s).Says es pairs := by
  obtain ⟨tag?, hmapping⟩ := Document.root?_of_entries? hroot
  have hread := exactly_optional (@exactly_dataEntries (Document.ofText s) maxLevels tag? es)
  rw [← hmapping] at hread
  rw [readText_eq_ok_iff hread]
  constructor
  · rintro ⟨halone, n, ⟨pairs, hholds, ⟨⟩⟩, hn⟩
    exact ⟨halone, n, hholds, hn⟩
  · rintro ⟨halone, n, hholds, hn⟩
    exact ⟨halone, n, ⟨pairs, hholds, rfl⟩, hn⟩

theorem eq_of_dataOfMeaning {text name : String} {m : Meaning}
    (h : dataOfMeaning text m = .ok (.string name)) : text = name := by
  cases m <;> cases h
  rfl

/-- Data that are text are the text that is written. -/
theorem eq_of_scalarData {tag? : Option String} {style : Style} {text name : String}
    (h : scalarData tag? style text = .ok (.string name)) : text = name := by
  cases tag? with
  | none =>
    simp only [scalarData] at h
    split at h
    · exact eq_of_dataOfMeaning h
    · cases h
      rfl
  | some tag =>
    simp only [scalarData] at h
    split at h
    · split at h
      · exact eq_of_dataOfMeaning h
      · cases h
    · split at h <;> cases h
      rfl

/-- A word is text wherever it is anything. -/
theorem eq_of_isWord {text : String} (hword : Meaning.IsWord text) {tag? : Option String}
    {style : Style} {d : Data} (h : scalarData tag? style text = .ok d) : d = .string text := by
  obtain ⟨hempty, hnull, hbool, hint, hfloat⟩ := hword
  cases tag? with
  | none =>
    have hplain : Meaning.ofPlain text = .string := by
      simp [Meaning.ofPlain, hempty, hnull, hbool, hint, hfloat]
    rw [scalarData, hplain] at h
    split at h <;> cases h <;> rfl
  | some tag =>
    simp only [scalarData, scalarValue, hnull, hbool, hint, hfloat] at h
    grind

/-- A key stands for a word exactly when it is the word, without a local tag. -/
theorem eq_string_iff_isKey {name : String} (hword : Meaning.IsWord name) {key : Node} {d : Data}
    {k : Nat} (hkey : Stands document levels key d k) :
    d = .string name ↔ document.IsKey key name := by
  obtain ⟨hmeant, hholds⟩ := hkey
  constructor
  · -- a local tag or a collection leaves data of another kind, so the key is a bare text
    intro hd
    cases hholds with
    | @scalar _ tag? style text _ hcontent =>
      rcases htag : localTag? tag? with _ | tag
      · rw [scalarContent, htag, hd] at hcontent
        obtain rfl := eq_of_scalarData hcontent
        exact ⟨tag?, style, _, hmeant, htag⟩
      · rw [scalarContent, htag, hd] at hcontent
        obtain ⟨content, -, hcontent⟩ := map_eq_ok_iff.mp hcontent
        cases hcontent
    | @sequence _ _ tag? => exact absurd hd (Data.marked_ne_string nofun)
    | @mapping _ _ tag? => exact absurd hd (Data.marked_ne_string nofun)
  · rintro ⟨tag?, style, n, hmeant', htag⟩
    obtain rfl := meant_unique hmeant hmeant'
    obtain ⟨hcontent⟩ := hholds
    rw [scalarContent, htag] at hcontent
    exact eq_of_isWord hword hcontent

/-- The keys among the entries that are a word are those of the data. -/
theorem mem_pairs_iff {name : String} (hword : Meaning.IsWord name) {es : List (Node × Node)}
    {pairs : List (Data × Data)} {n : Nat} (h : HoldsEntries document levels es pairs n) :
    (∃ p ∈ pairs, p.1 = .string name) ↔ ∃ e ∈ es, document.IsKey e.1 name := by
  induction es generalizing pairs n with
  | nil =>
    obtain ⟨⟩ := h
    simp
  | cons e es ih =>
    obtain _ | ⟨hkey, -, hentries⟩ := h
    simp only [List.exists_mem_cons_iff, ih hentries, eq_string_iff_isKey hword hkey]

end Decoder

/-- **When a text has a key**, for a word and a text whose root is a mapping: when the text says
anything as data, and the word is a key without a local tag. -/
theorem hasKey_iff {s name : String} (hword : Meaning.IsWord name) {es : List (Node × Node)}
    (hroot : (Document.ofText s).entries? = some es) :
    hasKey s name = true ↔
      (∃ pairs, (Document.ofText s).Says es pairs) ∧
        ∃ e ∈ es, (Document.ofText s).IsKey e.1 name := by
  have hpairs {pairs : List (Data × Data)} (hdata : (Document.ofText s).Says es pairs) :
      (∃ p ∈ pairs, p.1 = .string name) ↔ ∃ e ∈ es, (Document.ofText s).IsKey e.1 name := by
    obtain ⟨-, n, hholds, -⟩ := hdata
    obtain _ | _ | ⟨hentries, -⟩ := hholds
    exact Decoder.mem_pairs_iff hword hentries
  have hkey : hasKey s name = true ↔ ∃ pairs,
      (Decoder.optional Decoder.dataEntries).readText s = .ok (some pairs) ∧
        ∃ p ∈ pairs, p.1 = .string name := by
    unfold hasKey
    rcases (Decoder.optional Decoder.dataEntries).readText s with fault | _ | pairs
    · simp
    · simp
    · simp only [Except.ok.injEq, Option.some.injEq, exists_eq_left', List.any_eq_true]
      refine exists_congr fun p => and_congr_right fun _ => ?_
      cases p.1 <;> simp
  simp only [hkey, Decoder.readText_optional_dataEntries hroot]
  constructor
  · rintro ⟨pairs, hdata, hmem⟩
    exact ⟨⟨pairs, hdata⟩, (hpairs hdata).mp hmem⟩
  · rintro ⟨⟨pairs, hdata⟩, hes⟩
    exact ⟨pairs, hdata, (hpairs hdata).mpr hes⟩

end PipelineConfig.Yaml
