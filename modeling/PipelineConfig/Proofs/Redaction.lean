import Mathlib.Data.List.Infix
import Mathlib.Tactic.Tauto
import PipelineConfig.Redaction

/-!
# No secret is left in a redacted text

A redactor replaces its secrets one after the other, each in the text that those before it have left.
Two things could go wrong with that. Occurrences of a secret may overlap, and then only some of them are
replaced. And a replacement takes something out of the text, so that what stood on either side of it
might come together, and be a secret again that has been dealt with already.

Neither happens, and for one reason: what is taken out leaves its mask behind. A text without asterisks
that occurs in what a replacement leaves cannot reach into a mask, so it stood in the text before, and it
stood there where the replacement passed by. So it is not the secret either
(`PipelineConfig.Redactor.infix_of_infix_maskFrom`). This carries through all replacements, in whatever
order they are made, and no matter what the other secrets are
(`PipelineConfig.Redactor.not_infix_redact`).

A secret with an asterisk in it may be left, since a mask can be a part of it.
-/

namespace PipelineConfig

namespace Redactor

/-! ### What is known -/

section Known

variable {r : Redactor} {secret : String}

theorem contains_iff : r.contains secret = true ↔ secret ∈ r.secrets :=
  List.contains_iff_mem

/-- Whoever knows more secrets knows a secret as well. -/
theorem contains_of_isPrefix {r' : Redactor} (hr : r.secrets <+: r'.secrets)
    (hsecret : r.contains secret = true) : r'.contains secret = true :=
  contains_iff.mpr (hr.subset (contains_iff.mp hsecret))

/-- Nothing is forgotten when a secret is made known. -/
theorem secrets_prefix_register (r : Redactor) (secret : String) :
    r.secrets <+: (r.register secret).secrets := by
  rw [register]
  split
  · exact List.prefix_refl _
  · exact List.prefix_append _ _

theorem contains_register_iff {other : String} :
    (r.register other).contains secret = true ↔
      r.contains secret = true ∨ secret = other ∧ secret ≠ "" := by
  rw [register]
  split
  · rename_i hknown
    constructor
    · exact .inl
    · rintro (h | ⟨rfl, hne⟩)
      · exact h
      · simpa [hne] using hknown
  · rename_i hnew
    have hother : other ≠ "" := by
      rintro rfl
      simp at hnew
    simp only [contains_iff, List.mem_append, List.mem_singleton]
    constructor
    · rintro (h | rfl)
      · exact .inl h
      · exact .inr ⟨rfl, hother⟩
    · rintro (h | ⟨rfl, -⟩)
      · exact .inl h
      · exact .inr rfl

theorem contains_register (hsecret : secret ≠ "") :
    (r.register secret).contains secret = true :=
  contains_register_iff.mpr (.inr ⟨rfl, hsecret⟩)

/-- Make secrets known, one after the other. -/
def registerAll (r : Redactor) (calls : List String) : Redactor :=
  calls.foldl register r

/-- **What is known** after some calls: what was known before, and what they were made with, unless it
is empty. -/
theorem contains_registerAll_iff {calls : List String} :
    (r.registerAll calls).contains secret = true ↔
      r.contains secret = true ∨ secret ∈ calls ∧ secret ≠ "" := by
  induction calls generalizing r with
  | nil => simp [registerAll]
  | cons other calls ih =>
    rw [registerAll, List.foldl_cons, ← registerAll, ih, contains_register_iff, List.mem_cons]
    tauto

end Known

/-! ### One replacement -/

section Replacement

variable {secret cs l : List Char} {c : Char} {k : Nat}

theorem maskFrom_of_isPrefix (h : secret <+: c :: cs) :
    maskFrom secret 0 (c :: cs) = mask ++ maskFrom secret (secret.length - 1) cs := by
  rw [maskFrom, if_pos (List.isPrefixOf_iff_prefix.mpr h)]

theorem maskFrom_of_not_isPrefix (h : ¬ secret <+: c :: cs) :
    maskFrom secret 0 (c :: cs) = c :: maskFrom secret 0 cs := by
  rw [maskFrom, if_neg fun hprefix => h (List.isPrefixOf_iff_prefix.mp hprefix)]

/-- A mask begins with an asterisk, and so does what is left of it without its first characters. -/
theorem suffix_mask_append (h : l <:+ mask ++ cs) : l.head? = some '*' ∨ l <:+ cs := by
  simp only [mask, List.cons_append, List.nil_append, List.suffix_cons_iff] at h
  rcases h with rfl | rfl | rfl | rfl | h
  · exact .inl rfl
  · exact .inl rfl
  · exact .inl rfl
  · exact .inl rfl
  · exact .inr h

/-- **Where one may begin to read** in what a replacement leaves: in a mask, or at a character that was
there before, and from there on it is what the replacement leaves of the text from that character on. -/
theorem suffix_maskFrom (h : l <:+ maskFrom secret k cs) :
    l.head? = some '*' ∨ ∃ rest, rest <:+ cs ∧ l = maskFrom secret 0 rest := by
  -- along the replacement; what is passed over adds no place to begin at
  induction cs generalizing k with
  | nil =>
    have hl : l = [] := by
      rw [maskFrom] at h
      exact List.suffix_nil.mp h
    exact .inr ⟨[], List.suffix_refl _, by rw [hl, maskFrom]⟩
  | cons c cs ih =>
    have hlater {k : Nat} (h : l <:+ maskFrom secret k cs) :
        l.head? = some '*' ∨ ∃ rest, rest <:+ c :: cs ∧ l = maskFrom secret 0 rest := by
      rcases ih h with hstar | ⟨rest, hrest, hl⟩
      · exact .inl hstar
      · exact .inr ⟨rest, hrest.trans (List.suffix_cons c cs), hl⟩
    rcases k with _ | k
    · by_cases hprefix : secret <+: c :: cs
      · rw [maskFrom_of_isPrefix hprefix] at h
        rcases suffix_mask_append h with hstar | h
        · exact .inl hstar
        · exact hlater h
      · rw [maskFrom_of_not_isPrefix hprefix, List.suffix_cons_iff] at h
        rcases h with hl | h
        · exact .inr ⟨c :: cs, List.suffix_refl _, by rw [hl, maskFrom_of_not_isPrefix hprefix]⟩
        · exact hlater h
    · rw [maskFrom] at h
      exact hlater h

/-- **What a replacement leaves begins** with nothing but what the text began with, up to the first
asterisk. -/
theorem prefix_of_prefix_maskFrom (hstar : '*' ∉ l) (h : l <+: maskFrom secret 0 cs) : l <+: cs := by
  induction cs generalizing l with
  | nil => rwa [maskFrom] at h
  | cons c cs ih =>
    rcases l with _ | ⟨a, l⟩
    · exact List.nil_prefix
    · rw [List.mem_cons, not_or] at hstar
      by_cases hprefix : secret <+: c :: cs
      · rw [maskFrom_of_isPrefix hprefix, mask, List.cons_append, List.cons_prefix_cons] at h
        exact absurd h.1.symm hstar.1
      · rw [maskFrom_of_not_isPrefix hprefix, List.cons_prefix_cons] at h
        exact List.cons_prefix_cons.mpr ⟨h.1, ih hstar.2 h.2⟩

/-- What a replacement leaves does not begin with the secret, since there it would have been replaced. -/
theorem not_prefix_maskFrom (hstar : '*' ∉ secret) (hne : secret ≠ []) :
    ¬ secret <+: maskFrom secret 0 cs := by
  intro h
  have hprefix : secret <+: cs := prefix_of_prefix_maskFrom hstar h
  rcases cs with _ | ⟨c, cs⟩
  · exact hne (List.prefix_nil.mp hprefix)
  · obtain ⟨a, rest, rfl⟩ := List.exists_cons_of_ne_nil hne
    rw [maskFrom_of_isPrefix hprefix, mask, List.cons_append, List.cons_prefix_cons] at h
    exact hstar (by simp [h.1])

/-- **A replacement makes nothing and leaves no secret**: a text without asterisks that occurs in what a
replacement leaves has occurred before, and it is not what has been replaced. -/
theorem infix_of_infix_maskFrom (hstar : '*' ∉ l) (hne : l ≠ [])
    (h : l <:+: maskFrom secret 0 cs) : l <:+: cs ∧ l ≠ secret := by
  obtain ⟨t, hlt, ht⟩ := List.infix_iff_prefix_suffix.mp h
  rcases suffix_maskFrom ht with hhead | ⟨rest, hrest, rfl⟩
  · -- the occurrence would begin in a mask
    obtain ⟨a, l, rfl⟩ := List.exists_cons_of_ne_nil hne
    obtain ⟨u, rfl⟩ := hlt
    obtain rfl : a = '*' := Option.some.inj hhead
    exact absurd List.mem_cons_self hstar
  · constructor
    · exact (prefix_of_prefix_maskFrom hstar hlt).isInfix.trans hrest.isInfix
    · rintro rfl
      exact not_prefix_maskFrom hstar hne hlt

/-- Where a secret does not occur nothing is replaced. -/
theorem maskFrom_of_not_isInfix (h : ¬ secret <:+: cs) : maskFrom secret 0 cs = cs := by
  induction cs with
  | nil => rw [maskFrom]
  | cons c cs ih =>
    rw [maskFrom_of_not_isPrefix fun hprefix => h hprefix.isInfix,
      ih fun hinside => h (hinside.trans (List.suffix_cons c cs).isInfix)]

end Replacement

/-! ### All replacements -/

variable {r : Redactor} {secret text : String} {secrets : List String} {cs l : List Char}

/-- Replace secrets in a text, one after the other. -/
def maskAll (secrets : List String) (cs : List Char) : List Char :=
  secrets.foldl (fun cs secret => maskFrom secret.toList 0 cs) cs

theorem toList_redact (r : Redactor) (text : String) :
    (r.redact text).toList = maskAll r.secrets text.toList :=
  String.toList_ofList

/-- What occurs after all replacements has occurred before them, and is none of the secrets. -/
theorem infix_of_infix_maskAll (hstar : '*' ∉ l) (hne : l ≠ []) (h : l <:+: maskAll secrets cs) :
    l <:+: cs ∧ ∀ secret ∈ secrets, l ≠ secret.toList := by
  induction secrets generalizing cs with
  | nil => exact ⟨h, List.forall_mem_nil _⟩
  | cons secret secrets ih =>
    obtain ⟨hfirst, hothers⟩ := ih h
    obtain ⟨hbefore, hsecret⟩ := infix_of_infix_maskFrom hstar hne hfirst
    exact ⟨hbefore, List.forall_mem_cons.mpr ⟨hsecret, hothers⟩⟩

theorem maskAll_of_not_isInfix (h : ∀ secret ∈ secrets, ¬ secret.toList <:+: cs) :
    maskAll secrets cs = cs := by
  induction secrets with
  | nil => rfl
  | cons secret secrets ih =>
    obtain ⟨hsecret, hothers⟩ := List.forall_mem_cons.mp h
    rw [maskAll, List.foldl_cons, maskFrom_of_not_isInfix hsecret]
    exact ih hothers

/-- **A known secret without asterisks does not occur in a redacted text**, whatever the other secrets
are. -/
theorem not_infix_redact (hknown : r.contains secret = true) (hne : secret ≠ "")
    (hstar : '*' ∉ secret.toList) : ¬ secret.toList <:+: (r.redact text).toList := by
  intro h
  rw [toList_redact] at h
  have hnil : secret.toList ≠ [] := fun hnil => hne (String.toList_eq_nil_iff.mp hnil)
  exact (infix_of_infix_maskAll hstar hnil h).2 secret (contains_iff.mp hknown) rfl

/-- A text in which no known secret occurs is returned as it is. -/
theorem redact_of_not_isInfix (h : ∀ secret ∈ r.secrets, ¬ secret.toList <:+: text.toList) :
    r.redact text = text := by
  have hlist : (r.redact text).toList = text.toList := by
    rw [toList_redact, maskAll_of_not_isInfix h]
  exact String.toList_injective hlist

/-- **Redaction removes every secret.** The known secrets are those that calls were made with, the empty
one apart. None of them that has no asterisk in it occurs in a redacted text, be the text and the other
secrets what they may: they may overlap, or be parts of each other, and the text may hold asterisks. And
nothing else is lost, as a text in which no known secret occurs is returned as it is. -/
theorem removes_registered (calls : List String) (text : String) :
    (∀ secret, (empty.registerAll calls).contains secret = true ↔ secret ∈ calls ∧ secret ≠ "") ∧
    (∀ secret, (empty.registerAll calls).contains secret = true → '*' ∉ secret.toList →
      ¬ secret.toList <:+: ((empty.registerAll calls).redact text).toList) ∧
    ((∀ secret, (empty.registerAll calls).contains secret = true → ¬ secret.toList <:+: text.toList) →
      (empty.registerAll calls).redact text = text) := by
  have hknown (secret : String) :
      (empty.registerAll calls).contains secret = true ↔ secret ∈ calls ∧ secret ≠ "" := by
    rw [contains_registerAll_iff]
    simp [contains_iff, empty]
  refine ⟨hknown, ?_, ?_⟩
  · intro secret hsecret hstar
    exact not_infix_redact hsecret ((hknown secret).mp hsecret).2 hstar
  · intro h
    exact redact_of_not_isInfix fun secret hsecret => h secret (contains_iff.mpr hsecret)

/-- Secrets that are parts of each other and overlap, in a text with an asterisk; and a text without any.
The secret with an asterisk may be left. -/
theorem removes_registered_overlapping :
    let r := empty.registerAll ["b*", "ab", "abab", "", "ba"]
    (r.contains "abab" = true ∧ '*' ∉ "abab".toList ∧ r.redact "*ababa" = "*********a" ∧
      ¬ "abab".toList <:+: (r.redact "*ababa").toList) ∧
    ((∀ secret, r.contains secret = true → ¬ secret.toList <:+: "b b".toList) ∧
      r.redact "b b" = "b b") ∧
    "b*".toList <:+: (r.redact "bab").toList := by
  intro r
  obtain ⟨hknown, hremoved, -⟩ := removes_registered ["b*", "ab", "abab", "", "ba"] "*ababa"
  have habab : r.contains "abab" = true := (hknown "abab").mpr (by decide)
  have hstar : '*' ∉ "abab".toList := by decide
  have hclean : ∀ secret, r.contains secret = true → ¬ secret.toList <:+: "b b".toList := by
    have hall : ∀ secret ∈ r.secrets, ¬ secret.toList <:+: "b b".toList := by decide
    exact fun secret hsecret => hall secret (contains_iff.mp hsecret)
  refine ⟨⟨habab, hstar, by decide, hremoved "abab" habab hstar⟩, ⟨hclean, ?_⟩, by decide⟩
  exact (removes_registered ["b*", "ab", "abab", "", "ba"] "b b").2.2 hclean

end Redactor

end PipelineConfig
