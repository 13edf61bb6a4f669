import Mathlib.Data.List.DropRight
import Mathlib.Data.List.Infix
import PipelineConfig.Text.Blank

/-!
# Texts without some characters

Two things are done to texts to get rid of characters of some kind. They are stripped, so that none is left at
their ends (`PipelineConfig.Text.strip`): blanks around a setting, slashes around a path, underscores around a
name. Or they are taken apart, so that none is left at all, and the pieces between them are kept
(`PipelineConfig.Text.pieces`): the segments of a path, the runs of letters and digits in a key.

Stripping does not change the pieces (`PipelineConfig.Text.pieces_strip`), and pieces that have been joined by
a character of the kind are the same pieces again (`PipelineConfig.Text.pieces_intercalate`). Joined, they are
at most as long as the text was (`PipelineConfig.Text.intercalate_pieces_sublist`), and they begin and end like
the stripped text (`PipelineConfig.Text.bare_intercalate_pieces_iff`).
-/

namespace PipelineConfig

namespace Text

variable {p q : Char → Bool} {cs ds piece : List Char} {c : Char}

/-! ### Ends -/

/-- A text without the characters of a kind at its ends. -/
def strip (p : Char → Bool) (cs : List Char) : List Char :=
  (cs.dropWhile p).rdropWhile p

theorem trimChars_eq_strip (cs : List Char) : trimChars cs = strip isBlank cs := rfl

/-- Neither end of a text is of a kind; an empty text has no ends. -/
structure Bare (p : Char → Bool) (cs : List Char) : Prop where
  head : ∀ c ∈ cs.head?, p c = false
  last : ∀ c ∈ cs.getLast?, p c = false

theorem bare_iff : Bare p cs ↔ cs.head?.any p = false ∧ cs.getLast?.any p = false := by
  rw [Option.any_eq_false, Option.any_eq_false]
  exact ⟨fun h => ⟨h.head, h.last⟩, fun h => ⟨h.1, h.2⟩⟩

instance (p : Char → Bool) (cs : List Char) : Decidable (Bare p cs) :=
  decidable_of_iff _ bare_iff.symm

theorem bare_of_forall (h : ∀ c ∈ cs, p c = false) : Bare p cs where
  head c hc := h c (List.mem_of_mem_head? hc)
  last c hc := h c (List.mem_of_mem_getLast? hc)

/-- What is dropped stands at the ends, and is of the kind. -/
theorem exists_eq_append_strip (p : Char → Bool) (cs : List Char) : ∃ before after,
    cs = before ++ strip p cs ++ after ∧ (∀ c ∈ before, p c = true) ∧ ∀ c ∈ after, p c = true := by
  refine ⟨cs.takeWhile p, (cs.dropWhile p).rtakeWhile p, ?_, fun c hc => List.mem_takeWhile_imp hc,
    fun c hc => List.mem_rtakeWhile_imp hc⟩
  rw [strip, List.append_assoc, List.rdropWhile_append_rtakeWhile, List.takeWhile_append_dropWhile]

theorem strip_isInfix (p : Char → Bool) (cs : List Char) : strip p cs <:+: cs := by
  obtain ⟨before, after, hcs, -, -⟩ := exists_eq_append_strip p cs
  exact ⟨before, after, hcs.symm⟩

theorem bare_strip (p : Char → Bool) (cs : List Char) : Bare p (strip p cs) where
  head := by
    intro c hc
    obtain ⟨rest, hrest⟩ := List.head?_eq_some_iff.mp hc
    obtain ⟨more, hmore⟩ : strip p cs <+: cs.dropWhile p := List.rdropWhile_prefix p _
    have hhead : (cs.dropWhile p).head? = some c := by
      rw [← hmore, hrest]
      rfl
    simpa [hhead] using List.head?_dropWhile_not p cs
  last := by
    intro c hc
    have hne : strip p cs ≠ [] := by
      rintro hnil
      simp [hnil] at hc
    rw [Option.mem_def, List.getLast?_eq_some_getLast hne, Option.some.injEq] at hc
    rw [← hc]
    exact Bool.eq_false_iff.mpr (List.rdropWhile_last_not p (cs.dropWhile p) hne)

/-- **A text is left as it is** exactly if nothing of the kind is at its ends. -/
theorem strip_eq_self_iff : strip p cs = cs ↔ Bare p cs := by
  constructor
  · intro h
    rw [← h]
    exact bare_strip p cs
  · intro h
    have hdrop : cs.dropWhile p = cs := by
      rcases cs with _ | ⟨c, cs⟩
      · rfl
      · exact List.dropWhile_cons_of_neg (by simp [h.head c rfl])
    rw [strip, hdrop, List.rdropWhile_eq_self_iff]
    intro hne
    simp [h.last _ (List.getLast?_eq_some_getLast hne)]

/-! ### Pieces -/

/-- **The pieces of a text** between characters of a kind, in order; nothing is no piece. -/
def pieces (p : Char → Bool) (cs : List Char) : List (List Char) :=
  (cs.splitOnP p).filter fun piece => piece ≠ []

@[simp] theorem pieces_nil (p : Char → Bool) : pieces p [] = [] := rfl

theorem of_mem_splitOnP (h : piece ∈ cs.splitOnP p) : ∀ c ∈ piece, p c = false := by
  induction cs generalizing piece with
  | nil =>
    obtain rfl : piece = [] := by simpa using h
    exact nofun
  | cons c cs ih =>
    rw [List.splitOnP_cons_eq_if_modifyHead] at h
    split at h
    · rcases List.mem_cons.mp h with rfl | h
      · exact nofun
      · exact ih h
    · rename_i hc
      obtain ⟨first, rest, hsplit⟩ := List.exists_cons_of_ne_nil (List.splitOnP_ne_nil p cs)
      rw [hsplit, List.modifyHead_cons] at h
      rcases List.mem_cons.mp h with rfl | h
      · exact List.forall_mem_cons.mpr ⟨by simpa using hc, ih (by simp [hsplit])⟩
      · exact ih (by simp [hsplit, h])

theorem of_mem_pieces (h : piece ∈ pieces p cs) : piece ≠ [] ∧ ∀ c ∈ piece, p c = false := by
  obtain ⟨hmem, hne⟩ := List.mem_filter.mp h
  exact ⟨by simpa using hne, of_mem_splitOnP hmem⟩

theorem splitOnP_congr (h : ∀ c ∈ cs, p c = q c) : cs.splitOnP p = cs.splitOnP q := by
  induction cs with
  | nil => rfl
  | cons c cs ih =>
    obtain ⟨hc, hcs⟩ := List.forall_mem_cons.mp h
    rw [List.splitOnP_cons_eq_if_modifyHead, List.splitOnP_cons_eq_if_modifyHead, hc, ih hcs]

/-- A character of the kind ends a piece. -/
theorem pieces_append_cons (hc : p c = true) (cs ds : List Char) :
    pieces p (cs ++ c :: ds) = pieces p cs ++ pieces p ds := by
  rw [pieces, List.splitOnP_append_cons cs ds hc, List.filter_append]
  rfl

theorem pieces_cons (hc : p c = true) (ds : List Char) : pieces p (c :: ds) = pieces p ds :=
  pieces_append_cons hc [] ds

theorem pieces_of_piece (hne : piece ≠ []) (h : ∀ c ∈ piece, p c = false) : pieces p piece = [piece] := by
  rw [pieces, List.splitOnP_eq_singleton h]
  simp [hne]

theorem pieces_append_left (h : ∀ c ∈ cs, p c = true) (ds : List Char) :
    pieces p (cs ++ ds) = pieces p ds := by
  induction cs with
  | nil => rfl
  | cons c cs ih =>
    obtain ⟨hc, hcs⟩ := List.forall_mem_cons.mp h
    rw [List.cons_append, pieces_cons hc, ih hcs]

theorem pieces_append_right (h : ∀ c ∈ ds, p c = true) (cs : List Char) :
    pieces p (cs ++ ds) = pieces p cs := by
  rcases ds with _ | ⟨c, ds⟩
  · rw [List.append_nil]
  · obtain ⟨hc, hds⟩ := List.forall_mem_cons.mp h
    have hnone : pieces p ds = [] := by simpa using pieces_append_left hds []
    rw [pieces_append_cons hc, hnone, List.append_nil]

/-- **Stripping does not change the pieces**, not even if it is for some characters of the kind only. -/
theorem pieces_strip (h : ∀ c, q c = true → p c = true) (cs : List Char) :
    pieces p (strip q cs) = pieces p cs := by
  obtain ⟨before, after, hcs, hbefore, hafter⟩ := exists_eq_append_strip q cs
  calc pieces p (strip q cs)
      = pieces p (before ++ strip q cs ++ after) := by
        rw [pieces_append_right fun c hc => h c (hafter c hc),
          pieces_append_left fun c hc => h c (hbefore c hc)]
    _ = pieces p cs := by rw [← hcs]

/-! ### Joined pieces -/

section Joined

variable {sep : Char} {texts : List (List Char)}

/-- **Pieces that have been joined are the pieces again.** -/
theorem pieces_intercalate (hsep : p sep = true)
    (h : ∀ piece ∈ texts, piece ≠ [] ∧ ∀ c ∈ piece, p c = false) :
    pieces p ([sep].intercalate texts) = texts := by
  induction texts with
  | nil => rfl
  | cons piece texts ih =>
    obtain ⟨⟨hne, hpiece⟩, htexts⟩ := List.forall_mem_cons.mp h
    rcases texts with _ | ⟨next, texts⟩
    · rw [List.intercalate_singleton, pieces_of_piece hne hpiece]
    · rw [List.intercalate_cons_cons, List.append_assoc, List.singleton_append,
        pieces_append_cons hsep, pieces_of_piece hne hpiece, ih htexts, List.singleton_append]

theorem intercalate_sublist {texts' : List (List Char)} (h : texts.Sublist texts') :
    ([sep].intercalate texts).Sublist ([sep].intercalate texts') := by
  induction h with
  | slnil => exact .refl _
  | @cons texts texts' text h ih =>
    rcases texts' with _ | ⟨next, texts'⟩
    · rw [List.sublist_nil.mp h]
      exact List.nil_sublist _
    · rw [List.intercalate_cons_cons]
      exact ih.trans (List.sublist_append_right _ _)
  | @cons_cons texts texts' text h ih =>
    rcases texts with _ | ⟨first, texts⟩
    · rcases texts' with _ | ⟨next, texts'⟩
      · exact .refl _
      · rw [List.intercalate_singleton, List.intercalate_cons_cons, List.append_assoc]
        exact List.sublist_append_left _ _
    · obtain ⟨next, texts', rfl⟩ :=
        List.exists_cons_of_ne_nil (List.ne_nil_of_mem (h.subset List.mem_cons_self))
      rw [List.intercalate_cons_cons, List.intercalate_cons_cons]
      exact ih.append_left _

/-- Where all pieces have been between one character, joining them again drops some of these at most. -/
theorem intercalate_pieces_sublist (sep : Char) (cs : List Char) :
    ([sep].intercalate (pieces (· == sep) cs)).Sublist cs := by
  have hall : ([sep].intercalate (pieces (· == sep) cs)).Sublist ([sep].intercalate (cs.splitOn sep)) :=
    intercalate_sublist List.filter_sublist
  rwa [List.intercalate_splitOn] at hall

theorem exists_first (p : Char → Bool) (cs : List Char) : (∀ c ∈ cs, p c = false) ∨
    ∃ before c after, cs = before ++ c :: after ∧ p c = true ∧ ∀ c ∈ before, p c = false := by
  induction cs with
  | nil => exact .inl nofun
  | cons c cs ih =>
    by_cases hc : p c = true
    · exact .inr ⟨[], c, cs, rfl, hc, nofun⟩
    · rw [Bool.not_eq_true] at hc
      rcases ih with hnone | ⟨before, d, after, rfl, hd, hbefore⟩
      · exact .inl (List.forall_mem_cons.mpr ⟨hc, hnone⟩)
      · exact .inr ⟨c :: before, d, after, rfl, hd, List.forall_mem_cons.mpr ⟨hc, hbefore⟩⟩

/-- The first piece begins where the text does, if that is with a character of a piece. -/
theorem exists_pieces_cons (hc : p c = false) (cs : List Char) :
    ∃ piece rest, pieces p (c :: cs) = (c :: piece) :: rest := by
  rcases exists_first p cs with hnone | ⟨before, d, after, rfl, hd, hbefore⟩
  · exact ⟨cs, [], pieces_of_piece (List.cons_ne_nil c cs) (List.forall_mem_cons.mpr ⟨hc, hnone⟩)⟩
  · refine ⟨before, pieces p after, ?_⟩
    rw [← List.cons_append, pieces_append_cons hd,
      pieces_of_piece (List.cons_ne_nil c before) (List.forall_mem_cons.mpr ⟨hc, hbefore⟩),
      List.singleton_append]

/-- The last piece ends where the text does, likewise. -/
theorem exists_pieces_concat (hc : p c = false) (cs : List Char) :
    ∃ rest piece, pieces p (cs ++ [c]) = rest ++ [piece ++ [c]] := by
  have hpiece : ∀ {piece : List Char}, (∀ d ∈ piece.reverse, p d = false) →
      pieces p (piece ++ [c]) = [piece ++ [c]] := by
    intro piece h
    refine pieces_of_piece (by simp) fun d hd => ?_
    rcases List.mem_append.mp hd with hd | hd
    · exact h d (List.mem_reverse.mpr hd)
    · rwa [List.mem_singleton.mp hd]
  rcases exists_first p cs.reverse with hnone | ⟨before, d, after, hcs, hd, hbefore⟩
  · exact ⟨[], cs, hpiece hnone⟩
  · refine ⟨pieces p after.reverse, before.reverse, ?_⟩
    have hcs : cs = after.reverse ++ d :: before.reverse := by
      rw [← List.reverse_reverse cs, hcs]
      simp
    rw [hcs, List.append_assoc, List.cons_append, pieces_append_cons hd,
      hpiece (by rwa [List.reverse_reverse])]

theorem intercalate_append {texts' : List (List Char)} (hne : texts ≠ []) (hne' : texts' ≠ []) :
    [sep].intercalate (texts ++ texts') = [sep].intercalate texts ++ sep :: [sep].intercalate texts' := by
  induction texts with
  | nil => exact absurd rfl hne
  | cons text texts ih =>
    rcases texts with _ | ⟨next, texts⟩
    · rw [List.singleton_append, List.intercalate_cons_of_ne_nil hne', List.intercalate_singleton,
        List.append_assoc, List.singleton_append]
    · rw [List.cons_append, List.cons_append, List.intercalate_cons_cons, ← List.cons_append,
        ih (List.cons_ne_nil next texts), List.intercalate_cons_cons, List.append_assoc _ _ (sep :: _)]

theorem head?_intercalate_pieces (sep : Char) (h : Bare p cs) :
    ([sep].intercalate (pieces p cs)).head? = cs.head? := by
  rcases cs with _ | ⟨c, cs⟩
  · rfl
  · obtain ⟨piece, rest, hpieces⟩ := exists_pieces_cons (h.head c rfl) cs
    rw [hpieces]
    rcases rest with _ | ⟨next, rest⟩
    · simp
    · rw [List.intercalate_cons_cons]
      rfl

theorem getLast?_intercalate_pieces (sep : Char) (h : Bare p cs) :
    ([sep].intercalate (pieces p cs)).getLast? = cs.getLast? := by
  rcases List.eq_nil_or_concat cs with rfl | ⟨cs, c, rfl⟩
  · rfl
  · rw [List.concat_eq_append] at h ⊢
    obtain ⟨rest, piece, hpieces⟩ := exists_pieces_concat (h.last c (by simp)) cs
    rw [hpieces, List.getLast?_concat]
    by_cases hrest : rest = []
    · rw [hrest, List.nil_append, List.intercalate_singleton, List.getLast?_concat]
    · rw [intercalate_append hrest (List.cons_ne_nil _ _), List.intercalate_singleton, ← List.cons_append,
        ← List.append_assoc, List.getLast?_concat]

/-- **Joined pieces begin and end like the text**, if the text begins and ends with pieces. -/
theorem bare_intercalate_pieces_iff (h : Bare p cs) : Bare q ([sep].intercalate (pieces p cs)) ↔ Bare q cs := by
  have hhead := head?_intercalate_pieces sep h
  have hlast := getLast?_intercalate_pieces sep h
  constructor
  · intro hq
    exact ⟨by rw [← hhead]; exact hq.head, by rw [← hlast]; exact hq.last⟩
  · intro hq
    exact ⟨by rw [hhead]; exact hq.head, by rw [hlast]; exact hq.last⟩

end Joined

end Text

end PipelineConfig
