import Mathlib.Data.List.Nodup
import PipelineConfig.Proofs.Redaction

/-!
# When the order of registration does not show

A redactor replaces its secrets in the order in which they were made known. For what is left of them
this order does not matter, since nothing is. But it may matter for the text around them: where
occurrences of two secrets share a character, the secret that comes first takes it, and what remains of
the other is left to be read. Of `ab` and `abc` in the text `abc`, the first one leaves the `c` behind.

So two things are told apart here. In a given text, all orders agree if no occurrence of a secret meets
that of another one (`PipelineConfig.Redactor.MeetIn`). In all texts they agree if and only if no secret is
a part of another one, and no end of a secret is the beginning of another one
(`PipelineConfig.Redactor.Entangled`). Both is in `PipelineConfig.Redactor.redact_order_iff`.

The reason for agreement is that the replacements of two secrets that do not meet commute
(`PipelineConfig.Redactor.maskFrom_comm`), and that a replacement lets none meet that did not meet before.
For the other direction it helps that a replacement works on both sides of an asterisk separately
(`PipelineConfig.Redactor.maskFrom_append_star`): once there is a mask, what stands beside it can be
followed on its own.
-/

namespace PipelineConfig

namespace Redactor

/-! ### One replacement, from one occurrence to the next -/

section Scan

variable {secret cs ds : List Char}

theorem maskFrom_passed (passed cs : List Char) :
    maskFrom secret passed.length (passed ++ cs) = maskFrom secret 0 cs := by
  induction passed with
  | nil => rfl
  | cons c passed ih => exact ih

theorem maskFrom_append_self (hne : secret ≠ []) (cs : List Char) :
    maskFrom secret 0 (secret ++ cs) = mask ++ maskFrom secret 0 cs := by
  obtain ⟨c, passed, rfl⟩ := List.exists_cons_of_ne_nil hne
  have hfound : c :: passed <+: c :: (passed ++ cs) := List.prefix_append (c :: passed) cs
  rw [List.cons_append, maskFrom_of_isPrefix hfound, List.length_cons, Nat.add_sub_cancel,
    maskFrom_passed]

/-- **Induction along a replacement**, from one occurrence of the secret to the next. -/
@[elab_as_elim]
theorem scan_induction {motive : List Char → Prop} (hne : secret ≠ []) (nil : motive [])
    (found : ∀ cs, motive cs → motive (secret ++ cs))
    (other : ∀ c cs, ¬ secret <+: c :: cs → motive cs → motive (c :: cs))
    (cs : List Char) : motive cs := by
  induction hn : cs.length using Nat.strong_induction_on generalizing cs with
  | _ n ih =>
    subst hn
    rcases cs with _ | ⟨c, cs⟩
    · exact nil
    by_cases hprefix : secret <+: c :: cs
    · obtain ⟨rest, hrest⟩ := hprefix
      have hlength : rest.length < (c :: cs).length := by
        have hpos := List.length_pos_iff.mpr hne
        rw [← hrest, List.length_append]
        omega
      rw [← hrest]
      exact found rest (ih _ hlength rest rfl)
    · exact other c cs hprefix (ih _ (Nat.lt_succ_self _) cs rfl)

theorem prefix_of_prefix_append_star (hstar : '*' ∉ secret) (h : secret <+: cs ++ '*' :: ds) :
    secret <+: cs := by
  rcases Nat.lt_or_ge cs.length secret.length with hlt | hle
  · -- what is longer than the text before the asterisk has the asterisk in it
    have hbefore : cs ++ ['*'] <+: cs ++ '*' :: ds := ⟨ds, by simp⟩
    have hacross : cs ++ ['*'] <+: secret :=
      List.prefix_of_prefix_length_le hbefore h (by rw [List.length_append]; exact hlt)
    exact absurd (hacross.subset (by simp)) hstar
  · exact List.prefix_of_prefix_length_le h (List.prefix_append cs _) hle

/-- **What is before an asterisk and what is behind it are replaced separately**, as no secret reaches
across. -/
theorem maskFrom_append_star (hstar : '*' ∉ secret) (hne : secret ≠ []) (cs ds : List Char) :
    maskFrom secret 0 (cs ++ '*' :: ds) = maskFrom secret 0 cs ++ '*' :: maskFrom secret 0 ds := by
  have hmiss (ds : List Char) : ¬ secret <+: '*' :: ds := by
    obtain ⟨c, rest, rfl⟩ := List.exists_cons_of_ne_nil hne
    intro h
    exact hstar (by simp [(List.cons_prefix_cons.mp h).1])
  induction cs using scan_induction hne with
  | nil => exact maskFrom_of_not_isPrefix (hmiss ds)
  | found cs ih =>
    rw [List.append_assoc, maskFrom_append_self hne, maskFrom_append_self hne, ih,
      List.append_assoc]
  | other c cs hprefix ih =>
    have hprefix' : ¬ secret <+: c :: (cs ++ '*' :: ds) :=
      fun h => hprefix (prefix_of_prefix_append_star hstar h)
    rw [List.cons_append, maskFrom_of_not_isPrefix hprefix', ih, maskFrom_of_not_isPrefix hprefix,
      List.cons_append]

theorem maskFrom_append_mask (hstar : '*' ∉ secret) (hne : secret ≠ []) (cs ds : List Char) :
    maskFrom secret 0 (cs ++ (mask ++ ds)) = maskFrom secret 0 cs ++ (mask ++ maskFrom secret 0 ds) := by
  have hbehind (ds : List Char) : maskFrom secret 0 ('*' :: ds) = '*' :: maskFrom secret 0 ds := by
    simpa [maskFrom] using maskFrom_append_star hstar hne [] ds
  simp only [mask, List.cons_append, List.nil_append, maskFrom_append_star hstar hne, hbehind]

/-- **Where a secret occurs**, its first occurrence is replaced, and what is before it stays. -/
theorem exists_maskFrom_of_isInfix (hne : secret ≠ []) (h : secret <:+: cs) :
    ∃ before after, cs = before ++ (secret ++ after) ∧
      maskFrom secret 0 cs = before ++ (mask ++ maskFrom secret 0 after) := by
  induction cs with
  | nil => exact absurd (List.infix_nil.mp h) hne
  | cons c cs ih =>
    by_cases hprefix : secret <+: c :: cs
    · obtain ⟨after, hafter⟩ := hprefix
      exact ⟨[], after, hafter.symm, by rw [← hafter, maskFrom_append_self hne, List.nil_append]⟩
    · obtain ⟨before, after, rfl, hmask⟩ := ih ((List.infix_cons_iff.mp h).resolve_left hprefix)
      exact ⟨c :: before, after, rfl, by rw [maskFrom_of_not_isPrefix hprefix, hmask, List.cons_append]⟩

end Scan

/-! ### Secrets that share a character -/

section Meeting

variable {s t cs : List Char}

/-- In a text, an occurrence of `t` begins inside an occurrence of `s`. -/
def BeginsInside (s t cs : List Char) : Prop :=
  ∃ rest, rest <:+ cs ∧ s <+: rest ∧ ∃ k < s.length, t <+: rest.drop k

/-- In a text, occurrences of two secrets share a character. -/
def MeetIn (s t cs : List Char) : Prop :=
  BeginsInside s t cs ∨ BeginsInside t s cs

/-- Two secrets are entangled if one is a part of the other, or an end of one is a beginning of the
other. -/
def Entangled (s t : List Char) : Prop :=
  (s <:+: t ∨ t <:+: s) ∨ ∃ shared, shared ≠ [] ∧
    (shared <:+ s ∧ shared <+: t ∨ shared <:+ t ∧ shared <+: s)

instance (s t : List Char) : Decidable (Entangled s t) :=
  decidable_of_iff ((s <:+: t ∨ t <:+: s) ∨
      (∃ shared ∈ s.tails, shared ≠ [] ∧ shared <+: t) ∨
      ∃ shared ∈ t.tails, shared ≠ [] ∧ shared <+: s) <| by
    simp only [List.mem_tails, Entangled]
    grind

theorem Entangled.symm (h : Entangled s t) : Entangled t s := by
  rcases h with hpart | ⟨shared, hne, hends⟩
  · exact .inl hpart.symm
  · exact .inr ⟨shared, hne, hends.symm⟩

theorem BeginsInside.entangled (h : BeginsInside s t cs) : Entangled s t := by
  obtain ⟨rest, -, ⟨after, rfl⟩, k, hk, ht⟩ := h
  rw [List.drop_append_of_le_length hk.le] at ht
  have hend : s.drop k <:+ s := List.drop_suffix k s
  rcases List.prefix_or_prefix_of_prefix ht (List.prefix_append (s.drop k) after) with hpart | hover
  · exact .inl (.inr (hpart.isInfix.trans hend.isInfix))
  · have hne : s.drop k ≠ [] := by
      rw [Ne, List.drop_eq_nil_iff]
      omega
    exact .inr ⟨s.drop k, hne, .inl ⟨hend, hover⟩⟩

theorem MeetIn.entangled (h : MeetIn s t cs) : Entangled s t :=
  h.elim BeginsInside.entangled fun h => h.entangled.symm

theorem BeginsInside.mono {ds : List Char} (hsuffix : ds <:+ cs) (h : BeginsInside s t ds) :
    BeginsInside s t cs := by
  obtain ⟨rest, hrest, hinside⟩ := h
  exact ⟨rest, hrest.trans hsuffix, hinside⟩

theorem MeetIn.mono {ds : List Char} (hsuffix : ds <:+ cs) (h : MeetIn s t ds) : MeetIn s t cs :=
  h.imp (BeginsInside.mono hsuffix) (BeginsInside.mono hsuffix)

/-- A replacement lets no occurrences meet that have not met before. -/
theorem BeginsInside.of_maskFrom {secret : List Char} (hs : '*' ∉ s) (hsne : s ≠ []) (ht : '*' ∉ t)
    (h : BeginsInside s t (maskFrom secret 0 cs)) : BeginsInside s t cs := by
  obtain ⟨rest, hrest, hsrest, k, hk, htrest⟩ := h
  rcases suffix_maskFrom hrest with hhead | ⟨before, hbefore, rfl⟩
  · -- the occurrence would begin in a mask
    obtain ⟨a, s, rfl⟩ := List.exists_cons_of_ne_nil hsne
    obtain ⟨after, rfl⟩ := hsrest
    obtain rfl : a = '*' := Option.some.inj hhead
    exact absurd List.mem_cons_self hs
  · -- both occurrences together have no asterisk either, so they were there before
    have hboth : s.take k ++ t <+: maskFrom secret 0 before := by
      have htake : (maskFrom secret 0 before).take k = s.take k := by
        rw [List.prefix_iff_eq_take.mp hsrest, List.take_take, min_eq_left hk.le]
      rw [← List.take_append_drop k (maskFrom secret 0 before), htake]
      exact List.prefix_append_right_inj _ |>.mpr htrest
    have hplain : '*' ∉ s.take k ++ t := by
      rw [List.mem_append, not_or]
      exact ⟨fun hmem => hs (List.mem_of_mem_take hmem), ht⟩
    obtain ⟨after, hafter⟩ := prefix_of_prefix_maskFrom hplain hboth
    refine ⟨before, hbefore, prefix_of_prefix_maskFrom hs hsrest, k, hk, ⟨after, ?_⟩⟩
    have hlength : (s.take k).length = k := by
      rw [List.length_take]
      omega
    rw [← hafter, List.append_assoc, List.drop_left' hlength]

theorem MeetIn.of_maskFrom {secret : List Char} (hs : '*' ∉ s) (hsne : s ≠ []) (ht : '*' ∉ t)
    (htne : t ≠ []) (h : MeetIn s t (maskFrom secret 0 cs)) : MeetIn s t cs :=
  h.imp (BeginsInside.of_maskFrom hs hsne ht) (BeginsInside.of_maskFrom ht htne hs)

/-- An occurrence in which no occurrence of another secret begins is passed over by the replacement of
that secret. -/
theorem maskFrom_append_of_not_beginsInside (h : ¬ BeginsInside s t (s ++ cs)) :
    maskFrom t 0 (s ++ cs) = s ++ maskFrom t 0 cs := by
  have hat : ∀ k < s.length, ¬ t <+: s.drop k ++ cs := by
    intro k hk ht
    refine h ⟨s ++ cs, List.suffix_refl _, List.prefix_append s cs, k, hk, ?_⟩
    rwa [List.drop_append_of_le_length hk.le]
  clear h
  induction s with
  | nil => rfl
  | cons c s ih =>
    have hrest : ∀ k < s.length, ¬ t <+: s.drop k ++ cs :=
      fun k hk => hat (k + 1) (Nat.succ_lt_succ hk)
    have hhere : ¬ t <+: c :: (s ++ cs) := hat 0 (Nat.zero_lt_succ _)
    rw [List.cons_append, maskFrom_of_not_isPrefix hhere, ih hrest, List.cons_append]

/-- Where neither of two secrets occurs at the front, the first character stays. -/
theorem maskFrom_maskFrom_of_not_isPrefix {c : Char} (hs : '*' ∉ s) (hsc : ¬ s <+: c :: cs)
    (htc : ¬ t <+: c :: cs) :
    maskFrom s 0 (maskFrom t 0 (c :: cs)) = c :: maskFrom s 0 (maskFrom t 0 cs) := by
  have hafter : ¬ s <+: maskFrom t 0 (c :: cs) := fun h => hsc (prefix_of_prefix_maskFrom hs h)
  rw [maskFrom_of_not_isPrefix htc] at hafter ⊢
  exact maskFrom_of_not_isPrefix hafter

/-- Where one of two secrets occurs at the front and the other does not begin inside it, there is a mask
in the end, whichever is replaced first. -/
theorem maskFrom_comm_append (hsne : s ≠ []) (ht : '*' ∉ t) (htne : t ≠ [])
    (h : ¬ BeginsInside s t (s ++ cs))
    (hrest : maskFrom s 0 (maskFrom t 0 cs) = maskFrom t 0 (maskFrom s 0 cs)) :
    maskFrom s 0 (maskFrom t 0 (s ++ cs)) = maskFrom t 0 (maskFrom s 0 (s ++ cs)) := by
  have hmask : maskFrom t 0 (mask ++ maskFrom s 0 cs) = mask ++ maskFrom t 0 (maskFrom s 0 cs) :=
    maskFrom_append_mask ht htne [] (maskFrom s 0 cs)
  rw [maskFrom_append_of_not_beginsInside h, maskFrom_append_self hsne, maskFrom_append_self hsne,
    hmask, hrest]

/-- **The replacements of two secrets that do not meet commute.** -/
theorem maskFrom_comm (hs : '*' ∉ s) (hsne : s ≠ []) (ht : '*' ∉ t) (htne : t ≠ [])
    (h : ¬ MeetIn s t cs) :
    maskFrom s 0 (maskFrom t 0 cs) = maskFrom t 0 (maskFrom s 0 cs) := by
  induction hn : cs.length using Nat.strong_induction_on generalizing cs with
  | _ n ih =>
    subst hn
    have hlater (before rest : List Char) (hne : before ≠ []) (hcs : before ++ rest = cs) :
        maskFrom s 0 (maskFrom t 0 rest) = maskFrom t 0 (maskFrom s 0 rest) := by
      have hlength : rest.length < cs.length := by
        have hpos := List.length_pos_iff.mpr hne
        rw [← hcs, List.length_append]
        omega
      exact ih _ hlength (fun hmeet => h (hmeet.mono ⟨before, hcs⟩)) rfl
    by_cases hscs : s <+: cs
    · obtain ⟨rest, rfl⟩ := hscs
      exact maskFrom_comm_append hsne ht htne (fun hin => h (.inl hin)) (hlater s rest hsne rfl)
    by_cases htcs : t <+: cs
    · obtain ⟨rest, rfl⟩ := htcs
      exact (maskFrom_comm_append htne hs hsne (fun hin => h (.inr hin))
        (hlater t rest htne rfl).symm).symm
    rcases cs with _ | ⟨c, cs⟩
    · rfl
    · rw [maskFrom_maskFrom_of_not_isPrefix hs hscs htcs,
        maskFrom_maskFrom_of_not_isPrefix ht htcs hscs, hlater [c] cs (List.cons_ne_nil c []) rfl]

end Meeting

/-! ### All replacements, in any order -/

section Orders

variable {secrets secrets' : List String} {cs ds : List Char}

/-- No secret is empty or has an asterisk in it. -/
def Plain (secrets : List String) : Prop :=
  ∀ secret ∈ secrets, secret ≠ "" ∧ '*' ∉ secret.toList

/-- No occurrence of a secret meets an occurrence of another one in the text. -/
def ApartIn (secrets : List String) (cs : List Char) : Prop :=
  ∀ s ∈ secrets, ∀ t ∈ secrets, s ≠ t → ¬ MeetIn s.toList t.toList cs

theorem Plain.toList_ne_nil (h : Plain secrets) {secret : String} (hsecret : secret ∈ secrets) :
    secret.toList ≠ [] :=
  fun hnil => (h secret hsecret).1 (String.toList_eq_nil_iff.mp hnil)

theorem ApartIn.maskFrom (hplain : Plain secrets) (h : ApartIn secrets cs) (secret : List Char) :
    ApartIn secrets (maskFrom secret 0 cs) :=
  fun s hs t ht hne hmeet => h s hs t ht hne <|
    hmeet.of_maskFrom (hplain s hs).2 (hplain.toList_ne_nil hs) (hplain t ht).2
      (hplain.toList_ne_nil ht)

/-- **Where no two secrets meet they may be replaced in any order.** -/
theorem maskAll_perm (hperm : secrets.Perm secrets') (hplain : Plain secrets)
    (hapart : ApartIn secrets cs) : maskAll secrets cs = maskAll secrets' cs := by
  induction hperm generalizing cs with
  | nil => rfl
  | cons secret _ ih =>
    refine ih (fun s hs => hplain s (List.mem_cons_of_mem _ hs)) ?_
    exact fun s hs t ht => hapart.maskFrom hplain secret.toList s (List.mem_cons_of_mem _ hs) t
      (List.mem_cons_of_mem _ ht)
  | swap s t rest =>
    have hs : s ∈ t :: s :: rest := by simp
    have ht : t ∈ t :: s :: rest := List.mem_cons_self
    have hcomm : maskFrom s.toList 0 (maskFrom t.toList 0 cs)
        = maskFrom t.toList 0 (maskFrom s.toList 0 cs) := by
      by_cases hst : s = t
      · rw [hst]
      · exact maskFrom_comm (hplain s hs).2 (hplain.toList_ne_nil hs) (hplain t ht).2
          (hplain.toList_ne_nil ht) (hapart s hs t ht hst)
    exact congrArg (maskAll rest) hcomm
  | trans hfirst _ ihfirst ihsecond =>
    rw [ihfirst hplain hapart]
    exact ihsecond (fun s hs => hplain s (hfirst.mem_iff.mpr hs))
      (fun s hs t ht => hapart s (hfirst.mem_iff.mpr hs) t (hfirst.mem_iff.mpr ht))

theorem maskAll_append_mask (hplain : Plain secrets) (cs ds : List Char) :
    maskAll secrets (cs ++ (mask ++ ds)) = maskAll secrets cs ++ (mask ++ maskAll secrets ds) := by
  induction secrets generalizing cs ds with
  | nil => rfl
  | cons secret secrets ih =>
    have hne := hplain.toList_ne_nil (List.mem_cons_self (a := secret))
    obtain ⟨hsecret, hothers⟩ := List.forall_mem_cons.mp hplain
    simp only [maskAll, List.foldl_cons, maskFrom_append_mask hsecret.2 hne]
    exact ih hothers _ _

theorem maskFrom_eq_nil_iff {secret : List Char} (hne : secret ≠ []) :
    maskFrom secret 0 cs = [] ↔ cs = [] := by
  induction cs using scan_induction hne with
  | nil => simp [maskFrom]
  | found cs ih => simp [maskFrom_append_self hne, mask, hne]
  | other c cs hprefix ih => simp [maskFrom_of_not_isPrefix hprefix]

/-- A replacement does not make a text out of none, or none out of a text. -/
theorem maskAll_eq_nil_iff (hplain : Plain secrets) : maskAll secrets cs = [] ↔ cs = [] := by
  induction secrets generalizing cs with
  | nil => rfl
  | cons secret secrets ih =>
    have hne := hplain.toList_ne_nil (List.mem_cons_self (a := secret))
    exact (ih (List.forall_mem_cons.mp hplain).2).trans (maskFrom_eq_nil_iff hne)

/-! ### Orders of registration -/

variable {calls calls' : List String} {s t text : String}

/-- Calls that make just these secrets known, in an order of their own and perhaps repeatedly. -/
def Registers (calls secrets : List String) : Prop :=
  ∀ secret, secret ∈ calls ↔ secret ∈ secrets

/-- Any secret may be the first. -/
theorem registers_cons (hs : s ∈ secrets) : Registers (s :: secrets) secrets := fun t => by
  simp only [List.mem_cons, or_iff_right_iff_imp]
  rintro rfl
  exact hs

theorem nodup_secrets_registerAll {r : Redactor} (h : r.secrets.Nodup) (calls : List String) :
    (r.registerAll calls).secrets.Nodup := by
  induction calls generalizing r with
  | nil => exact h
  | cons secret calls ih =>
    refine ih ?_
    rw [register]
    split
    · exact h
    · rename_i hnew
      have hfresh : secret ∉ r.secrets := fun hmem => hnew (by simp [contains_iff.mpr hmem])
      exact List.nodup_append_comm.mp (List.nodup_cons.mpr ⟨hfresh, h⟩)

theorem secrets_prefix_registerAll (r : Redactor) (calls : List String) :
    r.secrets <+: (r.registerAll calls).secrets := by
  induction calls generalizing r with
  | nil => exact List.prefix_refl _
  | cons secret calls ih => exact (secrets_prefix_register r secret).trans (ih (r.register secret))

theorem mem_secrets_registerAll_iff (hplain : Plain secrets) (hcalls : Registers calls secrets) :
    s ∈ (empty.registerAll calls).secrets ↔ s ∈ secrets := by
  rw [← contains_iff, contains_registerAll_iff, hcalls]
  constructor
  · rintro (h | h)
    · simp [contains_iff, empty] at h
    · exact h.1
  · exact fun h => .inr ⟨h, (hplain s h).1⟩

/-- **In a text where no two secrets meet** it does not matter in which order they were registered. -/
theorem redact_eq_of_apartIn (hplain : Plain secrets) (hapart : ApartIn secrets text.toList)
    (hcalls : Registers calls secrets) (hcalls' : Registers calls' secrets) :
    (empty.registerAll calls).redact text = (empty.registerAll calls').redact text := by
  have hnodup (calls : List String) : (empty.registerAll calls).secrets.Nodup :=
    nodup_secrets_registerAll List.nodup_nil calls
  have hmem {s : String} := mem_secrets_registerAll_iff (s := s) hplain hcalls
  have hmem' {s : String} := mem_secrets_registerAll_iff (s := s) hplain hcalls'
  have hperm : (empty.registerAll calls).secrets.Perm (empty.registerAll calls').secrets :=
    (List.perm_ext_iff_of_nodup (hnodup calls) (hnodup calls')).mpr
      fun s => hmem.trans hmem'.symm
  have hlist : ((empty.registerAll calls).redact text).toList
      = ((empty.registerAll calls').redact text).toList := by
    rw [toList_redact, toList_redact]
    exact maskAll_perm hperm (fun s hs => hplain s (hmem.mp hs))
      (fun s hs t ht => hapart s (hmem.mp hs) t (hmem.mp ht))
  exact String.toList_injective hlist

/-- The secret that is registered first is replaced first, and the others after it. -/
theorem exists_toList_redact_cons (hplain : Plain secrets) (hs : s ∈ secrets) (text : String) :
    ∃ rest ⊆ secrets, ((empty.registerAll (s :: secrets)).redact text).toList
      = maskAll rest (maskFrom s.toList 0 text.toList) := by
  have hfirst : (empty.register s).secrets = [s] := by
    simp [register, empty, contains, (hplain s hs).1]
  have hkept : [s] <+: (empty.registerAll (s :: secrets)).secrets := by
    rw [← hfirst]
    exact secrets_prefix_registerAll (empty.register s) secrets
  obtain ⟨rest, hrest⟩ := hkept
  refine ⟨rest, fun t ht => ?_, ?_⟩
  · exact (mem_secrets_registerAll_iff hplain (registers_cons hs)).mp
      (hrest ▸ List.mem_append_right [s] ht)
  · rw [toList_redact, ← hrest]
    rfl

/-- If a secret is registered before those that are parts of it, nothing of it is left. -/
theorem redact_self_of_first (hplain : Plain secrets) (ht : t ∈ secrets) :
    ((empty.registerAll (t :: secrets)).redact t).toList = mask := by
  obtain ⟨rest, hrest, heq⟩ := exists_toList_redact_cons hplain ht t
  have hplain' : Plain rest := fun s hs => hplain s (hrest hs)
  have hself : maskFrom t.toList 0 t.toList = mask := by
    simpa [maskFrom] using maskFrom_append_self (hplain.toList_ne_nil ht) []
  rw [heq, hself]
  simpa [(maskAll_eq_nil_iff hplain').mpr rfl] using maskAll_append_mask hplain' [] []

/-- If a part of a secret is registered before it, there is more in its place than a mask. -/
theorem redact_ne_of_part_first (hplain : Plain secrets) (hs : s ∈ secrets)
    (hpart : s.toList <:+: t.toList) (hne : s ≠ t) :
    ((empty.registerAll (s :: secrets)).redact t).toList ≠ mask := by
  obtain ⟨rest, hrest, heq⟩ := exists_toList_redact_cons hplain hs t
  have hplain' : Plain rest := fun s hs => hplain s (hrest hs)
  have hsne := hplain.toList_ne_nil hs
  obtain ⟨before, after, hsplit, hmask⟩ := exists_maskFrom_of_isInfix hsne hpart
  rw [heq, hmask, maskAll_append_mask hplain']
  intro h
  have hsizes := congrArg List.length h
  simp only [List.length_append] at hsizes
  obtain ⟨hbefore, hafter⟩ : (maskAll rest before).length = 0 ∧
      (maskAll rest (maskFrom s.toList 0 after)).length = 0 := by omega
  rw [List.length_eq_zero_iff, maskAll_eq_nil_iff hplain'] at hbefore hafter
  rw [maskFrom_eq_nil_iff hsne] at hafter
  refine hne (String.toList_injective ?_)
  rw [hsplit, hbefore, hafter, List.nil_append, List.append_nil]

/-- If an end of a secret is the beginning of another one, and no secret is a part of another one, then
the order shows in the text that both secrets make up together. -/
theorem exists_redact_ne_of_shared (hplain : Plain secrets) (hs : s ∈ secrets) (ht : t ∈ secrets)
    (hne : s ≠ t) (hparts : ∀ s ∈ secrets, ∀ t ∈ secrets, s ≠ t → ¬ s.toList <:+: t.toList)
    {shared : List Char} (hshared : shared ≠ []) (hend : shared <:+ s.toList)
    (hbegin : shared <+: t.toList) :
    ∃ text, (empty.registerAll (s :: secrets)).redact text
      ≠ (empty.registerAll (t :: secrets)).redact text := by
  obtain ⟨start, hstart⟩ := hend
  obtain ⟨after, hafter⟩ := hbegin
  refine ⟨String.ofList (s.toList ++ after), fun h => ?_⟩
  obtain ⟨rest, hrest, heq⟩ := exists_toList_redact_cons hplain hs (.ofList (s.toList ++ after))
  obtain ⟨rest', hrest', heq'⟩ := exists_toList_redact_cons hplain ht (.ofList (s.toList ++ after))
  have hplainRest : Plain rest := fun s hs => hplain s (hrest hs)
  have hplainRest' : Plain rest' := fun s hs => hplain s (hrest' hs)
  rw [String.toList_ofList] at heq heq'
  -- with `s` first, the text begins with a mask
  have hmasked : maskAll rest (maskFrom s.toList 0 (s.toList ++ after))
      = mask ++ maskAll rest (maskFrom s.toList 0 after) := by
    rw [maskFrom_append_self (hplain.toList_ne_nil hs)]
    simpa [(maskAll_eq_nil_iff hplainRest).mpr rfl] using maskAll_append_mask hplainRest [] _
  -- with `t` first, it begins with what is before `t`, and this is too short to have a secret in it
  have hinside : t.toList <:+: s.toList ++ after :=
    ⟨start, [], by rw [← hstart, ← hafter]; simp⟩
  obtain ⟨before, behind, hsplit, hmask⟩ :=
    exists_maskFrom_of_isInfix (hplain.toList_ne_nil ht) hinside
  have hshort : before.length < s.toList.length := by
    have hpos := List.length_pos_iff.mpr hshared
    have hsizes := congrArg List.length hsplit
    have hsize := congrArg List.length hafter
    simp only [List.length_append] at hsizes hsize
    omega
  have hbefore : before <+: s.toList :=
    List.prefix_of_prefix_length_le (hsplit ▸ List.prefix_append before _)
      (List.prefix_append s.toList after) hshort.le
  have hkept : maskAll rest' before = before := by
    refine maskAll_of_not_isInfix fun r hr hin => ?_
    have hrs : r = s := by
      by_contra hrs
      exact hparts r (hrest' hr) s hs hrs (hin.trans hbefore.isInfix)
    exact absurd (hrs ▸ hin).length_le (Nat.not_le_of_lt hshort)
  rcases before with _ | ⟨c, before⟩
  · -- `t` would begin where `s` does
    have hboth : t.toList <+: s.toList ++ after := ⟨behind, hsplit.symm⟩
    rcases List.prefix_or_prefix_of_prefix hboth (List.prefix_append s.toList after) with hts | hst
    · exact hparts t ht s hs hne.symm hts.isInfix
    · exact hparts s hs t ht hne hst.isInfix
  · have hlist := congrArg String.toList h
    rw [heq, heq', hmasked, hmask, maskAll_append_mask hplainRest', hkept] at hlist
    obtain rfl : '*' = c := (List.cons.inj hlist).1
    exact (hplain s hs).2 (hbefore.subset List.mem_cons_self)

/-- **Entangled secrets show their order** in some text. -/
theorem exists_redact_ne_of_entangled (hplain : Plain secrets) (hs : s ∈ secrets)
    (ht : t ∈ secrets) (hne : s ≠ t) (h : Entangled s.toList t.toList) :
    ∃ s' ∈ secrets, ∃ t' ∈ secrets, ∃ text, (empty.registerAll (s' :: secrets)).redact text
      ≠ (empty.registerAll (t' :: secrets)).redact text := by
  by_cases hparts : ∀ s ∈ secrets, ∀ t ∈ secrets, s ≠ t → ¬ s.toList <:+: t.toList
  · rcases h with (hst | hts) | ⟨shared, hshared, ⟨hend, hbegin⟩ | ⟨hend, hbegin⟩⟩
    · exact absurd hst (hparts s hs t ht hne)
    · exact absurd hts (hparts t ht s hs hne.symm)
    · exact ⟨s, hs, t, ht,
        exists_redact_ne_of_shared hplain hs ht hne hparts hshared hend hbegin⟩
    · exact ⟨t, ht, s, hs,
        exists_redact_ne_of_shared hplain ht hs hne.symm hparts hshared hend hbegin⟩
  · push Not at hparts
    obtain ⟨s, hs, t, ht, hne, hpart⟩ := hparts
    refine ⟨s, hs, t, ht, t, fun heq => ?_⟩
    apply redact_ne_of_part_first hplain hs hpart hne
    rw [heq, redact_self_of_first hplain ht]

/-- **When the order of registration does not show**, for secrets none of which is empty or has an
asterisk. All orders give the same for a text in which no occurrences of two secrets share a character.
They give the same for all texts if and only if no secret is a part of another one, and no end of a secret
is the beginning of another one. And a secret with another one as a part is masked without a remainder if
it is registered first, but not if the part is. -/
theorem redact_order_iff (hplain : Plain secrets) :
    (∀ text, ApartIn secrets text.toList → ∀ calls calls', Registers calls secrets →
      Registers calls' secrets →
        (empty.registerAll calls).redact text = (empty.registerAll calls').redact text) ∧
    ((∀ calls calls', Registers calls secrets → Registers calls' secrets → ∀ text,
        (empty.registerAll calls).redact text = (empty.registerAll calls').redact text) ↔
      ∀ s ∈ secrets, ∀ t ∈ secrets, s ≠ t → ¬ Entangled s.toList t.toList) ∧
    ∀ s ∈ secrets, ∀ t ∈ secrets, s ≠ t → s.toList <:+: t.toList →
      ((empty.registerAll (t :: secrets)).redact t).toList = mask ∧
        ((empty.registerAll (s :: secrets)).redact t).toList ≠ mask := by
  refine ⟨fun text hapart calls calls' => redact_eq_of_apartIn hplain hapart, ⟨?_, ?_⟩, ?_⟩
  · intro h s hs t ht hne hentangled
    obtain ⟨s, hs, t, ht, text, hdiffer⟩ :=
      exists_redact_ne_of_entangled hplain hs ht hne hentangled
    exact hdiffer (h _ _ (registers_cons hs) (registers_cons ht) text)
  · intro h calls calls' hcalls hcalls' text
    exact redact_eq_of_apartIn hplain (fun s hs t ht hne hmeet => h s hs t ht hne hmeet.entangled)
      hcalls hcalls'
  · intro s hs t ht hne hpart
    exact ⟨redact_self_of_first hplain ht, redact_ne_of_part_first hplain hs hpart hne⟩

/-- Three secrets apart from each other, in another order and with a repetition; and a secret with a part
of it, whose order shows in the secret itself. -/
theorem redact_order_iff_apart_and_part :
    let apart := ["hunter2", "token", "pass"]
    let part := ["ab", "abc"]
    (Plain apart ∧ Plain part) ∧
    (∀ text, (empty.registerAll ["hunter2", "token", "pass"]).redact text
      = (empty.registerAll ["pass", "token", "pass", "hunter2"]).redact text) ∧
    Entangled "ab".toList "abc".toList ∧
    ¬ ∀ calls calls', Registers calls part → Registers calls' part → ∀ text,
        (empty.registerAll calls).redact text = (empty.registerAll calls').redact text := by
  intro apart part
  have hapart : Plain apart := by unfold Plain; decide
  have hpart : Plain part := by unfold Plain; decide
  have hentangled : Entangled "ab".toList "abc".toList := by decide
  refine ⟨⟨hapart, hpart⟩, ?_, hentangled, fun h => ?_⟩
  · have hall := (redact_order_iff hapart).2.1.mpr (by decide)
    exact hall _ _ (fun s => by simp [apart]) (fun s => by simp [apart]; tauto)
  · exact (redact_order_iff hpart).2.1.mp h "ab" (by decide) "abc" (by decide) (by decide) hentangled

/-- Of two secrets the one that is registered first leaves a part of the other to be read. -/
example :
    (empty.registerAll ["ab", "abc"]).redact "abc" = "****c" ∧
      (empty.registerAll ["abc", "ab"]).redact "abc" = "****" := by
  decide

end Orders

end Redactor

end PipelineConfig
