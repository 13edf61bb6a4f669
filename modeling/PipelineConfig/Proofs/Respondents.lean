import Mathlib.Data.List.Nodup
import Mathlib.Data.List.Perm.Subperm
import PipelineConfig.Secret.Basic

/-!
# Those who reply to lookups

What a lookup does depends on the replies to its questions, and those come from outside: from a
key-value store, a service for tokens, a disk. All of them together are a
`PipelineConfig.Respondent`, which replies out of a state of its own and may do so in any way. It
may fail, contradict itself, or let the cancellation be fired at any question.

Only of the files that secrets are put into is anything ever expected. A file that was written has
a path (`PipelineConfig.Respondent.NamesFiles`), and it is a new file, which stays until its
directory is removed (`PipelineConfig.Respondent.KeepsFiles`). Files in memory are kept like that
(`PipelineConfig.Respondent.ofShelf_keepsFiles`).
-/

namespace PipelineConfig

/-- Someone who replies to the questions of lookups, out of a state. -/
abbrev Respondent (σ : Type) :=
  (q : SecretQuestion) → σ → SecretReply q × σ

namespace Respondent

variable {σ : Type}

/-- The reply to the wish for a new file. -/
def writing (reply : Respondent σ) (directory parameter content : String) (w : σ) :
    Except IoFailure String × σ :=
  reply (.file (.write directory parameter content)) w

/-- Every file that was written has a path. -/
def NamesFiles (reply : Respondent σ) : Prop :=
  ∀ directory parameter content w path,
    (reply.writing directory parameter content w).1 = .ok path → path ≠ ""

/-- Every file that was written is a new one, and it is there until a directory is removed. -/
structure KeepsFiles (reply : Respondent σ) (files : σ → List String) : Prop where
  named : reply.NamesFiles
  fresh : ∀ directory parameter content w path,
    (reply.writing directory parameter content w).1 = .ok path → path ∉ files w
  written : ∀ directory parameter content w path,
    (reply.writing directory parameter content w).1 = .ok path →
      path ∈ files (reply.writing directory parameter content w).2
  kept : ∀ q w, (∀ directory, q ≠ .file (.removeDirectory directory)) →
    files w ⊆ files (reply q w).2

end Respondent

/-! ### New files -/

/-- Files that came in addition to those that were there. -/
structure Added (old added new : List String) : Prop where
  old_subset : old ⊆ new
  added_subset : added ⊆ new
  disjoint : List.Disjoint old added
  nodup : added.Nodup

theorem added_nil {old new : List String} (h : old ⊆ new) : Added old [] new :=
  ⟨h, List.nil_subset _, List.disjoint_nil_right _, List.nodup_nil⟩

theorem Added.trans {x y z added more : List String} (h : Added x added y) (h' : Added y more z) :
    Added x (added ++ more) z where
  old_subset := List.Subset.trans h.old_subset h'.old_subset
  added_subset := List.append_subset.mpr
    ⟨List.Subset.trans h.added_subset h'.old_subset, h'.added_subset⟩
  disjoint := by
    intro file hold hadded
    rcases List.mem_append.mp hadded with hfirst | hsecond
    · exact h.disjoint hold hfirst
    · exact h'.disjoint (h.old_subset hold) hsecond
  nodup := List.Nodup.append h.nodup h'.nodup fun _ hfirst hsecond =>
    h'.disjoint (h.added_subset hfirst) hsecond

/-- A file that was written comes in addition to the others. -/
theorem Respondent.KeepsFiles.added {σ : Type} {reply : Respondent σ} {files : σ → List String}
    (h : reply.KeepsFiles files) {directory parameter content path : String} {w : σ}
    (hpath : (reply.writing directory parameter content w).1 = .ok path) :
    Added (files w) [path] (files (reply.writing directory parameter content w).2) where
  old_subset := h.kept _ w (by simp)
  added_subset := by simpa using h.written _ _ _ _ _ hpath
  disjoint := by simpa using h.fresh _ _ _ _ _ hpath
  nodup := List.nodup_singleton path

/-! ### Files in memory -/

/-- Of more distinct things than there are in a list, some are not in it. -/
theorem exists_mem_not_mem_of_nodup {α : Type} {xs ys : List α} (hxs : xs.Nodup)
    (hlength : ys.length < xs.length) : ∃ x ∈ xs, x ∉ ys := by
  by_contra hnone
  have hsub : xs ⊆ ys := by
    intro x hx
    by_contra hy
    exact hnone ⟨x, hx, hy⟩
  exact absurd (hxs.subperm hsub).length_le (Nat.not_le_of_lt hlength)

namespace SecretShelf

/-- The paths of all files. -/
def paths (s : SecretShelf) : List String :=
  s.files.map Prod.fst

/-- The paths that differ in a number at their ends. -/
def numbered (path : String) (count : Nat) : List String :=
  (List.range count).map (fun n => path ++ "-" ++ toString n)

theorem nodup_numbered (path : String) (count : Nat) : (numbered path count).Nodup := by
  refine List.Nodup.map ?_ List.nodup_range
  intro n n' h
  have hrepr : n.repr = n'.repr := (String.append_right_inj (path ++ "-")).mp h
  -- the digits of a number tell it
  have hdigits : Nat.toDigits 10 n = Nat.toDigits 10 n' := by
    rw [← Nat.toList_repr, ← Nat.toList_repr, hrepr]
  rw [← Nat.ofDigitChars_ten_toDigits (n := n), hdigits, Nat.ofDigitChars_ten_toDigits]

variable (s : SecretShelf)

theorem any_path_eq (path : String) :
    s.files.any (fun f => f.1 = path) = decide (path ∈ s.paths) := by
  rw [Bool.eq_iff_iff, List.any_eq_true, decide_eq_true_iff, paths, List.mem_map]
  simp only [decide_eq_true_eq]

/-- A free path is the one that is wished for, or it has a number behind it. -/
theorem freePath_eq (path : String) :
    s.freePath path = if path ∈ s.paths then
      ((numbered path (s.files.length + 1)).find? (fun p => p ∉ s.paths)).getD path else path := by
  simp only [freePath, any_path_eq, Bool.not_eq_true', decide_eq_false_iff_not, ite_not, numbered,
    decide_not]

/-- **A free path is free**: there are more numbers to try than files. -/
theorem freePath_not_mem (path : String) : s.freePath path ∉ s.paths := by
  rw [freePath_eq]
  split
  · have hlength : s.paths.length < (numbered path (s.files.length + 1)).length := by
      simp [paths, numbered]
    obtain ⟨p, hp, hfree⟩ := exists_mem_not_mem_of_nodup (nodup_numbered path _) hlength
    rcases hfound : (numbered path (s.files.length + 1)).find? (fun p => p ∉ s.paths) with _ | q
    · exact absurd hfree (by simpa using List.find?_eq_none.mp hfound p hp)
    · simpa using List.find?_some hfound
  · assumption

theorem freePath_ne_empty {path : String} (hpath : path ≠ "") : s.freePath path ≠ "" := by
  rw [freePath_eq]
  split
  · rcases hfound : (numbered path (s.files.length + 1)).find? (fun p => p ∉ s.paths) with _ | q
    · exact hpath
    · obtain ⟨n, -, rfl⟩ := List.mem_map.mp (List.mem_of_find?_eq_some hfound)
      simp [hpath]
  · exact hpath

/-- A wish for a new file fails and changes nothing, or it adds a file at a free path. -/
theorem reply_write (directory parameter content : String) :
    (∃ e, s.reply (.write directory parameter content) = (Except.error e, s)) ∨
      ∃ path t, s.reply (.write directory parameter content) = (Except.ok path, t) ∧
        path = s.freePath (directory ++ "/" ++ parameter) ∧ t.paths = s.paths ++ [path] := by
  simp only [reply]
  split
  · exact Or.inl ⟨_, rfl⟩
  · split
    · exact Or.inl ⟨_, rfl⟩
    · exact Or.inr ⟨_, _, rfl, rfl, by simp [paths]⟩

/-- What becomes of a wish for a new file that is granted. -/
theorem reply_write_ok {directory parameter content path : String}
    (h : (s.reply (.write directory parameter content)).1 = Except.ok path) :
    path = s.freePath (directory ++ "/" ++ parameter) ∧
      (s.reply (.write directory parameter content)).2.paths = s.paths ++ [path] := by
  rcases s.reply_write directory parameter content with ⟨e, he⟩ | ⟨path', t, ht, hpath, hpaths⟩
  · rw [he] at h
    cases h
  · rw [ht] at h ⊢
    obtain rfl := Except.ok.inj h
    exact ⟨hpath, hpaths⟩

end SecretShelf

namespace Respondent

/-- Providers whose answers are fixed, and files in memory. -/
def ofShelf (store : String → Answer (Option SecretData))
    (issuer : List String → Answer (List (String × String))) : Respondent SecretShelf
  | .read path, s => (store path, s)
  | .issue systems, s => (issuer systems, s)
  | .file question, s => s.reply question

variable (store : String → Answer (Option SecretData))
  (issuer : List String → Answer (List (String × String)))

/-- Files in memory are new when they are written, and they are kept. -/
theorem ofShelf_keepsFiles : (ofShelf store issuer).KeepsFiles SecretShelf.paths where
  named := by
    intro directory parameter content s path h
    obtain ⟨rfl, -⟩ := s.reply_write_ok h
    exact s.freePath_ne_empty (by simp)
  fresh := by
    intro directory parameter content s path h
    obtain ⟨rfl, -⟩ := s.reply_write_ok h
    exact s.freePath_not_mem _
  written := by
    intro directory parameter content s path h
    obtain ⟨-, hpaths⟩ := s.reply_write_ok h
    change path ∈ (s.reply (.write directory parameter content)).2.paths
    rw [hpaths]
    exact List.mem_append_right _ (List.mem_singleton.mpr rfl)
  kept := by
    intro q s hq
    cases q with
    | read path => exact List.Subset.refl _
    | issue systems => exact List.Subset.refl _
    | file question =>
      cases question with
      | makeDirectory => exact List.Subset.refl _
      | removeDirectory directory => exact absurd rfl (hq directory)
      | write directory parameter content =>
        change s.paths ⊆ (s.reply (.write directory parameter content)).2.paths
        rcases s.reply_write directory parameter content with ⟨e, he⟩ | ⟨path, t, ht, -, hpaths⟩
        · rw [he]
          exact List.Subset.refl _
        · rw [ht, hpaths]
          exact List.subset_append_left _ _

end Respondent

end PipelineConfig
