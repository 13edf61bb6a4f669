import PipelineConfig.CommandLine.Program
import PipelineConfig.Proofs.Calls
import PipelineConfig.Proofs.Segments

/-!
# Reading the file of credentials

The credentials of a step are written to a file, a line for each variable: its name, an equality
sign and its value. Whoever reads the file goes by the same rules. A line ends at a line feed, and
the name ends at the first equality sign of the line.

Nothing in the file is escaped. So what is read is what was written if and only if no name has
either character in it and no value has a line feed
(`PipelineConfig.CommandLine.Program.credentialsFile_lossless_iff`). A value with a line feed, as a
key or a certificate has it, is cut off there, and the rest of it is read as another variable or as
none at all.

Texts are split piece by piece, so the lines of the file are those of its entries, and each entry
has at least one. They are as many as the entries only if no entry has more than one, and this is
how it can be told from what is read what was written.
-/

namespace PipelineConfig

/-! ### As many pieces as things -/

variable {α β : Type} {f : α → List β}

theorem length_le_length_flatMap (hf : ∀ a, f a ≠ []) (xs : List α) :
    xs.length ≤ (xs.flatMap f).length := by
  induction xs with
  | nil => simp
  | cons x xs ih =>
    have hx := List.length_pos_iff.mpr (hf x)
    rw [List.flatMap_cons, List.length_append, List.length_cons]
    omega

/-- If each of some things gives pieces, then they are a piece each if each gives just its own. -/
theorem flatMap_eq_map_iff (g : α → β) (hf : ∀ a, f a ≠ []) (xs : List α) :
    xs.flatMap f = xs.map g ↔ ∀ x ∈ xs, f x = [g x] := by
  induction xs with
  | nil => simp
  | cons x xs ih =>
    rw [List.flatMap_cons, List.map_cons, List.forall_mem_cons]
    constructor
    · intro h
      -- the others have a piece each at least, which leaves one for this
      have hsize : (f x).length = 1 := by
        have hx := List.length_pos_iff.mpr (hf x)
        have hrest := length_le_length_flatMap hf xs
        have hall := congrArg List.length h
        simp only [List.length_append, List.length_cons, List.length_map] at hall
        omega
      obtain ⟨b, hb⟩ := List.length_eq_one_iff.mp hsize
      rw [hb, List.singleton_append, List.cons.injEq] at h
      exact ⟨by rw [hb, h.1], ih.mp h.2⟩
    · rintro ⟨hx, hxs⟩
      rw [hx, ih.mpr hxs, List.singleton_append]

/-! ### The file -/

namespace CommandLine

/-- The content of a file of credentials. -/
def credentialsText (found : List CredentialExport) : String :=
  String.join (found.map CredentialExport.line)

/-- The name and the value in a line, which is cut at the first equality sign, if it has one. -/
def cutLine (line : List Char) : Option (String × String) :=
  (Text.cut? '=' line).map (fun p => (String.ofList p.1, String.ofList p.2))

/-- What is read from a file of credentials, from one line after the other. What comes behind the
last line feed is no line. -/
def readCredentials (content : String) : List (Option (String × String)) :=
  (Text.splitChars '\n' content.toList).dropLast.map cutLine

/-- The characters of an entry, without the end of its line. -/
def entryChars (e : CredentialExport) : List Char :=
  e.name.toList ++ '=' :: e.value.toList

theorem toList_line (e : CredentialExport) : e.line.toList = entryChars e ++ ['\n'] := by
  simp [CredentialExport.line, entryChars]

/-- The lines of the file are those of its entries, in order. -/
theorem lines_credentialsText (found : List CredentialExport) :
    Text.splitChars '\n' (credentialsText found).toList
      = found.flatMap (fun e => Text.splitChars '\n' (entryChars e)) ++ [[]] := by
  induction found with
  | nil => rfl
  | cons e rest ih =>
    have htext : (credentialsText (e :: rest)).toList
        = entryChars e ++ '\n' :: (credentialsText rest).toList := by
      simp [credentialsText, toList_line]
    rw [htext, Text.splitChars_eq_splitOn, List.splitOn_append_cons_self,
      ← Text.splitChars_eq_splitOn, ← Text.splitChars_eq_splitOn, ih, List.flatMap_cons,
      List.append_assoc]

/-- An entry is read as the one variable that it is written for if and only if its line does not end
before the value does, and its name does not end before the equality sign. -/
theorem cutLines_entry_eq_iff (e : CredentialExport) :
    (Text.splitChars '\n' (entryChars e)).map cutLine = [some (e.name, e.value)] ↔
      '=' ∉ e.name.toList ∧ '\n' ∉ e.name.toList ∧ '\n' ∉ e.value.toList := by
  have hlines : '\n' ∉ entryChars e ↔ '\n' ∉ e.name.toList ∧ '\n' ∉ e.value.toList := by
    simp [entryChars]
  have hcut : cutLine (entryChars e) = some (e.name, e.value) ↔ '=' ∉ e.name.toList := by
    rw [← Text.cut?_append_cons_eq_some_iff '=' e.name.toList e.value.toList, cutLine, entryChars,
      Option.map_eq_some_iff]
    constructor
    · rintro ⟨⟨name, value⟩, hcut, htexts⟩
      obtain ⟨hname, hvalue⟩ := Prod.mk.inj htexts
      simpa [← hname, ← hvalue] using hcut
    · intro hcut
      exact ⟨_, hcut, by simp⟩
  rw [List.map_eq_singleton_iff]
  constructor
  · rintro ⟨line, hline, hread⟩
    obtain ⟨hnone, rfl⟩ := (Text.splitChars_eq_singleton_iff '\n').mp hline
    exact ⟨hcut.mp hread, hlines.mp hnone⟩
  · rintro ⟨hname, hnone⟩
    exact ⟨_, (Text.splitChars_eq_singleton_iff '\n').mpr ⟨hlines.mpr hnone, rfl⟩, hcut.mpr hname⟩

/-- **What is read is what was written** if and only if no name has an equality sign or a line feed
in it, and no value a line feed. -/
theorem readCredentials_eq_iff (found : List CredentialExport) :
    readCredentials (credentialsText found) = found.map (fun e => some (e.name, e.value)) ↔
      ∀ e ∈ found, '=' ∉ e.name.toList ∧ '\n' ∉ e.name.toList ∧ '\n' ∉ e.value.toList := by
  have hnonempty : ∀ e, (Text.splitChars '\n' (entryChars e)).map cutLine ≠ [] := by
    intro e
    rw [Text.splitChars_eq_splitOn, Ne, List.map_eq_nil_iff]
    exact List.splitOn_ne_nil _ _
  rw [readCredentials, lines_credentialsText, List.dropLast_concat, List.map_flatMap,
    flatMap_eq_map_iff _ hnonempty]
  simp only [cutLines_entry_eq_iff]

namespace Program

/-- What is asked for credentials to be delivered to a file is that it be written, and nothing
else. -/
theorem asked_deliverCredentials {σ : Type}
    (reply : (q : ProgramQuestion) → σ → ProgramReply q × σ) (path : String)
    (found : List CredentialExport) (t : Transcript) (w : σ) :
    ((ExceptT.run (deliverCredentials (some path) found)).run t).asked reply w
      = [(.write path (credentialsText found), w)] := by
  refine congrArg ((ProgramQuestion.write path (credentialsText found), w) :: ·) ?_
  generalize (reply (.write path (String.join (found.map CredentialExport.line))) w).1 = written
  cases written with
  | error failure => rfl
  | ok _ => rfl

/-- **The file of credentials is lossless** if and only if no name has an equality sign or a line
feed in it, and no value has a line feed. Whoever replies, the only thing that is asked for is that
the file be written with this content. -/
theorem credentialsFile_lossless_iff {σ : Type}
    (reply : (q : ProgramQuestion) → σ → ProgramReply q × σ) (path : String)
    (found : List CredentialExport) (t : Transcript) (w : σ) :
    ∃ content,
      ((ExceptT.run (deliverCredentials (some path) found)).run t).asked reply w
        = [(.write path content, w)] ∧
      (readCredentials content = found.map (fun e => some (e.name, e.value)) ↔
        ∀ e ∈ found, '=' ∉ e.name.toList ∧ '\n' ∉ e.name.toList ∧ '\n' ∉ e.value.toList) :=
  ⟨credentialsText found, asked_deliverCredentials reply path found t w, readCredentials_eq_iff found⟩

/-- A value with a line feed is read as another variable, too. -/
theorem readCredentials_line_feed :
    readCredentials (credentialsText [⟨"PIPER_VAULTCREDENTIAL_KEY", "line 1\nPATH=line 2"⟩])
      = [some ("PIPER_VAULTCREDENTIAL_KEY", "line 1"), some ("PATH", "line 2")] := by
  decide +kernel

end Program

end CommandLine

end PipelineConfig
