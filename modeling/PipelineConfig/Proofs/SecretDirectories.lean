import PipelineConfig.CommandLine.Program
import PipelineConfig.Proofs.Keeping

/-!
# What becomes of the directories of secret files

Secret files are in a directory that is made for them, and while the parameters are filled the
lookup has it in its hands. Then the directory is left to whoever uses the configuration. But a
command goes on from there: it reads the credentials, it writes files, and all of that may fail.

To tell what is left of the directories, a respondent keeps account of them
(`PipelineConfig.CommandLine.ProgramRespondent.watching`): which ones were made, and which of them
have not been removed. Most parts of the program leave the account alone
(`PipelineConfig.CommandLine.Program.Steady`). For lookups it is a matter of what they keep
(`PipelineConfig.Lookup.Keeps`): filling the parameters keeps on the account what the lookup has in
its hands (`PipelineConfig.Secrets.keeps_resolve`), and reading credentials keeps all of it
(`PipelineConfig.Credentials.keeps_exports`).

So a command that fails leaves nothing behind if it fails before the directory is out of its hands,
and only then (`PipelineConfig.CommandLine.Program.getConfig_left_eq_nil_iff`). When the credentials
cannot be read, or the credentials or the configuration cannot be written, the directory stays, and
there is no configuration that points into it.
-/

namespace PipelineConfig

namespace Dialog

variable {Q Q' σ : Type} {R : Q → Type} {R' : Q' → Type} {α : Type}

/-- What no reply changes, no dialog changes. -/
theorem runWith_keeps (reply : (q : Q) → σ → R q × σ) {I : σ → Prop}
    (hreply : ∀ q w, I w → I (reply q w).2) (d : Dialog Q R α) {w : σ} (hw : I w) :
    I (d.runWith reply w).2 := by
  induction d generalizing w with
  | outcome a => exact hw
  | ask q next ih => exact ih _ (hreply q w hw)

/-- A dialog is translated, or else whoever replies to it translates each question. -/
theorem runWith_translate (f : (q : Q) → Dialog Q' R' (R q)) (reply : (q : Q') → σ → R' q × σ)
    (d : Dialog Q R α) (w : σ) :
    (d.translate f).runWith reply w = d.runWith (fun q w => (f q).runWith reply w) w := by
  induction d generalizing w with
  | outcome a => rfl
  | ask q next ih =>
    rw [translate, runWith_bind, ih]
    rfl

end Dialog

/-! ### Accounts of directories -/

namespace CommandLine

/-- Someone who replies to the questions of the program, out of a state. -/
abbrev ProgramRespondent (σ : Type) :=
  (q : ProgramQuestion) → σ → ProgramReply q × σ

/-- The directories that were made for secret files, and those of them that have not been
removed. -/
structure SecretDirectories where
  made : List String
  left : List String
  deriving DecidableEq, Repr

/-- The account after a question has been replied to. A directory that is to be removed is taken to
be gone, whatever is said about it. -/
def SecretDirectories.after (d : SecretDirectories) :
    (q : ProgramQuestion) → ProgramReply q → SecretDirectories
  | .file .makeDirectory, .ok directory => ⟨d.made ++ [directory], d.left ++ [directory]⟩
  | .file (.removeDirectory directory), _ => ⟨d.made, d.left.filter (fun l => l ≠ directory)⟩
  | _, _ => d

/-- Reply as someone does, and keep account of the directories. -/
def ProgramRespondent.watching {σ : Type} (reply : ProgramRespondent σ) :
    ProgramRespondent (σ × SecretDirectories) :=
  fun q w => ((reply q w.1).1, (reply q w.1).2, w.2.after q (reply q w.1).1)

/-- How a part of the program ends, and what it leaves behind. -/
structure Aftermath (σ α : Type) where
  result : Except Trouble α
  said : Transcript
  world : σ
  directories : SecretDirectories

namespace Program

variable {σ α β : Type}

/-- Carry a part of the program on, with an account of the directories. -/
def watched (p : Program α) (reply : ProgramRespondent σ) (t : Transcript) (w : σ)
    (d : SecretDirectories) : Aftermath σ α :=
  let out := ((ExceptT.run p).run t).runWith reply.watching (w, d)
  ⟨out.1.1, out.1.2, out.2.1, out.2.2⟩

variable (reply : ProgramRespondent σ) (t : Transcript) (w : σ) (d : SecretDirectories)

@[simp] theorem watched_pure (a : α) :
    (pure a : Program α).watched reply t w d = ⟨.ok a, t, w, d⟩ := rfl

@[simp] theorem watched_giveUp (message : String) (causes : List String) :
    (giveUp message causes : Program α).watched reply t w d
      = ⟨.error ⟨message, causes⟩, t, w, d⟩ := rfl

theorem watched_bind (p : Program α) (f : α → Program β) :
    (p >>= f).watched reply t w d = match p.watched reply t w d with
      | ⟨.ok a, t', w', d'⟩ => (f a).watched reply t' w' d'
      | ⟨.error e, t', w', d'⟩ => ⟨.error e, t', w', d'⟩ := by
  have hrun : (ExceptT.run (p >>= f)).run t
      = ((ExceptT.run p).run t).bind (fun out => ExceptT.bindCont f out.1 out.2) := rfl
  simp only [watched, hrun, Dialog.runWith_bind]
  rcases ((ExceptT.run p).run t).runWith reply.watching (w, d) with ⟨⟨result, t'⟩, w', d'⟩
  cases result <;> rfl

/-! ### Parts that have nothing to do with directories -/

/-- What is said when the parameters cannot be filled. -/
def fillingTrouble : String := "Failed to resolve secrets"

theorem append_ne_fillingTrouble {beginning : String}
    (h : ¬ beginning.toList <+: fillingTrouble.toList) (rest : String) :
    beginning ++ rest ≠ fillingTrouble := by
  intro heq
  exact h ⟨rest.toList, by rw [← String.toList_append, heq]⟩

/-- A part of the program is steady if it leaves the account alone, however it ends, and has nothing
to do with filling the parameters. -/
def Steady (reply : ProgramRespondent σ) (p : Program α) : Prop :=
  ∀ t w d, (p.watched reply t w d).directories = d ∧
    ∀ e, (p.watched reply t w d).result = .error e → e.message ≠ fillingTrouble

variable {reply : ProgramRespondent σ}

theorem steady_pure (a : α) : (pure a : Program α).Steady reply :=
  fun _ _ _ => ⟨rfl, by simp⟩

theorem steady_giveUp {message : String} (hmessage : message ≠ fillingTrouble)
    (causes : List String) : (giveUp message causes : Program α).Steady reply :=
  fun _ _ _ => ⟨rfl, by simpa using hmessage⟩

/-- Whatever is said or printed. -/
theorem steady_modify (f : Transcript → Transcript) : (modify f : Program Unit).Steady reply :=
  fun _ _ _ => ⟨rfl, fun _ he => nomatch he⟩

theorem steady_ask_write (path content : String) : (ask (.write path content)).Steady reply :=
  fun _ _ _ => ⟨rfl, fun _ he => nomatch he⟩

theorem Steady.bind {p : Program α} {f : α → Program β} (hp : p.Steady reply)
    (hf : ∀ a, (f a).Steady reply) : (p >>= f).Steady reply := by
  intro t w d
  obtain ⟨hsame, hfails⟩ := hp t w d
  rw [watched_bind]
  rcases hend : p.watched reply t w d with ⟨e | a, t', w', d'⟩
  · rw [hend] at hsame hfails
    refine ⟨hsame, fun e' he' => ?_⟩
    obtain rfl := Except.error.inj he'
    exact hfails e rfl
  · rw [hend] at hsame
    obtain rfl : d' = d := hsame
    exact hf a t' w' d'

theorem steady_config {message : String} (hmessage : message ≠ fillingTrouble)
    (r : Except ConfigError α) : (config message r).Steady reply := by
  cases r with
  | ok a => exact steady_pure a
  | error e => exact steady_giveUp hmessage _

theorem steady_writeFile (path content : String) : (writeFile path content).Steady reply := by
  refine (steady_ask_write path content).bind fun written => ?_
  cases written with
  | ok _ => exact steady_pure ()
  | error failure => exact steady_giveUp (append_ne_fillingTrouble (by decide) path) _

/-- The end of a command that puts a configuration into a file. -/
theorem steady_deliver (path json : String) :
    (do writeFile path json; say .info ("Configuration written to " ++ path); pure 0 :
      Program Nat).Steady reply :=
  (steady_writeFile path json).bind fun _ => (steady_modify _).bind fun _ => steady_pure 0

/-- The end of a command that prints a configuration. -/
theorem steady_show (json : String) : (do print json; pure 0 : Program Nat).Steady reply :=
  (steady_modify _).bind fun _ => steady_pure 0

theorem steady_deliverCredentials (file? : Option String) (found : List CredentialExport) :
    (deliverCredentials file? found).Steady reply := by
  cases file? with
  | some path => exact (steady_writeFile path _).bind fun _ => steady_modify _
  | none =>
    rw [deliverCredentials.eq_def]
    dsimp only
    split
    · exact steady_pure ()
    · exact steady_modify _

theorem steady_readMetadata (w : World) (name : String) : (readMetadata w name).Steady reply := by
  have hopen : (openNamed w "step metadata" name).Steady reply := by
    rw [openNamed]
    split
    · exact steady_pure _
    · exact steady_giveUp (append_ne_fillingTrouble (by decide) name) _
  exact hopen.bind fun _ => steady_config (append_ne_fillingTrouble (by decide) name) _

end Program

/-! ### Parts that settle the account -/

/-- There is one directory at most, and it has not been removed. -/
structure SecretDirectories.Standing (d : SecretDirectories) : Prop where
  made : d.made.length ≤ 1
  left : d.left = d.made

/-- The account is settled: there is a directory at most, and it is left if there is a result, or
else if it was not in filling the parameters that the program has failed. -/
structure Aftermath.Settled {σ α : Type} (x : Aftermath σ α) : Prop where
  made : x.directories.made.length ≤ 1
  left : x.directories.left = match x.result with
    | .ok _ => x.directories.made
    | .error e => if e.message = Program.fillingTrouble then [] else x.directories.made

namespace SecretServers

variable {σ : Type}

/-- The program with its respondent replies to lookups. -/
def answering (servers : SecretServers) (reply : ProgramRespondent σ) : Respondent σ :=
  fun q w => (servers.pass q).runWith reply w

variable (servers : SecretServers) (reply : ProgramRespondent σ)

theorem account_converse {α : Type} (c : Http.Conversation (Except SecretError α))
    (x : σ × SecretDirectories) :
    ((converse c).runWith reply.watching x).2.2 = x.2 := by
  let sending (request : Http.Request) : ProgramDialog (Option Http.Response) :=
    Dialog.question (R := ProgramReply) (ProgramQuestion.send request)
  have hsent : (c.translate sending).runWith reply.watching x
      = c.runWith (fun request y => (sending request).runWith reply.watching y) x :=
    Dialog.runWith_translate sending reply.watching c x
  have hkept : (c.runWith (fun request y => (sending request).runWith reply.watching y) x).2.2
      = x.2 := c.runWith_keeps _ (I := fun y : σ × SecretDirectories => y.2 = x.2) (fun _ _ h => h) rfl
  change ((Dialog.bind _ _).runWith _ x).2.2 = _
  rw [Dialog.runWith_bind]
  exact (congrArg (fun out => out.2.2) hsent).trans hkept

/-- Servers have nothing to do with directories. -/
theorem account_answering {q : SecretQuestion} (hq : q.isCall = true) (x : σ × SecretDirectories) :
    (servers.answering reply.watching q x).2.2 = x.2 := by
  cases q with
  | read path =>
    rcases hstore : servers.store? with _ | server
    · simp only [answering, pass, hstore]
      rfl
    · simp only [answering, pass, hstore]
      -- the type of the reply is opened here, lest the conversation is when the two are compared
      dsimp only [SecretReply]
      exact account_converse reply (server.secret path) x
  | issue systems =>
    rcases hissuer : servers.issuer? with _ | service
    · simp only [answering, pass, hissuer]
      rfl
    · simp only [answering, pass, hissuer]
      dsimp only [SecretReply]
      exact account_converse reply (service.issue systems) x
  | file question => cases hq

end SecretServers

namespace Program

variable {σ α β : Type} {reply : ProgramRespondent σ}

/-- A lookup within the program is the lookup, with the servers as its respondent. -/
theorem watched_lookUp_bind {servers : SecretServers} {l : Lookup α} {s s' : SecretRun} {w w' : σ}
    {d d' : SecretDirectories} {result : Except SecretError α}
    (hend : l.carried (servers.answering reply.watching) s (w, d) = ⟨result, s', w', d'⟩)
    (f : Except SecretError α × SecretRun → Program β) (t : Transcript) :
    (lookUp servers l s >>= f).watched reply t w d = (f (result, s')).watched reply t w' d' := by
  have htranslated := Dialog.runWith_translate servers.pass reply.watching (l.runFrom s) (w, d)
  have hrun : (ExceptT.run (lookUp servers l s)).run t
      = (((l.runFrom s).translate servers.pass).bind (fun out => .outcome (out, t))).bind
          (fun out => .outcome (.ok out.1, out.2)) := rfl
  have hlookUp : (lookUp servers l s).watched reply t w d = ⟨.ok (result, s'), t, w', d'⟩ := by
    have hout : (l.runFrom s).runWith (servers.answering reply.watching) (w, d)
        = ((result, s'), w', d') := by
      injection hend with hresult hs hw
      exact Prod.ext (Prod.ext hresult hs) hw
    have hout' := htranslated.trans hout
    simp only [watched, hrun, Dialog.runWith_bind, hout']
    rfl
  rw [watched_bind, hlookUp]

/-- A part that leaves the account alone settles it if what was made is still there. -/
theorem Steady.settled {p : Program α} (hp : p.Steady reply) {d : SecretDirectories}
    (hd : d.Standing) (t : Transcript) (w : σ) : (p.watched reply t w d).Settled := by
  obtain ⟨hsame, hfails⟩ := hp t w d
  refine ⟨by rw [hsame]; exact hd.made, ?_⟩
  rw [hsame, hd.left]
  split
  · rfl
  · rename_i e he
    rw [if_neg (hfails e he)]

/-- What comes after such a part settles the account if it does so however it begins. -/
theorem Steady.bind_settled {p : Program α} {f : α → Program β}
    (hp : p.Steady reply) {d : SecretDirectories} (hd : d.Standing)
    (hf : ∀ a t w, ((f a).watched reply t w d).Settled) (t : Transcript) (w : σ) :
    ((p >>= f).watched reply t w d).Settled := by
  have hsettled := hp.settled hd t w
  have hsame := (hp t w d).1
  rw [watched_bind]
  rcases hend : p.watched reply t w d with ⟨e | a, t', w', d'⟩
  · rw [hend] at hsettled
    exact ⟨hsettled.made, hsettled.left⟩
  · rw [hend] at hsame
    obtain rfl : d' = d := hsame
    exact hf a t' w'

/-- Such a part may come at the end as well. -/
theorem settled_bind {p : Program α} {f : α → Program β} (hf : ∀ a, (f a).Steady reply)
    {t : Transcript} {w : σ} {d : SecretDirectories} (hp : (p.watched reply t w d).Settled) :
    ((p >>= f).watched reply t w d).Settled := by
  rw [watched_bind]
  rcases hend : p.watched reply t w d with ⟨e | a, t', w', d'⟩
  · rw [hend] at hp
    exact ⟨hp.made, hp.left⟩
  · rw [hend] at hp
    exact (hf a).settled ⟨hp.made, hp.left⟩ t' w'

/-! ### Filling, and what comes after it -/

/-- The directories on the account are the one that a lookup has in its hands. -/
def InHands (directory? : Option String) (d : SecretDirectories) : Prop :=
  d.made = directory?.toList ∧ d.left = directory?.toList

theorem InHands.standing {directory? : Option String} {d : SecretDirectories}
    (h : InHands directory? d) : d.Standing := by
  refine ⟨?_, h.2.trans h.1.symm⟩
  rw [h.1]
  cases directory? <;> simp

variable (servers : SecretServers) (reply)

/-- Whatever is said of the account and the directory in hand, calls to servers keep it. -/
theorem keptByCalls (P : Option String → SecretDirectories → Prop) :
    Lookup.KeptByCalls (servers.answering reply.watching) (fun s x => P s.directory? x.2) where
  answered := by
    intro q hq s x h
    rw [SecretServers.account_answering servers reply hq]
    exact h
  fired := fun _ _ h => h

/-- Changes keep it, too. -/
theorem keptByChanges (P : Option String → SecretDirectories → Prop) :
    Lookup.KeptByChanges (fun s (x : σ × SecretDirectories) => P s.directory? x.2) := by
  intro e s x h
  cases e <;> exact h

/-- A directory that was made is in the hands of the lookup that has asked for it. -/
theorem keptByFiles_inHands :
    Secrets.KeptByFiles (servers.answering reply.watching)
      (fun s x => InHands s.directory? x.2) where
  made := by
    rintro s ⟨w, d⟩ hnone ⟨hmade, hleft⟩
    rw [hnone] at hmade hleft
    change InHands (reply (.file .makeDirectory) w).1.toOption
      (d.after (.file .makeDirectory) (reply (.file .makeDirectory) w).1)
    rcases (reply (.file .makeDirectory) w).1 with failure | directory
    · exact ⟨hmade, hleft⟩
    · exact ⟨congrArg (· ++ [directory]) hmade, congrArg (· ++ [directory]) hleft⟩
  written := fun _ _ _ _ _ h => h

theorem carried_removeFiles_of_none {s : SecretRun} (hs : s.directory? = none) (r : Respondent σ)
    (w : σ) : Secrets.removeFiles.carried r s w = ⟨.ok true, s, w⟩ := by
  simp [Secrets.removeFiles, Lookup.carried_bind, hs]

/-- Nothing is left once the files in the hands of a lookup have been removed. -/
theorem account_removeFiles {s : SecretRun} {d : SecretDirectories} (h : InHands s.directory? d)
    (w : σ) :
    (Secrets.removeFiles.carried (servers.answering reply.watching) s (w, d)).world.2
      = ⟨d.made, []⟩ := by
  obtain ⟨hmade, hleft⟩ := h
  rcases hdirectory : s.directory? with _ | directory
  · rw [carried_removeFiles_of_none hdirectory]
    rw [hdirectory, Option.toList_none] at hleft
    change d = _
    rw [← hleft]
  · have hremoved : (Secrets.removeFiles.carried (servers.answering reply.watching) s
        (w, d)).world.2 = ⟨d.made, d.left.filter (fun l => l ≠ directory)⟩ := by
      simp only [Secrets.removeFiles, Lookup.carried_bind, Lookup.carried_state, hdirectory,
        Lookup.carried_modify, Lookup.carried_ask]
      split <;> rfl
    rw [hremoved, hleft, hdirectory]
    simp

/-- To give up on filling the parameters settles the account. -/
theorem settled_giveUpSecrets {s : SecretRun} {d : SecretDirectories}
    (h : InHands s.directory? d) (e : SecretError) (t : Transcript) (w : σ) :
    ((giveUpSecrets servers fillingTrouble e s : Program α).watched reply t w d).Settled := by
  have hremoved := account_removeFiles reply servers h w
  rcases hend : Secrets.removeFiles.carried (servers.answering reply.watching) s (w, d) with
    ⟨result, s', w', d'⟩
  rw [hend] at hremoved
  obtain rfl : d' = ⟨d.made, []⟩ := hremoved
  rw [giveUpSecrets, watched_lookUp_bind hend]
  exact ⟨h.standing.made, rfl⟩

/-- Credentials are read and delivered when the directory is in nobody's hands any more, so that it
stays whatever happens. -/
theorem settled_credentials {s : SecretRun} (hs : s.directory? = none) {d : SecretDirectories}
    (hd : d.Standing) (providers : SecretProviders) (config : Mapping) (file? : Option String)
    (t : Transcript) (w : σ) :
    ((lookUp servers (Credentials.exports providers config) s >>= fun out =>
      match out.1 with
      | .error e => giveUpSecrets servers "Failed to read credentials" e out.2
      | .ok found => do
        deliverCredentials file? found
        pure out.2.step).watched reply t w d).Settled := by
  let P (directory? : Option String) (d' : SecretDirectories) : Prop :=
    directory? = none ∧ d' = d
  have hkept := Credentials.keeps_exports (keptByCalls reply servers P) (keptByChanges P) providers
    config s (w, d) ⟨hs, rfl⟩
  rcases hend : (Credentials.exports providers config).carried
      (servers.answering reply.watching) s (w, d) with ⟨e | found, s', w', d'⟩
  · rw [hend] at hkept
    obtain ⟨hnone, rfl⟩ : s'.directory? = none ∧ d' = d := hkept
    rw [watched_lookUp_bind hend]
    -- there is an attempt to remove the files, but it finds none in hand
    change ((giveUpSecrets servers _ e s').watched reply t w' d').Settled
    rw [giveUpSecrets, watched_lookUp_bind (carried_removeFiles_of_none hnone _ _)]
    exact (steady_giveUp (by decide) _).settled hd t w'
  · rw [hend] at hkept
    obtain ⟨-, rfl⟩ : s'.directory? = none ∧ d' = d := hkept
    rw [watched_lookUp_bind hend]
    exact ((steady_deliverCredentials file? found).bind
      fun _ => steady_pure _).settled hd t w'

/-- **Filling the secrets of a step settles the account.** -/
theorem settled_resolveSecrets (w : World) (c : GetConfig) (m : Metadata) (step : StepConfig)
    (t : Transcript) (x : σ) :
    ((resolveSecrets w c m step).watched reply t x ⟨[], []⟩).Settled := by
  let servers := SecretServers.ofConfig w.env step
  have hheld := Secrets.keeps_resolve (keptByChanges InHands) (keptByCalls reply servers InHands)
    (keptByFiles_inHands reply servers) servers.providers m.parameters (.start step) (x, ⟨[], []⟩)
    ⟨rfl, rfl⟩
  rcases hend : (Secrets.resolve servers.providers m.parameters).carried
      (servers.answering reply.watching) (.start step) (x, ⟨[], []⟩) with ⟨e | resolved, s, x', d⟩
  · rw [hend] at hheld
    rw [resolveSecrets, watched_lookUp_bind hend]
    exact settled_giveUpSecrets reply servers hheld e t x'
  · rw [hend] at hheld
    have hd : d.Standing := InHands.standing hheld
    rw [resolveSecrets, watched_lookUp_bind hend]
    refine (steady_modify _).bind_settled hd (fun _ t y => ?_) t x'
    -- now the directory is taken out of the hands of the lookup
    have hreleased : Secrets.releaseFiles.carried (servers.answering reply.watching) s (y, d)
        = ⟨.ok s.directory?, { s with directory? := none }, y, d⟩ := rfl
    rw [watched_lookUp_bind hreleased]
    dsimp only
    split
    · exact (steady_modify _).bind_settled hd
        (fun _ t y => settled_credentials reply servers rfl hd _ _ _ t y) t y
    · exact settled_credentials reply servers rfl hd _ _ _ t y

/-! ### The command -/

/-- **The configuration of a step is got, or not, and the account is settled.** -/
theorem settled_getConfig (w : World) (a : Arguments) (c : GetConfig) (x : σ) :
    ((getConfig w a c).watched reply ⟨"", []⟩ x ⟨[], []⟩).Settled := by
  have hd : SecretDirectories.Standing ⟨[], []⟩ := ⟨Nat.zero_le 1, rfl⟩
  rw [getConfig]
  -- what fails before the secrets fails without a directory
  refine (steady_readMetadata w _).bind_settled hd (fun metadata t x => ?_) _ x
  refine (steady_config (by decide) _).bind_settled hd (fun documents t x => ?_) t x
  refine (steady_config (by decide) _).bind_settled hd (fun flags t x => ?_) t x
  refine (steady_config (append_ne_fillingTrouble (by decide) _) _).bind_settled hd
    (fun resolved t x => ?_) t x
  dsimp only
  split
  · refine settled_bind (fun final => ?_) (settled_resolveSecrets reply w c metadata resolved t x)
    split
    · exact steady_deliver _ _
    · exact steady_show _
  · refine (steady_pure resolved).bind_settled hd (fun final t x => ?_) t x
    split
    · exact (steady_deliver _ _).settled hd t x
    · exact (steady_show _).settled hd t x

/-- **What a failing command leaves behind.** There is one directory of secret files at most. It
outlives a command that gets a configuration. If the command fails, it is gone or still there as a
whole; and nothing is left exactly if there was no directory at all, or if the command has failed
when it was filling the parameters. -/
theorem getConfig_left_eq_nil_iff (reply : ProgramRespondent σ) (w : World) (a : Arguments)
    (c : GetConfig) (x : σ) :
    let out := (getConfig w a c).watched reply ⟨"", []⟩ x ⟨[], []⟩
    out.directories.made.length ≤ 1 ∧
    (∀ code, out.result = .ok code → out.directories.left = out.directories.made) ∧
    ∀ e, out.result = .error e →
      (out.directories.left = [] ∨ out.directories.left = out.directories.made) ∧
      (out.directories.left = [] ↔
        out.directories.made = [] ∨ e.message = "Failed to resolve secrets") := by
  intro out
  obtain ⟨hmade, hleft⟩ : out.Settled := settled_getConfig reply w a c x
  refine ⟨hmade, fun code hcode => ?_, fun e he => ?_⟩
  · rw [hleft, hcode]
  · rw [he] at hleft
    by_cases hfilling : e.message = fillingTrouble
    · rw [hleft]
      simp [hfilling, fillingTrouble]
    · have hother : e.message ≠ "Failed to resolve secrets" := hfilling
      rw [hleft]
      simp [hfilling, hother]

/-- A certificate has been put into a file when the file with the credentials cannot be written. The
command fails, and the directory stays. -/
theorem getConfig_left_behind :
    let metadata := "metadata: \x7bname: scan\x7d\nspec:\n  inputs:\n    params:\n    - name: cert\n"
      ++ "      resourceRef: [\x7bname: ci, type: vaultSecretFile, paths: [team/ci]\x7d]\n"
    let config := "general: \x7bvaultServerUrl: 'http://store'\x7d\n"
    let engine := "\x7b\"data\": \x7b\"path\": \"team/\", \"options\": null\x7d\x7d"
    let secret := "\x7b\"data\": \x7b\"cert\": \"c3rt\"\x7d\x7d"
    let w : World :=
      { openFile := fun name =>
          if name = "scan.yml" then .ok (.ofText metadata)
          else if name = "config.yml" then .ok (.ofText config)
          else .error .notFound
        glob := fun _ => .ok []
        env := fun name => if name = "PIPER_vaultToken" then some "t0ken" else none }
    let reply : ProgramRespondent Unit := fun
      | .send request, x =>
        (some ⟨200, if request.url.text = "http://store/v1/team/ci" then secret else engine⟩, x)
      | .write _ _, x => (.error .notFound, x)
      | .file .makeDirectory, x => (.ok "secrets", x)
      | .file (.write directory parameter _), x => (.ok (directory ++ "/" ++ parameter), x)
      | .file (.removeDirectory _), x => (.ok (), x)
    let c : GetConfig := ⟨"scan.yml", "Build", none, "", [], true, none, some "ci.env"⟩
    let a : Arguments := ⟨.getConfig c, false, "config.yml", [], false⟩
    let out := (getConfig w a c).watched reply ⟨"", []⟩ () ⟨[], []⟩
    out.result.toOption = none ∧ out.directories = ⟨["secrets"], ["secrets"]⟩ := by
  decide +kernel

end Program

end CommandLine

end PipelineConfig
