import PipelineConfig.Proofs.Keeping

/-!
# Secrets are masked before they can be seen

A secret that is known to the redactor does not show in any output. So it must be known before it
is anywhere from where it could be put out. A parameter is such a place, and so is a file whose path
a parameter has; the variables of credentials are others.

For parameters this is about every moment, since a lookup may end at any of them. The events of the
journal tell these moments: the configuration and the redactor at a moment are those that the events
up to it have left behind (`PipelineConfig.SecretRun.performAll`). At each one a parameter with a new
value has taken it in an adoption that is complete by then, so the secret is known
(`PipelineConfig.SecretRun.Adopts.masked_of_changed`). A path alone would not tell what is in the file. But
a file is written once only, so what has been put into it is the secret of that adoption.

The variables of credentials come all at once with the result, and it is enough that their values
are known then (`PipelineConfig.Credentials.masksValues_exports`).
-/

namespace PipelineConfig

/-! ### At every moment of an adoption -/

namespace SecretRun

variable {s t : SecretRun} {as : List Adoption} {past : List SecretEvent}

/-- What was written up to a moment was written in the end; so a file is written once. -/
theorem nodup_keys_wroteAmong (hpast : past <+: Adoption.eventsOf as)
    (hfiles : (as.filterMap Adoption.file?).Nodup) :
    (Assoc.keys (SecretEvent.wroteAmong past)).Nodup := by
  have hprefix : Assoc.keys (SecretEvent.wroteAmong past)
      <+: Assoc.keys (SecretEvent.wroteAmong (Adoption.eventsOf as)) :=
    (hpast.filterMap SecretEvent.wrote?).map Prod.fst
  rw [Adoption.keys_wroteAmong_eventsOf] at hprefix
  exact hfiles.sublist hprefix.sublist

/-- **A parameter that has a new value by some moment** has adopted a secret that is known by then.
Its value is the secret, or the path of the file that the secret has been put into. -/
theorem Adopts.masked_of_changed (h : s.Adopts as t) (hfiles : (as.filterMap Adoption.file?).Nodup)
    (hpast : past <+: Adoption.eventsOf as) {key : String}
    (hkey : (s.performAll past).step.get? key ≠ s.step.get? key) :
    ∃ a ∈ as, a.parameter = key ∧
      (s.performAll past).step.get? key = some (.string a.value) ∧
      (s.performAll past).redactor.contains a.secret = true ∧
      ∀ file, a.file? = some file →
        Assoc.last? (SecretEvent.wroteAmong past) file = some a.secret := by
  rw [get?_performAll] at hkey ⊢
  rcases hlast : Assoc.last? (SecretEvent.adoptedAmong past) key with _ | v
  · simp [hlast] at hkey
  · -- the value was taken by now, so the adoption in which it was is complete
    obtain ⟨a, ha, rfl, rfl, hevents⟩ := Adoption.exists_of_adopted_mem hpast
      (SecretEvent.mem_adoptedAmong.mp (Assoc.mem_of_last? hlast))
    refine ⟨a, ha, rfl, rfl, ?_, fun file hfile => ?_⟩
    · exact contains_performAll (h.secrets a ha) s (hevents a.masked_mem_events)
    · refine Assoc.last?_of_mem (nodup_keys_wroteAmong hpast hfiles) ?_
      exact List.mem_filterMap.mpr ⟨_, hevents (Adoption.wrote_mem_events hfile), rfl⟩

end SecretRun

/-! ### Credentials -/

namespace Credentials

open Lookup

variable {σ : Type} {reply : Respondent σ}

/-- Bundles are only read, and that keeps whatever there was at the beginning. -/
theorem quiet_bundleExports (f : CredentialFamily) (config : Mapping) (position : Nat)
    (bundles : List String) : (bundleExports f config position bundles).Quiet reply :=
  fun s w => keeps_bundleExports (keptByCalls_idle s w) f config position bundles s w (.refl s w)

/-- Making known some secrets, one after the other. -/
theorem carried_forM_masked (found : List CredentialExport) (s : SecretRun) (w : σ) :
    (found.forM fun e => perform (.masked e.value)).carried reply s w
      = ⟨.ok ⟨⟩, s.performAll (found.map fun e => .masked e.value), w⟩ := by
  induction found generalizing s with
  | nil => rfl
  | cons e rest ih =>
    change (perform (.masked e.value) >>= fun _ => rest.forM _).carried reply s w = _
    rw [carried_bind, carried_perform]
    exact ih _

/-- A lookup masks the values of the variables that it finds: no secret is forgotten, and those
values are known when it returns. -/
def MasksValues (reply : Respondent σ) (l : Lookup (List CredentialExport)) : Prop :=
  ∀ s w, s.redactor.secrets <+: (l.carried reply s w).run.redactor.secrets ∧
    ∀ found, (l.carried reply s w).result = .ok found → ∀ e ∈ found, e.value ≠ "" →
      (l.carried reply s w).run.redactor.contains e.value = true

theorem masksValues_nil : MasksValues reply (pure []) := by
  intro s w
  refine ⟨List.prefix_refl _, fun found hfound => ?_⟩
  obtain rfl := Except.ok.inj hfound
  simp

theorem MasksValues.append {l l' : Lookup (List CredentialExport)} (h : MasksValues reply l)
    (h' : MasksValues reply l') :
    MasksValues reply (l >>= fun found => l' >>= fun more => pure (found ++ more)) := by
  intro s w
  obtain ⟨hkept, hmasked⟩ := h s w
  rw [carried_bind]
  rcases hend : l.carried reply s w with ⟨e | found, t, w'⟩
  · rw [hend] at hkept
    exact ⟨hkept, by simp⟩
  · rw [hend] at hkept hmasked
    obtain ⟨hkeptMore, hmaskedMore⟩ := h' t w'
    simp only [carried_bind]
    rcases hendMore : l'.carried reply t w' with ⟨e | more, u, w''⟩
    · rw [hendMore] at hkeptMore
      exact ⟨hkept.trans hkeptMore, by simp⟩
    · rw [hendMore] at hkeptMore hmaskedMore
      refine ⟨hkept.trans hkeptMore, fun all hall e he hvalue => ?_⟩
      obtain rfl := Except.ok.inj hall
      rcases List.mem_append.mp he with hfirst | hsecond
      · exact Redactor.contains_of_isPrefix hkeptMore (hmasked found rfl e hfirst hvalue)
      · exact hmaskedMore more rfl e hsecond hvalue

/-- What only asks masks nothing, and leaves it to what comes after it. -/
theorem masksValues_bind {α : Type} {l : Lookup α} {f : α → Lookup (List CredentialExport)}
    (hl : l.Quiet reply) (hf : ∀ a, MasksValues reply (f a)) : MasksValues reply (l >>= f) := by
  intro s w
  have hidle : Idle reply s w _ _ := hl s w
  rw [carried_bind]
  rcases hend : l.carried reply s w with ⟨e | a, t, w'⟩
  · rw [hend] at hidle
    have hsame : t.redactor = s.redactor := hidle.unmoved.redactor
    exact ⟨hsame ▸ List.prefix_refl _, by simp⟩
  · rw [hend] at hidle
    rw [← hidle.unmoved.redactor]
    exact hf a t w'

theorem masksValues_familyExports (config : Mapping) (f : CredentialFamily) :
    MasksValues reply (familyExports config f) := by
  refine masksValues_bind quiet_checkpoint fun _ => ?_
  refine masksValues_bind (quiet_bundleExports f config 0 _) fun found s w => ?_
  rw [carried_bind, carried_forM_masked]
  refine ⟨SecretRun.secrets_prefix_performAll _ _, fun found' hfound e he hvalue => ?_⟩
  obtain rfl := Except.ok.inj hfound
  exact SecretRun.contains_performAll hvalue s (List.mem_map.mpr ⟨e, he, rfl⟩)

theorem masksValues_exportsOfFamilies (config : Mapping) (fs : List CredentialFamily) :
    MasksValues reply (exportsOfFamilies config fs) := by
  induction fs with
  | nil => exact masksValues_nil
  | cons f rest ih => exact (masksValues_familyExports config f).append ih

/-- The values of all variables are known when they are there. -/
theorem masksValues_exports (providers : SecretProviders) (config : Mapping) :
    MasksValues reply (exports providers config) := by
  rw [exports]
  split
  · exact masksValues_exportsOfFamilies config families
  · exact masksValues_nil

end Credentials

/-! ### At every moment of a lookup -/

namespace Secrets

/-- At the moment when some changes have been made, every value that is not the one of the beginning
is a text that is known as a secret, or else the path of a file, for a parameter that is meant to
have one, whose content is known as a secret. -/
def MaskedAfter (s : SecretRun) (parameters : List Parameter) (past : List SecretEvent) : Prop :=
  ∀ key, (s.performAll past).step.get? key ≠ s.step.get? key →
    ∃ text, (s.performAll past).step.get? key = some (.string text) ∧
      ((s.performAll past).redactor.contains text = true ∨
        (∃ p ∈ parameters, p.name = key ∧ p.reference? vaultSecretFile ≠ none) ∧
        ∃ content, Assoc.last? (SecretEvent.wroteAmong past) text = some content ∧
          (s.performAll past).redactor.contains content = true)

/-- **Secrets are masked before they can be seen.** If files are kept, this is so at every moment of
filling the parameters, however it ends: new values are masked, and no secret has been forgotten
since an earlier moment. The values of credentials are known when there is a result with them. -/
theorem masked_at_every_moment {σ : Type} (reply : Respondent σ) (providers : SecretProviders)
    (s : SecretRun) (w : σ) :
    (∀ files, reply.KeepsFiles files → ∀ parameters : List Parameter,
      let ending := (resolve providers parameters).carried reply s w
      ∃ events, ending.run.journal = s.journal ++ events ∧
        ending.run.step = (s.performAll events).step ∧
        ending.run.redactor = (s.performAll events).redactor ∧
        ∀ past, past <+: events → MaskedAfter s parameters past ∧
          ∀ earlier, earlier <+: past → (s.performAll earlier).redactor.secrets
            <+: (s.performAll past).redactor.secrets) ∧
    ∀ config : Mapping,
      let ending := (Credentials.exports providers config).carried reply s w
      s.redactor.secrets <+: ending.run.redactor.secrets ∧
      ∀ found, ending.result = .ok found → ∀ e ∈ found, e.value ≠ "" →
        ending.run.redactor.contains e.value = true := by
  refine ⟨fun files hfiles parameters => ?_,
    fun config => Credentials.masksValues_exports providers config s w⟩
  intro ending
  obtain ⟨as, ⟨hadopts, hcalled, hadded⟩, -⟩ := resolve_adopts hfiles.named providers parameters s w
  have hjournal : ending.run.journal = s.journal ++ Adoption.eventsOf as :=
    hadopts.events.journal.trans (s.performAll_journal _)
  refine ⟨Adoption.eventsOf as, hjournal, hadopts.events.step, hadopts.events.redactor,
    fun past hpast => ⟨fun key hkey => ?_, ?_⟩⟩
  · obtain ⟨a, ha, rfl, hvalue, hmasked, hwrote⟩ :=
      hadopts.masked_of_changed (hadded files hfiles).nodup hpast hkey
    refine ⟨a.value, hvalue, ?_⟩
    rcases hfile : a.file? with _ | file
    · left
      rw [Adoption.value, hfile]
      exact hmasked
    · right
      obtain ⟨p, hp, hcall⟩ := hcalled a ha
      refine ⟨⟨p, hp, hcall.1.symm, reference?_of_file? hcall hfile⟩, a.secret, ?_, hmasked⟩
      rw [Adoption.value, hfile]
      exact hwrote file hfile
  · rintro earlier ⟨later, rfl⟩
    rw [SecretRun.performAll_append]
    exact SecretRun.secrets_prefix_performAll _ later

/-- The cancellation is fired after a secret has been put into a file. The credentials of a bundle
are masked as well. -/
theorem masked_at_every_moment_interrupted :
    let store : String → Answer (Option SecretData) := fun path =>
      if path = "team/ci" then .found (some [("cert", "c3rt")])
      else if path = "team/login" then .found (some [("user", "r00t")])
      else .interrupted
    let reply := Respondent.ofShelf store (fun _ => .found [])
    let cert := { Parameter.plain "cert" with
      references := [⟨"ciSecretName", vaultSecretFile, none, ["team/ci"], none, []⟩] }
    let password := { Parameter.plain "password" with
      references := [⟨"ciSecretName", vaultSecret, none, ["team/other"], none, []⟩] }
    let s := SecretRun.start ⟨[], []⟩
    let ending := (resolve ⟨true, false⟩ [cert, password]).carried reply s (.empty "secrets")
    let config : Mapping := [("vaultCredentialKeys", .string "user"),
      ("vaultCredentialPath", .string "login"), ("vaultPath", .string "team")]
    let credentials := (Credentials.exports ⟨true, false⟩ config).carried reply s (.empty "secrets")
    reply.KeepsFiles SecretShelf.paths ∧
    ending.result = .error .cancelled ∧
    ending.run.journal
      = [.wrote "secrets/cert" "c3rt", .masked "c3rt", .adopted "cert" "secrets/cert"] ∧
    (∀ past, past <+: ending.run.journal → MaskedAfter s [cert, password] past) ∧
    credentials.result = .ok [⟨"PIPER_VAULTCREDENTIAL_USER", "r00t"⟩] ∧
    credentials.run.redactor.contains "r00t" = true := by
  dsimp only
  refine ⟨?files, ?result, ?journal, ?moments, ?credentials,
    ((masked_at_every_moment _ ⟨true, false⟩ _ _).2 _).2 _ ?credentials _ List.mem_cons_self ?value⟩
  case files => exact Respondent.ofShelf_keepsFiles _ _
  case result => decide +kernel
  case journal => decide +kernel
  case credentials => decide +kernel
  case moments =>
    intro past hpast
    obtain ⟨events, hjournal, -, -, hmoment⟩ :=
      (masked_at_every_moment _ ⟨true, false⟩ _ _).1 _ (Respondent.ofShelf_keepsFiles _ _) _
    rw [hjournal] at hpast
    exact (hmoment past hpast).1
  case value => decide

end Secrets

end PipelineConfig
