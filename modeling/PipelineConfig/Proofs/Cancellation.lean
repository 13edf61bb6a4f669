import PipelineConfig.Proofs.LookupOrder

/-!
# Where a cancellation cuts a run

Take a run of a lookup to its end, and then the same once more, but now the cancellation is fired
when some calls have been answered. One might expect the second run to end at the call during which
that happens. It does, unless the outcome of this call is there at the same moment: then it counts,
a failure of the trust service is passed over as ever, and the run may even end well
(`PipelineConfig.Secrets.cancellation_overtaken`).

So there are two ways to fire it (`PipelineConfig.Firing`): during a call that is left without an
answer, or between two calls. The outcome of a call that is just in time belongs to the second: a
lookup does not look at the cancellation before it calls again, and until then it does the same as
ever (`PipelineConfig.Lookup.Heedless`). In either way the second run is the first up to the next
call, and it ends there: with the error that says so, and in the state that the first run has at
that moment. If the first run has no such call, the two runs are the same.

So it is for all lookups that fill parameters, because each of their parts is *cut* like that at the
moments of its calls (`PipelineConfig.Lookup.Cuts`), and of two parts in a row the moments of the
second follow those of the first (`PipelineConfig.Lookup.Cuts.bind`). In a turn with a provider
nothing changes before its last call has been answered. So its moments all have the state in which
it begins, and those of the whole run are those of its turns
(`PipelineConfig.Secrets.cancellation_cuts`).
-/

namespace PipelineConfig

variable {σ α β : Type}

/-! ### Firing the cancellation -/

/-- How the cancellation is fired. -/
inductive Firing (σ : Type)
  /-- During a call, which is left without an answer; whoever is called may be touched by that. -/
  | during (touch : SecretQuestion → σ → σ)
  /-- Between two calls, or before the first. It does not matter when: it may be during the call
  before, if the outcome of this call is just in time. -/
  | between

namespace Firing

/-- The answer to a call instead of the usual one, if so many calls are still to be answered before
the cancellation is fired. -/
def answer (how : Firing σ) (q : SecretQuestion) (w : σ) (usual : Answer α × σ) (count : ℕ) :
    Answer α × (σ × ℕ) :=
  match how, count with
  | during touch, 0 => (.interrupted, (touch q w, 0))
  | between, 1 => (.inTime usual.1.outcome, (usual.2, 0))
  | _, n => (usual.1, (usual.2, n - 1))

/-- Whether it has been fired, if so many calls are still to be answered before. -/
def fired : Firing σ → ℕ → Bool
  | between, 0 => true
  | _, _ => false

/-- How many calls are made but not answered. -/
def unanswered : Firing σ → ℕ
  | during _ => 1
  | between => 0

/-- What becomes of whoever would be called next. -/
def touch : Firing σ → SecretQuestion → σ → σ
  | during touch => touch
  | between => fun _ w => w

theorem unanswered_le_one (how : Firing σ) : how.unanswered ≤ 1 := by
  cases how with
  | during touch => exact Nat.le_refl 1
  | between => exact Nat.zero_le 1

end Firing

/-- A respondent who answers as another one does, until so many calls have been answered; then the
cancellation is fired. Questions about files are no calls. -/
def Respondent.firing (reply : Respondent σ) (how : Firing σ) : Respondent (σ × ℕ)
  | .read path, (w, n) => how.answer (.read path) w (reply (.read path) w) n
  | .issue systems, (w, n) => how.answer (.issue systems) w (reply (.issue systems) w) n
  | .file question, (w, n) => ((reply (.file question) w).1, ((reply (.file question) w).2, n))

/-- The same end, but with the cancellation fired. -/
def Ending.heed (ending : Ending σ α) (fired : Bool) : Ending σ α :=
  { ending with run := ending.run.heed fired }

/-- The same end for whoever counts calls as well. -/
def Ending.counted (ending : Ending σ α) (n : ℕ) : Ending (σ × ℕ) α :=
  ⟨ending.result, ending.run, (ending.world, n)⟩

/-- The moment of a call: the question, the state of the lookup, and that of the respondent. -/
structure Moment (σ : Type) where
  question : SecretQuestion
  run : SecretRun
  world : σ

/-- How a lookup ends that is cut at a moment. -/
def Moment.cut (how : Firing σ) (m : Moment σ) : Ending (σ × ℕ) α :=
  ⟨.error .cancelled, { m.run with cancelled := true }, (how.touch m.question m.world, 0)⟩

/-- The moments of calls that are all made in one state of the lookup. -/
def Moment.during (s : SecretRun) (calls : List (SecretQuestion × σ)) : List (Moment σ) :=
  calls.map (fun c => ⟨c.1, s, c.2⟩)

/-- The moments of a turn: it does not change anything before its last call. -/
def Turn.moments (t : Turn σ) : List (Moment σ) :=
  Moment.during t.run t.calls

variable {reply : Respondent σ} {how : Firing σ}

/-! ### Lookups that do not heed the cancellation -/

namespace Lookup

/-- **A lookup does not heed the cancellation**: whether it was fired or not, the end is the same
and so are the calls. -/
structure Heedless (reply : Respondent σ) (l : Lookup α) : Prop where
  carried : ∀ s fired w, l.carried reply (s.heed fired) w = (l.carried reply s w).heed fired
  calls : ∀ s fired w, l.calls reply (s.heed fired) w = l.calls reply s w

theorem heedless_pure (a : α) : (pure a : Lookup α).Heedless reply :=
  ⟨fun _ _ _ => rfl, fun _ _ _ => rfl⟩

theorem heedless_throw (e : SecretError) : (throw e : Lookup α).Heedless reply :=
  ⟨fun _ _ _ => rfl, fun _ _ _ => rfl⟩

theorem heedless_ask (q : SecretQuestion) : (ask q).Heedless reply :=
  ⟨fun _ _ _ => rfl, fun _ _ _ => rfl⟩

theorem heedless_modify {f : SecretRun → SecretRun}
    (hf : ∀ s fired, f (s.heed fired) = (f s).heed fired) :
    (modify f : Lookup Unit).Heedless reply := by
  refine ⟨fun s fired w => ?_, fun _ _ _ => rfl⟩
  rw [carried_modify, carried_modify, hf]
  rfl

theorem heedless_perform (e : SecretEvent) : (perform e).Heedless reply :=
  heedless_modify fun s fired => by cases fired <;> cases e <;> rfl

theorem Heedless.bind {l : Lookup α} {f : α → Lookup β} (hl : l.Heedless reply)
    (hf : ∀ a, (f a).Heedless reply) : (l >>= f).Heedless reply := by
  constructor
  · intro s fired w
    rw [carried_bind, carried_bind, hl.carried]
    rcases l.carried reply s w with ⟨e | a, s', w'⟩
    · rfl
    · exact (hf a).carried s' fired w'
  · intro s fired w
    rw [calls_bind, calls_bind, hl.carried, hl.calls]
    rcases l.carried reply s w with ⟨e | a, s', w'⟩
    · rfl
    · exact congrArg _ ((hf a).calls s' fired w')

theorem Heedless.map {l : Lookup α} (hl : l.Heedless reply) (f : α → β) :
    (f <$> l).Heedless reply := by
  constructor
  · intro s fired w
    rw [carried_map, carried_map, hl.carried]
    rfl
  · intro s fired w
    rw [calls_map, calls_map, hl.calls]

/-- A lookup may look at its own state, but not at whether the cancellation was fired. -/
theorem heedless_state_bind {f : SecretRun → Lookup β} (hf : ∀ s fired, f (s.heed fired) = f s)
    (h : ∀ s, (f s).Heedless reply) : (state >>= f).Heedless reply := by
  constructor
  · intro s fired w
    change (f (s.heed fired)).carried reply (s.heed fired) w = _
    rw [hf]
    exact (h s).carried s fired w
  · intro s fired w
    change (f (s.heed fired)).calls reply (s.heed fired) w = _
    rw [hf]
    exact (h s).calls s fired w

end Lookup

namespace Secrets

open Lookup

theorem heedless_directoryFor (parameter : String) : (directoryFor parameter).Heedless reply := by
  refine heedless_state_bind (fun s fired => by cases fired <;> rfl) fun s => ?_
  cases s.directory? with
  | some directory => exact heedless_pure directory
  | none =>
    refine (heedless_ask _).bind fun made => ?_
    cases made with
    | error failure => exact heedless_throw _
    | ok directory =>
      exact (heedless_modify fun s fired => by cases fired <;> rfl).bind fun _ => heedless_pure _

theorem heedless_writeFile (parameter content : String) :
    (writeFile parameter content).Heedless reply := by
  refine (heedless_directoryFor parameter).bind fun directory => (heedless_ask _).bind ?_
  rintro (failure | file)
  · exact heedless_throw _
  · exact (heedless_perform _).bind fun _ => heedless_pure file

/-- **A secret is adopted even if the cancellation has been fired.** -/
theorem heedless_adopt (p : Parameter) (asFile : Bool) (path secret : String) :
    (adopt p asFile path secret).Heedless reply := by
  cases asFile with
  | true =>
    exact (heedless_writeFile p.name secret).bind fun _ =>
      (heedless_perform _).bind fun _ => (heedless_perform _).bind fun _ => heedless_pure _
  | false =>
    exact (heedless_perform _).bind fun _ => (heedless_perform _).bind fun _ => heedless_pure _

theorem heedless_adoptToken (p : Parameter) (system : String) (tokens : List (String × String)) :
    (adoptToken p system tokens).Heedless reply := by
  rw [adoptToken]
  split
  · exact heedless_pure none
  · split
    · exact heedless_pure none
    · exact (heedless_perform _).bind fun _ => (heedless_perform _).bind fun _ => heedless_pure _

end Secrets

/-! ### Dialogs without calls -/

/-- Where nothing is called, nothing is cut. -/
theorem Dialog.runWith_firing (how : Firing σ) {d : SecretDialog α} {w : σ}
    (h : ∀ c ∈ d.asked reply w, c.1.isCall = false) (n : ℕ) :
    d.runWith (reply.firing how) (w, n) = ((d.runWith reply w).1, ((d.runWith reply w).2, n)) ∧
      ∀ c ∈ d.asked (reply.firing how) (w, n), c.1.isCall = false := by
  induction d generalizing w with
  | outcome a => exact ⟨rfl, by simp [Dialog.asked]⟩
  | ask q next ih =>
    obtain ⟨hq, hrest⟩ := List.forall_mem_cons.mp h
    cases q with
    | read path => cases hq
    | issue systems => cases hq
    | file question =>
      obtain ⟨hrun, hasked⟩ := ih _ hrest
      exact ⟨hrun, List.forall_mem_cons.mpr ⟨rfl, hasked⟩⟩

namespace Lookup

variable {l : Lookup α} {f : α → Lookup β} {s : SecretRun} {w : σ} {ms ms' : List (Moment σ)}

theorem carried_firing (how : Firing σ) (h : l.calls reply s w = []) (n : ℕ) :
    l.carried (reply.firing how) s (w, n) = (l.carried reply s w).counted n ∧
      l.calls (reply.firing how) s (w, n) = [] := by
  have hasked : ∀ c ∈ (l.runFrom s).asked reply w, c.1.isCall = false := by
    simpa [Lookup.calls, List.filter_eq_nil_iff] using h
  obtain ⟨hrun, hnone⟩ := Dialog.runWith_firing how hasked n
  constructor
  · rw [Lookup.carried, hrun]
    rfl
  · refine List.filter_eq_nil_iff.mpr fun c hc => ?_
    simp [hnone c hc]

/-! ### Lookups that are cut -/

/-- **A lookup is cut at moments**: if the cancellation is fired after so many calls, it ends at the
next of these moments and has made no call after it, and without a next one it ends as it would. -/
structure Cuts (reply : Respondent σ) (how : Firing σ) (l : Lookup α) (s : SecretRun) (w : σ)
    (moments : List (Moment σ)) : Prop where
  carried : ∀ n, l.carried (reply.firing how) (s.heed (how.fired n)) (w, n) = match moments[n]? with
    | some m => m.cut how
    | none => ((l.carried reply s w).heed (how.fired (n - moments.length))).counted
        (n - moments.length)
  calls : ∀ n, (l.calls (reply.firing how) (s.heed (how.fired n)) (w, n)).map (fun c => (c.1, c.2.1))
    = (moments.take (n + how.unanswered)).map (fun m => (m.question, m.world))

/-- What calls nobody is not cut, as long as it does not look at the cancellation either. -/
theorem cuts_of_calls_nil (h : l.calls reply s w = []) (hl : l.Heedless reply) :
    l.Cuts reply how s w [] := by
  have hsame : ∀ n, l.calls reply (s.heed (how.fired n)) w = [] := fun n =>
    (hl.calls s _ w).trans h
  constructor
  · intro n
    rw [(carried_firing how (hsame n) n).1, hl.carried]
    rfl
  · intro n
    rw [(carried_firing how (hsame n) n).2, List.take_nil]
    rfl

/-- **One lookup after the other** is cut at the moments of the one, then at those of the other. -/
theorem Cuts.bind (hl : l.Cuts reply how s w ms)
    (hok : ∀ a s' w', l.carried reply s w = ⟨.ok a, s', w'⟩ → (f a).Cuts reply how s' w' ms')
    (herror : ∀ e s' w', l.carried reply s w = ⟨.error e, s', w'⟩ → ms' = []) :
    (l >>= f).Cuts reply how s w (ms ++ ms') := by
  have hfirst : ∀ n m, ms[n]? = some m → (ms ++ ms')[n]? = some m ∧
      (ms ++ ms').take (n + how.unanswered) = ms.take (n + how.unanswered) := by
    intro n m hm
    obtain ⟨hn, -⟩ := List.getElem?_eq_some_iff.mp hm
    have hle : n + how.unanswered ≤ ms.length := by
      have hone := how.unanswered_le_one
      omega
    exact ⟨by rw [List.getElem?_append_left hn, hm], List.take_append_of_le_length hle⟩
  have hsecond : ∀ n, ms[n]? = none → (ms ++ ms')[n]? = ms'[n - ms.length]? ∧
      (ms ++ ms').take (n + how.unanswered)
        = ms.take (n + how.unanswered) ++ ms'.take (n - ms.length + how.unanswered) := by
    intro n hn
    have hle := List.getElem?_eq_none_iff.mp hn
    refine ⟨List.getElem?_append_right hle, ?_⟩
    rw [List.take_append, Nat.sub_add_comm hle]
  constructor
  · intro n
    rw [carried_bind, carried_bind, hl.carried n]
    -- without such a call in the first lookup, its calls are taken off the count for the second
    rcases hm : ms[n]? with _ | m
    · obtain ⟨hnext, -⟩ := hsecond n hm
      rw [hnext]
      rcases hend : l.carried reply s w with ⟨e | a, s', w'⟩
      · rw [herror e s' w' hend, List.append_nil, List.getElem?_nil]
        rfl
      · simp only [Ending.heed, Ending.counted, (hok a s' w' hend).carried]
        rw [List.length_append, Nat.sub_add_eq]
    · rw [(hfirst n m hm).1]
      rfl
  · intro n
    rw [calls_bind, List.map_append, hl.calls n, hl.carried n]
    rcases hm : ms[n]? with _ | m
    · rw [(hsecond n hm).2, List.map_append]
      congr 1
      rcases hend : l.carried reply s w with ⟨e | a, s', w'⟩
      · rw [herror e s' w' hend, List.take_nil]
        rfl
      · exact (hok a s' w' hend).calls _
    · rw [(hfirst n m hm).2]
      exact List.append_nil _

/-- **To catch errors does not matter**, as long as the one that tells of the cancellation is thrown
again, and nothing is called on account of the others. -/
theorem Cuts.tryCatch (hl : l.Cuts reply how s w ms) {handler : SecretError → Lookup α}
    (hcancelled : handler .cancelled = throw .cancelled)
    (hcalls : ∀ e s' w', (handler e).calls reply s' w' = [])
    (hheedless : ∀ e, (handler e).Heedless reply) :
    (tryCatch l handler).Cuts reply how s w ms := by
  have hhandler : ∀ e s' w', (handler e).Cuts reply how s' w' [] := fun e s' w' =>
    cuts_of_calls_nil (hcalls e s' w') (hheedless e)
  constructor
  · intro n
    rw [carried_tryCatch, carried_tryCatch, hl.carried n]
    rcases ms[n]? with _ | m
    · rcases l.carried reply s w with ⟨e | a, s', w'⟩
      · exact (hhandler e s' w').carried _
      · rfl
    · simp only [Moment.cut, hcancelled, carried_throw]
  · intro n
    rw [calls_tryCatch, List.map_append, hl.calls n, hl.carried n]
    refine (congrArg _ ?_).trans (List.append_nil _)
    rcases ms[n]? with _ | m
    · rcases l.carried reply s w with ⟨e | a, s', w'⟩
      · exact ((hhandler e s' w').calls _).trans (congrArg _ List.take_nil)
      · rfl
    · simp only [Moment.cut, hcancelled, calls_throw, List.map_nil]

/-! ### Lookups that call at once -/

/-- A lookup is cut at its calls, and in the state in which it begins. -/
def Steady (reply : Respondent σ) (how : Firing σ) (l : Lookup α) (s : SecretRun) (w : σ) : Prop :=
  l.Cuts reply how s w (Moment.during s (l.calls reply s w))

theorem steady_of_calls_nil (h : l.calls reply s w = []) (hl : l.Heedless reply) :
    l.Steady reply how s w := by
  rw [Steady, h]
  exact cuts_of_calls_nil h hl

/-- A lookup may look at its own state first, but not at whether the cancellation was fired. -/
theorem steady_state_bind {f : SecretRun → Lookup β} (hf : ∀ s fired, f (s.heed fired) = f s)
    (h : (f s).Steady reply how s w) : (state >>= f).Steady reply how s w := by
  constructor
  · intro n
    change (f (s.heed (how.fired n))).carried _ _ _ = _
    rw [hf]
    exact h.carried n
  · intro n
    change ((f (s.heed (how.fired n))).calls _ _ _).map _ = _
    rw [hf]
    exact h.calls n

/-- What comes after such a lookup has to begin in the same state, if it makes any calls. -/
theorem Steady.bind (hl : l.Steady reply how s w)
    (hf : ∀ a s' w', l.carried reply s w = ⟨.ok a, s', w'⟩ →
      (f a).calls reply s' w' = [] ∧ (f a).Heedless reply ∨ s' = s ∧ (f a).Steady reply how s w') :
    (l >>= f).Steady reply how s w := by
  rw [Steady, calls_bind, Moment.during, List.map_append]
  refine Cuts.bind hl (fun a s' w' hend => ?_) (fun e s' w' hend => ?_)
  · rw [hend]
    rcases hf a s' w' hend with ⟨hnil, hheedless⟩ | ⟨rfl, hsteady⟩
    · simp only [hnil]
      exact cuts_of_calls_nil hnil hheedless
    · exact hsteady
  · rw [hend]
    rfl

theorem Steady.tryCatch (hl : l.Steady reply how s w) {handler : SecretError → Lookup α}
    (hcancelled : handler .cancelled = throw .cancelled)
    (hcalls : ∀ e s' w', (handler e).calls reply s' w' = [])
    (hheedless : ∀ e, (handler e).Heedless reply) :
    (tryCatch l handler).Steady reply how s w := by
  have hsame : (MonadExcept.tryCatch l handler).calls reply s w = l.calls reply s w := by
    rw [calls_tryCatch]
    rcases l.carried reply s w with ⟨e | a, s', w'⟩
    · simp only [hcalls, List.append_nil]
    · exact List.append_nil _
  rw [Steady, hsame]
  exact Cuts.tryCatch hl hcancelled hcalls hheedless

/-- Where the cancellation has been fired before, no provider is called, and to fire it once more
changes nothing. -/
theorem steady_consult_of_cancelled (hs : s.cancelled = true) (provider : Lookup (Answer α)) :
    (consult provider).Steady reply how s w := by
  have hstart : ∀ n, (s.heed (how.fired n)).cancelled = true := by
    intro n
    cases how.fired n with
    | false => exact hs
    | true => rfl
  have hwhole : (consult provider).carried reply s w = ⟨.error .cancelled, s, w⟩ ∧
      (consult provider).calls reply s w = [] := carried_consult_of_cancelled hs provider
  rw [Steady, hwhole.2]
  constructor
  · intro n
    rw [(carried_consult_of_cancelled (hstart n) provider).1, hwhole.1]
    rfl
  · intro n
    rw [(carried_consult_of_cancelled (hstart n) provider).2]
    simp [Moment.during]

/-- A provider is called at once, if at all. -/
theorem steady_consult {provider : Lookup (Answer α)} {q : SecretQuestion} {usual : Answer α × σ}
    (hcarried : provider.carried reply s w = ⟨.ok usual.1, s, usual.2⟩)
    (hcalls : provider.calls reply s w = [(q, w)])
    (hfiring : ∀ n, provider.carried (reply.firing how) s (w, n)
      = ⟨.ok (how.answer q w usual n).1, s, (how.answer q w usual n).2⟩)
    (hasked : ∀ n, provider.calls (reply.firing how) s (w, n) = [(q, (w, n))]) :
    (consult provider).Steady reply how s w := by
  by_cases hs : s.cancelled = true
  · exact steady_consult_of_cancelled hs provider
  · have hs : s.cancelled = false := Bool.eq_false_iff.mpr hs
    obtain ⟨hend, hcall⟩ := carried_consult hs hcarried
    have hmade := fun n => carried_consult hs (hfiring n)
    have hrefused : (consult provider).carried (reply.firing how) (s.heed true) (w, 0)
          = ⟨.error .cancelled, s.heed true, (w, 0)⟩ ∧
        (consult provider).calls (reply.firing how) (s.heed true) (w, 0) = [] :=
      carried_consult_of_cancelled rfl provider
    rw [Steady, hcall, hcalls]
    constructor
    · intro n
      cases how with
      | during touch =>
        rcases n with _ | n
        · exact (hmade 0).1
        · rw [hend]
          exact (hmade (n + 1)).1
      | between =>
        rcases n with _ | _ | n
        · exact hrefused.1
        · -- the outcome of this call is just in time, so it is the usual one
          refine (hmade 1).1.trans ?_
          rw [hend, Answer.ending, Answer.ending]
          cases usual.1.fires <;> rfl
        · rw [hend]
          exact (hmade (n + 2)).1
    · intro n
      cases how with
      | during touch =>
        refine (congrArg _ ((hmade n).2.trans (hasked n))).trans ?_
        simp [Moment.during, Firing.unanswered]
      | between =>
        rcases n with _ | n
        · exact congrArg _ hrefused.2
        · refine (congrArg _ ((hmade (n + 1)).2.trans (hasked (n + 1)))).trans ?_
          simp [Moment.during, Firing.unanswered]

theorem steady_read (path : String) : (read path).Steady reply how s w :=
  steady_consult rfl rfl (fun _ => rfl) (fun _ => rfl)

theorem steady_issue (systems : List String) : (issue systems).Steady reply how s w :=
  steady_consult rfl rfl (fun _ => rfl) (fun _ => rfl)

/-- To read a path does not change the state, if there is an answer and the cancellation is not
fired meanwhile. -/
theorem run_of_carried_read (hreply : reply.Uninterrupted) {path : String}
    {data? : Option SecretData} {s' : SecretRun} {w' : σ}
    (h : (read path).carried reply s w = ⟨.ok data?, s', w'⟩) : s' = s := by
  by_cases hs : s.cancelled = true
  · have hend : (read path).carried reply s w = ⟨.error .cancelled, s, w⟩ :=
      (carried_consult_of_cancelled hs _).1
    cases hend.symm.trans h
  · have hrun : s.heed (Answer.fires (reply (.read path) w).1) = s' :=
      congrArg Ending.run ((carried_read (Bool.eq_false_iff.mpr hs) path).symm.trans h)
    rw [hreply.read] at hrun
    exact hrun.symm

end Lookup

namespace Secrets

open Lookup

/-! ### Turns are cut at their calls -/

variable {s : SecretRun} {w : σ}

theorem steady_searchPaths (hreply : reply.Uninterrupted) (p : Parameter) (asFile : Bool)
    (paths : List String) (w : σ) : (searchPaths p asFile paths).Steady reply how s w := by
  induction paths generalizing w with
  | nil => exact steady_of_calls_nil rfl (heedless_pure none)
  | cons path rest ih =>
    refine (steady_read path).bind fun data? s' w' hend => ?_
    split
    · rename_i secret hfound
      left
      rw [calls_map, calls_adopt]
      exact ⟨rfl, (heedless_adopt p asFile path secret).map some⟩
    · exact Or.inr ⟨run_of_carried_read hreply hend, ih w'⟩

theorem steady_searchStore (hreply : reply.Uninterrupted) (p : Parameter) (s : SecretRun) (w : σ) :
    (searchStore p).Steady reply how s w := by
  rw [searchStore]
  split
  · exact steady_of_calls_nil rfl (heedless_pure none)
  · refine steady_state_bind (fun s fired => by cases fired <;> rfl) ?_
    split
    · exact steady_of_calls_nil rfl (heedless_pure none)
    · split
      · exact steady_of_calls_nil rfl (heedless_throw _)
      · exact steady_searchPaths hreply p _ _ w

/-- The service is asked as best one can, but a cancellation is told. -/
theorem steady_askIssuer (p : Parameter) (s : SecretRun) (w : σ) :
    (askIssuer p).Steady reply how s w := by
  rw [askIssuer]
  split
  · exact steady_of_calls_nil rfl (heedless_pure none)
  · rename_i system hsystem
    refine steady_state_bind (fun s fired => by cases fired <;> rfl) ?_
    split
    · exact steady_of_calls_nil rfl (heedless_pure none)
    · refine Steady.bind ?_ fun tokens s' w' _ => Or.inl
        ⟨calls_adoptToken _ _ _ _ _ _, heedless_adoptToken p system tokens⟩
      refine (steady_issue [system]).tryCatch rfl (fun e s' w' => ?_) fun e => ?_
      · cases e <;> rfl
      · cases e <;> first | exact heedless_throw _ | exact heedless_pure []

/-! ### Runs are cut at the calls of their turns -/

variable (reply how)

theorem cuts_forEach {f : Parameter → Lookup (Option ResolvedSecret)}
    (hf : ∀ p s w, (f p).Steady reply how s w) (parameters : List Parameter) (s : SecretRun)
    (w : σ) :
    (forEach f parameters).Cuts reply how s w
      ((turns f reply parameters s w).flatMap Turn.moments) := by
  induction parameters generalizing s w with
  | nil => exact cuts_of_calls_nil rfl (heedless_pure [])
  | cons p rest ih =>
    have hturn : (f p).Cuts reply how s w (Turn.of f reply p s w).moments := hf p s w
    rcases hend : (f p).carried reply s w with ⟨e | found?, s', w'⟩
    · rw [turns_cons_of_error f reply hend, List.flatMap_cons]
      refine hturn.bind (fun a s'' w'' hok => ?_) (fun _ _ _ _ => rfl)
      cases hend.symm.trans hok
    · rw [turns_cons_of_ok f reply hend, List.flatMap_cons]
      refine hturn.bind (fun a s'' w'' hok => ?_) (fun e s'' w'' herror => ?_)
      · cases hend.symm.trans hok
        rw [← List.append_nil (List.flatMap _ _)]
        exact (ih s' w').bind (fun _ _ _ _ => cuts_of_calls_nil rfl (heedless_pure _))
          (fun _ _ _ _ => rfl)
      · cases hend.symm.trans herror

variable {reply}

theorem cuts_resolve (hreply : reply.Uninterrupted) (providers : SecretProviders)
    (parameters : List Parameter) (s : SecretRun) (w : σ) :
    (resolve providers parameters).Cuts reply how s w
      ((storeTurns reply providers parameters s w
        ++ issuerTurns reply providers parameters s w).flatMap Turn.moments) := by
  rw [resolve_eq, ← forEach_visited, ← forEach_visited, List.flatMap_append, storeTurns,
    issuerTurns]
  have hstore := cuts_forEach reply how (steady_searchStore hreply)
    (visited providers.store parameters) s w
  refine hstore.bind (fun fromStore s' w' hok => ?_) (fun e s' w' herror => ?_)
  · rw [hok, ← List.append_nil (List.flatMap _ _)]
    have hissuer := cuts_forEach reply how steady_askIssuer
      (visited providers.issuer parameters) s' w'
    exact hissuer.bind (fun _ _ _ _ => cuts_of_calls_nil rfl (heedless_pure _))
      (fun _ _ _ _ => rfl)
  · rw [herror]
    rfl

theorem calls_of_moments (ts : List (Turn σ)) :
    (ts.flatMap Turn.moments).map (fun m => (m.question, m.world)) = ts.flatMap Turn.calls := by
  induction ts with
  | nil => rfl
  | cons t ts ih =>
    rw [List.flatMap_cons, List.map_append, ih, List.flatMap_cons, Turn.moments, Moment.during,
      List.map_map]
    exact congrArg (· ++ _) (List.map_id _)

/-- **A cancellation cuts a run at a call.** Take a run in which the cancellation is not fired, turn
by turn, and the moments of its calls. If in the same run the cancellation is fired after so many
calls have been answered, then the run ends at the next call, whichever provider it goes to: with the
error that tells of the cancellation, in the state of that moment, and without any further call. This
next call is not even made, unless it was during the call that the cancellation was fired. If there
is no next call, nothing is different, except that the cancellation may have been fired. -/
theorem cancellation_cuts {s : SecretRun} (hreply : reply.Uninterrupted)
    (providers : SecretProviders) (parameters : List Parameter) (hs : s.cancelled = false) (w : σ) :
    let whole := (resolve providers parameters).carried reply s w
    let calls := (resolve providers parameters).calls reply s w
    ∃ byStore byIssuer, InOrder reply providers parameters s w calls whole byStore byIssuer ∧
      ∀ (how : Firing σ) (n : ℕ),
        let start := s.heed (how.fired n)
        let cut := (resolve providers parameters).carried (reply.firing how) start (w, n)
        (calls.length ≤ n → cut.result = whole.result ∧
          cut.run = whole.run.heed (how.fired (n - calls.length)) ∧
          cut.world.1 = whole.world) ∧
        (n < calls.length → ∃ m, ((byStore ++ byIssuer).flatMap Turn.moments)[n]? = some m ∧
          calls[n]? = some (m.question, m.world) ∧
          cut = ⟨.error .cancelled, { m.run with cancelled := true },
            (how.touch m.question m.world, 0)⟩) ∧
        ((resolve providers parameters).calls (reply.firing how) start (w, n)).map
          (fun c => (c.1, c.2.1)) = calls.take (n + how.unanswered) := by
  intro whole calls
  have horder := inOrder_resolve hreply providers parameters hs w
  refine ⟨_, _, horder, fun how n => ?_⟩
  intro start cut
  generalize hmoments : (storeTurns reply providers parameters s w
    ++ issuerTurns reply providers parameters s w).flatMap Turn.moments = moments
  have hcuts := cuts_resolve how hreply providers parameters s w
  rw [hmoments] at hcuts
  have hcalls : moments.map (fun m => (m.question, m.world)) = calls := by
    rw [← hmoments, calls_of_moments, List.flatMap_append]
    exact horder.calls.symm
  have hlength : moments.length = calls.length := by rw [← hcalls, List.length_map]
  have hcut := hcuts.carried n
  refine ⟨fun hn => ?_, fun hn => ?_, ?_⟩
  · rw [← hlength] at hn ⊢
    rw [List.getElem?_eq_none hn] at hcut
    exact ⟨congrArg Ending.result hcut, congrArg Ending.run hcut,
      congrArg (fun ending => ending.world.1) hcut⟩
  · rw [← hlength] at hn
    have hm := List.getElem?_eq_getElem hn
    rw [hm] at hcut
    refine ⟨_, hm, ?_, hcut⟩
    rw [← hcalls, List.getElem?_map, hm]
    rfl
  · rw [hcuts.calls n, List.map_take, hcalls]

/-- The cancellation is fired when the trust service is asked. What the store gave before it stays,
and the parameter that is listed first has no token. It is the same if the cancellation is fired when
the store has just been read for the last time, only that the service is not asked then. -/
theorem cancellation_cuts_service :
    let store : String → Answer (Option SecretData) := fun path =>
      if path = "shared/ci" then .found (some [("team", "blue")]) else .found none
    let reply := Respondent.ofShelf store (fun _ => .found [("sonar", "t0ken")])
    let token := { Parameter.plain "token" with
      references := [⟨"sonar", trustEngineSecret, none, [], some "sonar", []⟩] }
    let team := { Parameter.plain "team" with
      references := [⟨"ci", vaultSecret, none, ["other/ci", "shared/ci"], none, []⟩] }
    let s := SecretRun.start ⟨[], []⟩
    let w := SecretShelf.empty "secrets"
    let whole := resolve ⟨true, true⟩ [token, team]
    let questions : List SecretQuestion := [.read "other/ci", .read "shared/ci", .issue ["sonar"]]
    reply.Uninterrupted ∧ s.cancelled = false ∧
    (whole.calls reply s w).map Prod.fst = questions ∧
    ∀ how ∈ [Firing.during fun _ w => w, Firing.between],
      let cut := whole.carried (reply.firing how) s (w, 2)
      cut.run.journal = [.masked "blue", .adopted "team" "blue"] ∧
      (whole.calls (reply.firing how) s (w, 2)).map Prod.fst
        = questions.take (2 + how.unanswered) ∧
      ∃ m : Moment SecretShelf, m.question = .issue ["sonar"] ∧
        cut = ⟨.error .cancelled, { m.run with cancelled := true }, (m.world, 0)⟩ := by
  intro store reply token team s w whole questions
  have hreply : reply.Uninterrupted := by
    refine Respondent.ofShelf_uninterrupted (fun path => ?_) fun _ => rfl
    simp only [store]
    split <;> rfl
  have hquestions : (whole.calls reply s w).map Prod.fst = questions := by
    decide +kernel
  obtain ⟨byStore, byIssuer, -, hcuts⟩ :=
    cancellation_cuts hreply ⟨true, true⟩ [token, team] (s := s) rfl w
  refine ⟨hreply, rfl, hquestions, fun how hhow => ?_⟩
  intro cut
  have hstart : s.heed (how.fired 2) = s := by cases how <;> rfl
  have htouch : how.touch = fun _ w => w := by
    rcases List.mem_pair.mp hhow with rfl | rfl <;> rfl
  have hjournal : cut.run.journal = [.masked "blue", .adopted "team" "blue"] := by
    rcases List.mem_pair.mp hhow with rfl | rfl <;> decide +kernel
  obtain ⟨-, hcut, hmade⟩ := hcuts how 2
  rw [hstart] at hcut hmade
  obtain ⟨m, -, hm, hend⟩ := hcut (by rw [← List.length_map Prod.fst, hquestions]; decide)
  have hquestion : some m.question = some (SecretQuestion.issue ["sonar"]) := by
    have hthird := congrArg (fun questions => questions[2]?) hquestions
    rw [List.getElem?_map, hm] at hthird
    exact hthird
  refine ⟨hjournal, ?_, m, Option.some.inj hquestion, ?_⟩
  · rw [← hquestions, ← List.map_take, ← hmade, List.map_map]
    rfl
  · rw [htouch] at hend
    exact hend

/-- **The outcome of a call may overtake the cancellation.** The cancellation is fired during the
only call, to the store, but the secret is there at the same moment: the parameter takes it, and the
run ends well. If it is fired during the only call to a service that fails at the same moment, then
the failure is passed over, and the run ends well too. -/
theorem cancellation_overtaken :
    let found : Option SecretData := some [("user", "root")]
    let failure := SecretError.issuer "trust/tokens" (.other "down")
    let usual := Respondent.ofShelf (fun _ => .found found) (fun _ => .failed failure)
    let fired := Respondent.ofShelf (fun _ => .inTime (.ok found)) (fun _ => .inTime (.error failure))
    let user := { Parameter.plain "user" with
      references := [⟨"login", vaultSecret, none, ["team/login"], none, []⟩] }
    let token := { Parameter.plain "token" with
      references := [⟨"sonar", trustEngineSecret, none, [], some "sonar", []⟩] }
    let filled := resolve ⟨true, true⟩ [user]
    let unfilled := resolve ⟨true, true⟩ [token]
    let s := SecretRun.start ⟨[], []⟩
    let w := SecretShelf.empty "secrets"
    usual.Uninterrupted ∧
    (filled.calls usual s w).map Prod.fst = [.read "team/login"] ∧
    (filled.carried fired s w).run.cancelled = true ∧
    (filled.carried fired s w).result = .ok [⟨"user", .kv "team/login"⟩] ∧
    (filled.carried fired s w).run.journal = [.masked "root", .adopted "user" "root"] ∧
    (unfilled.calls usual s w).map Prod.fst = [.issue ["sonar"]] ∧
    (unfilled.carried fired s w).run.cancelled = true ∧
    (unfilled.carried fired s w).result = .ok [] := by
  intro found failure usual fired user token filled unfilled s w
  refine ⟨Respondent.ofShelf_uninterrupted (fun _ => rfl) fun _ => rfl, ?_⟩
  exact ⟨by decide +kernel, by rfl, by rfl, by decide +kernel, by decide +kernel, by rfl, by rfl⟩

end Secrets

end PipelineConfig
