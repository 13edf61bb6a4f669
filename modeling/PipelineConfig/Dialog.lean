/-!
# Computations that ask

Some answers come from outside: what a store holds, whether a file could be written. A computation
that needs them is a `Dialog`: it has an outcome already, or it asks a question and goes on with
the reply, which is of the type that belongs to the question. So it says all that it would ask, and
does nothing itself.

`Dialog.run` carries a dialog on with someone who replies out of a state, and collects the
questions; `Dialog.translate` replaces every question by a dialog about other questions. The laws
at the end say that asking in sequence is what it seems to be.
-/

namespace PipelineConfig

universe u

/-- A computation that asks questions of `Q`, each with replies of its own type. -/
inductive Dialog (Q : Type) (R : Q → Type) (α : Type u) : Type u
  | outcome (a : α)
  | ask (question : Q) (next : R question → Dialog Q R α)

namespace Dialog

variable {Q : Type} {R : Q → Type} {α β γ : Type}

/-- Go on with the outcome of a dialog. -/
protected def bind : Dialog Q R α → (α → Dialog Q R β) → Dialog Q R β
  | outcome a, f => f a
  | ask q next, f => ask q (fun r => (next r).bind f)

instance : Monad (Dialog Q R) where
  pure := outcome
  bind := Dialog.bind

/-- Ask one question; the outcome is the reply. -/
def question (q : Q) : Dialog Q R (R q) :=
  ask q outcome

/-- Carry a dialog on with someone who replies out of a state. -/
def runWith {σ : Type} (reply : (q : Q) → σ → R q × σ) : Dialog Q R α → σ → α × σ
  | outcome a, s => (a, s)
  | ask q next, s =>
    let (r, s) := reply q s
    (next r).runWith reply s

/-- Carry a dialog on with someone whose replies are fixed, and collect the questions. -/
def run (reply : (q : Q) → R q) : Dialog Q R α → α × List Q
  | outcome a => (a, [])
  | ask q next =>
    let (a, questions) := (next (reply q)).run reply
    (a, q :: questions)

/-- Carry a dialog on with someone who replies in a monad. -/
def carry {m : Type → Type} [Monad m] (reply : (q : Q) → m (R q)) : Dialog Q R α → m α
  | outcome a => pure a
  | ask q next => do
    let r ← reply q
    (next r).carry reply

/-- Replace every question by a dialog about other questions. -/
def translate {Q' : Type} {R' : Q' → Type} (f : (q : Q) → Dialog Q' R' (R q)) :
    Dialog Q R α → Dialog Q' R' α
  | outcome a => outcome a
  | ask q next => (f q).bind (fun r => (next r).translate f)

/-! ### Laws -/

theorem bind_outcome (d : Dialog Q R α) : d.bind outcome = d := by
  induction d with
  | outcome a => rfl
  | ask q next ih => exact congrArg (ask q) (funext ih)

theorem bind_assoc (d : Dialog Q R α) (f : α → Dialog Q R β) (g : β → Dialog Q R γ) :
    (d.bind f).bind g = d.bind (fun a => (f a).bind g) := by
  induction d with
  | outcome a => rfl
  | ask q next ih => exact congrArg (ask q) (funext ih)

theorem runWith_bind {σ : Type} (reply : (q : Q) → σ → R q × σ) (d : Dialog Q R α)
    (f : α → Dialog Q R β) (s : σ) :
    (d.bind f).runWith reply s
      = (f (d.runWith reply s).1).runWith reply (d.runWith reply s).2 := by
  induction d generalizing s with
  | outcome a => rfl
  | ask q next ih => exact ih (reply q s).1 (reply q s).2

theorem run_bind (reply : (q : Q) → R q) (d : Dialog Q R α) (f : α → Dialog Q R β) :
    (d.bind f).run reply
      = (((f (d.run reply).1).run reply).1,
        (d.run reply).2 ++ ((f (d.run reply).1).run reply).2) := by
  induction d with
  | outcome a => rfl
  | ask q next ih =>
    have h := ih (reply q)
    simp only [Dialog.bind, run, h, List.cons_append]

/-- Of two dialogs in a row the second has the outcome. -/
theorem run_bind_fst (reply : (q : Q) → R q) (d : Dialog Q R α) (f : α → Dialog Q R β) :
    ((d >>= f).run reply).1 = ((f (d.run reply).1).run reply).1 := by
  change ((d.bind f).run reply).1 = _
  rw [run_bind]

/-- Of two dialogs in a row all questions are asked. -/
theorem run_bind_snd (reply : (q : Q) → R q) (d : Dialog Q R α) (f : α → Dialog Q R β) :
    ((d >>= f).run reply).2 = (d.run reply).2 ++ ((f (d.run reply).1).run reply).2 := by
  change ((d.bind f).run reply).2 = _
  rw [run_bind]

end Dialog

end PipelineConfig
