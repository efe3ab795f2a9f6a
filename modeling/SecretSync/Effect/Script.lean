/-!
Scripts: programs as values. A script is either done, or it makes a call and goes on with the reply.
What a call means is left to whoever runs the script, so the same script runs against a real service
and against a model of it. Main statements: scripts form a lawful monad, and running them respects it.
-/

namespace SecretSync

inductive Script (Call : Type) (Reply : Call → Type) (α : Type) where
  | done (a : α)
  | ask (call : Call) (next : Reply call → Script Call Reply α)

namespace Script

variable {Call : Type} {Reply : Call → Type} {α β γ : Type}

def bind : Script Call Reply α → (α → Script Call Reply β) → Script Call Reply β
  | done a, f => f a
  | ask call next, f => ask call fun reply => bind (next reply) f

instance : Monad (Script Call Reply) where
  pure := done
  bind := bind

theorem bind_done (s : Script Call Reply α) : bind s done = s := by
  induction s with
  | done a => rfl
  | ask call next ih => simp [bind, ih]

theorem bind_assoc (s : Script Call Reply α) (f : α → Script Call Reply β)
    (g : β → Script Call Reply γ) : bind (bind s f) g = bind s fun a => bind (f a) g := by
  induction s with
  | done a => rfl
  | ask call next ih => simp [bind, ih]

instance : LawfulMonad (Script Call Reply) := LawfulMonad.mk' (Script Call Reply)
  bind_done
  (fun _ _ => rfl)
  bind_assoc

def call (c : Call) : Script Call Reply (Reply c) := ask c done

def run {m : Type → Type} [Monad m] (answer : (c : Call) → m (Reply c)) :
    Script Call Reply α → m α
  | done a => pure a
  | ask c next => do run answer (next (← answer c))

variable {m : Type → Type} [Monad m] (answer : (c : Call) → m (Reply c))

@[simp]
theorem run_pure (a : α) : run answer (pure a : Script Call Reply α) = pure a := rfl

@[simp]
theorem run_bind [LawfulMonad m] (s : Script Call Reply α) (f : α → Script Call Reply β) :
    run answer (s >>= f) = run answer s >>= fun a => run answer (f a) := by
  induction s with
  | done a => simp [Bind.bind, bind, run]
  | ask c next ih =>
    have unfolded : (ask c next >>= f) = ask c fun reply => next reply >>= f := rfl
    rw [unfolded]
    simp only [run, LawfulMonad.bind_assoc, ih]

@[simp]
theorem run_call [LawfulMonad m] (c : Call) : run answer (call c) = answer c := by
  simp [call, run]

end Script

end SecretSync
