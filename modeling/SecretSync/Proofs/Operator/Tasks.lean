import SecretSync.Proofs.Operator.Handling

/-!
Everything that an operator can get to: it is called for one task after the other, and between two tasks
others may change the cluster. Main statement: `Reachable.keeps`.
-/

namespace SecretSync.Operator

-- What an operator is called for.
inductive Task
  | handle (body : Value)
  | resync (id : ResourceId)
  | react (event body : Value)

variable {τ κ : Type} [Timeline τ] (settings : Settings τ)

def Task.op : Task → Op τ (Memory τ) Unit
  | .handle body => do
    let _ ← Operator.handle settings body
  | .resync id => do
    let _ ← Operator.resync settings id
  | .react event body => onEvent settings event body

-- The memories and worlds that are reached from a cluster. `between` is what others may do to it
-- between two tasks, and `allowed` are the tasks that an operator may be called for.
inductive Reachable (api : Api κ) (between : κ → κ → Prop) (allowed : κ → Task → Prop) (start : κ) :
    Memory τ → World τ κ → Prop
  | start : Reachable api between allowed start .start ⟨start, []⟩
  | changed {m : Memory τ} {w : World τ κ} {k : κ} (h : Reachable api between allowed start m w)
      (change : between w.state k) : Reachable api between allowed start m { w with state := k }
  | ran {task : Task} {m m' : Memory τ} {w w' : World τ κ} {r : Result Unit}
      (h : Reachable api between allowed start m w) (isAllowed : allowed w.state task)
      (run : (task.op settings).Run api m w r m' w') : Reachable api between allowed start m' w'

variable {settings} {api : Api κ} {between : κ → κ → Prop} {allowed : κ → Task → Prop}
  {start : κ} {P : κ → Prop} {m : Memory τ} {w : World τ κ}

theorem Task.op_keepsFrom {task : Task}
    (handled : ∀ body, task = .handle body → (Operator.handle settings body).KeepsFrom api P m w)
    (resynced : ∀ id, task = .resync id → (Operator.resync settings id).KeepsFrom api P m w)
    (reacted : ∀ event body, task = .react event body →
      (onEvent settings event body).KeepsFrom api P m w) :
    (task.op settings).KeepsFrom api P m w := by
  cases task
  case handle body => exact .bind (handled body rfl) fun _ _ _ hw _ => .pure hw trivial
  case resync id => exact .bind (resynced id rfl) fun _ _ _ hw _ => .pure hw trivial
  case react event body => exact reacted event body rfl

-- What no task and nobody else makes false holds in all states.
theorem Reachable.keeps (first : P start) (change : ∀ {k k'}, between k k' → P k → P k')
    (task : ∀ {task m w}, allowed w.state task → P w.state → (task.op settings).KeepsFrom api P m w)
    (h : Reachable settings api between allowed start m w) :
    World.Keeps P ⟨start, []⟩ w := by
  induction h
  case start => exact .refl first
  case changed hi => exact ⟨change ‹_› hi.left, hi.right⟩
  case ran isAllowed run hi => exact hi.trans ((task isAllowed hi.left).kept run)

end SecretSync.Operator
