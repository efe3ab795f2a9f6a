import SecretSync.Proofs.Effect.Calls

/-!
What an operation leaves of its own state, whatever it is told in reply to its calls. Main statement:
`Op.Leaves.ensures`.
-/

namespace SecretSync

variable {τ κ σ ρ γ α β : Type}

namespace Script

variable {Call : Type} {Reply : Call → Type}

-- Whatever the replies are, the script ends with something that satisfies `q`.
def Yields (q : α → Prop) : Script Call Reply α → Prop
  | .done a => q a
  | .ask _ next => ∀ reply, Yields q (next reply)

theorem Yields.mono {p q : α → Prop} {script : Script Call Reply α} (h : script.Yields p)
    (hpq : ∀ a, p a → q a) : script.Yields q := by
  induction script
  case done a => exact hpq a h
  case ask hi => exact fun reply => hi reply (h reply)

theorem Yields.of_forall {q : α → Prop} (script : Script Call Reply α) (h : ∀ a, q a) :
    script.Yields q := by
  induction script
  case done a => exact h a
  case ask hi => exact hi

theorem Yields.bind {q : β → Prop} {p : α → Prop} {script : Script Call Reply α}
    {f : α → Script Call Reply β} (h : script.Yields p) (hf : ∀ a, p a → (f a).Yields q) :
    (script >>= f).Yields q := by
  induction script
  case done a => exact hf a h
  case ask hi => exact fun reply => hi reply (h reply)

theorem Yields.of_run {W : Type} {answers : W → (call : Call) → Reply call → W → Prop}
    {q : α → Prop} {script : Script Call Reply α} {w w' : W} {a : α} (h : script.Yields q)
    (run : script.Run answers w a w') : q a := by
  induction run
  case done => exact h
  case ask hi => exact hi (h _)

end Script

namespace Op

-- The operation does not change what `f` tells of its state.
def Leaves (f : σ → γ) (op : Op τ σ α) : Prop :=
  ∀ s, (op.script s).Yields fun result => f result.2 = f s

namespace Leaves

variable {f : σ → γ}

theorem pure (a : α) : (pure a : Op τ σ α).Leaves f :=
  fun _ => rfl

theorem throw (fault : Fault) : (throw fault : Op τ σ α).Leaves f :=
  fun _ => rfl

theorem modify {g : σ → σ} (h : ∀ s, f (g s) = f s) : (modify g : Op τ σ Unit).Leaves f :=
  fun s => h s

theorem ofResult (r : Result α) : (ofResult r : Op τ σ α).Leaves f :=
  fun _ => rfl

theorem cluster (call : ClusterCall) : (cluster call : Op τ σ call.Answer).Leaves f :=
  fun _ _ => rfl

theorem now : (now : Op τ σ τ).Leaves f :=
  fun _ _ => rfl

theorem bind {op : Op τ σ α} {next : α → Op τ σ β} (h : op.Leaves f)
    (hn : ∀ a, (next a).Leaves f) : (op >>= next).Leaves f := by
  intro s
  rw [script_bind]
  refine (h s).bind fun ⟨r, s₁⟩ same => ?_
  cases r
  case error => exact same
  case ok a => exact (hn a s₁).mono fun _ same' => same'.trans same

theorem attempt {op : Op τ σ α} (h : op.Leaves f) : (attempt op).Leaves f :=
  fun s => (h s).bind fun _ same => same

theorem within {part : σ → ρ} {replace : ρ → σ → σ} {op : Op τ ρ α}
    (h : ∀ p s, f (replace p s) = f s) : (within part replace op).Leaves f :=
  fun s => (Script.Yields.of_forall (op.script (part s)) fun _ => trivial).bind fun _ _ => h _ s

theorem on {start : ρ} {op : Op τ ρ α} : (on start op : Op τ σ (Result α × ρ)).Leaves f :=
  fun _ => (Script.Yields.of_forall (op.script start) fun _ => trivial).bind fun _ _ => rfl

theorem ite {c : Prop} [Decidable c] {op₁ op₂ : Op τ σ α} (h₁ : op₁.Leaves f) (h₂ : op₂.Leaves f) :
    (if c then op₁ else op₂).Leaves f := by
  split <;> assumption

theorem of_run {api : Api κ} {op : Op τ σ α} (h : op.Leaves f) {s s' : σ} {w w' : World τ κ}
    {r : Result α} (run : op.Run api s w r s' w') : f s' = f s :=
  (h s).of_run run

theorem ensures {api : Api κ} {op : Op τ σ α} (h : op.Leaves f) (s : σ) (w : World τ κ) :
    op.Ensures api s w (fun _ s' _ => f s' = f s) fun _ s' _ => f s' = f s := by
  intro r s' w' run
  cases r
  all_goals exact h.of_run run

end Leaves
end Op

-- Reading and writing secrets leaves the state of any operation alone.

namespace Target

variable {f : σ → γ} (id : ResourceId) (content : Content)

theorem unlessRefused_leaves (status : Int) (result : Result α) :
    (unlessRefused status result : Op τ σ (Option α)).Leaves f := by
  cases result
  case ok => exact .pure _
  case error => exact .ite (.pure _) (.throw _)

theorem read_leaves : (read id : Op τ σ (Option Secret)).Leaves f :=
  .bind (.attempt (.cluster _)) fun _ => unlessRefused_leaves _ _

theorem create_leaves : (create id content : Op τ σ Unit).Leaves f :=
  .bind (.ofResult _) fun _ => .cluster _

theorem amend_leaves (existing : Option Secret) (given : Option Int) :
    (amend id content existing given : Op τ σ Unit).Leaves f := by
  have patched (n : Int) : Op.Leaves (τ := τ) f (do
      let patch ← Op.ofResult (Target.patch id content existing n)
      Op.cluster (.patchSecret id patch)) :=
    .bind (.ofResult _) fun _ => .cluster _
  cases given
  case none => exact .bind (.ofResult _) fun _ => .bind (.pure _) patched
  case some => exact .bind (.pure _) patched

theorem update_leaves (existing : Secret) : (update id content existing : Op τ σ Outcome).Leaves f :=
  .bind (.ofResult _) fun _ => .bind (.ofResult _) fun _ =>
    .ite (.pure _) (.bind (amend_leaves id content _ _) fun _ => .pure _)

theorem ensure_leaves (given : Option Secret) : (ensure id content given : Op τ σ Outcome).Leaves f := by
  cases given
  case none =>
    refine .bind (read_leaves id) fun existing => ?_
    cases existing
    case none => exact .bind (create_leaves id content) fun _ => .pure _
    case some => exact update_leaves id content _
  case some =>
    rw [ensure_some]
    exact update_leaves id content _

theorem remove_leaves : (remove id : Op τ σ Unit).Leaves f :=
  .bind (.attempt (.cluster _)) fun _ => .bind (unlessRefused_leaves _ _) fun _ => .pure _

end Target

namespace Reconcile

variable {f : Memory τ → γ}

theorem changeGuard_leaves (d : Declaration) (op : Op τ Snapshot Bool) : (changeGuard d op).Leaves f :=
  .bind .on fun _ => .ofResult _

end Reconcile

end SecretSync
