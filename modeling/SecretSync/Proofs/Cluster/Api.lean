import SecretSync.Proofs.Effect.Keeping
import SecretSync.Proofs.Target.Stored

/-!
The cluster behind its calls. It may refuse any call, and then it stays as it is. What it does when it
accepts a call is not settled in every detail: it chooses the new version of a resource, and it may drop
a resource whose last finalizer is gone. Main statements: `ensures_call`, `maintains_call`.
-/

namespace SecretSync.Cluster

-- The finalizers in a body, as the operator reads them.
def finalizers (body : Value) : List Value :=
  match ((metadata body).member "finalizers").bind fun v => v.orEmpty.elements with
  | .ok items => items
  | .error _ => []

-- Whether a deletion of the resource has been asked for.
def isDeleting (body : Value) : Bool :=
  match (metadata body).member "deletionTimestamp" with
  | .ok .null => false
  | .ok _ => true
  | .error _ => false

inductive Stores (id : ResourceId) (body : Value) (c : Cluster) : Cluster → Prop
  | kept : Stores id body c { c with objects := c.objects.put id body }
  | dropped (deleting : isDeleting body = true) (free : finalizers body = []) :
      Stores id body c (c.removeObject id)

-- What a call does to the cluster that accepts it. The answer to a change of a resource tells anything.
def Accepts (c : Cluster) : (call : ClusterCall) → call.Answer → Cluster → Prop
  | .readSecret id, s, c' => c.secrets.get? id = some s ∧ c' = c
  | .createSecret id manifest, _, c' =>
    c.secrets.get? id = none ∧ c' = c.putSecret id (Secret.created manifest)
  | .patchSecret id patch, _, c' =>
    ∃ s, c.secrets.get? id = some s ∧ c' = c.putSecret id (patchedSecret s patch)
  | .deleteSecret id, _, c' =>
    c.secrets.get? id ≠ none ∧ c' = { c with secrets := c.secrets.remove id }
  | .getObject id, body, c' => c.objects.get? id = some body ∧ c' = c
  | .patchObject id patch, _, c' =>
    ∃ body version, c.objects.get? id = some body ∧ accepts body patch = true ∧
      Stores id (withVersion version (withFinalizers patch.finalizers body)) c c'

-- A cluster that others change too, and that refuses calls as it likes.
def api (others : Cluster → Cluster → Prop) (fails : Cluster → ClusterCall → Fault → Prop) :
    Api Cluster where
  changes := others
  replies c call
    | .ok answer, c' => Accepts c call answer c'
    | .error fault, c' => fails c call fault ∧ c' = c

-- What a call is about is not there.
def Lacks (c : Cluster) : ClusterCall → Prop
  | .readSecret id => c.secrets.get? id = none
  | .createSecret id _ => c.secrets.get? id = none
  | .patchSecret id _ => c.secrets.get? id = none
  | .deleteSecret id => c.secrets.get? id = none
  | .getObject id => c.objects.get? id = none
  | .patchObject id _ => c.objects.get? id = none

-- A cluster that nobody else changes, and that refuses a call just if what it is about is not there.
def honest : Api Cluster :=
  api Eq fun c call fault => c.Lacks call ∧ fault = notFound

-- Calls about resources leave the secrets alone.
theorem Accepts.secrets_eq {τ : Type} {c c' : Cluster} {call : ClusterCall} {answer : call.Answer}
    (h : Accepts c call answer c') (object : Call.IsObject (.cluster call : Call τ)) :
    c'.secrets = c.secrets := by
  cases call
  case getObject => exact congrArg _ h.right
  case patchObject =>
    have ⟨_, _, _, _, stored⟩ := h
    cases stored
    all_goals rfl
  all_goals exact object.elim

section

variable {τ σ : Type} {others : Cluster → Cluster → Prop} {fails : Cluster → ClusterCall → Fault → Prop}
  {s : σ} {w : World τ Cluster}

theorem ensures_call (call : ClusterCall) {ok : call.Answer → σ → World τ Cluster → Prop}
    {fail : Fault → σ → World τ Cluster → Prop} :
    (Op.cluster call : Op τ σ call.Answer).Ensures (api others fails) s w ok fail ↔
      ∀ before, others w.state before →
        (∀ answer after, Accepts before call answer after →
          ok answer s (w.next (.cluster call) (.ok answer) before after)) ∧
        ∀ fault, fails before call fault →
          fail fault s (w.next (.cluster call) (.error fault) before before) := by
  rw [Op.ensures_cluster]
  constructor
  case mp =>
    intro h before changed
    constructor
    case left => exact fun answer after accepted => h (.ok answer) before after changed accepted
    case right => exact fun fault failed => h (.error fault) before before changed ⟨failed, rfl⟩
  case mpr =>
    intro h reply before after changed replied
    have ⟨ok, fail⟩ := h before changed
    cases reply
    case ok answer => exact ok answer after replied
    case error fault =>
      have ⟨failed, same⟩ := replied
      subst same
      exact fail fault failed

theorem maintains_call {P : Cluster → Prop} {call : ClusterCall}
    {q : call.Answer → σ → World τ Cluster → Prop}
    (h : ∀ before, others w.state before → P before ∧ ∀ answer after, Accepts before call answer after →
      P after ∧ q answer s (w.next (.cluster call) (.ok answer) before after)) :
    (Op.cluster call : Op τ σ call.Answer).Maintains (api others fails) P s w q := by
  refine (ensures_call call).mpr fun before changed => ?_
  have ⟨held, accepts⟩ := h before changed
  constructor
  case left =>
    intro answer after accepted
    have ⟨held', post⟩ := accepts answer after accepted
    exact ⟨.next held held', post⟩
  case right => exact fun _ _ => .next held held

theorem maintains_attempt {P : Cluster → Prop} {call : ClusterCall}
    {q : Result call.Answer → σ → World τ Cluster → Prop}
    (h : ∀ before, others w.state before → P before ∧
      (∀ answer after, Accepts before call answer after →
        P after ∧ q (.ok answer) s (w.next (.cluster call) (.ok answer) before after)) ∧
      ∀ fault, fails before call fault →
        q (.error fault) s (w.next (.cluster call) (.error fault) before before)) :
    (Op.attempt (Op.cluster call) : Op τ σ _).Maintains (api others fails) P s w q := by
  refine (Op.ensures_attempt _).mpr ((ensures_call call).mpr fun before changed => ?_)
  have ⟨held, accepts, refuses⟩ := h before changed
  constructor
  case left =>
    intro answer after accepted
    have ⟨held', post⟩ := accepts answer after accepted
    exact ⟨.next held held', post⟩
  case right => exact fun fault failed => ⟨.next held held, refuses fault failed⟩

theorem run_accepted {call : ClusterCall} {answer : call.Answer} {before after : Cluster}
    (changed : others w.state before) (accepted : Accepts before call answer after) :
    (Op.cluster call : Op τ σ call.Answer).Run (api others fails) s w (.ok answer) s
      (w.next (.cluster call) (.ok answer) before after) :=
  .cluster changed accepted

theorem run_refused {call : ClusterCall} {fault : Fault} {before : Cluster}
    (changed : others w.state before) (failed : fails before call fault) :
    (Op.cluster call : Op τ σ call.Answer).Run (api others fails) s w (.error fault) s
      (w.next (.cluster call) (.error fault) before before) :=
  .cluster changed ⟨failed, rfl⟩

-- Secrets stay as they are while only resources are asked for.
theorem keeps_secrets_of_asks {α : Type} {op : Op τ σ α} (h : op.Asks Call.IsObject)
    {P : Table ResourceId Secret → Prop} (apart : ∀ {c c'}, others c c' → c'.secrets = c.secrets) :
    op.Keeps (api others fails) fun c => P c.secrets := by
  apply Op.Asks.keeps h fun changed hp => apart changed ▸ hp
  intro c call reply c' object replied hp
  cases reply
  case ok => exact replied.secrets_eq object ▸ hp
  case error => exact replied.right ▸ hp

end

end SecretSync.Cluster
