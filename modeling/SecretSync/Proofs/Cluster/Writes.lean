import SecretSync.Proofs.Cluster.Guarded

/-!
Writes to secrets, counted. An operation that writes no secret and takes no guard away leaves both as they
are, whatever is refused. Main statement: `Op.Asks.still`.
-/

namespace SecretSync

open Cluster (Accepts IsGuarded Stores)

variable {τ σ κ α : Type}

namespace ClusterCall

-- A change of a resource has to leave it with the guard.
def LeavesGuard : ClusterCall → Prop
  | patchObject _ patch => ∃ items, patch.finalizers = some items ∧ .text defaultFinalizer ∈ items
  | _ => True

def WritesSecret : ClusterCall → Prop
  | createSecret _ _ => True
  | patchSecret _ _ => True
  | deleteSecret _ => True
  | _ => False

end ClusterCall

namespace Call

def LeavesGuard : Call τ → Prop
  | .cluster call => call.LeavesGuard
  | _ => True

def WritesSecret : Call τ → Prop
  | .cluster call => call.WritesSecret
  | _ => False

-- The calls that spare both secrets and guards.
def IsMild (call : Call τ) : Prop :=
  call.LeavesGuard ∧ ¬call.WritesSecret

variable {call : Call τ}

theorem isMild_of_not_isCluster (h : ¬call.IsCluster) : call.IsMild := by
  cases call
  case cluster => exact absurd trivial h
  all_goals exact ⟨trivial, fun h => h⟩

theorem IsObject.not_writesSecret (h : call.IsObject) : ¬call.WritesSecret := by
  cases call
  case cluster call =>
    cases call
    case getObject => exact fun h => h
    case patchObject => exact fun h => h
    all_goals exact h.elim
  all_goals exact h.elim

theorem IsChange.isMild {id : ResourceId} (h : call.IsChange id (Guard.addition defaultFinalizer)) :
    call.IsMild := by
  refine ⟨?_, h.isObject.not_writesSecret⟩
  cases call
  case cluster call =>
    cases call
    case patchObject =>
      have ⟨_, s, eq⟩ := h
      subst eq
      exact ⟨_, rfl, Guard.mem_added ..⟩
    all_goals exact trivial
  all_goals exact trivial

end Call

namespace Step

-- The writes that were accepted.

def isFill : Step τ κ → Bool
  | ⟨.cluster (.createSecret _ _), .ok _, _, _⟩ => true
  | ⟨.cluster (.patchSecret _ _), .ok _, _, _⟩ => true
  | _ => false

def isRemoval : Step τ κ → Bool
  | ⟨.cluster (.deleteSecret _), .ok _, _, _⟩ => true
  | _ => false

variable {step : Step τ κ}

theorem isFill_eq_false (h : ¬step.call.WritesSecret) : step.isFill = false := by
  cases fill : step.isFill
  case false => rfl
  case true =>
    simp only [isFill] at fill
    split at fill
    · exact absurd trivial h
    · exact absurd trivial h
    · cases fill

theorem isRemoval_eq_false (h : ¬step.call.WritesSecret) : step.isRemoval = false := by
  cases removal : step.isRemoval
  case false => rfl
  case true =>
    simp only [isRemoval] at removal
    split at removal
    · exact absurd trivial h
    · cases removal

end Step

namespace World

def fills (w : World τ κ) : Nat :=
  w.steps.countP Step.isFill

def removals (w : World τ κ) : Nat :=
  w.steps.countP Step.isRemoval

variable {w w' : World τ κ}

theorem Through.countP_eq {p : Step τ κ → Bool} (h : w.Through (fun step => p step = false) w') :
    w'.steps.countP p = w.steps.countP p := by
  have ⟨steps, eq, each⟩ := h
  have none : steps.countP p = 0 := List.countP_eq_zero.mpr fun step mem => by simp [each step mem]
  simp [eq, none]

theorem Through.fills_eq (h : w.Through (fun step => ¬step.call.WritesSecret) w') : w'.fills = w.fills :=
  (h.mono fun _ => Step.isFill_eq_false).countP_eq

theorem Through.removals_eq (h : w.Through (fun step => ¬step.call.WritesSecret) w') :
    w'.removals = w.removals :=
  (h.mono fun _ => Step.isRemoval_eq_false).countP_eq

end World

namespace Cluster

variable {c c' : Cluster} {id : ResourceId}

theorem hasMetadata_of_mem_finalizers {body v : Value} (h : v ∈ finalizers body) :
    ∃ members, HasMetadata body members := by
  cases told : metadata body
  case object members => exact ⟨members, .of_metadata told⟩
  all_goals
    simp only [finalizers, told] at h
    cases h

theorem Accepts.secrets_eq_of_not_writesSecret {call : ClusterCall} {answer : call.Answer}
    (h : Accepts c call answer c') (spares : ¬call.WritesSecret) : c'.secrets = c.secrets := by
  cases call
  case readSecret => exact congrArg _ h.right
  case getObject | patchObject => exact h.secrets_eq (τ := Unit) trivial
  all_goals exact absurd trivial spares

-- While a secret is written, resources stay as they are.
theorem Accepts.objects_eq {call : ClusterCall} {answer : call.Answer} (h : Accepts c call answer c')
    (apart : ¬(.cluster call : Call τ).IsObject) : c'.objects = c.objects := by
  cases call
  case getObject => exact absurd trivial apart
  case patchObject => exact absurd trivial apart
  case patchSecret =>
    have ⟨_, _, eq⟩ := h
    exact eq ▸ rfl
  all_goals exact h.right ▸ rfl

-- A resource with the guard cannot be dropped, and keeps it if what is written has it.
theorem IsGuarded.accepts {call : ClusterCall} {answer : call.Answer} (h : c.IsGuarded id)
    (leaves : call.LeavesGuard) (accepted : Accepts c call answer c') : c'.IsGuarded id := by
  have ⟨body, found, guard⟩ := h
  cases call
  case readSecret => exact accepted.right ▸ h
  case getObject => exact accepted.right ▸ h
  case createSecret => exact accepted.right ▸ h
  case patchSecret =>
    have ⟨_, _, eq⟩ := accepted
    exact eq ▸ h
  case deleteSecret => exact accepted.right ▸ h
  case patchObject own patch =>
    have ⟨changed, version, found', _, stored⟩ := accepted
    have ⟨items, eq, guard'⟩ := leaves
    cases same : own == id
    case true =>
      rw [Table.get?_congr same, found] at found'
      cases found'
      have ⟨_, metadata⟩ := hasMetadata_of_mem_finalizers guard
      have written : finalizers (withVersion version (withFinalizers patch.finalizers body)) = items :=
        eq ▸ finalizers_patched metadata
      cases stored
      case kept => exact ⟨_, by simp [Table.get?_put, same], written ▸ guard'⟩
      case dropped free =>
        rw [← written, free] at guard'
        cases guard'
    case false =>
      refine ⟨body, ?_, guard⟩
      cases stored
      case kept => simpa [Table.get?_put, same] using found
      case dropped => exact (Table.get?_remove_of_ne same).trans found

end Cluster

namespace World

-- Secrets are as they were, and none was written.
structure Unwritten (w w' : World τ Cluster) : Prop where
  secrets  : w'.state.secrets = w.state.secrets
  fills    : w'.fills = w.fills
  removals : w'.removals = w.removals

-- No guard has gone either.
structure Still (w w' : World τ Cluster) : Prop extends Unwritten w w' where
  guard : ∀ {id}, w.state.IsGuarded id → w'.state.IsGuarded id

variable {w w₁ w₂ w₃ : World τ Cluster}

theorem Unwritten.trans (h₁ : Unwritten w₁ w₂) (h₂ : Unwritten w₂ w₃) : Unwritten w₁ w₃ where
  secrets := h₂.secrets.trans h₁.secrets
  fills := h₂.fills.trans h₁.fills
  removals := h₂.removals.trans h₁.removals

namespace Still

theorem refl (w : World τ Cluster) : Still w w :=
  ⟨⟨rfl, rfl, rfl⟩, fun h => h⟩

theorem trans (h₁ : Still w₁ w₂) (h₂ : Still w₂ w₃) : Still w₁ w₃ :=
  ⟨h₁.toUnwritten.trans h₂.toUnwritten, fun held => h₂.guard (h₁.guard held)⟩

end Still
end World

variable {fails : Cluster → ClusterCall → Fault → Prop} {s s' : σ} {w w' : World τ Cluster} {r : Result α}

theorem Op.Asks.unwritten {op : Op τ σ α} (h : op.Asks fun call => ¬call.WritesSecret)
    (run : op.Run (Cluster.api Eq fails) s w r s' w') : w.Unwritten w' := by
  have secrets : op.Keeps (Cluster.api Eq fails) fun c => c.secrets = w.state.secrets := by
    apply Op.Asks.keeps h fun same held => same ▸ held
    intro c call reply c' spares replied held
    cases reply
    case error => exact replied.right ▸ held
    case ok => exact (replied.secrets_eq_of_not_writesSecret spares).trans held
  have through := h.through run
  exact ⟨((secrets s w rfl).kept run).left, through.fills_eq, through.removals_eq⟩

theorem Op.Asks.still {op : Op τ σ α} (h : op.Asks Call.IsMild)
    (run : op.Run (Cluster.api Eq fails) s w r s' w') : w.Still w' := by
  have guard {id : ResourceId} : op.Keeps (Cluster.api Eq fails) fun c => c.IsGuarded id := by
    apply Op.Asks.keeps h fun same held => same ▸ held
    intro c call reply c' mild replied held
    cases reply
    case error => exact replied.right ▸ held
    case ok => exact held.accepts mild.left replied
  have spares : op.Asks fun call => ¬call.WritesSecret := h.mono fun _ mild => mild.right
  exact ⟨spares.unwritten run, fun held => ((guard s w held).kept run).left⟩

theorem Op.Outside.still {op : Op τ σ α} (h : op.Outside)
    (run : op.Run (Cluster.api Eq fails) s w r s' w') : w.Still w' :=
  Op.Asks.still (h.mono fun _ => Call.isMild_of_not_isCluster) run

end SecretSync
