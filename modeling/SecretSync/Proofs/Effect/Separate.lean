import SecretSync.Proofs.Effect.Calls
import SecretSync.Proofs.Effect.Responder

/-!
A cluster in which resources have nothing to do with each other. What comes of a call depends on the call and on
what there is of the resource that it is about, and no other resource is touched. An operation about one
resource then comes to the same wherever there is the same of that resource. Main statement:
`Op.agrees_of_asks`.
-/

namespace SecretSync

variable {τ ς σ ρ α : Type}

-- What there is of a resource in the cluster: its secret and its body.
structure Holding where
  secret : Option Secret
  object : Option Value

-- `view` tells what there is of each resource. The clock stands still, and remote services answer every call
-- in one way.
structure Responder.Separates (responder : Responder τ ς) (view : ς → ResourceId → Holding)
    (told : (call : RemoteCall) → Result call.Answer) (time : τ) : Prop where
  tells   : responder.Tells told
  stopped : ∀ x, (responder .now x).1 = time
  outside : ∀ call x, ¬call.IsCluster → view (responder call x).2 = view x
  reply   : ∀ call x y, view x call.subject = view y call.subject →
    (responder (.cluster call) x).1 = (responder (.cluster call) y).1
  subject : ∀ call x y, view x call.subject = view y call.subject →
    view (responder (.cluster call) x).2 call.subject = view (responder (.cluster call) y).2 call.subject
  others  : ∀ call x other, (call.subject == other) = false →
    view (responder (.cluster call) x).2 other = view x other
  congr   : ∀ x id other, (id == other) = true → view x id = view x other

variable {responder : Responder τ ς} {view : ς → ResourceId → Holding}
  {told : (call : RemoteCall) → Result call.Answer} {time : τ} {id : ResourceId}

section

variable (separates : responder.Separates view told time)
include separates

theorem Responder.Separates.reply_eq {call : Call τ} (concerns : call.Concerns id) {x y : ς}
    (same : view x id = view y id) : (responder call x).1 = (responder call y).1 := by
  cases call
  case cluster call =>
    have concerns : call.subject = id := concerns
    subst concerns
    exact separates.reply call x y same
  case remote call => exact (separates.tells call x).trans (separates.tells call y).symm
  case now => exact (separates.stopped x).trans (separates.stopped y).symm
  case wait => rfl

theorem Responder.Separates.view_eq {call : Call τ} (concerns : call.Concerns id) {x y : ς}
    (same : view x id = view y id) : view (responder call x).2 id = view (responder call y).2 id := by
  by_cases inside : call.IsCluster
  case neg =>
    rw [separates.outside call x inside, separates.outside call y inside]
    exact same
  case pos =>
    cases call
    case cluster call =>
      have concerns : call.subject = id := concerns
      subst concerns
      exact separates.subject call x y same
    all_goals exact inside.elim

theorem Responder.Separates.others_eq {call : Call τ} (concerns : call.Concerns id) (x : ς) {other : ResourceId}
    (apart : (id == other) = false) : view (responder call x).2 other = view x other := by
  by_cases inside : call.IsCluster
  case neg => rw [separates.outside call x inside]
  case pos =>
    cases call
    case cluster call =>
      have concerns : call.subject = id := concerns
      exact separates.others call x other (concerns ▸ apart)
    all_goals exact inside.elim

-- A script about one resource comes to the same wherever there is the same of it, and leaves the same.
theorem Script.agrees_of_asks {script : Script (Call τ) Call.Reply α} (h : script.Asks (Call.Concerns id))
    {x y : ς} (same : view x id = view y id) :
    ∃ a x' y', (script.run responder).run x = (a, x') ∧ (script.run responder).run y = (a, y') ∧
      view x' id = view y' id ∧ ∀ other, (id == other) = false →
        view x' other = view x other ∧ view y' other = view y other := by
  induction script generalizing x y
  case done a => exact ⟨a, x, y, rfl, rfl, same, fun _ _ => ⟨rfl, rfl⟩⟩
  case ask call next hi =>
    have replied := separates.reply_eq h.left same
    have ⟨a, x', y', left, right, same', others⟩ :=
      hi (responder call x).1 (h.right _) (separates.view_eq h.left same)
    refine ⟨a, x', y', left, ?_, same', fun other apart => ?_⟩
    · rw [replied] at right
      exact right
    · have ⟨kept, kept'⟩ := others other apart
      exact ⟨kept.trans (separates.others_eq h.left x apart), kept'.trans (separates.others_eq h.left y apart)⟩

theorem Op.agrees_of_asks {op : Op τ σ α} (h : op.Asks (Call.Concerns id)) (s : σ) {x y : ς}
    (same : view x id = view y id) :
    ∃ r s' x' y', op.answered responder s x = ((r, s'), x') ∧ op.answered responder s y = ((r, s'), y') ∧
      view x' id = view y' id ∧ ∀ other, (id == other) = false →
        view x' other = view x other ∧ view y' other = view y other := by
  have ⟨(r, s'), x', y', reached⟩ := Script.agrees_of_asks separates (h s) same
  exact ⟨r, s', x', y', reached⟩

-- Nothing in the cluster is changed without a call to it.
theorem Op.Outside.view_eq {op : Op τ σ α} (h : op.Outside) {s s' : σ} {x x' : ς} {r : Result α}
    (reached : op.answered responder s x = ((r, s'), x')) : view x' = view x := by
  have unchanged {script : Script (Call τ) Call.Reply (Result α × σ)}
      (h : script.Asks fun call => ¬call.IsCluster) (x : ς) : view ((script.run responder).run x).2 = view x := by
    induction script generalizing x
    case done => rfl
    case ask call next hi => exact (hi _ (h.right _) _).trans (separates.outside call x h.left)
  have kept := unchanged (h s) x
  rw [Op.answered] at reached
  rwa [reached] at kept

end

theorem Op.answered_on (start : ρ) (op : Op τ ρ α) (s : σ) (x : ς) :
    (Op.on start op : Op τ σ (Result α × ρ)).answered responder s x =
      match op.answered responder start x with
      | (found, x') => ((.ok found, s), x') := by
  simp only [answered, script_on, Script.run_bind]
  rfl

end SecretSync
