import SecretSync.Proofs.Effect.Leaves

/-!
Journals: what an operator was called for, one call after the other, and what came of each. Between two
calls others may change the cluster. Main statement: `resync_ensures`, which says what a resync comes to.
-/

namespace SecretSync.Operator

-- What an operator can be called for.
inductive Job (τ : Type)
  | handle (body : Value)
  | resync (id : ResourceId)
  | react (event body : Value)
  | schedule (id : ResourceId) (action : Action τ)
  | forget (id : ResourceId)

-- A call that was made, with the memory and the world before and after it.
structure Entry (τ κ : Type) where
  job    : Job τ
  before : Memory τ
  first  : World τ κ
  result : Result (Action τ)
  after  : Memory τ
  last   : World τ κ

variable {τ κ : Type} [Timeline τ] (settings : Settings τ)

-- What is done about a resource that is gone: nothing is kept of it until its next change.
def dismiss (id : ResourceId) : Op τ (Memory τ) (Action τ) := do
  forget id
  pure .awaitChange

-- What is done about a resource that cannot be fetched.
def retry (id : ResourceId) : Op τ (Memory τ) (Action τ) := do
  let action ← Reconcile.failed settings
  schedule id action
  pure action

def unfetched (id : ResourceId) (fault : Fault) : Op τ (Memory τ) (Action τ) :=
  match fault.status? with
  | none => throw fault
  | some status => if status = 404 then dismiss id else retry settings id

theorem resync_eq (id : ResourceId) : resync settings id = (do
    match ← Op.attempt (Op.cluster (.getObject id)) with
    | .ok body => handle settings body
    | .error fault => unfetched settings id fault) :=
  rfl

-- What comes of fetching a resource.
abbrev Fetches (api : Api κ) (m : Memory τ) (w : World τ κ) (id : ResourceId) (found : Result Value)
    (w₁ : World τ κ) : Prop :=
  (Op.cluster (.getObject id) : Op τ (Memory τ) Value).Run api m w found m w₁

section

variable {settings} {api : Api κ} {m : Memory τ} {w : World τ κ} {id : ResourceId}
  {q : Action τ → Memory τ → World τ κ → Prop} {e : Fault → Memory τ → World τ κ → Prop}

-- The resource is handled as it was fetched, dismissed if it is gone, and tried again later if fetching it was
-- refused for another reason. If nothing is known of it, nothing is done.
theorem resync_ensures
    (fetched : ∀ body w₁, Fetches api m w id (.ok body) w₁ → (handle settings body).Ensures api m w₁ q e)
    (gone : ∀ fault w₁, Fetches api m w id (.error fault) w₁ → fault.status? = some 404 →
      (dismiss id).Ensures api m w₁ q e)
    (refused : ∀ fault w₁ status, Fetches api m w id (.error fault) w₁ → fault.status? = some status →
      status ≠ 404 → (retry settings id).Ensures api m w₁ q e)
    (lost : ∀ fault w₁, Fetches api m w id (.error fault) w₁ → fault.status? = none → e fault m w₁) :
    (resync settings id).Ensures api m w q e := by
  simp only [resync_eq, Op.ensures_bind, Op.ensures_attempt]
  have leaves : (Op.cluster (.getObject id) : Op τ (Memory τ) Value).Leaves fun m => m := .cluster _
  apply ((Op.Ensures.of_run _ m w).and (leaves.ensures m w)).mono
  case hok =>
    rintro body m₁ w₁ ⟨read, same⟩
    subst same
    exact fetched body w₁ read
  case hfail =>
    rintro fault m₁ w₁ ⟨failed, same⟩
    subst same
    simp only [unfetched]
    split
    case h_1 none => exact (Op.ensures_throw fault).mpr (lost fault w₁ failed none)
    case h_2 status told =>
      split
      case isTrue missing => exact gone fault w₁ failed (missing ▸ told)
      case isFalse other => exact refused fault w₁ status failed told other

end

-- What is done about the resource that a body names, when that is gone.
def dismissNamed (body : Value) : Op τ (Memory τ) (Action τ) := do
  let metadata := (← Op.ofResult (body.member "metadata")).orEmpty
  let (name, namespaceName) ← Op.ofResult (Declaration.nameOfBody metadata)
  dismiss (← Op.ofResult (Declaration.nameOnly name namespaceName).id)

-- What is done about an event, with the action that it comes to.
def reaction (event body : Value) : Op τ (Memory τ) (Action τ) := do
  if (← Op.ofResult (event.member "type")).same deleted then dismissNamed body
  else handle settings body

theorem onEvent_eq (event body : Value) : onEvent settings event body = (do
    let _ ← reaction settings event body
    pure ()) := by
  simp only [onEvent, reaction, bind_assoc]
  apply bind_congr
  intro kind
  split
  case isTrue => simp [dismissNamed, dismiss]
  case isFalse => rfl

def Job.op : Job τ → Op τ (Memory τ) (Action τ)
  | .handle body => Operator.handle settings body
  | .resync id => Operator.resync settings id
  | .react event body => reaction settings event body
  | .schedule id action => do
    Operator.schedule id action
    pure action
  | .forget id => dismiss id

-- The newest entry comes first. `between` is what others may do to the cluster between two calls.
inductive Journal (api : Api κ) (between : κ → κ → Prop) (start : κ) :
    List (Entry τ κ) → Memory τ → World τ κ → Prop
  | blank : Journal api between start [] .start ⟨start, []⟩
  | changed {entries : List (Entry τ κ)} {m : Memory τ} {w : World τ κ} {k : κ}
      (h : Journal api between start entries m w) (change : between w.state k) :
      Journal api between start entries m { w with state := k }
  | done {entries : List (Entry τ κ)} {job : Job τ} {m m' : Memory τ} {w w' : World τ κ}
      {r : Result (Action τ)} (h : Journal api between start entries m w)
      (run : (job.op settings).Run api m w r m' w') :
      Journal api between start (⟨job, m, w, r, m', w'⟩ :: entries) m' w'

-- An event that the operator reacts to makes an entry.
theorem Journal.reacted {settings : Settings τ} {api : Api κ} {between : κ → κ → Prop} {start : κ}
    {entries : List (Entry τ κ)} {m m' : Memory τ} {w w' : World τ κ} {event body : Value} {r : Result Unit}
    (h : Journal settings api between start entries m w)
    (run : (onEvent settings event body).Run api m w r m' w') :
    ∃ r', r = r'.map (fun _ => ()) ∧
      Journal settings api between start (⟨.react event body, m, w, r', m', w'⟩ :: entries) m' w' := by
  rw [onEvent_eq] at run
  obtain ⟨r', eq, run⟩ := Op.Run.of_map run
  have run : ((Job.react event body).op settings).Run api m w r' m' w' := run
  exact ⟨r', eq, h.done run⟩

end SecretSync.Operator
