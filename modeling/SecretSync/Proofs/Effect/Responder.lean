import Mathlib.Tactic.Choose
import SecretSync.Proofs.Effect.Run

/-!
Operations whose calls are answered by a responder. A responder may remember what it was asked, but it
leaves no choice, so an operation comes to one result, which is that of one of its runs. Main statements:
`Op.exists_run`, and for each way of building an operation a rule `Op.Computes.…` on what it computes from
every state that an invariant allows.
-/

namespace SecretSync

-- `ς` is what the responder remembers. Any course of answers is the one that some responder gives.
abbrev Responder (τ ς : Type) := (call : Call τ) → StateM ς call.Reply

-- Every remote call is answered in one way, whatever was asked before.
def Responder.Tells {τ ς : Type} (responder : Responder τ ς)
    (told : (call : RemoteCall) → Result call.Answer) : Prop :=
  ∀ call m, (responder (.remote call) m).1 = told call

-- A cluster that may do anything.
def Api.any {κ : Type} : Api κ where
  changes _ _ := True
  replies _ _ _ _ := True

-- `view` is the cluster as a responder remembers it. Its replies are those of `api` as long as it stays fine.
structure Responder.Serves {τ ς κ : Type} (responder : Responder τ ς) (api : Api κ) (view : ς → κ)
    (fine : ς → Prop) : Prop where
  before  : ∀ call m, fine (responder call m).2 → fine m
  answers : ∀ call m (w : World τ κ), w.state = view m → fine (responder call m).2 →
    ∃ w', World.Answers api w call (responder call m).1 w' ∧ w'.state = view (responder call m).2

theorem Responder.serves_any {τ ς κ : Type} (responder : Responder τ ς) (k : κ) :
    responder.Serves .any (fun _ => k) fun _ => True where
  before _ _ _ := trivial
  answers call m w same _ := by
    have changed : Api.any.changes w.state k := trivial
    cases call
    case cluster call =>
      have replied : Api.any.replies k call (responder (.cluster call) m).1 k := trivial
      exact ⟨_, .cluster changed replied, rfl⟩
    case remote => exact ⟨_, .remote changed, rfl⟩
    case now => exact ⟨_, .now changed, rfl⟩
    case wait => exact ⟨_, .wait changed, rfl⟩

namespace Responder.Serves

variable {τ ς κ α : Type} {responder : Responder τ ς} {api : Api κ} {view : ς → κ} {fine : ς → Prop}
  (serves : responder.Serves api view fine)
include serves

theorem before_run (script : Script (Call τ) Call.Reply α) (m : ς)
    (h : fine ((script.run responder).run m).2) : fine m := by
  induction script generalizing m
  case done => exact h
  case ask call _ hi => exact serves.before call m (hi _ _ h)

-- What such a responder answers is a run.
theorem exists_run (script : Script (Call τ) Call.Reply α) {w : World τ κ} {m : ς} (same : w.state = view m)
    (h : fine ((script.run responder).run m).2) :
    ∃ w', script.Run (World.Answers api) w ((script.run responder).run m).1 w' ∧
      w'.state = view ((script.run responder).run m).2 := by
  induction script generalizing w m
  case done => exact ⟨w, .done, same⟩
  case ask call next hi =>
    have first : fine (responder call m).2 := serves.before_run (next (responder call m).1) _ h
    have ⟨w₁, answered, same⟩ := serves.answers call m w same first
    have ⟨w', rest, same⟩ := hi (responder call m).1 same h
    exact ⟨w', .ask answered rest, same⟩

end Responder.Serves

namespace Op

variable {τ σ ρ ς α β : Type} (responder : Responder τ ς)

-- What an operation comes to, with the state that it leaves and what the responder remembers then.
def answered (op : Op τ σ α) (s : σ) (m : ς) : (Result α × σ) × ς :=
  ((op.script s).run responder).run m

def result (op : Op τ σ α) (s : σ) (m : ς) : Result α :=
  (op.answered responder s m).1.1

variable {s s' : σ} {m m' : ς}

theorem exists_run_of_serves {κ : Type} {api : Api κ} {view : ς → κ} {fine : ς → Prop} {op : Op τ σ α}
    {r : Result α} {w : World τ κ} (serves : responder.Serves api view fine)
    (h : op.answered responder s m = ((r, s'), m')) (same : w.state = view m) (left : fine m') :
    ∃ w', op.Run api s w r s' w' ∧ w'.state = view m' := by
  have eq : ((op.script s).run responder).run m = ((r, s'), m') := h
  have ⟨w', run, same⟩ := serves.exists_run (op.script s) same (eq ▸ left)
  rw [eq] at run same
  exact ⟨w', run, same⟩

theorem exists_run {κ : Type} {op : Op τ σ α} {r : Result α} (w : World τ κ)
    (h : op.answered responder s m = ((r, s'), m')) : ∃ w', op.Run .any s w r s' w' :=
  have ⟨w', run, _⟩ := exists_run_of_serves responder (responder.serves_any w.state) h rfl trivial
  ⟨w', run⟩

theorem answered_of_script_eq {op : Op τ σ α} {r : Result α} (h : op.script s = pure (r, s')) :
    op.answered responder s m = ((r, s'), m) := by
  rw [answered, h]
  rfl

@[simp]
theorem answered_pure (a : α) : (pure a : Op τ σ α).answered responder s m = ((.ok a, s), m) :=
  answered_of_script_eq responder (script_pure s a)

@[simp]
theorem answered_get : (get : Op τ σ σ).answered responder s m = ((.ok s, s), m) :=
  answered_of_script_eq responder (script_get s)

@[simp]
theorem answered_modify (f : σ → σ) :
    (modify f : Op τ σ Unit).answered responder s m = ((.ok (), f s), m) :=
  answered_of_script_eq responder (script_modify s f)

@[simp]
theorem answered_ofResult (r : Result α) :
    (ofResult r : Op τ σ α).answered responder s m = ((r, s), m) :=
  answered_of_script_eq responder (script_ofResult s r)

@[simp]
theorem answered_cluster (call : ClusterCall) :
    (cluster call : Op τ σ call.Answer).answered responder s m =
      (((responder (.cluster call) m).1, s), (responder (.cluster call) m).2) :=
  rfl

@[simp]
theorem answered_remote (call : RemoteCall) :
    (remote call : Op τ σ call.Answer).answered responder s m =
      (((responder (.remote call) m).1, s), (responder (.remote call) m).2) :=
  rfl

@[simp]
theorem answered_now :
    (now : Op τ σ τ).answered responder s m =
      ((.ok (responder .now m).1, s), (responder .now m).2) :=
  rfl

@[simp]
theorem answered_wait (duration : τ) :
    (wait duration : Op τ σ Unit).answered responder s m =
      ((.ok (), s), (responder (.wait duration) m).2) :=
  rfl

theorem answered_bind (op : Op τ σ α) (f : α → Op τ σ β) :
    (op >>= f).answered responder s m =
      match op.answered responder s m with
      | ((.ok a, s'), m') => (f a).answered responder s' m'
      | ((.error fault, s'), m') => ((.error fault, s'), m') := by
  simp only [answered, script_bind, Script.run_bind, StateT.run_bind]
  generalize ((op.script s).run responder).run m = reached
  obtain ⟨⟨_ | _, _⟩, _⟩ := reached
  all_goals rfl

theorem exists_of_answered_bind {responder : Responder τ ς} {op : Op τ σ α} {f : α → Op τ σ β} {b : β}
    (h : (op >>= f).answered responder s m = ((.ok b, s'), m')) :
    ∃ a s₁ m₁, op.answered responder s m = ((.ok a, s₁), m₁) ∧
      (f a).answered responder s₁ m₁ = ((.ok b, s'), m') := by
  rw [answered_bind] at h
  rcases reached : op.answered responder s m with ⟨⟨fault | a, s₁⟩, m₁⟩
  all_goals rw [reached] at h
  case error => cases h
  case ok => exact ⟨a, s₁, m₁, rfl, h⟩

theorem answered_attempt (op : Op τ σ α) :
    (attempt op).answered responder s m =
      match op.answered responder s m with
      | ((r, s'), m') => ((.ok r, s'), m') := by
  simp only [answered, script_attempt, Script.run_bind]
  rfl

theorem answered_within (part : σ → ρ) (replace : ρ → σ → σ) (op : Op τ ρ α) :
    (within part replace op).answered responder s m =
      match op.answered responder (part s) m with
      | ((r, p), m') => ((r, replace p s), m') := by
  simp only [answered, script_within, Script.run_bind]
  rfl

-- The operation comes to `r`, and `J` holds of what it leaves.
def Comes (op : Op τ σ α) (s : σ) (m : ς) (r : Result α) (J : σ → ς → Prop) : Prop :=
  ∃ s' m', op.answered responder s m = ((r, s'), m') ∧ J s' m'

-- From every state that `I` allows the operation comes to `r`, and leaves such a state.
def Computes (I : σ → ς → Prop) (op : Op τ σ α) (r : Result α) : Prop :=
  ∀ s m, I s m → op.Comes responder s m r I

variable {responder} {I J : σ → ς → Prop}

namespace Comes

variable {op : Op τ σ α} {f : α → Op τ σ β} {r : Result α}

theorem result_eq (h : op.Comes responder s m r J) : op.result responder s m = r := by
  have ⟨_, _, reached, _⟩ := h
  rw [result, reached]

theorem of_script_eq (h : op.script s = pure (r, s')) (left : J s' m) :
    op.Comes responder s m r J :=
  ⟨s', m, answered_of_script_eq responder h, left⟩

theorem pure {a : α} (left : J s m) : (pure a : Op τ σ α).Comes responder s m (.ok a) J :=
  of_script_eq rfl left

theorem bind {r' : Result β} {I : σ → ς → Prop} (h : op.Comes responder s m r I)
    (ok : ∀ a, r = .ok a → ∀ s m, I s m → (f a).Comes responder s m r' J)
    (error : ∀ fault, r = .error fault → r' = .error fault ∧ ∀ s m, I s m → J s m) :
    (op >>= f).Comes responder s m r' J := by
  have ⟨s₁, m₁, reached, left⟩ := h
  rw [Comes, answered_bind, reached]
  cases r
  case ok a => exact ok a rfl s₁ m₁ left
  case error fault =>
    have ⟨eq, weaker⟩ := error fault rfl
    subst eq
    exact ⟨s₁, m₁, rfl, weaker s₁ m₁ left⟩

theorem bind_ok {a : α} {r' : Result β} {I : σ → ς → Prop} (h : op.Comes responder s m (.ok a) I)
    (next : ∀ s m, I s m → (f a).Comes responder s m r' J) : (op >>= f).Comes responder s m r' J := by
  apply h.bind
  case ok =>
    intro _ eq
    cases eq
    exact next
  case error => exact fun _ eq => nomatch eq

theorem get_bind {f : σ → Op τ σ β} {r : Result β} (h : (f s).Comes responder s m r J) :
    (get >>= f).Comes responder s m r J := by
  rw [Comes, answered_bind, answered_get]
  exact h

theorem modify_bind {g : σ → σ} {f : Unit → Op τ σ β} {r : Result β}
    (h : (f ()).Comes responder (g s) m r J) : ((modify g : Op τ σ Unit) >>= f).Comes responder s m r J := by
  rw [Comes, answered_bind, answered_modify]
  exact h

theorem modify {f : σ → σ} (left : J (f s) m) :
    (modify f : Op τ σ Unit).Comes responder s m (.ok ()) J :=
  of_script_eq (script_modify s f) left

theorem now_bind {f : τ → Op τ σ β} {r : Result β}
    (h : (f (responder .now m).1).Comes responder s (responder .now m).2 r J) :
    (now >>= f).Comes responder s m r J := by
  rw [Comes, answered_bind, answered_now]
  exact h

theorem ofResult_bind {r : Result α} {r' : Result β}
    (ok : ∀ a, r = .ok a → (f a).Comes responder s m r' J)
    (error : ∀ fault, r = .error fault → r' = .error fault ∧ J s m) :
    (ofResult r >>= f).Comes responder s m r' J := by
  rw [Comes, answered_bind, answered_ofResult]
  cases r
  case ok a => exact ok a rfl
  case error fault =>
    have ⟨eq, left⟩ := error fault rfl
    subst eq
    exact ⟨s, m, rfl, left⟩

theorem attempt (h : op.Comes responder s m r J) : (attempt op).Comes responder s m (.ok r) J :=
  have ⟨s', m', reached, left⟩ := h
  ⟨s', m', by rw [answered_attempt, reached], left⟩

theorem within {part : σ → ρ} {replace : ρ → σ → σ} {op : Op τ ρ α} {J : ρ → ς → Prop}
    (h : op.Comes responder (part s) m r J) :
    (within part replace op).Comes responder s m r fun s' m' => ∃ p, s' = replace p s ∧ J p m' :=
  have ⟨p, m', reached, left⟩ := h
  ⟨replace p s, m', by rw [answered_within, reached], p, rfl, left⟩

end Comes

theorem computes_of_script_eq {op : Op τ σ α} {r : Result α} (h : ∀ s, op.script s = pure (r, s)) :
    op.Computes responder I r :=
  fun s _ allowed => Comes.of_script_eq (h s) allowed

theorem computes_pure (a : α) : (pure a : Op τ σ α).Computes responder I (.ok a) :=
  computes_of_script_eq fun _ => rfl

theorem computes_throw (fault : Fault) : (throw fault : Op τ σ α).Computes responder I (.error fault) :=
  computes_of_script_eq fun _ => rfl

theorem computes_ofResult (r : Result α) : (ofResult r : Op τ σ α).Computes responder I r :=
  computes_of_script_eq fun _ => rfl

theorem computes_remote {told : (call : RemoteCall) → Result call.Answer} (tells : responder.Tells told)
    {I : σ → Prop} (call : RemoteCall) :
    (remote call : Op τ σ call.Answer).Computes responder (fun s _ => I s) (told call) :=
  fun s m allowed => ⟨s, (responder (.remote call) m).2, by rw [answered_remote, tells], allowed⟩

namespace Computes

variable {op : Op τ σ α} {r : Result α}

theorem unique {r' : Result α} (h : op.Computes responder I r) (h' : op.Computes responder I r')
    (allowed : I s m) : r = r' :=
  (h s m allowed).result_eq.symm.trans (h' s m allowed).result_eq

theorem bind {f : α → Op τ σ β} {g : α → Result β} (h : op.Computes responder I r)
    (hf : ∀ a, r = .ok a → (f a).Computes responder I (g a)) :
    (op >>= f).Computes responder I (r >>= g) := by
  intro s m allowed
  apply (h s m allowed).bind
  case ok =>
    intro a eq
    subst eq
    exact hf a rfl
  case error =>
    intro fault eq
    subst eq
    exact ⟨rfl, fun _ _ => id⟩

theorem attempt (h : op.Computes responder I r) : (attempt op).Computes responder I (.ok r) :=
  fun s m allowed => (h s m allowed).attempt

end Computes

-- The operation comes to the same result from every state that `I` allows.
def IsFixed (responder : Responder τ ς) (I : σ → ς → Prop) (op : Op τ σ α) : Prop :=
  ∃ r, op.Computes responder I r

theorem isFixed_pure (a : α) : (pure a : Op τ σ α).IsFixed responder I :=
  ⟨.ok a, computes_pure a⟩

theorem isFixed_throw (fault : Fault) : (throw fault : Op τ σ α).IsFixed responder I :=
  ⟨.error fault, computes_throw fault⟩

theorem isFixed_ofResult (r : Result α) : (ofResult r : Op τ σ α).IsFixed responder I :=
  ⟨r, computes_ofResult r⟩

theorem isFixed_remote {told : (call : RemoteCall) → Result call.Answer} (tells : responder.Tells told)
    {I : σ → Prop} (call : RemoteCall) :
    (remote call : Op τ σ call.Answer).IsFixed responder fun s _ => I s :=
  ⟨told call, computes_remote tells call⟩

theorem IsFixed.bind {op : Op τ σ α} {f : α → Op τ σ β} (h : op.IsFixed responder I)
    (hf : ∀ a, (f a).IsFixed responder I) : (op >>= f).IsFixed responder I := by
  choose g computed using hf
  have ⟨_, reached⟩ := h
  exact ⟨_, reached.bind fun a _ => computed a⟩

end Op
end SecretSync
