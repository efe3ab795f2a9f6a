import SecretSync.Operator

/-!
Runs of operations. The cluster is shared with others, who may change it between two calls, and what
it replies to a call is not determined: a call may fail. Remote services and the clock may tell
anything. A world is a cluster in some state together with all calls made so far. Main statements: for
each way of building an operation, an equivalence `ensures_…` on all its runs and a rule `Run.…` that
makes one.
-/

namespace SecretSync

variable {τ κ : Type}

-- A call that has been replied to, with the state in which it found the cluster and the state in
-- which it left it.
structure Step (τ κ : Type) where
  call   : Call τ
  reply  : call.Reply
  before : κ
  after  : κ

-- The calls come in the order in which they were made.
structure World (τ κ : Type) where
  state : κ
  steps : List (Step τ κ)

-- `changes` is what others may do to the cluster between two calls.
structure Api (κ : Type) where
  changes : κ → κ → Prop
  replies : κ → (call : ClusterCall) → Result call.Answer → κ → Prop

namespace World

def next (w : World τ κ) (call : Call τ) (reply : call.Reply) (before after : κ) : World τ κ where
  state := after
  steps := w.steps ++ [⟨call, reply, before, after⟩]

@[simp]
theorem next_state (w : World τ κ) (call : Call τ) (reply : call.Reply) (before after : κ) :
    (w.next call reply before after).state = after :=
  rfl

@[simp]
theorem next_steps (w : World τ κ) (call : Call τ) (reply : call.Reply) (before after : κ) :
    (w.next call reply before after).steps = w.steps ++ [⟨call, reply, before, after⟩] :=
  rfl

inductive Answers (api : Api κ) (w : World τ κ) : (call : Call τ) → call.Reply → World τ κ → Prop
  | cluster {call : ClusterCall} {reply : Result call.Answer} {before after : κ}
      (changed : api.changes w.state before) (replied : api.replies before call reply after) :
      Answers api w (.cluster call) reply (w.next (.cluster call) reply before after)
  | remote {call : RemoteCall} {reply : Result call.Answer} {state : κ}
      (changed : api.changes w.state state) :
      Answers api w (.remote call) reply (w.next (.remote call) reply state state)
  | now {time : τ} {state : κ} (changed : api.changes w.state state) :
      Answers api w .now time (w.next .now time state state)
  | wait {duration : τ} {state : κ} (changed : api.changes w.state state) :
      Answers api w (.wait duration) () (w.next (.wait duration) () state state)

-- `w₂` is reached from `w₁` by calls that all satisfy `p`.
def Through (p : Step τ κ → Prop) (w₁ w₂ : World τ κ) : Prop :=
  ∃ steps, w₂.steps = w₁.steps ++ steps ∧ ∀ step ∈ steps, p step

namespace Through

variable {p q : Step τ κ → Prop} {w w₁ w₂ w₃ : World τ κ}

theorem refl (w : World τ κ) : Through p w w :=
  ⟨[], by simp⟩

theorem trans (h₁ : Through p w₁ w₂) (h₂ : Through p w₂ w₃) : Through p w₁ w₃ := by
  have ⟨steps₁, e₁, a₁⟩ := h₁
  have ⟨steps₂, e₂, a₂⟩ := h₂
  refine ⟨steps₁ ++ steps₂, by simp [e₁, e₂], fun step hm => ?_⟩
  cases List.mem_append.mp hm
  case inl hm => exact a₁ step hm
  case inr hm => exact a₂ step hm

theorem next {call : Call τ} {reply : call.Reply} {before after : κ}
    (h : p ⟨call, reply, before, after⟩) : Through p w (w.next call reply before after) :=
  ⟨[_], rfl, by simp [h]⟩

theorem mono (h : Through p w₁ w₂) (hpq : ∀ step, p step → q step) : Through q w₁ w₂ :=
  have ⟨steps, e, a⟩ := h
  ⟨steps, e, fun step hm => hpq step (a step hm)⟩

end Through

-- `P` holds in `w'`, and held in every state between `w` and `w'`.
def Keeps (P : κ → Prop) (w w' : World τ κ) : Prop :=
  P w'.state ∧ w.Through (fun step => P step.before ∧ P step.after) w'

namespace Keeps

variable {P Q : κ → Prop} {w w₁ w₂ w₃ : World τ κ}

theorem refl (h : P w.state) : Keeps P w w :=
  ⟨h, .refl w⟩

theorem trans (h₁ : Keeps P w₁ w₂) (h₂ : Keeps P w₂ w₃) : Keeps P w₁ w₃ :=
  ⟨h₂.left, h₁.right.trans h₂.right⟩

theorem next {call : Call τ} {reply : call.Reply} {before after : κ} (hb : P before)
    (ha : P after) : Keeps P w (w.next call reply before after) :=
  ⟨ha, .next ⟨hb, ha⟩⟩

theorem mono (h : Keeps P w₁ w₂) (hpq : ∀ k, P k → Q k) : Keeps Q w₁ w₂ :=
  ⟨hpq _ h.left, h.right.mono fun _ h => ⟨hpq _ h.left, hpq _ h.right⟩⟩

end Keeps
end World

namespace Script

variable {Call : Type} {Reply : Call → Type} {W α β : Type}

-- The runs of a script in a world whose replies to calls are given by a relation.
inductive Run (answers : W → (call : Call) → Reply call → W → Prop) :
    Script Call Reply α → W → α → W → Prop
  | done {a : α} {w : W} : Run answers (.done a) w a w
  | ask {call : Call} {reply : Reply call} {next : Reply call → Script Call Reply α} {a : α}
      {w w₁ w₂ : W} (answered : answers w call reply w₁) (rest : Run answers (next reply) w₁ a w₂) :
      Run answers (.ask call next) w a w₂

variable {answers : W → (call : Call) → Reply call → W → Prop} {w w' : W} {b : β}

@[simp]
theorem run_pure_iff {a b : α} :
    Run answers (pure a : Script Call Reply α) w b w' ↔ b = a ∧ w' = w := by
  constructor
  case mp =>
    intro h
    cases h
    exact ⟨rfl, rfl⟩
  case mpr =>
    intro ⟨ha, hw⟩
    subst ha hw
    exact .done

theorem run_ask_iff {call : Call} {next : Reply call → Script Call Reply β} :
    Run answers (.ask call next) w b w' ↔
      ∃ reply w₁, answers w call reply w₁ ∧ Run answers (next reply) w₁ b w' := by
  constructor
  case mp =>
    intro h
    cases h
    case ask answered rest => exact ⟨_, _, answered, rest⟩
  case mpr => exact fun ⟨_, _, answered, rest⟩ => .ask answered rest

theorem run_bind_iff {script : Script Call Reply α} {f : α → Script Call Reply β} :
    Run answers (script >>= f) w b w' ↔
      ∃ a w₁, Run answers script w a w₁ ∧ Run answers (f a) w₁ b w' := by
  induction script generalizing w
  case done a =>
    constructor
    case mp => exact fun h => ⟨a, w, .done, h⟩
    case mpr =>
      intro ⟨_, _, h, rest⟩
      cases h
      exact rest
  case ask call next hi =>
    have bound : (ask call next >>= f) = ask call fun reply => next reply >>= f := rfl
    simp only [bound, run_ask_iff, hi]
    constructor
    case mp => exact fun ⟨reply, w₁, answered, a, w₂, run, rest⟩ =>
      ⟨a, w₂, ⟨reply, w₁, answered, run⟩, rest⟩
    case mpr => exact fun ⟨a, w₂, ⟨reply, w₁, answered, run⟩, rest⟩ =>
      ⟨reply, w₁, answered, a, w₂, run, rest⟩

end Script

namespace Op

section

variable {σ α β : Type} (fault : Fault)

theorem ofResult_ok (a : α) : (ofResult (.ok a) : Op τ σ α) = pure a :=
  rfl

theorem ofResult_error : (ofResult (.error fault) : Op τ σ α) = throw fault :=
  rfl

theorem throw_bind (f : α → Op τ σ β) : (throw fault >>= f) = throw fault :=
  rfl

theorem attempt_throw : attempt (throw fault : Op τ σ α) = pure (.error fault) :=
  rfl

end

variable {σ ρ α β : Type} (api : Api κ)

-- The runs of an operation: from a state of its own and a world to a result, another state and
-- another world.
def Run (op : Op τ σ α) (s : σ) (w : World τ κ) (r : Result α) (s' : σ) (w' : World τ κ) : Prop :=
  Script.Run (World.Answers api) (op.script s) w (r, s') w'

namespace Run

variable {api : Api κ} {s s₁ s' : σ} {w w₁ w' : World τ κ}

theorem of_script_eq {op : Op τ σ α} {r : Result α} (h : op.script s = pure (r, s')) :
    op.Run api s w r s' w := by
  rw [Run, h]
  exact .done

theorem pure (a : α) : (pure a : Op τ σ α).Run api s w (.ok a) s w :=
  of_script_eq (script_pure s a)

theorem get : (get : Op τ σ σ).Run api s w (.ok s) s w :=
  of_script_eq (script_get s)

theorem modify (f : σ → σ) : (modify f : Op τ σ Unit).Run api s w (.ok ()) (f s) w :=
  of_script_eq (script_modify s f)

theorem ofResult (r : Result α) : (ofResult r : Op τ σ α).Run api s w r s w :=
  of_script_eq (script_ofResult s r)

theorem cluster {call : ClusterCall} {reply : Result call.Answer} {before after : κ}
    (changed : api.changes w.state before) (replied : api.replies before call reply after) :
    (cluster call : Op τ σ call.Answer).Run api s w reply s
      (w.next (.cluster call) reply before after) :=
  .ask (.cluster changed replied) .done

theorem now {time : τ} {state : κ} (changed : api.changes w.state state) :
    (now : Op τ σ τ).Run api s w (.ok time) s (w.next .now time state state) :=
  .ask (.now changed) .done

theorem bind {op : Op τ σ α} {f : α → Op τ σ β} {a : α} {r : Result β}
    (h : op.Run api s w (.ok a) s₁ w₁) (rest : (f a).Run api s₁ w₁ r s' w') :
    (op >>= f).Run api s w r s' w' := by
  simp only [Run, script_bind, Script.run_bind_iff]
  exact ⟨_, w₁, h, rest⟩

theorem bind_error {op : Op τ σ α} {f : α → Op τ σ β} {fault : Fault}
    (h : op.Run api s w (.error fault) s' w') : (op >>= f).Run api s w (.error fault) s' w' := by
  simp only [Run, script_bind, Script.run_bind_iff]
  exact ⟨_, w', h, .done⟩

theorem bind_cases {op : Op τ σ α} {f : α → Op τ σ β} {r : Result β} (h : (op >>= f).Run api s w r s' w') :
    (∃ a s₁ w₁, op.Run api s w (.ok a) s₁ w₁ ∧ (f a).Run api s₁ w₁ r s' w') ∨
      ∃ fault, r = .error fault ∧ op.Run api s w (.error fault) s' w' := by
  simp only [Run, script_bind, Script.run_bind_iff] at h
  obtain ⟨⟨first, s₁⟩, w₁, run, rest⟩ := h
  cases first
  case ok a => exact .inl ⟨a, s₁, w₁, run, rest⟩
  case error fault =>
    obtain ⟨same, rfl⟩ := Script.run_pure_iff.mp rest
    cases same
    exact .inr ⟨fault, rfl, run⟩

theorem eq_of_ofResult {r r' : Result α} (h : (Op.ofResult r : Op τ σ α).Run api s w r' s' w') :
    r' = r ∧ s' = s ∧ w' = w := by
  obtain ⟨same, rfl⟩ := Script.run_pure_iff.mp h
  cases same
  exact ⟨rfl, rfl, rfl⟩

theorem eq_of_remote {call : RemoteCall} {reply : Result call.Answer}
    (h : (remote call : Op τ σ call.Answer).Run api s w reply s' w') :
    s' = s ∧ ∃ state, w' = w.next (.remote call) reply state state := by
  obtain ⟨reply', _, answered, rest⟩ := Script.run_ask_iff.mp h
  obtain ⟨same, rfl⟩ := Script.run_pure_iff.mp rest
  cases same
  cases answered
  exact ⟨rfl, _, rfl⟩

-- What is made of a result is made of that of a run.
theorem of_map {op : Op τ σ α} {f : α → β} {r : Result β}
    (h : (do Pure.pure (f (← op)) : Op τ σ β).Run api s w r s' w') : ∃ a, r = a.map f ∧ op.Run api s w a s' w' := by
  rcases h.bind_cases with ⟨a, s₁, w₁, run, rest⟩ | ⟨fault, rfl, run⟩
  case inr => exact ⟨.error fault, rfl, run⟩
  case inl =>
    obtain ⟨rfl, rfl, rfl⟩ := eq_of_ofResult rest
    exact ⟨.ok a, rfl, run⟩

theorem attempt {op : Op τ σ α} {r : Result α} (h : op.Run api s w r s' w') :
    (attempt op).Run api s w (.ok r) s' w' := by
  simp only [Run, script_attempt, Script.run_bind_iff]
  exact ⟨_, w', h, .done⟩

theorem within {part : σ → ρ} {replace : ρ → σ → σ} {op : Op τ ρ α} {r : Result α} {p : ρ}
    (h : op.Run api (part s) w r p w') : (within part replace op).Run api s w r (replace p s) w' := by
  simp only [Run, script_within, Script.run_bind_iff]
  exact ⟨_, w', h, .done⟩

theorem on {start p : ρ} {op : Op τ ρ α} {r : Result α} (h : op.Run api start w r p w') :
    (on start op : Op τ σ (Result α × ρ)).Run api s w (.ok (r, p)) s w' := by
  simp only [Run, script_on, Script.run_bind_iff]
  exact ⟨_, w', h, .done⟩

end Run

-- What holds of a result and of the state and the world that come with it, stated apart for success
-- and failure.
def Outcome (ok : α → σ → World τ κ → Prop) (fail : Fault → σ → World τ κ → Prop) :
    Result α → σ → World τ κ → Prop
  | .ok a => ok a
  | .error fault => fail fault

@[simp]
theorem outcome_ok (ok : α → σ → World τ κ → Prop) (fail : Fault → σ → World τ κ → Prop) (a : α) :
    Outcome ok fail (.ok a) = ok a :=
  rfl

@[simp]
theorem outcome_error (ok : α → σ → World τ κ → Prop) (fail : Fault → σ → World τ κ → Prop)
    (fault : Fault) : Outcome ok fail (.error fault) = fail fault :=
  rfl

-- Every run from `s` and `w` ends in `ok` or in `fail`.
def Ensures (op : Op τ σ α) (s : σ) (w : World τ κ) (ok : α → σ → World τ κ → Prop)
    (fail : Fault → σ → World τ κ → Prop) : Prop :=
  ∀ r s' w', op.Run api s w r s' w' → Outcome ok fail r s' w'

variable {api} {s : σ} {w : World τ κ} {ok : α → σ → World τ κ → Prop}
  {fail : Fault → σ → World τ κ → Prop}

namespace Ensures

theorem mono {op : Op τ σ α} {ok' : α → σ → World τ κ → Prop} {fail' : Fault → σ → World τ κ → Prop}
    (h : op.Ensures api s w ok fail) (hok : ∀ a s' w', ok a s' w' → ok' a s' w')
    (hfail : ∀ fault s' w', fail fault s' w' → fail' fault s' w') :
    op.Ensures api s w ok' fail' := by
  intro r s' w' run
  cases r
  case ok a => exact hok a s' w' (h _ _ _ run)
  case error fault => exact hfail fault s' w' (h _ _ _ run)

theorem and {op : Op τ σ α} {ok' : α → σ → World τ κ → Prop} {fail' : Fault → σ → World τ κ → Prop}
    (h : op.Ensures api s w ok fail) (h' : op.Ensures api s w ok' fail') :
    op.Ensures api s w (fun a s w => ok a s w ∧ ok' a s w)
      (fun fault s w => fail fault s w ∧ fail' fault s w) := by
  intro r s' w' run
  cases r
  all_goals exact ⟨h _ _ _ run, h' _ _ _ run⟩

theorem trivial (op : Op τ σ α) (s : σ) (w : World τ κ) :
    op.Ensures api s w (fun _ _ _ => True) fun _ _ _ => True := by
  intro r s' w' run
  cases r
  all_goals exact True.intro

-- What a run ensures of itself: that it is one.
theorem of_run (op : Op τ σ α) (s : σ) (w : World τ κ) :
    op.Ensures api s w (fun a s' w' => op.Run api s w (.ok a) s' w')
      (fun fault s' w' => op.Run api s w (.error fault) s' w') := by
  intro r s' w' run
  cases r
  all_goals exact run

theorem run {op : Op τ σ α} (h : op.Ensures api s w ok fail) :
    op.Ensures api s w (fun a s' w' => op.Run api s w (.ok a) s' w' ∧ ok a s' w') fail :=
  ((of_run op s w).and h).mono (fun _ _ _ => id) fun _ _ _ => And.right

end Ensures

theorem ensures_iff_forall {op : Op τ σ α} {P : Result α → σ → World τ κ → Prop} :
    op.Ensures api s w (fun a => P (.ok a)) (fun fault => P (.error fault)) ↔
      ∀ r s' w', op.Run api s w r s' w' → P r s' w' := by
  constructor
  case mp =>
    intro h r s' w' run
    have ended := h r s' w' run
    cases r
    all_goals exact ended
  case mpr =>
    intro h r s' w' run
    have held := h r s' w' run
    cases r
    all_goals exact held

-- An operation that makes no call has one run.
theorem ensures_of_script_eq {op : Op τ σ α} {r : Result α} {s₁ : σ}
    (h : op.script s = pure (r, s₁)) : op.Ensures api s w ok fail ↔ Outcome ok fail r s₁ w := by
  simp only [Ensures, Run, h, Script.run_pure_iff, Prod.mk.injEq]
  constructor
  case mp => exact fun h => h r s₁ w ⟨⟨rfl, rfl⟩, rfl⟩
  case mpr =>
    intro h r' s' w' ⟨⟨hr, hs⟩, hw⟩
    subst hr hs hw
    exact h

@[simp]
theorem ensures_pure (a : α) : (pure a : Op τ σ α).Ensures api s w ok fail ↔ ok a s w :=
  ensures_of_script_eq (script_pure s a)

@[simp]
theorem ensures_throw (fault : Fault) :
    (throw fault : Op τ σ α).Ensures api s w ok fail ↔ fail fault s w :=
  ensures_of_script_eq (script_throw s fault)

@[simp]
theorem ensures_get {ok : σ → σ → World τ κ → Prop} :
    (get : Op τ σ σ).Ensures api s w ok fail ↔ ok s s w :=
  ensures_of_script_eq (script_get s)

@[simp]
theorem ensures_modify (f : σ → σ) {ok : Unit → σ → World τ κ → Prop} :
    (modify f : Op τ σ Unit).Ensures api s w ok fail ↔ ok () (f s) w :=
  ensures_of_script_eq (script_modify s f)

@[simp]
theorem ensures_ofResult (r : Result α) :
    (ofResult r : Op τ σ α).Ensures api s w ok fail ↔ Outcome ok fail r s w :=
  ensures_of_script_eq (script_ofResult s r)

theorem ensures_bind {op : Op τ σ α} {f : α → Op τ σ β} {ok : β → σ → World τ κ → Prop} :
    (op >>= f).Ensures api s w ok fail ↔
      op.Ensures api s w (fun a s w => (f a).Ensures api s w ok fail) fail := by
  simp only [Ensures, Run, script_bind, Script.run_bind_iff]
  constructor
  case mp =>
    intro h r s₁ w₁ run
    cases r
    case ok a => exact fun r' s' w' rest => h r' s' w' ⟨_, w₁, run, rest⟩
    case error fault => exact h (.error fault) s₁ w₁ ⟨_, w₁, run, by simp⟩
  case mpr =>
    intro h r s' w' ⟨⟨r₁, s₁⟩, w₁, run, rest⟩
    have first := h r₁ s₁ w₁ run
    cases r₁
    case ok a => exact first r s' w' rest
    case error fault =>
      simp at rest
      have ⟨⟨hr, hs⟩, hw⟩ := rest
      subst hr hs hw
      exact first

namespace Ensures

variable {f : α → Op τ σ β} {ok : β → σ → World τ κ → Prop}

theorem bind {op : Op τ σ α} {ok' : α → σ → World τ κ → Prop} (h : op.Ensures api s w ok' fail)
    (hf : ∀ a s' w', ok' a s' w' → (f a).Ensures api s' w' ok fail) :
    (op >>= f).Ensures api s w ok fail :=
  ensures_bind.mpr (h.mono hf fun _ _ _ failed => failed)

theorem bind_ofResult {r : Result α} (hf : ∀ a, r = .ok a → (f a).Ensures api s w ok fail)
    (hfail : ∀ fault, r = .error fault → fail fault s w) :
    (ofResult r >>= f).Ensures api s w ok fail := by
  apply ensures_bind.mpr
  apply (ensures_ofResult r).mpr
  cases r
  case ok a => exact hf a rfl
  case error fault => exact hfail fault rfl

end Ensures

theorem ensures_cluster (call : ClusterCall) {ok : call.Answer → σ → World τ κ → Prop} :
    (cluster call : Op τ σ call.Answer).Ensures api s w ok fail ↔
      ∀ reply before after, api.changes w.state before → api.replies before call reply after →
        Outcome ok fail reply s (w.next (.cluster call) reply before after) := by
  simp only [Ensures, Run, script_cluster, Script.run_ask_iff, Script.run_pure_iff]
  constructor
  case mp =>
    intro h reply before after changed replied
    exact h reply s _ ⟨reply, _, .cluster changed replied, rfl, rfl⟩
  case mpr =>
    intro h r s' w' ⟨reply, w₁, answered, hr, hw⟩
    cases answered
    case cluster changed replied =>
      cases hr
      subst hw
      exact h _ _ _ changed replied

theorem ensures_remote (call : RemoteCall) {ok : call.Answer → σ → World τ κ → Prop} :
    (remote call : Op τ σ call.Answer).Ensures api s w ok fail ↔
      ∀ reply state, api.changes w.state state →
        Outcome ok fail reply s (w.next (.remote call) reply state state) := by
  simp only [Ensures, Run, script_remote, Script.run_ask_iff, Script.run_pure_iff]
  constructor
  case mp =>
    intro h reply state changed
    exact h reply s _ ⟨reply, _, .remote changed, rfl, rfl⟩
  case mpr =>
    intro h r s' w' ⟨reply, w₁, answered, hr, hw⟩
    cases answered
    case remote changed =>
      cases hr
      subst hw
      exact h _ _ changed

theorem ensures_now {ok : τ → σ → World τ κ → Prop} :
    (now : Op τ σ τ).Ensures api s w ok fail ↔
      ∀ time state, api.changes w.state state → ok time s (w.next .now time state state) := by
  simp only [Ensures, Run, script_now, Script.run_ask_iff, Script.run_pure_iff]
  constructor
  case mp =>
    intro h time state changed
    exact h (.ok time) s _ ⟨time, _, .now changed, rfl, rfl⟩
  case mpr =>
    intro h r s' w' ⟨time, w₁, answered, hr, hw⟩
    cases answered
    case now changed =>
      cases hr
      subst hw
      exact h _ _ changed

theorem ensures_attempt (op : Op τ σ α) {ok : Result α → σ → World τ κ → Prop} :
    (attempt op).Ensures api s w ok fail ↔
      op.Ensures api s w (fun a => ok (.ok a)) (fun fault => ok (.error fault)) := by
  simp only [Ensures, Run, script_attempt, Script.run_bind_iff]
  constructor
  case mp =>
    intro h r s' w' run
    have attempted := h (.ok r) s' w' ⟨(r, s'), w', run, by simp⟩
    cases r
    all_goals exact attempted
  case mpr =>
    intro h r s' w' ⟨⟨r₁, s₁⟩, w₁, run, rest⟩
    have first := h r₁ s₁ w₁ run
    simp at rest
    have ⟨⟨hr, hs⟩, hw⟩ := rest
    subst hr hs hw
    cases r₁
    all_goals exact first

-- The result of an attempt is one that the operation runs to.
theorem Ensures.of_attempt (op : Op τ σ α) (s : σ) (w : World τ κ) :
    (attempt op).Ensures api s w (fun r s' w' => op.Run api s w r s' w') fun _ _ _ => False :=
  (ensures_attempt op).mpr ((of_run op s w).mono (fun _ _ _ => id) fun _ _ _ => id)

theorem Ensures.attempt_run {op : Op τ σ α} {ok : Result α → σ → World τ κ → Prop}
    (h : (attempt op).Ensures api s w ok fail) :
    (attempt op).Ensures api s w (fun r s' w' => op.Run api s w r s' w' ∧ ok r s' w') fail :=
  ((of_attempt op s w).and h).mono (fun _ _ _ => id) fun _ _ _ => And.right

-- What never fails gives what it does when it is attempted, too.
theorem Ensures.attempt {op : Op τ σ α} (h : op.Ensures api s w ok fun _ _ _ => False) :
    (attempt op).Ensures api s w (fun r s' w' => ∃ a, r = .ok a ∧ ok a s' w') fun _ _ _ => False :=
  (ensures_attempt op).mpr (h.mono (fun a _ _ outcome => ⟨a, rfl, outcome⟩) fun _ _ _ => False.elim)

theorem ensures_attempt_ofResult (r : Result α) {ok : Result α → σ → World τ κ → Prop} :
    (attempt (ofResult r)).Ensures api s w ok fail ↔ ok r s w :=
  ensures_of_script_eq (script_attempt s (ofResult r))

theorem ensures_attempt_bind_ofResult {op : Op τ σ α} {f : α → Result β}
    {ok : Result β → σ → World τ κ → Prop} :
    (attempt (op >>= fun a => ofResult (f a))).Ensures api s w ok fail ↔
      op.Ensures api s w (fun a => ok (f a)) (fun fault => ok (.error fault)) := by
  have whole (r : Result β) : Outcome (fun b => ok (.ok b)) (fun fault => ok (.error fault)) r = ok r := by
    cases r
    all_goals rfl
  simp only [ensures_attempt, ensures_bind, ensures_ofResult, whole]

theorem ensures_within {part : σ → ρ} {replace : ρ → σ → σ} {op : Op τ ρ α} :
    (within part replace op).Ensures api s w ok fail ↔
      op.Ensures api (part s) w (fun a p => ok a (replace p s))
        (fun fault p => fail fault (replace p s)) := by
  simp only [Ensures, Run, script_within, Script.run_bind_iff]
  constructor
  case mp =>
    intro h r p w' run
    have inside := h r (replace p s) w' ⟨(r, p), w', run, by simp⟩
    cases r
    all_goals exact inside
  case mpr =>
    intro h r s' w' ⟨⟨r₁, p⟩, w₁, run, rest⟩
    have first := h r₁ p w₁ run
    simp at rest
    have ⟨⟨hr, hs⟩, hw⟩ := rest
    subst hr hs hw
    cases r
    all_goals exact first

theorem ensures_on {start : ρ} {op : Op τ ρ α} {ok : Result α × ρ → σ → World τ κ → Prop} :
    (on start op : Op τ σ (Result α × ρ)).Ensures api s w ok fail ↔
      op.Ensures api start w (fun a p => ok (.ok a, p) s) (fun fault p => ok (.error fault, p) s) := by
  simp only [Ensures, Run, script_on, Script.run_bind_iff]
  constructor
  case mp =>
    intro h r p w' run
    have apart := h (.ok (r, p)) s w' ⟨(r, p), w', run, by simp⟩
    cases r
    all_goals exact apart
  case mpr =>
    intro h r s' w' ⟨⟨r₁, p⟩, w₁, run, rest⟩
    have first := h r₁ p w₁ run
    simp at rest
    have ⟨⟨hr, hs⟩, hw⟩ := rest
    subst hr hs hw
    cases r₁
    all_goals exact first

end Op

end SecretSync
