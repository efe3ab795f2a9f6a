import SecretSync.Proofs.Effect.Calls

/-!
The record of a run. It only grows, so that a world is before the one that a run from it ends in, and it
settles the run: a script that is told the same twice gives the same twice. Main statements:
`Script.Run.unique`, `Script.Run.unique_of_before`, `Op.Run.before`, `Op.Gave.le`.
-/

namespace SecretSync

variable {τ κ σ α : Type}

-- What was asked, and what was told in reply.
def Step.exchange (step : Step τ κ) : (call : Call τ) × call.Reply :=
  ⟨step.call, step.reply⟩

-- The time that was told, if that is what was asked.
def Step.time? (step : Step τ κ) : Option τ :=
  match step.call, step.reply with
  | .now, time => some time
  | _, _ => none

namespace World

variable {w₁ w₂ w₃ : World τ κ}

-- The clock never went back.
def InOrder [LE τ] (w : World τ κ) : Prop :=
  (w.steps.filterMap Step.time?).Pairwise (· ≤ ·)

-- Whatever was called in the first world was called in the second one as well, and before the rest.
def Before (w w' : World τ κ) : Prop :=
  w.steps <+: w'.steps

theorem Before.refl (w : World τ κ) : Before w w :=
  List.prefix_refl _

theorem Before.trans (h : Before w₁ w₂) (h' : Before w₂ w₃) : Before w₁ w₃ :=
  List.IsPrefix.trans h h'

-- A time that was told is not above one that is told later.
theorem InOrder.le [LE τ] {time later : τ} {k k' : κ} (h : InOrder (w₂.next .now later k' k'))
    (before : Before (w₁.next .now time k k) w₂) : time ≤ later := by
  have ⟨made, eq⟩ := before
  simp only [InOrder, next_steps, ← eq, List.append_assoc, List.filterMap_append] at h
  have behind := (List.pairwise_append.mp h).right.left
  have first : time ∈ [Step.mk .now time k k].filterMap Step.time? := by
    simp [Step.time?]
  exact (List.pairwise_append.mp behind).right.right time first later (by simp [Step.time?])

end World

namespace Script

variable {api api' : Api κ} {w w' v v' : World τ κ} {a b : α}

theorem asks_true {Call : Type} {Reply : Call → Type} (script : Script Call Reply α) :
    script.Asks fun _ => True := by
  induction script
  case done => exact trivial
  case ask hi => exact ⟨trivial, hi⟩

theorem Run.grows {script : Script (Call τ) Call.Reply α}
    (run : Run (World.Answers api) script w a w') : ∃ made, w'.steps = w.steps ++ made :=
  have ⟨made, grown, _⟩ := (asks_true script).through run
  ⟨made, grown⟩

theorem exchange_of_answers {call : Call τ} {reply : call.Reply}
    (answered : World.Answers api w call reply w') :
    ∃ step, step.exchange = ⟨call, reply⟩ ∧ w'.steps = w.steps ++ [step] := by
  cases answered
  all_goals exact ⟨_, rfl, rfl⟩

-- A script has no choice but in what it is told.
theorem Run.unique {script : Script (Call τ) Call.Reply α} {made made' : List (Step τ κ)}
    (run : Run (World.Answers api) script w a w') (run' : Run (World.Answers api') script v b v')
    (grown : w'.steps = w.steps ++ made) (grown' : v'.steps = v.steps ++ made')
    (same : made.map Step.exchange = made'.map Step.exchange) : a = b := by
  induction script generalizing w v made made'
  case done =>
    cases run
    cases run'
    rfl
  case ask call next hi =>
    obtain ⟨reply, w₁, answered, rest⟩ := run_ask_iff.mp run
    obtain ⟨reply', v₁, answered', rest'⟩ := run_ask_iff.mp run'
    have ⟨step, told, first⟩ := exchange_of_answers answered
    have ⟨step', told', first'⟩ := exchange_of_answers answered'
    have ⟨behind, grownRest⟩ := rest.grows
    have ⟨behind', grownRest'⟩ := rest'.grows
    have all : made = step :: behind := by
      simpa [grownRest, first] using grown.symm
    have all' : made' = step' :: behind' := by
      simpa [grownRest', first'] using grown'.symm
    subst all all'
    have ⟨here, later⟩ := List.cons.inj same
    rw [told, told'] at here
    cases here
    exact hi _ rest rest' grownRest grownRest' later

theorem Run.before {script : Script (Call τ) Call.Reply α} (run : Run (World.Answers api) script w a w') :
    w.Before w' :=
  have ⟨made, grown⟩ := run.grows
  ⟨made, grown.symm⟩

theorem next_of_answers {call : Call τ} {reply : call.Reply} (answered : World.Answers api w call reply w') :
    ∃ before after, w' = w.next call reply before after := by
  cases answered
  all_goals exact ⟨_, _, rfl⟩

-- Of all that was recorded in the end, the script was told the same both times.
theorem Run.unique_of_before {w₁ w₂ : World τ κ} {script : Script (Call τ) Call.Reply α}
    (run : Run (World.Answers api) script w a w₁) (run' : Run (World.Answers api) script w b w₂)
    (before : w₁.Before w') (before' : w₂.Before w') : a = b ∧ w₁ = w₂ := by
  induction script generalizing w
  case done =>
    cases run
    cases run'
    exact ⟨rfl, rfl⟩
  case ask call next hi =>
    obtain ⟨reply, v, answered, rest⟩ := run_ask_iff.mp run
    obtain ⟨reply', v', answered', rest'⟩ := run_ask_iff.mp run'
    obtain ⟨_, _, eq⟩ := next_of_answers answered
    obtain ⟨_, _, eq'⟩ := next_of_answers answered'
    have length : v.steps.length = v'.steps.length := by simp [eq, eq']
    have same : v.steps = v'.steps :=
      (List.prefix_of_prefix_length_le (rest.before.trans before) (rest'.before.trans before')
        (Nat.le_of_eq length)).eq_of_length length
    subst eq eq'
    cases List.singleton_inj.mp (List.append_cancel_left same)
    exact hi _ rest rest'

end Script

theorem Op.Run.before {api : Api κ} {op : Op τ σ α} {s s' : σ} {w w' : World τ κ} {r : Result α}
    (run : op.Run api s w r s' w') : w.Before w' :=
  have ⟨made, eq⟩ := Script.Run.grows run
  ⟨made, eq.symm⟩

theorem Op.Run.unique_of_before {api : Api κ} {op : Op τ σ α} {s s₁ s₂ : σ} {w w₁ w₂ w' : World τ κ}
    {r r' : Result α} (run : op.Run api s w r s₁ w₁) (run' : op.Run api s w r' s₂ w₂)
    (before : w₁.Before w') (before' : w₂.Before w') : r = r' ∧ s₁ = s₂ ∧ w₁ = w₂ := by
  have ⟨same, sameWorld⟩ := Script.Run.unique_of_before run run' before before'
  cases same
  exact ⟨rfl, rfl, sameWorld⟩

theorem Op.Ensures.before {api : Api κ} {op : Op τ σ α} {s : σ} {w : World τ κ}
    {ok : α → σ → World τ κ → Prop} {fail : Fault → σ → World τ κ → Prop}
    (h : op.Ensures api s w ok fail) :
    op.Ensures api s w (fun a s' w' => ok a s' w' ∧ w.Before w') fail := by
  intro r s' w' run
  have outcome := h _ _ _ run
  cases r
  case ok => exact ⟨outcome, run.before⟩
  case error => exact outcome

-- Between `w` and `w'` the operation gave `a`, and the clock was read as `time` when it had.
def Op.Gave (api : Api κ) (op : Op τ σ α) (a : α) (time : τ) (w w' : World τ κ) : Prop :=
  ∃ s s' v state, op.Run api s w (.ok a) s' v ∧ w' = v.next .now time state state

theorem Op.Gave.le [LE τ] {api : Api κ} {op : Op τ σ α} {a : α} {finished time : τ} {w w' v : World τ κ}
    {state : κ} (gave : op.Gave api a finished w w') (before : w'.Before v)
    (inOrder : (v.next .now time state state).InOrder) : finished ≤ time := by
  obtain ⟨_, _, _, _, _, made⟩ := gave
  subst made
  exact inOrder.le before

end SecretSync
