import SecretSync.Proofs.Effect.Calls

/-!
What operations keep true of the cluster, not only in the end but in every state on the way. Main
statements: `Op.Asks.keeps`, `Op.Maintains.bind`.
-/

namespace SecretSync

variable {τ κ σ ρ α β : Type} {api : Api κ} {P : κ → Prop} {w w' : World τ κ}

-- What neither others nor the calls of a script make false stays true.
theorem Script.Asks.keeps {p : Call τ → Prop} {a : α} {script : Script (Call τ) Call.Reply α}
    (h : script.Asks p) (changed : ∀ {k k'}, api.changes k k' → P k → P k')
    (replied : ∀ {k call reply k'}, p (.cluster call) → api.replies k call reply k' → P k → P k')
    (run : Script.Run (World.Answers api) script w a w') (hw : P w.state) : w.Keeps P w' := by
  -- Along the run, `P` is handed on from each call to the next.
  induction run
  case done => exact .refl hw
  case ask answered _ hi =>
    cases answered
    all_goals have before := changed ‹_› hw
    case cluster =>
      have after := replied h.left ‹_› before
      exact .trans (.next before after) (hi (h.right _) after)
    all_goals exact .trans (.next before before) (hi (h.right _) before)

namespace Op

variable {s s' : σ}

-- All along the runs from `s` and `w`, `P` holds, and a success comes with `ok`.
def Maintains (api : Api κ) (P : κ → Prop) (op : Op τ σ α) (s : σ) (w : World τ κ)
    (ok : α → σ → World τ κ → Prop) : Prop :=
  op.Ensures api s w (fun a s' w' => w.Keeps P w' ∧ ok a s' w') fun _ _ w' => w.Keeps P w'

abbrev KeepsFrom (api : Api κ) (P : κ → Prop) (op : Op τ σ α) (s : σ) (w : World τ κ) : Prop :=
  op.Maintains api P s w fun _ _ _ => True

-- Once `P` holds, no run of the operation makes it false.
def Keeps (api : Api κ) (P : κ → Prop) (op : Op τ σ α) : Prop :=
  ∀ s w, P w.state → op.KeepsFrom api P s w

theorem Asks.keeps {p : Call τ → Prop} {op : Op τ σ α} (h : op.Asks p)
    (changed : ∀ {k k'}, api.changes k k' → P k → P k')
    (replied : ∀ {k call reply k'}, p (.cluster call) → api.replies k call reply k' → P k → P k') :
    op.Keeps api P := by
  intro s w hw r s' w' run
  have kept := (h s).keeps changed replied run hw
  cases r
  case ok => exact ⟨kept, trivial⟩
  case error => exact kept

theorem Outside.keeps {op : Op τ σ α} (h : op.Outside)
    (changed : ∀ {k k'}, api.changes k k' → P k → P k') : op.Keeps api P :=
  Asks.keeps h changed fun asked => absurd trivial asked

namespace Maintains

variable {q : α → σ → World τ κ → Prop}

theorem mono {op : Op τ σ α} {q' : α → σ → World τ κ → Prop} (h : op.Maintains api P s w q)
    (hq : ∀ a s' w', P w'.state → q a s' w' → q' a s' w') : op.Maintains api P s w q' :=
  Ensures.mono h (fun a s' w' ⟨kept, held⟩ => ⟨kept, hq a s' w' kept.left held⟩) fun _ _ _ kept => kept

theorem weaken {Q : κ → Prop} {op : Op τ σ α} (h : op.Maintains api P s w q)
    (hpq : ∀ k, P k → Q k) : op.Maintains api Q s w q :=
  Ensures.mono h (fun _ _ _ ⟨kept, held⟩ => ⟨kept.mono hpq, held⟩) fun _ _ _ kept => kept.mono hpq

theorem keepsFrom {op : Op τ σ α} (h : op.Maintains api P s w q) : op.KeepsFrom api P s w :=
  h.mono fun _ _ _ _ _ => trivial

-- What is kept all along is so in the end.
theorem of_keepsFrom {Q : κ → Prop} {op : Op τ σ α} (h : op.KeepsFrom api Q s w)
    (hpq : ∀ k, Q k → P k) : op.Maintains api P s w fun _ _ w' => Q w'.state :=
  Ensures.mono h (fun _ _ _ ⟨kept, _⟩ => ⟨kept.mono hpq, kept.left⟩) fun _ _ _ kept => kept.mono hpq

theorem and {op : Op τ σ α} {q' : α → σ → World τ κ → Prop} (h : op.Maintains api P s w q)
    (h' : op.Ensures api s w q' fun _ _ _ => True) :
    op.Maintains api P s w fun a s' w' => q a s' w' ∧ q' a s' w' :=
  (Ensures.and h h').mono (fun _ _ _ ⟨⟨kept, held⟩, held'⟩ => ⟨kept, held, held'⟩) fun _ _ _ h => h.left

theorem and_run {op : Op τ σ α} (h : op.Maintains api P s w q) :
    op.Maintains api P s w fun a s' w' => q a s' w' ∧ op.Run api s w (.ok a) s' w' :=
  h.and ((Ensures.of_run op s w).mono (fun _ _ _ run => run) fun _ _ _ _ => trivial)

theorem kept {op : Op τ σ α} {r : Result α} (h : op.Maintains api P s w q)
    (run : op.Run api s w r s' w') : w.Keeps P w' := by
  have ended := h r s' w' run
  cases r
  case ok => exact ended.left
  case error => exact ended

section

variable {f : α → Op τ σ β} {q : β → σ → World τ κ → Prop}

theorem bind_get {f : σ → Op τ σ β} (h : (f s).Maintains api P s w q) :
    (get >>= f).Maintains api P s w q :=
  ensures_bind.mpr (ensures_get.mpr h)

theorem bind_modify {g : σ → σ} {f : Unit → Op τ σ β} (h : (f ()).Maintains api P (g s) w q) :
    (modify g >>= f).Maintains api P s w q :=
  ensures_bind.mpr ((ensures_modify g).mpr h)

theorem bind_ofResult {r : Result α} (hw : P w.state)
    (h : ∀ a, r = .ok a → (f a).Maintains api P s w q) :
    (ofResult r >>= f).Maintains api P s w q := by
  apply ensures_bind.mpr
  apply (ensures_ofResult r).mpr
  cases r
  case ok a => exact h a rfl
  case error => exact .refl hw

end

variable (hw : P w.state)
include hw

theorem pure {a : α} (h : q a s w) : (pure a : Op τ σ α).Maintains api P s w q :=
  (ensures_pure a).mpr ⟨.refl hw, h⟩

theorem throw (fault : Fault) : (throw fault : Op τ σ α).Maintains api P s w q :=
  (ensures_throw fault).mpr (.refl hw)

theorem ofResult {r : Result α} (h : ∀ a, r = .ok a → q a s w) :
    (ofResult r : Op τ σ α).Maintains api P s w q := by
  apply (ensures_ofResult r).mpr
  cases r
  case ok a => exact ⟨.refl hw, h a rfl⟩
  case error => exact .refl hw

theorem modify {f : σ → σ} {q : Unit → σ → World τ κ → Prop} (h : q () (f s) w) :
    (modify f : Op τ σ Unit).Maintains api P s w q :=
  (ensures_modify f).mpr ⟨.refl hw, h⟩

omit hw

-- Whatever comes first, what comes after it starts from a state in which `P` holds.
theorem bind {op : Op τ σ α} {f : α → Op τ σ β} {q' : β → σ → World τ κ → Prop}
    (h : op.Maintains api P s w q)
    (hf : ∀ a s' w', P w'.state → q a s' w' → (f a).Maintains api P s' w' q') :
    (op >>= f).Maintains api P s w q' := by
  refine ensures_bind.mpr (Ensures.mono h (fun a s₁ w₁ ⟨kept, held⟩ => ?_) fun _ _ _ kept => kept)
  have rest : (f a).Maintains api P s₁ w₁ q' := hf a s₁ w₁ kept.left held
  exact Ensures.mono rest (fun _ _ _ ⟨kept', held'⟩ => ⟨kept.trans kept', held'⟩) fun _ _ _ => kept.trans

-- What never succeeds has nothing come after it.
theorem bind_fails {op : Op τ σ α} {f : α → Op τ σ β} {q : β → σ → World τ κ → Prop}
    (h : op.Maintains api P s w fun _ _ _ => False) : (op >>= f).Maintains api P s w q :=
  .bind h fun _ _ _ _ never => never.elim

theorem attempt {op : Op τ σ α} (h : op.Maintains api P s w q) :
    (attempt op).Maintains api P s w fun r s' w' => ∀ a, r = .ok a → q a s' w' := by
  refine (ensures_attempt op).mpr (Ensures.mono h (fun a s₁ w₁ ⟨kept, held⟩ => ?_) fun _ _ _ kept => ?_)
  · exact ⟨kept, fun _ eq => Except.ok.inj eq ▸ held⟩
  · exact ⟨kept, nofun⟩

-- A state apart comes to nothing.
theorem on {start : ρ} {op : Op τ ρ α} {q : World τ κ → Prop}
    (h : op.Maintains api P start w fun _ _ w' => q w') :
    (on start op : Op τ σ (Result α × ρ)).Maintains api P s w fun found s' w' =>
      s' = s ∧ ∀ a, found.1 = .ok a → q w' := by
  refine ensures_on.mpr (Ensures.mono h (fun _ _ _ ⟨kept, held⟩ => ?_) fun _ _ _ kept => ?_)
  · exact ⟨kept, rfl, fun _ _ => held⟩
  · exact ⟨kept, rfl, nofun⟩

end Maintains
end Op

end SecretSync
