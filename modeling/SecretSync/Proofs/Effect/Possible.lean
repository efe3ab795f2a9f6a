import SecretSync.Proofs.Effect.Calls

/-!
What operations can do. Remote services and the clock may tell anything, so an operation that leaves the
cluster alone always has a run, and a run of it in one world is a run of it in any other. Main
statements: `Op.Outside.replay`, `Op.Permits.bind_outside`.
-/

namespace SecretSync

variable {τ κ σ ρ α β : Type} {api : Api κ} {w w' : World τ κ}

-- Others may also leave the cluster as it is.
def Api.IsStill (api : Api κ) : Prop :=
  ∀ k, api.changes k k

namespace Script

variable {script : Script (Call τ) Call.Reply α}

theorem Asks.replay {a : α} (h : script.Asks fun call => ¬call.IsCluster) (still : api.IsStill)
    (run : Run (World.Answers api) script w a w') (v : World τ κ) :
    ∃ v', Run (World.Answers api) script v a v' ∧ v'.state = v.state := by
  induction run generalizing v
  case done => exact ⟨v, .done, rfl⟩
  case ask call reply _ _ _ _ _ answered _ hi =>
    -- The same is told in the other world, with nobody changing its cluster.
    have ⟨v', run, same⟩ := hi (h.right reply) (v.next call reply v.state v.state)
    refine ⟨v', .ask ?_ run, same⟩
    cases answered
    case cluster => exact absurd trivial h.left
    case remote => exact .remote (still _)
    case now => exact .now (still _)
    case wait => exact .wait (still _)

theorem Asks.exists_run [Nonempty τ] (h : script.Asks fun call => ¬call.IsCluster)
    (still : api.IsStill) (w : World τ κ) :
    ∃ a w', Run (World.Answers api) script w a w' ∧ w'.state = w.state := by
  induction script generalizing w
  case done a => exact ⟨a, w, .done, rfl⟩
  case ask call next hi =>
    have ⟨asked, rest⟩ := h
    have ⟨reply, answered⟩ : ∃ reply, World.Answers api w call reply
        (w.next call reply w.state w.state) := by
      cases call
      case cluster => exact absurd trivial asked
      case remote => exact ⟨.error default, .remote (still _)⟩
      case now => exact ⟨Classical.ofNonempty, .now (still _)⟩
      case wait => exact ⟨(), .wait (still _)⟩
    have ⟨a, w', run, same⟩ := hi reply (rest reply) (w.next call reply w.state w.state)
    exact ⟨a, w', .ask answered run, same⟩

end Script

namespace Op

variable {s s' : σ}

theorem Outside.replay {op : Op τ σ α} {r : Result α} (h : op.Outside) (still : api.IsStill)
    (run : op.Run api s w r s' w') (v : World τ κ) :
    ∃ v', op.Run api s v r s' v' ∧ v'.state = v.state :=
  (h s).replay still run v

-- Some run of the operation leaves the cluster in a state that satisfies `P`.
def Permits (api : Api κ) (P : κ → Prop) (op : Op τ σ α) (s : σ) (w : World τ κ) : Prop :=
  ∃ r s' w', op.Run api s w r s' w' ∧ P w'.state

namespace Permits

variable {P : κ → Prop}

theorem pure (a : α) (hw : P w.state) : (pure a : Op τ σ α).Permits api P s w :=
  ⟨.ok a, s, w, .pure a, hw⟩

theorem of_outside [Nonempty τ] {op : Op τ σ α} (h : op.Outside) (still : api.IsStill)
    (hw : P w.state) : op.Permits api P s w :=
  have ⟨(r, s'), w', run, same⟩ := (h s).exists_run still w
  ⟨r, s', w', run, same ▸ hw⟩

theorem bind {op : Op τ σ α} {f : α → Op τ σ β} {a : α} {s₁ : σ} {w₁ : World τ κ}
    (h : op.Run api s w (.ok a) s₁ w₁) (rest : (f a).Permits api P s₁ w₁) :
    (op >>= f).Permits api P s w :=
  have ⟨r, s', w', run, hw⟩ := rest
  ⟨r, s', w', .bind h run, hw⟩

-- What comes after does not undo it.
theorem bind_outside [Nonempty τ] {op : Op τ σ α} {f : α → Op τ σ β} (h : op.Permits api P s w)
    (outside : ∀ a, (f a).Outside) (still : api.IsStill) : (op >>= f).Permits api P s w := by
  have ⟨r, s₁, w₁, run, hw⟩ := h
  cases r
  case error fault => exact ⟨.error fault, s₁, w₁, .bind_error run, hw⟩
  case ok a => exact .bind run (.of_outside (outside a) still hw)

theorem attempt {op : Op τ σ α} (h : op.Permits api P s w) : (attempt op).Permits api P s w :=
  have ⟨r, s', w', run, hw⟩ := h
  ⟨.ok r, s', w', .attempt run, hw⟩

end Permits
end Op

end SecretSync
