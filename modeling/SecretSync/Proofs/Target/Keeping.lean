import SecretSync.Proofs.Cluster.Api

/-!
Reading and removing a secret, while something is kept true of the cluster. Main statements:
`Target.read_maintains`, `Target.remove_maintains`.
-/

namespace SecretSync.Target

variable {τ σ α : Type} {others : Cluster → Cluster → Prop} {fails : Cluster → ClusterCall → Fault → Prop}
  {P : Cluster → Prop} {s : σ} {w : World τ Cluster} {id : ResourceId}

theorem unlessRefused_maintains {κ : Type} {api : Api κ} {P : κ → Prop} {w : World τ κ} {status : Int}
    {result : Result α} {q : Option α → Prop} (hw : P w.state) (ok : ∀ a, result = .ok a → q (some a))
    (refused : ∀ fault, result = .error fault → fault.status? = some status → q none) :
    (unlessRefused status result : Op τ σ _).Maintains api P s w fun found s' w' =>
      s' = s ∧ w' = w ∧ q found := by
  cases result
  case ok a => exact .pure hw ⟨rfl, rfl, ok a rfl⟩
  case error fault =>
    simp only [unlessRefused]
    split
    case isTrue h => exact .pure hw ⟨rfl, rfl, refused fault rfl h⟩
    case isFalse => exact .throw hw fault

-- What is read is there.
theorem read_maintains (hw : ∀ c, others w.state c → P c) :
    (read id : Op τ σ _).Maintains (Cluster.api others fails) P s w fun found s' w' =>
      s' = s ∧ ∀ existing, found = some existing → w'.state.secrets.get? id = some existing := by
  have asked : (Op.attempt (Op.cluster (.readSecret id)) : Op τ σ _).Maintains
      (Cluster.api others fails) P s w fun result s' w' =>
        s' = s ∧ ∀ existing, result = .ok existing → w'.state.secrets.get? id = some existing := by
    refine Cluster.maintains_attempt fun before changed => ?_
    refine ⟨hw before changed, ?_, fun _ _ => ⟨rfl, nofun⟩⟩
    intro answer after ⟨found, same⟩
    subst same
    exact ⟨hw after changed, rfl, fun _ eq => Except.ok.inj eq ▸ found⟩
  refine .bind asked fun result s₁ w₁ held ⟨same, known⟩ => ?_
  refine (unlessRefused_maintains (q := fun found => ∀ existing, found = some existing →
    w₁.state.secrets.get? id = some existing) held ?_ fun _ _ _ => nofun).mono ?_
  · exact fun a eq existing eq' => Option.some.inj eq' ▸ known a eq
  · intro found s₂ w₂ _ ⟨same', eq, told⟩
    exact ⟨same'.trans same, eq ▸ told⟩

theorem remove_maintains {Q : Cluster → Prop}
    (h : ∀ c, others w.state c → P c ∧
      (∀ c', Cluster.Accepts c (.deleteSecret id) () c' → P c' ∧ Q c') ∧
      ∀ fault, fails c (.deleteSecret id) fault → fault.status? = some 404 → Q c) :
    (remove id : Op τ σ _).Maintains (Cluster.api others fails) P s w fun _ _ w' => Q w'.state := by
  have asked : (Op.attempt (Op.cluster (.deleteSecret id)) : Op τ σ _).Maintains
      (Cluster.api others fails) P s w fun result _ w' =>
        (∀ a, result = .ok a → Q w'.state) ∧
          ∀ fault, result = .error fault → fault.status? = some 404 → Q w'.state := by
    refine Cluster.maintains_attempt fun before changed => ?_
    have ⟨held, removed, missing⟩ := h before changed
    refine ⟨held, fun _ after accepted => ?_, fun fault failed => ?_⟩
    · exact ⟨(removed after accepted).left, fun _ _ => (removed after accepted).right, nofun⟩
    · exact ⟨nofun, fun _ eq status => missing fault failed (Except.error.inj eq ▸ status)⟩
  refine .bind asked fun result s₁ w₁ held ⟨removed, missing⟩ => ?_
  refine .bind (unlessRefused_maintains (q := fun _ => Q w₁.state) held removed missing) ?_
  exact fun _ s₂ w₂ held ⟨_, eq, gone⟩ => .pure held (eq ▸ gone)

end SecretSync.Target
