import SecretSync.Proofs.Operator.Making
import SecretSync.Proofs.Target.Keeping

/-!
Handling a body when its resource is gone. A body can be handled late: it was read before the resource
was deleted, and is handled after that. As the guard cannot be given to a resource that is not there, no
secret is made from a body without it. But a body with the guard is believed. Main statement:
`handle_revives_iff`.
-/

namespace SecretSync

namespace Cluster

variable {c c' : Cluster} {id other : ResourceId}

-- Neither the resource is there nor its secret.
def IsGone (c : Cluster) (id : ResourceId) : Prop :=
  c.objects.get? id = none ∧ c.secrets.get? id = none

namespace IsGone

theorem congr (h : c.IsGone id) (same : (other == id) = true) : c.IsGone other := by
  simp only [IsGone, Table.get?_congr same]
  exact h

theorem putSecret {s : Secret} (h : c.IsGone id) (ne : (other == id) = false) :
    (c.putSecret other s).IsGone id := by
  refine ⟨h.left, ?_⟩
  simp only [Cluster.putSecret, Table.get?_put, ne]
  exact h.right

theorem removeSecret (h : c.IsGone id) (ne : (other == id) = false) :
    IsGone { c with secrets := c.secrets.remove other } id :=
  ⟨h.left, (Table.get?_remove_of_ne ne).trans h.right⟩

theorem stores {body : Value} (h : c.IsGone id) (ne : (other == id) = false)
    (stores : Stores other body c c') : c'.IsGone id := by
  cases stores
  case kept =>
    refine ⟨?_, h.right⟩
    simp only [Table.get?_put, ne]
    exact h.left
  case dropped => exact ⟨(Table.get?_remove_of_ne ne).trans h.left, h.right⟩

-- A call for what is not there is refused, unless it is to create it.
theorem accepts {call : ClusterCall} {answer : call.Answer} (h : c.IsGone id)
    (accepted : Accepts c call answer c')
    (creates : ∀ own manifest, call = .createSecret own manifest → (own == id) = false) :
    c'.IsGone id := by
  have ne {own : ResourceId} (found : c.objects.get? own ≠ none ∨ c.secrets.get? own ≠ none) :
      (own == id) = false := by
    apply Bool.eq_false_iff.mpr
    intro same
    have gone := h.congr same
    cases found
    case inl found => exact found gone.left
    case inr found => exact found gone.right
  cases call
  case readSecret => exact accepted.right ▸ h
  case getObject => exact accepted.right ▸ h
  case createSecret own manifest => exact accepted.right ▸ h.putSecret (creates own manifest rfl)
  case patchSecret =>
    have ⟨_, found, eq⟩ := accepted
    exact eq ▸ h.putSecret (ne (.inr (by simp [found])))
  case deleteSecret => exact accepted.right ▸ h.removeSecret (ne (.inr accepted.left))
  case patchObject =>
    have ⟨_, _, found, _, stored⟩ := accepted
    exact h.stores (ne (.inl (by simp [found]))) stored

end IsGone
end Cluster

open Cluster (IsGone)

variable {τ σ α : Type} {others : Cluster → Cluster → Prop}
  {fails : Cluster → ClusterCall → Fault → Prop} {id own : ResourceId}

section

-- Others leave the secrets alone and do not bring the resource back.
variable (spared : ∀ {c c'}, others c c' → c.IsGone id → c'.IsGone id)
include spared

theorem keeps_gone_of_asks {p : Call τ → Prop} {op : Op τ σ α} (h : op.Asks p)
    (creates : ∀ own manifest, p (.cluster (.createSecret own manifest)) → (own == id) = false) :
    op.Keeps (Cluster.api others fails) fun c => c.IsGone id := by
  apply Op.Asks.keeps h spared
  intro c call reply c' asked replied gone
  cases reply
  case error => exact replied.right ▸ gone
  case ok =>
    apply gone.accepts replied
    intro own manifest eq
    subst eq
    exact creates own manifest asked

variable (same : (own == id) = true)
include same

namespace Guard

variable {s : Snapshot} {w : World τ Cluster} (hw : w.state.IsGone id)
include hw

theorem write_fails (change : Change) :
    (write own change : Op τ Snapshot Unit).Maintains (Cluster.api others fails) (IsGone · id) s w
      fun _ _ _ => False := by
  refine .bind_get (.bind_fails (Cluster.maintains_call fun before changed => ?_))
  have gone := spared changed hw
  refine ⟨gone, fun told after ⟨_, _, found, _⟩ => ?_⟩
  simp [(gone.congr same).left] at found

-- The guard cannot be given to what is not there.
theorem add_fails {finalizer : Text} (missing : hasFinalizer finalizer s.finalizers = false) :
    (add own finalizer : Op τ Snapshot Bool).Maintains (Cluster.api others fails) (IsGone · id) s w
      fun _ _ _ => False := by
  apply Op.Maintains.bind_get
  rw [if_neg (Bool.eq_false_iff.mp missing)]
  have changes : (change own (addition finalizer) : Op τ Snapshot Unit).Maintains
      (Cluster.api others fails) (IsGone · id) s w fun _ _ _ => False := by
    refine .bind (.attempt (write_fails spared same hw _)) fun result s₁ w₁ gone failed => ?_
    cases result
    case ok => exact (failed () rfl).elim
    case error fault =>
      simp only
      split
      case isFalse => exact .throw gone fault
      case isTrue =>
        -- Nothing has come back since.
        have again : (refresh own : Op τ Snapshot Unit).Keeps (Cluster.api others fails) (IsGone · id) :=
          keeps_gone_of_asks spared (refresh_asks own (addition finalizer)) nofun
        exact .bind (again s₁ w₁ gone) fun _ _ _ gone _ => write_fails spared same gone _
  exact .bind_fails changes

end Guard

namespace Target

variable {s : σ} {w : World τ Cluster} (hw : w.state.IsGone id)
include hw

theorem read_gone :
    (read own : Op τ σ _).Maintains (Cluster.api others fails) (IsGone · id) s w fun found s' _ =>
      found = none ∧ s' = s := by
  apply (read_maintains fun _ changed => spared changed hw).mono
  intro found _ w₁ gone ⟨kept, known⟩
  refine ⟨Option.eq_none_iff_forall_ne_some.mpr fun existing eq => ?_, kept⟩
  have found := known existing eq
  simp [(gone.congr same).right] at found

theorem ensure_gone {content : Content} (unfit : ∀ manifest, Target.manifest own content ≠ .ok manifest) :
    (ensure own content none : Op τ σ _).KeepsFrom (Cluster.api others fails) (IsGone · id) s w := by
  refine .bind (read_gone spared same hw) fun found s₁ w₁ gone ⟨missing, _⟩ => ?_
  subst missing
  have refused : (create own content : Op τ σ Unit).Maintains (Cluster.api others fails) (IsGone · id)
      s₁ w₁ fun _ _ _ => False :=
    .bind_ofResult gone fun manifest fit => absurd fit (unfit manifest)
  exact .bind_fails refused

end Target
end

theorem Guard.release_runs {w : World τ Cluster} {c : Cluster} {finalizer : Text} {s : Snapshot}
    (still : (Cluster.api others fails).IsStill) (known : hasFinalizer finalizer s.finalizers = true)
    (accepted : Cluster.Accepts w.state (.patchObject own ((removal finalizer).patch s)) .null c) :
    (release own finalizer : Op τ Snapshot Bool).Run (Cluster.api others fails) s w (.ok true)
      { s with finalizers := removed finalizer s.finalizers }
      (w.next (.cluster (.patchObject own ((removal finalizer).patch s))) (.ok .null) w.state c) := by
  apply Op.Run.bind .get
  rw [if_pos known]
  exact .bind (.attempt (.bind (.attempt (write_accepted (still _) accepted)) (.pure ()))) (.pure true)

theorem Target.remove_runs {w : World τ Cluster} {c : Cluster} {s : σ}
    (still : (Cluster.api others fails).IsStill)
    (accepted : Cluster.Accepts w.state (.deleteSecret own) () c) :
    (remove own : Op τ σ Unit).Run (Cluster.api others fails) s w (.ok ()) s
      (w.next (.cluster (.deleteSecret own)) (.ok ()) w.state c) :=
  .bind (.attempt (Cluster.run_accepted (still _) accepted)) (.bind (.pure (some ())) (.pure ()))

section

variable [Timeline τ] {settings : Settings τ} {d : Declaration} {m : Memory τ} {w : World τ Cluster}

namespace Reconcile

variable (still : (Cluster.api others fails).IsStill)

section

variable (spared : ∀ {c c'}, others c c' → c.IsGone id → c'.IsGone id) (same : (own == id) = true)
include spared same

theorem writeSecret_gone (hw : w.state.IsGone id)
    (unfit : ¬CanFill (Cluster.api others fails) settings d own m.session w) :
    (writeSecret settings d own none).KeepsFrom (Cluster.api others fails) (IsGone · id) m w := by
  -- If content were put together that fits, it could be put together from the start.
  have assembled : (assemble settings d).Ensures (Cluster.api others fails) m w
      (fun content m' w' => (Content.assemble settings settings.cacheTtl d.sources).Run
        (Cluster.api others fails) m.session w (.ok content) m'.session w') fun _ _ _ => True :=
    Op.ensures_within.mpr ((Op.Ensures.of_run _ _ w).mono (fun _ _ _ run => run) fun _ _ _ _ => trivial)
  have kept : (assemble settings d).KeepsFrom (Cluster.api others fails) (IsGone · id) m w :=
    (assemble_outside settings d).keeps spared m w hw
  rw [writeSecret_eq]
  refine .bind (kept.and assembled) fun content m₁ w₁ gone ⟨_, run⟩ => store_maintains settings ?_
  exact Target.ensure_gone spared same gone fun manifest fit =>
    unfit ⟨content, _, _, manifest, run, fit⟩

theorem create_gone (hw : w.state.IsGone id)
    (unfit : hasFinalizer defaultFinalizer d.finalizers = true →
      ¬CanFill (Cluster.api others fails) settings d own m.session w) :
    (create settings d own).KeepsFrom (Cluster.api others fails) (IsGone · id) m w := by
  cases known : hasFinalizer defaultFinalizer d.finalizers
  case false =>
    have added : (Guard.add own defaultFinalizer : Op τ Snapshot Bool).Maintains
        (Cluster.api others fails) (IsGone · id) d.snapshot w fun _ _ _ => False :=
      Guard.add_fails spared same hw known
    exact .bind_fails ((changeGuard_maintains added).mono fun _ _ _ _ h => h.right)
  case true =>
    have known : hasFinalizer defaultFinalizer d.snapshot.finalizers = true := known
    have added : (Guard.add own defaultFinalizer : Op τ Snapshot Bool).Maintains
        (Cluster.api others fails) (IsGone · id) d.snapshot w fun _ _ w' => w' = w := by
      apply Op.Maintains.bind_get
      rw [if_pos known]
      exact .pure hw rfl
    refine .bind (changeGuard_maintains added) fun _ m₁ w₁ _ ⟨sameMemory, unchanged⟩ => ?_
    subst sameMemory unchanged
    exact writeSecret_gone spared same hw (unfit known)

include still

theorem update_gone (hw : w.state.IsGone id)
    (unfit : hasFinalizer defaultFinalizer d.finalizers = true →
      ¬CanFill (Cluster.api others fails) settings d own m.session w) :
    (update settings d own).KeepsFrom (Cluster.api others fails) (IsGone · id) m w := by
  refine .bind (Target.read_gone spared same hw) fun found m₁ w₁ gone ⟨missing, sameMemory⟩ => ?_
  subst missing sameMemory
  exact create_gone spared same gone fun known canFill => unfit known (canFill.replay still w)

end

omit [Timeline τ] in
theorem delete_gone (spared : ∀ {c c'}, others c c' → c.IsGone id → c'.IsGone id) :
    (delete d own : Op τ (Memory τ) (Action τ)).Keeps (Cluster.api others fails) (IsGone · id) := by
  have releases : (Guard.release own defaultFinalizer : Op τ Snapshot Bool).Asks fun call =>
      ∀ other manifest, call ≠ .cluster (.createSecret other manifest) := by
    refine (Guard.release_asks own _).mono fun call change other manifest eq => ?_
    subst eq
    exact change
  have deletes : (delete d own : Op τ (Memory τ) (Action τ)).Asks fun call =>
      ∀ other manifest, call ≠ .cluster (.createSecret other manifest) :=
    .bind (Target.remove_asks own nofun) fun _ => .bind (changeGuard_asks d releases) fun _ => .pure _
  exact keeps_gone_of_asks spared deletes fun _ _ asked => absurd rfl (asked _ _)

include still

-- Under the lock a secret is made just if the body has the guard, is not that of a resource being
-- deleted, and content for the secret can be put together.
theorem locked_gone (spared : ∀ {c c'}, others c c' → c.IsGone id → c'.IsGone id)
    (hw : w.state.IsGone id)
    (unfit : ∀ own, d.id = .ok own → (own == id) = true → d.isDeleting = false →
      hasFinalizer defaultFinalizer d.finalizers = true →
      ¬CanFill (Cluster.api others fails) settings d own m.session w) :
    (locked settings d).KeepsFrom (Cluster.api others fails) (IsGone · id) m w := by
  cases named : d.id
  case error =>
    refine .bind_ofResult hw fun own eq => ?_
    rw [named] at eq
    cases eq
  case ok own =>
    cases same : own == id
    case false =>
      refine keeps_gone_of_asks spared (locked_concerns settings named) ?_ m w hw
      intro other _ concerned
      have concerned : other = own := concerned
      exact concerned ▸ same
    case true =>
      rw [locked_eq settings named]
      refine .bind (lock_maintains own hw) fun _ m₁ w₁ _ ⟨session, eq⟩ => ?_
      subst eq
      cases deleting : d.isDeleting
      case true => exact delete_gone spared m₁ w₁ hw
      case false =>
        have unfit := session ▸ unfit own named same deleting
        cases known : hasFinalizer defaultFinalizer d.finalizers
        case false => exact create_gone spared same hw unfit
        case true => exact update_gone still spared same hw unfit

end Reconcile

namespace Operator

-- A secret is made for a resource that is gone just if the body has the guard, is not that of a resource
-- being deleted, and content for the secret can be put together.
theorem handle_revives_iff (still : ∀ c, others c c)
    (spared : ∀ {c c'}, others c c' → c.IsGone id → c'.IsGone id)
    (told : ∀ c id, c.secrets.get? id = none → fails c (.readSecret id) Cluster.notFound)
    (hw : w.state.IsGone id) (body : Value) :
    (handle settings body).Permits (Cluster.api others fails) (fun c => c.secrets.get? id ≠ none) m w ↔
      ∃ d own, Declaration.ofBody body = .ok d ∧ d.id = .ok own ∧ (own == id) = true ∧
        d.isDeleting = false ∧ .text defaultFinalizer ∈ d.finalizers ∧
        Reconcile.CanFill (Cluster.api others fails) settings d own m.session w := by
  constructor
  case mp =>
    intro ⟨r, m', w', run, revived⟩
    -- Otherwise the secret would stay gone with its resource.
    refine Classical.not_not.mp fun unfit => ?_
    have gone : (handle settings body).KeepsFrom (Cluster.api others fails) (IsGone · id) m w := by
      refine handle_keepsFrom settings spared hw fun d m₁ readable session => ?_
      apply Reconcile.locked_gone still spared hw
      intro own named same kept known canFill
      exact unfit ⟨d, own, readable, named, same, kept, hasFinalizer_iff.mp known, session ▸ canFill⟩
    exact revived (gone.kept run).left.right
  case mpr =>
    intro ⟨d, own, readable, named, same, kept, known, canFill⟩
    have absent : w.state.secrets.get? own = none := (hw.congr same).right
    apply handle_makes still told readable named kept (hasFinalizer_iff.mpr known) absent canFill
    intro manifest
    simp [Cluster.putSecret, Table.get?_put, same]

-- A resync reads the resource, then its deletion is asked for and handled, and only then does the resync
-- handle what it has read.

def deletedBody : Value :=
  .object [("metadata", .object (guardedMetadata.put "deletionTimestamp" "2024-05-06T07:08:09Z"))]

def guardedCluster : Cluster := ⟨[(guardedId, ⟨none, none⟩)], [(guardedId, guardedBody "Plaintext")]⟩

def deletedCluster : Cluster := ⟨[(guardedId, ⟨none, none⟩)], [(guardedId, deletedBody)]⟩

theorem handle_deletedBody (m : Memory Float) (steps : List (Step Float Cluster)) :
    (handle Settings.default deletedBody).Permits Cluster.honest (IsGone · guardedId) m
      ⟨deletedCluster, steps⟩ := by
  have still : Cluster.honest.IsStill := fun _ => rfl
  obtain ⟨d, readable, named, deleting, known, version⟩ : ∃ d, Declaration.ofBody deletedBody = .ok d ∧
      d.id = .ok guardedId ∧ d.isDeleting = true ∧ d.finalizers = [.text defaultFinalizer] ∧
      d.resourceVersion = .text "1" :=
    ⟨_, rfl, rfl, rfl, rfl, rfl⟩
  have snapshot : d.snapshot = ⟨[.text defaultFinalizer], .text "1"⟩ := by
    simp [Declaration.snapshot, known, version]
  have phase : Phase.of d.isDeleting (hasFinalizer defaultFinalizer d.finalizers) = .delete := by
    simp [Phase.of, deleting]
  have removed : Cluster.Accepts deletedCluster (.deleteSecret guardedId) ()
      ⟨[], deletedCluster.objects⟩ := by
    refine ⟨fun absent => ?_, rfl⟩
    cases absent
  have released : Cluster.Accepts ⟨[], deletedCluster.objects⟩
      (.patchObject guardedId ((Guard.removal defaultFinalizer).patch d.snapshot)) .null ⟨[], []⟩ := by
    rw [snapshot]
    exact ⟨deletedBody, .text "2", rfl, rfl, .dropped rfl rfl⟩
  refine handle_permits Settings.default still readable fun m₁ _ => ?_
  rw [Reconcile.locked_eq Settings.default named, phase]
  refine .bind (.modify _) (.bind (Target.remove_runs still removed) ?_)
  refine .bind (.bind (.on (Guard.release_runs still ?_ released)) (.ofResult (.ok true))) ?_
  · rw [snapshot]
    rfl
  · exact .pure _ ⟨rfl, rfl⟩

def fetchedWorld : World Float Cluster :=
  World.next ⟨guardedCluster, []⟩ (.cluster (.getObject guardedId)) (.ok (guardedBody "Plaintext"))
    guardedCluster guardedCluster

theorem handle_revives_deleted :
    (Op.cluster (.getObject guardedId) : Op Float (Memory Float) Value).Run Cluster.honest .start
        ⟨guardedCluster, []⟩ (.ok (guardedBody "Plaintext")) .start fetchedWorld ∧
      ∃ r m w, (handle Settings.default deletedBody).Run Cluster.honest .start
          ⟨deletedCluster, fetchedWorld.steps⟩ r m w ∧
        w.state.IsGone guardedId ∧
        (handle Settings.default (guardedBody "Plaintext")).Permits Cluster.honest
          (fun c => c.secrets.get? guardedId ≠ none) m w := by
  have still : Cluster.honest.IsStill := fun _ => rfl
  refine ⟨Cluster.run_accepted (still _) ⟨rfl, rfl⟩, ?_⟩
  have ⟨r, m, w, deleted, gone⟩ := handle_deletedBody .start fetchedWorld.steps
  refine ⟨r, m, w, deleted, gone, ?_⟩
  -- What the resync has read has the guard.
  have ⟨d, readable, named, kept, known, plain⟩ := plainBody_readable
  apply (handle_revives_iff still (fun same gone => same ▸ gone) (fun _ _ lacks => ⟨lacks, rfl⟩) gone
    (guardedBody "Plaintext")).mpr
  exact ⟨d, guardedId, readable, named, BEq.rfl, kept, known, canFill_plain plain _ _⟩

end Operator
end

end SecretSync
