import SecretSync.Proofs.Cluster.Writes
import SecretSync.Proofs.Target.Keeping

/-!
What becomes of a secret when it is made to hold content, or removed, and the cluster may refuse any call.
Either the secret stays as it is, or one write has done all there was to do. Main statements:
`Target.ensure_ensures`, `Target.remove_ensures`.
-/

namespace SecretSync

open Table (Distinct)

namespace Secret

-- The secret holds the content and nothing else, and is labelled with the fingerprint of the content.
structure HoldsJust (s : Secret) (content : Content) : Prop where
  data  : ∃ held, s.content? = some held ∧ held.Perm content
  label : ∃ labels n, s.labels = some labels ∧ content.fingerprint = .ok n ∧
    labels.get? Labels.hashId = some (.text (Text.ofNat n))

-- The label of the secret reads as the fingerprint of the content.
def Records (s : Secret) (content : Content) : Prop :=
  ∃ n : Nat, content.fingerprint = .ok n ∧ s.fingerprint? = .ok (some (n : Int))

variable {s : Secret} {content : Content} {id : ResourceId}

theorem HoldsJust.records (h : s.HoldsJust content) : s.Records content := by
  have ⟨labels, n, labelled, fingerprint, label⟩ := h.label
  refine ⟨n, fingerprint, ?_⟩
  rw [fingerprint?, labelsValue, labelled]
  exact Labels.fingerprint?_of_get? (fingerprint_lt fingerprint) label

theorem holdsJust_created {manifest : Manifest} (h : Target.manifest id content = .ok manifest) :
    (created manifest).HoldsJust content :=
  have ⟨n, fingerprint, _, label⟩ := made_created h
  ⟨⟨content, content?_created h, .refl content⟩, _, n, rfl, fingerprint, label⟩

theorem holdsJust_patched {patch : SecretPatch} {n : Nat}
    (h : Target.patch id content (some s) n = .ok patch) (fingerprint : content.fingerprint = .ok n)
    (distinct : Distinct content) (isDistinct : s.IsDistinct) :
    (Cluster.patchedSecret s patch).HoldsJust content :=
  have ⟨_, _, _, label⟩ := made_patched h
  ⟨content?_patched h fingerprint distinct isDistinct, _, n, rfl, fingerprint, label⟩

end Secret

namespace World

variable {τ : Type} {id : ResourceId} {content : Content} {w w₁ w' : World τ Cluster}

-- One write has made the secret hold the content.
structure Filled (id : ResourceId) (content : Content) (w w' : World τ Cluster) : Prop where
  secret   : ∃ s, w'.state.secrets.get? id = some s ∧ s.HoldsJust content
  fills    : w'.fills = w.fills + 1
  removals : w'.removals = w.removals
  guard    : ∀ {id}, w.state.IsGuarded id → w'.state.IsGuarded id

-- The secret is not there any more, if it ever was.
structure Emptied (id : ResourceId) (w w' : World τ Cluster) : Prop where
  secret   : w'.state.secrets.get? id = none
  fills    : w'.fills = w.fills
  removals : w'.removals ≤ w.removals + 1

namespace Emptied

theorem still (h : w.Emptied id w₁) (unwritten : w₁.Unwritten w') : w.Emptied id w' where
  secret := unwritten.secrets ▸ h.secret
  fills := unwritten.fills.trans h.fills
  removals := unwritten.removals.trans_le h.removals

end Emptied

-- The secret was made to hold the content, or was believed to hold it already.
inductive Ensured (id : ResourceId) (content : Content) (w w' : World τ Cluster) : Prop
  | unchanged {s : Secret} (still : w.Still w') (live : w'.state.secrets.get? id = some s)
      (records : s.Records content)
  | written (filled : w.Filled id content w')

theorem Still.refused {call : ClusterCall} {fault : Fault} :
    w.Still (w.next (.cluster call) (.error fault) w.state w.state) := by
  refine ⟨⟨rfl, ?_, ?_⟩, fun h => h⟩
  all_goals
    simp only [World.fills, World.removals, next_steps, List.countP_append]
    cases call
    all_goals rfl

namespace Filled

theorem created {manifest : Manifest} (made : Target.manifest id content = .ok manifest) :
    w.Filled id content (w.next (.cluster (.createSecret id manifest)) (.ok ()) w.state
      (w.state.putSecret id (Secret.created manifest))) where
  secret := ⟨_, Table.get?_put_self .., Secret.holdsJust_created made⟩
  fills := List.countP_append
  removals := List.countP_append
  guard h := h

theorem patched {s : Secret} {patch : SecretPatch} {n : Nat}
    (made : Target.patch id content (some s) n = .ok patch) (fingerprint : content.fingerprint = .ok n)
    (distinct : Distinct content) (isDistinct : s.IsDistinct) :
    w.Filled id content (w.next (.cluster (.patchSecret id patch)) (.ok ()) w.state
      (w.state.putSecret id (Cluster.patchedSecret s patch))) where
  secret := ⟨_, Table.get?_put_self .., Secret.holdsJust_patched made fingerprint distinct isDistinct⟩
  fills := List.countP_append
  removals := List.countP_append
  guard h := h

theorem after (h : w₁.Filled id content w') (still : w.Still w₁) : w.Filled id content w' where
  secret := h.secret
  fills := h.fills.trans (congrArg (· + 1) still.fills)
  removals := h.removals.trans still.removals
  guard held := h.guard (still.guard held)

theorem still (h : w.Filled id content w₁) (still : w₁.Still w') : w.Filled id content w' where
  secret := still.secrets ▸ h.secret
  fills := still.fills.trans h.fills
  removals := still.removals.trans h.removals
  guard held := still.guard (h.guard held)

end Filled

namespace Ensured

theorem after (h : w₁.Ensured id content w') (still : w.Still w₁) : w.Ensured id content w' := by
  cases h
  case unchanged still' live records => exact .unchanged (still.trans still') live records
  case written filled => exact .written (filled.after still)

theorem still (h : w.Ensured id content w₁) (still : w₁.Still w') : w.Ensured id content w' := by
  cases h
  case unchanged still' live records =>
    exact .unchanged (still'.trans still) (still.secrets ▸ live) records
  case written filled => exact .written (filled.still still)

-- Either way the label tells the fingerprint of the content.
theorem records (h : w.Ensured id content w') :
    ∃ s, w'.state.secrets.get? id = some s ∧ s.Records content := by
  cases h
  case unchanged live records => exact ⟨_, live, records⟩
  case written filled =>
    have ⟨s, live, holds⟩ := filled.secret
    exact ⟨s, live, holds.records⟩

end Ensured

end World

open World (Ensured Filled)

namespace Target

variable {τ σ : Type} {fails : Cluster → ClusterCall → Fault → Prop} {s : σ} {w : World τ Cluster}
  {id : ResourceId} {content : Content}

theorem create_ensures :
    (create id content : Op τ σ _).Ensures (Cluster.api Eq fails) s w
      (fun _ _ w' => w.Filled id content w') fun _ _ w' => w.Still w' := by
  refine .bind_ofResult (fun manifest made => ?_) fun _ _ => .refl w
  refine (Cluster.ensures_call _).mpr fun before same => ?_
  subst same
  refine ⟨fun _ after ⟨_, stored⟩ => ?_, fun _ _ => .refused⟩
  subst stored
  exact .created made

-- What is read is there.
theorem read_ensures :
    (read id : Op τ σ _).Ensures (Cluster.api Eq fails) s w
      (fun found _ w' => w.Still w' ∧ ∀ existing, found = some existing →
        w'.state.secrets.get? id = some existing)
      fun _ _ w' => w.Still w' := by
  have mild : (read id : Op τ σ _).Asks Call.IsMild := read_asks id ⟨trivial, fun h => h⟩
  have known : (read id : Op τ σ _).Maintains (Cluster.api Eq fails) (fun _ => True) s w _ :=
    read_maintains fun _ _ => trivial
  refine ((Op.Ensures.of_run _ s w).and known).mono ?_ fun _ _ _ ⟨run, _⟩ => mild.still run
  exact fun _ _ _ ⟨run, _, _, told⟩ => ⟨mild.still run, told⟩

variable (distinct : Distinct content)
include distinct

theorem amend_ensures {existing : Secret} {n : Nat} (live : w.state.secrets.get? id = some existing)
    (isDistinct : existing.IsDistinct) (fingerprint : content.fingerprint = .ok n) :
    (amend id content (some existing) (some n) : Op τ σ _).Ensures (Cluster.api Eq fails) s w
      (fun _ _ w' => w.Filled id content w') fun _ _ w' => w.Still w' := by
  simp only [amend, pure_bind]
  refine .bind_ofResult (fun patch made => ?_) fun _ _ => .refl w
  refine (Cluster.ensures_call _).mpr fun before same => ?_
  subst same
  refine ⟨fun _ after ⟨found, known, stored⟩ => ?_, fun _ _ => .refused⟩
  rw [live] at known
  cases known
  subst stored
  exact .patched made fingerprint distinct isDistinct

theorem update_ensures {existing : Secret} (live : w.state.secrets.get? id = some existing)
    (isDistinct : existing.IsDistinct) :
    (update id content existing : Op τ σ _).Ensures (Cluster.api Eq fails) s w
      (fun _ _ w' => w.Ensured id content w') fun _ _ w' => w.Still w' := by
  refine .bind_ofResult (fun n fingerprint => ?_) fun _ _ => .refl w
  refine .bind_ofResult (fun label recorded => ?_) fun _ _ => .refl w
  split
  case isTrue same =>
    exact (Op.ensures_pure _).mpr (.unchanged (.refl w) live ⟨n, fingerprint, same ▸ recorded⟩)
  case isFalse =>
    refine .bind (amend_ensures distinct live isDistinct fingerprint) fun _ _ _ filled => ?_
    exact (Op.ensures_pure _).mpr (.written filled)

theorem ensure_ensures {given : Option Secret}
    (live : ∀ existing, given = some existing → w.state.secrets.get? id = some existing)
    (data : ∀ existing, w.state.secrets.get? id = some existing → existing.IsDistinct) :
    (ensure id content given : Op τ σ _).Ensures (Cluster.api Eq fails) s w
      (fun _ _ w' => w.Ensured id content w') fun _ _ w' => w.Still w' := by
  cases given
  case some existing =>
    rw [ensure_some]
    exact update_ensures distinct (live existing rfl) (data existing (live existing rfl))
  case none =>
    refine .bind read_ensures fun found s₁ w₁ known => ?_
    have still := known.left
    cases found
    case some existing =>
      have live := known.right existing rfl
      refine (update_ensures distinct live (data existing (still.secrets ▸ live))).mono ?_ ?_
      · exact fun _ _ _ ensured => ensured.after still
      · exact fun _ _ _ => still.trans
    case none =>
      refine Op.ensures_bind.mpr (create_ensures.mono ?_ fun _ _ _ => still.trans)
      exact fun _ _ _ filled => (Op.ensures_pure _).mpr (.written (filled.after still))

omit distinct in
theorem remove_ensures (secrets : Distinct w.state.secrets)
    (lacks : ∀ {c call fault}, fails c call fault → fault.status? = some 404 → Cluster.Lacks c call) :
    (remove id : Op τ σ _).Ensures (Cluster.api Eq fails) s w
      (fun _ _ w' => w.Emptied id w') fun _ _ w' => w.Still w' := by
  simp only [remove, Op.ensures_bind, Op.ensures_attempt]
  refine (Cluster.ensures_call _).mpr fun before same => ?_
  subst same
  refine ⟨fun _ after ⟨_, removed⟩ => ?_, fun fault failed => ?_⟩
  · subst removed
    refine (Op.ensures_pure _).mpr ((Op.ensures_pure _).mpr ⟨?_, ?_, ?_⟩)
    · simp [Table.get?_remove id id secrets]
    · exact List.countP_append
    · exact Nat.le_of_eq List.countP_append
  · have still : w.Still (w.next (.cluster (.deleteSecret id)) (.error fault) w.state w.state) := .refused
    simp only [unlessRefused]
    split
    case isTrue missing =>
      -- Nothing had to be removed.
      have absent : w.state.secrets.get? id = none := lacks failed missing
      refine (Op.ensures_pure _).mpr ((Op.ensures_pure _).mpr ⟨absent, still.fills, ?_⟩)
      exact still.removals.trans_le (Nat.le_succ _)
    case isFalse => exact (Op.ensures_throw fault).mpr still

end Target

end SecretSync
