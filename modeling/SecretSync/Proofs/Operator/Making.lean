import SecretSync.Proofs.Cluster.Body
import SecretSync.Proofs.Cluster.Honest
import SecretSync.Proofs.Content.Precedence
import SecretSync.Proofs.Operator.Handling

/-!
Making a secret that is missing. When nobody is in the way and the cluster refuses nothing but to read
what is not there, a body with the guard leads to the secret. Main statement: `handle_makes`.
-/

namespace SecretSync

variable {τ σ α : Type} {others : Cluster → Cluster → Prop}
  {fails : Cluster → ClusterCall → Fault → Prop} {own : ResourceId}

theorem Guard.add_known {κ : Type} {api : Api κ} {finalizer : Text} {s : Snapshot} {w : World τ κ}
    (known : hasFinalizer finalizer s.finalizers = true) :
    (Guard.add own finalizer : Op τ Snapshot Bool).Run api s w (.ok false) s w := by
  apply Op.Run.bind .get
  rw [if_pos known]
  exact .pure false

section

variable {s : σ} {w : World τ Cluster} (still : (Cluster.api others fails).IsStill)
  (told : ∀ c id, c.secrets.get? id = none → fails c (.readSecret id) Cluster.notFound)
include still

namespace Target

theorem create_runs {content : Content} {manifest : Manifest} (absent : w.state.secrets.get? own = none)
    (fit : Target.manifest own content = .ok manifest) :
    (create own content : Op τ σ Unit).Run (Cluster.api others fails) s w (.ok ()) s
      (w.next (.cluster (.createSecret own manifest)) (.ok ()) w.state
        (w.state.putSecret own (Secret.created manifest))) := by
  have fitted : (Op.ofResult (Target.manifest own content)).Run (Cluster.api others fails) s w
      (.ok manifest) s w :=
    fit ▸ .ofResult _
  exact .bind fitted (Cluster.run_accepted (still _) ⟨absent, rfl⟩)

include told

theorem read_missing (absent : w.state.secrets.get? own = none) :
    (read own : Op τ σ _).Run (Cluster.api others fails) s w (.ok none) s
      (w.next (.cluster (.readSecret own)) (.error Cluster.notFound) w.state w.state) :=
  .bind (.attempt (Cluster.run_refused (still _) (told _ _ absent))) (.pure none)

theorem ensure_permits {content : Content} {manifest : Manifest} {P : Cluster → Prop}
    (absent : w.state.secrets.get? own = none) (fit : Target.manifest own content = .ok manifest)
    (made : P (w.state.putSecret own (Secret.created manifest))) :
    (ensure own content none : Op τ σ _).Permits (Cluster.api others fails) P s w :=
  .bind (read_missing still told absent)
    (.bind (create_runs still absent fit) (.pure Outcome.created made))

end Target
end

section

variable [Timeline τ] {settings : Settings τ} {d : Declaration} {m : Memory τ} {w : World τ Cluster}

namespace Reconcile

-- Remote services and the clock can tell what it takes to put together content that fits into a secret.
def CanFill (api : Api Cluster) (settings : Settings τ) (d : Declaration) (own : ResourceId)
    (session : Session τ) (w : World τ Cluster) : Prop :=
  ∃ content session' w' manifest,
    (Content.assemble settings settings.cacheTtl d.sources).Run api session w (.ok content) session' w' ∧
      Target.manifest own content = .ok manifest

theorem CanFill.replay {api : Api Cluster} {session : Session τ} (still : api.IsStill)
    (h : CanFill api settings d own session w) (v : World τ Cluster) :
    CanFill api settings d own session v :=
  have ⟨content, session', _, manifest, run, fit⟩ := h
  have ⟨v', run, _⟩ := (Content.assemble_outside settings _ d.sources).replay still run v
  ⟨content, session', v', manifest, run, fit⟩

section

variable {P : Cluster → Prop} (still : (Cluster.api others fails).IsStill)
  (told : ∀ c id, c.secrets.get? id = none → fails c (.readSecret id) Cluster.notFound)
  (absent : w.state.secrets.get? own = none)
  (known : hasFinalizer defaultFinalizer d.finalizers = true)
  (canFill : CanFill (Cluster.api others fails) settings d own m.session w)
  (made : ∀ manifest, P (w.state.putSecret own (Secret.created manifest)))
include still told absent known canFill made

theorem create_permits : (create settings d own).Permits (Cluster.api others fails) P m w := by
  have : Nonempty τ := ⟨Timeline.zero⟩
  have ⟨content, _, _, manifest, run, fit⟩ := canFill
  -- It can be told the same here, with the cluster as it is.
  have ⟨w₁, run, same⟩ := (Content.assemble_outside settings _ d.sources).replay still run w
  have guarded : (changeGuard d (Guard.add own defaultFinalizer)).Run (Cluster.api others fails) m w
      (.ok false) m w :=
    .bind (.on (Guard.add_known known)) (.ofResult (.ok false))
  have stored (m₁ : Memory τ) : (Target.ensure own content none).Permits (Cluster.api others fails) P m₁ w₁ :=
    Target.ensure_permits still told (same ▸ absent) fit (same ▸ made manifest)
  refine .bind guarded (.bind (.within run) (.bind_outside (stored _) (fun outcome => ?_) still))
  exact .bind (countOutcome_asks outcome) fun _ => .bind (.ofResult _) fun _ => .pure _

theorem update_permits : (update settings d own).Permits (Cluster.api others fails) P m w :=
  .bind (Target.read_missing still told absent)
    (create_permits still told absent known (canFill.replay still _) made)

-- A secret that is missing is made from a body with the guard.
theorem locked_permits (named : d.id = .ok own) (kept : d.isDeleting = false) :
    (locked settings d).Permits (Cluster.api others fails) P m w := by
  have phase : Phase.of d.isDeleting (hasFinalizer defaultFinalizer d.finalizers) = .update := by
    simp [Phase.of, kept, known]
  have ⟨m₁, session, run⟩ : ∃ m₁, m₁.session = m.session ∧
      (lock own : Op τ (Memory τ) Unit).Run (Cluster.api others fails) m w (.ok ()) m₁ w := by
    refine ⟨_, ?_, .modify _⟩
    split
    all_goals rfl
  rw [locked_eq settings named, phase]
  exact .bind run (update_permits still told absent known (session ▸ canFill) made)

end

end Reconcile

theorem Operator.handle_makes {P : Cluster → Prop} {body : Value}
    (still : (Cluster.api others fails).IsStill)
    (told : ∀ c id, c.secrets.get? id = none → fails c (.readSecret id) Cluster.notFound)
    (readable : Declaration.ofBody body = .ok d) (named : d.id = .ok own) (kept : d.isDeleting = false)
    (known : hasFinalizer defaultFinalizer d.finalizers = true)
    (absent : w.state.secrets.get? own = none)
    (canFill : Reconcile.CanFill (Cluster.api others fails) settings d own m.session w)
    (made : ∀ manifest, P (w.state.putSecret own (Secret.created manifest))) :
    (handle settings body).Permits (Cluster.api others fails) P m w :=
  handle_permits settings still readable fun _ session =>
    Reconcile.locked_permits still told absent known (session ▸ canFill) made named kept

end

-- A resource with the guard that declares one entry.

def guardedId : ResourceId := ⟨.text "default", .text "app"⟩

def guardedMetadata : Table Text Value :=
  [("name", "app"), ("namespace", "default"), ("resourceVersion", "1"),
    ("finalizers", .list [.text defaultFinalizer])]

def guardedBody (backend : Text) : Value :=
  .object [("metadata", .object guardedMetadata),
    ("spec", .object [("resources", .list [.object [("backend", .text backend),
      ("data", .list [.object [("value", "known"), ("key", "user")]])]])])]

def guardedStart (backend : Text) : Cluster := ⟨[], [(guardedId, guardedBody backend)]⟩

theorem hasMetadata_guardedBody (backend : Text) :
    Cluster.HasMetadata (guardedBody backend) guardedMetadata :=
  ⟨_, rfl, rfl⟩

theorem guardedBody_readable (backend : Text) :
    ∃ d, Declaration.ofBody (guardedBody backend) = .ok d ∧ d.id = .ok guardedId ∧ d.isDeleting = false :=
  ⟨_, rfl, rfl, rfl⟩

theorem live_guardedStart (backend : Text) :
    (guardedStart backend).objects.get? guardedId = some (guardedBody backend) :=
  rfl

theorem stored_guardedStart {backend : Text} {id : ResourceId} {body : Value}
    (found : (guardedStart backend).objects.get? id = some body) : Cluster.Stored id body := by
  simp only [guardedStart, Table.get?] at found
  split at found
  case isTrue same =>
    cases found
    exact ⟨guardedMetadata, guardedId, hasMetadata_guardedBody backend, rfl, same⟩
  case isFalse => cases found

theorem free_guardedStart {backend : Text} {id : ResourceId} {s : Secret} {P : Prop}
    (found : (guardedStart backend).secrets.get? id = some s) : P := by
  cases found

-- An entry that says what it holds needs no answers.

def plainSources : List Source := [⟨.plaintext, [Content.namedField "known" "user"], .null⟩]

def plainContent : Content := [(.text "user", .bytes [107, 110, 111, 119, 110])]

theorem plainBody_readable :
    ∃ d, Declaration.ofBody (guardedBody "Plaintext") = .ok d ∧ d.id = .ok guardedId ∧
      d.isDeleting = false ∧ .text defaultFinalizer ∈ d.finalizers ∧ d.sources = plainSources :=
  ⟨_, rfl, rfl, rfl, .head _, rfl⟩

theorem assemble_plain [Timeline τ] (settings : Settings τ) (ttl : Span τ) :
    Content.assemble settings ttl plainSources = Op.ofResult (.ok plainContent) :=
  rfl

theorem canFill_plain [Timeline τ] {api : Api Cluster} {settings : Settings τ} {d : Declaration}
    (plain : d.sources = plainSources) (session : Session τ) (w : World τ Cluster) :
    Reconcile.CanFill api settings d guardedId session w := by
  have ⟨manifest, fit⟩ : ∃ manifest, Target.manifest guardedId plainContent = .ok manifest := ⟨_, rfl⟩
  refine ⟨plainContent, session, w, manifest, ?_, fit⟩
  rw [plain, assemble_plain]
  exact .ofResult _

-- What comes of handling the body, and of handling it again.

def handled (backend : Text) : (Result (Action Int) × Memory Int) × Cluster × Bool :=
  (Operator.handle Settings.inSeconds (guardedBody backend)).answered (Cluster.answering Content.oneParameter)
    .start (guardedStart backend, true)

def handledAgain (backend : Text) : (Result (Action Int) × Memory Int) × Cluster × Bool :=
  (Operator.handle Settings.inSeconds (guardedBody backend)).answered (Cluster.answering Content.oneParameter)
    (handled backend).1.2 (handled backend).2

-- An entry that is looked up is made a secret of as well.
theorem handle_guardedBody : ∃ (m : Memory Int) (w : World Int Cluster),
    (Operator.handle Settings.inSeconds (guardedBody "SSM")).Run Cluster.honest .start
        ⟨guardedStart "SSM", []⟩ (.ok (.requeue 20)) m w ∧
      m.failures = (Memory.start : Memory Int).failures ∧ w.state.secrets.get? guardedId ≠ none := by
  have fine : (handled "SSM").2.2 = true := rfl
  have made : ((handled "SSM").2.1.secrets.get? guardedId).isSome := rfl
  have ⟨w, run, same⟩ := Cluster.exists_run_honest (w := ⟨guardedStart "SSM", []⟩) rfl rfl fine
  exact ⟨(handled "SSM").1.2, w, run, rfl, same ▸ Option.isSome_iff_ne_none.mp made⟩

end SecretSync
