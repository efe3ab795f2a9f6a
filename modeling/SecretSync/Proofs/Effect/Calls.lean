import SecretSync.Proofs.Effect.Run

/-!
Which calls an operation makes. Putting content together asks remote services and the clock but never
the cluster; guards and secrets are read and written by calls to the cluster alone. Main statements:
`Reconcile.assemble_outside`, `Reconcile.locked_concerns`.
-/

namespace SecretSync

variable {τ κ σ ρ α β : Type}

def Call.IsCluster : Call τ → Prop
  | .cluster _ => True
  | _ => False

-- The calls about resources, and not about their secrets.
def Call.IsObject : Call τ → Prop
  | .cluster (.getObject _) => True
  | .cluster (.patchObject _ _) => True
  | _ => False

def Call.IsRemote : Call τ → Prop
  | .remote _ => True
  | _ => False

-- The calls by which a change is made to the finalizers of a resource.
def Call.IsChange (id : ResourceId) (change : Guard.Change) : Call τ → Prop
  | .cluster (.getObject other) => other = id
  | .cluster (.patchObject other patch) => other = id ∧ ∃ s, patch = change.patch s
  | _ => False

theorem Call.IsChange.isObject {id : ResourceId} {change : Guard.Change} {call : Call τ}
    (h : call.IsChange id change) : call.IsObject := by
  cases call
  case cluster call =>
    cases call
    case getObject => exact trivial
    case patchObject => exact trivial
    all_goals exact h.elim
  all_goals exact h.elim

-- The resource that a call to the cluster is about.
def ClusterCall.subject : ClusterCall → ResourceId
  | readSecret id => id
  | createSecret id _ => id
  | patchSecret id _ => id
  | deleteSecret id => id
  | getObject id => id
  | patchObject id _ => id

-- The calls about one resource, and those about none.
def Call.Concerns (id : ResourceId) : Call τ → Prop
  | .cluster call => call.subject = id
  | _ => True

theorem Call.concerns_of_not_isCluster {id : ResourceId} {call : Call τ} (h : ¬call.IsCluster) :
    call.Concerns id := by
  cases call
  case cluster => exact absurd trivial h
  all_goals exact trivial

theorem Call.IsChange.concerns {id : ResourceId} {change : Guard.Change} {call : Call τ}
    (h : call.IsChange id change) : call.Concerns id := by
  cases call
  case cluster call =>
    cases call
    case getObject => exact h
    case patchObject => exact h.left
    all_goals exact h.elim
  all_goals exact h.elim

theorem Call.IsObject.isCluster {call : Call τ} (h : call.IsObject) : call.IsCluster := by
  cases call
  case cluster => exact trivial
  all_goals exact h.elim

theorem Call.IsCluster.not_isRemote {call : Call τ} (h : call.IsCluster) : ¬call.IsRemote := by
  cases call
  case remote => exact h.elim
  all_goals exact id

namespace Script

section

variable {Call : Type} {Reply : Call → Type} {p : Call → Prop}

-- Whatever the replies are, every call of the script satisfies `p`.
def Asks (p : Call → Prop) : Script Call Reply α → Prop
  | .done _ => True
  | .ask call next => p call ∧ ∀ reply, Asks p (next reply)

theorem Asks.mono {q : Call → Prop} {script : Script Call Reply α} (h : script.Asks p)
    (hpq : ∀ call, p call → q call) : script.Asks q := by
  induction script
  case done => exact trivial
  case ask call _ hi => exact ⟨hpq call h.left, fun reply => hi reply (h.right reply)⟩

theorem Asks.bind {script : Script Call Reply α} {f : α → Script Call Reply β}
    (h : script.Asks p) (hf : ∀ a, (f a).Asks p) : (script >>= f).Asks p := by
  induction script
  case done a => exact hf a
  case ask call next hi => exact ⟨h.left, fun reply => hi reply (h.right reply)⟩

end

variable {api : Api κ} {w w' : World τ κ} {a : α}

theorem Asks.through {p : Call τ → Prop} {script : Script (Call τ) Call.Reply α}
    (h : script.Asks p) (run : Run (World.Answers api) script w a w') :
    w.Through (fun step => p step.call) w' := by
  induction run
  case done => exact .refl _
  case ask answered _ hi =>
    refine .trans ?_ (hi (h.right _))
    cases answered
    all_goals exact .next h.left

end Script

namespace Op

def Asks (p : Call τ → Prop) (op : Op τ σ α) : Prop :=
  ∀ s, (op.script s).Asks p

variable {p : Call τ → Prop}

namespace Asks

theorem mono {q : Call τ → Prop} {op : Op τ σ α} (h : op.Asks p) (hpq : ∀ call, p call → q call) :
    op.Asks q :=
  fun s => (h s).mono hpq

theorem pure (a : α) : (pure a : Op τ σ α).Asks p :=
  fun _ => trivial

theorem throw (fault : Fault) : (throw fault : Op τ σ α).Asks p :=
  fun _ => trivial

theorem get : (get : Op τ σ σ).Asks p :=
  fun _ => trivial

theorem modify (f : σ → σ) : (modify f : Op τ σ Unit).Asks p :=
  fun _ => trivial

theorem ofResult (r : Result α) : (ofResult r : Op τ σ α).Asks p :=
  fun _ => trivial

theorem cluster {call : ClusterCall} (h : p (.cluster call)) :
    (cluster call : Op τ σ call.Answer).Asks p :=
  fun _ => ⟨h, fun _ => trivial⟩

theorem remote {call : RemoteCall} (h : p (.remote call)) :
    (remote call : Op τ σ call.Answer).Asks p :=
  fun _ => ⟨h, fun _ => trivial⟩

theorem now (h : p .now) : (now : Op τ σ τ).Asks p :=
  fun _ => ⟨h, fun _ => trivial⟩

theorem bind {op : Op τ σ α} {f : α → Op τ σ β} (h : op.Asks p) (hf : ∀ a, (f a).Asks p) :
    (op >>= f).Asks p := by
  intro s
  rw [script_bind]
  refine (h s).bind fun ⟨r, s⟩ => ?_
  cases r
  case ok a => exact hf a s
  case error => exact trivial

theorem attempt {op : Op τ σ α} (h : op.Asks p) : (attempt op).Asks p :=
  fun s => (h s).bind fun _ => trivial

theorem within {part : σ → ρ} {replace : ρ → σ → σ} {op : Op τ ρ α} (h : op.Asks p) :
    (within part replace op).Asks p :=
  fun s => (h (part s)).bind fun _ => trivial

theorem on {start : ρ} {op : Op τ ρ α} (h : op.Asks p) :
    (on start op : Op τ σ (Result α × ρ)).Asks p :=
  fun _ => (h start).bind fun _ => trivial

theorem ite {c : Prop} [Decidable c] {op₁ op₂ : Op τ σ α} (h₁ : op₁.Asks p) (h₂ : op₂.Asks p) :
    (if c then op₁ else op₂).Asks p := by
  split <;> assumption

end Asks

variable {api : Api κ} {s s' : σ} {w w' : World τ κ} {r : Result α}

theorem Asks.through {op : Op τ σ α} (h : op.Asks p) (run : op.Run api s w r s' w') :
    w.Through (fun step => p step.call) w' :=
  (h s).through run

-- An operation that leaves the cluster alone.
def Outside (op : Op τ σ α) : Prop :=
  op.Asks fun call => ¬call.IsCluster

-- An operation that asks nothing but the cluster.
def Inside (op : Op τ σ α) : Prop :=
  op.Asks Call.IsCluster

end Op

open Op (Outside Inside)

-- Fetching values.

section

variable (settings : Settings τ)

namespace Connections

theorem aws_outside (service : AwsService) : (aws settings service).Outside := by
  refine .bind .get fun _ => .ite (.bind (.remote id) fun _ => .bind (.modify _) fun _ => ?_) ?_
  all_goals
    refine .bind .get fun _ => .ite ?_ (.pure _)
    exact .bind (.remote id) fun _ => .modify _

theorem googleAccess_outside : (googleAccess : Op τ Connections Text).Outside := by
  refine .bind .get fun connections => ?_
  cases connections.googleCredentials
  case none => exact .bind (.remote id) fun _ => .bind (.modify _) fun _ => .pure _
  case some => exact .pure _

theorem google_outside : (google : Op τ Connections Unit).Outside := by
  refine .bind .get fun _ => .ite (.bind googleAccess_outside fun _ => ?_) (.pure _)
  exact .bind (.remote id) fun _ => .modify _

theorem connectVault_outside : (connectVault settings).Outside := by
  simp only [connectVault]
  split
  · exact .throw _
  · exact .throw _
  · exact .bind .get fun _ => .ite (.bind (.remote id) fun _ => .modify _) (.pure _)

theorem web_outside : (web : Op τ Connections Unit).Outside :=
  .bind .get fun _ => .ite (.bind (.remote id) fun _ => .modify _) (.pure _)

end Connections

theorem Aws.parameter_outside (name : Value) : (Aws.parameter settings name).Outside :=
  .bind (Connections.aws_outside settings _) fun _ => .bind (.remote id) fun _ => .ofResult _

theorem Aws.secret_outside (name : Value) : (Aws.secret settings name).Outside :=
  .bind (Connections.aws_outside settings _) fun _ => .bind (.remote id) fun _ => .ofResult _

theorem Aws.stackOutputs_outside (name : Value) : (Aws.stackOutputs settings name).Outside :=
  .bind (Connections.aws_outside settings _) fun _ => .bind (.remote id) fun _ => .ofResult _

theorem Aws.configuration_outside (application profile version : Value) :
    (Aws.configuration settings application profile version).Outside := by
  refine .ite (.bind (.ofResult _) fun _ => .bind (Connections.aws_outside settings _) ?_) (.throw _)
  exact fun _ => .bind (.remote id) fun _ => .ofResult _

theorem Google.secretOf_outside (name : GoogleName) :
    (Google.secretOf name : Op τ Connections Value).Outside := by
  refine .bind (.ofResult _) fun _ => .bind Connections.google_outside fun _ => ?_
  refine .bind (.remote id) fun _ => .bind (.ofResult _) fun _ => .bind (.ofResult _) fun _ => ?_
  exact .bind Connections.google_outside fun _ => .bind (.remote id) fun _ => .ofResult _

theorem Google.secret_outside (name : Text) : (Google.secret name : Op τ Connections Value).Outside := by
  simp only [Google.secret]
  split
  · exact Google.secretOf_outside _
  · exact .throw _

theorem Pulumi.outputs_outside (path : Text) (token : Value) :
    (Pulumi.outputs settings path token).Outside := by
  refine .bind (.ofResult _) fun _ => .bind Connections.web_outside fun _ => ?_
  exact .bind (.remote id) fun _ => .ofResult _

theorem Vault.secret_outside (path : Value) : (Vault.secret settings path).Outside :=
  .bind (Connections.connectVault_outside settings) fun _ => .bind (.remote id) fun _ => .ofResult _

theorem Lookup.fetch_outside (l : Lookup) : (l.fetch settings).Outside := by
  cases l
  case parameter name => exact .bind (Aws.parameter_outside settings _) fun _ => .pure _
  case secret name =>
    simp only [Lookup.fetch]
    split
    · exact .bind (Google.secret_outside name) fun _ => .pure _
    · exact .bind (Aws.secret_outside settings _) fun _ => .pure _
  case stack name => exact .bind (Aws.stackOutputs_outside settings _) fun _ => .pure _
  case configuration => exact .bind (Aws.configuration_outside settings _ _ _) fun _ => .pure _
  case pulumiStack => exact .bind (Pulumi.outputs_outside settings _ _) fun _ => .pure _
  case vaultSecret => exact .bind (Vault.secret_outside settings _) fun _ => .pure _

end

section

variable [Timeline τ] (settings : Settings τ) (ttl : Span τ)

theorem Cached.getOrFetch_outside {ν γ : Type} (key : Option CacheKey) {fetch : Op τ γ ν}
    (h : fetch.Outside) : (Cached.getOrFetch key ttl fetch).Outside := by
  have refreshed (key : CacheKey) : (Cached.refresh key ttl fetch).Outside :=
    .bind (.within h) fun _ => .bind (.now id) fun _ => .bind (.ofResult _) fun _ =>
      .bind (.modify _) fun _ => .ite (.pure _) (.throw _)
  have found (key : CacheKey) : (Cached.lookup key : Op τ (Cached τ ν γ) (Option ν)).Outside :=
    .bind .get fun _ => .ite (.bind (.now id) fun _ => .bind .get fun _ =>
      .bind (.modify _) fun _ => .pure _) (.pure _)
  refine .ite ?_ (.throw _)
  cases key
  case none => exact .throw _
  case some key =>
    refine .bind (found key) fun value => ?_
    cases value
    case none => exact refreshed key
    case some => exact .pure _

theorem Field.resolve_outside (source : Source) (field : Field) :
    (field.resolve settings ttl source).Outside := by
  simp only [Field.resolve]
  split
  · exact .ofResult _
  · next l _ =>
    exact .bind (Cached.getOrFetch_outside ttl _ (l.fetch_outside settings)) fun _ => .ofResult _

theorem Source.resolveFields_outside (source : Source) (fields : List Field) (found : Content) :
    (source.resolveFields settings ttl fields found).Outside := by
  induction fields generalizing found
  case nil => exact .pure _
  case cons field rest hi =>
    refine .bind (.attempt (field.resolve_outside settings ttl source)) fun entries => ?_
    cases entries
    all_goals exact hi _

theorem Source.resolve_outside (source : Source) : (source.resolve settings ttl).Outside := by
  simp only [Source.resolve]
  split
  · exact .pure _
  · exact .bind (source.resolveFields_outside settings ttl _ _) fun _ => .ofResult _

namespace Content

theorem resolveInTurn_outside (sources : List Source) :
    (resolveInTurn settings ttl sources).Outside := by
  induction sources
  case nil => exact .pure _
  case cons source _ hi =>
    exact .bind (source.resolve_outside settings ttl) fun _ => .bind hi fun _ => .pure _

theorem resolveAll_outside (sources : List Source) : (resolveAll settings ttl sources).Outside := by
  induction sources
  case nil => exact .pure _
  case cons source _ hi =>
    have apart : (resolveApart settings ttl source).Outside :=
      .bind .get fun _ => .bind (.modify _) fun _ =>
        .bind (.attempt (source.resolve_outside settings ttl)) fun _ =>
          .bind (.modify _) fun _ => .ofResult _
    exact .bind (.attempt apart) fun _ => .bind hi fun _ => .pure _

theorem assemble_outside (sources : List Source) : (assemble settings ttl sources).Outside := by
  refine .bind (.ite ?_ ?_) fun _ => .ofResult _
  · exact resolveInTurn_outside settings ttl sources
  · exact .bind (resolveAll_outside settings ttl sources) fun _ => .ofResult _

end Content

theorem Reconcile.assemble_outside (d : Declaration) : (Reconcile.assemble settings d).Outside :=
  .within (Content.assemble_outside settings _ _)

end

-- Changing guards.

namespace Guard

variable {api : Api κ} {w : World τ κ} (id : ResourceId) (c : Change) (finalizer : Text)

theorem write_asks : (write id c : Op τ Snapshot Unit).Asks (Call.IsChange id c) := by
  refine .bind .get fun s => .bind (.cluster ⟨rfl, s, rfl⟩) fun reply => .bind (.modify _) fun _ => ?_
  simp only [noteReply]
  split
  · exact .bind (.ofResult _) fun _ => .bind (.ofResult _) fun _ => .modify _
  · exact .pure _

theorem refresh_asks : (refresh id : Op τ Snapshot Unit).Asks (Call.IsChange id c) :=
  .bind (Op.Asks.cluster rfl) fun _ => .bind (.ofResult _) fun _ => .bind (.ofResult _) fun _ =>
    .bind (.modify _) fun _ => .bind (.ofResult _) fun _ => .modify _

theorem change_asks : (change id c : Op τ Snapshot Unit).Asks (Call.IsChange id c) := by
  refine .bind (.attempt (write_asks id c)) fun result => ?_
  cases result
  case ok => exact .pure _
  case error => exact .ite (.bind (refresh_asks id c) fun _ => write_asks id c) (.throw _)

theorem add_asks : (add id finalizer : Op τ Snapshot Bool).Asks (Call.IsChange id (addition finalizer)) :=
  .bind .get fun _ => .ite (.pure _) (.bind (change_asks id _) fun _ => .pure _)

theorem release_asks :
    (release id finalizer : Op τ Snapshot Bool).Asks (Call.IsChange id (removal finalizer)) := by
  refine .bind .get fun _ => .ite (.bind (.attempt (change_asks id _)) fun result => ?_) (.pure _)
  cases result
  case ok => exact .pure _
  case error => exact .ite (.bind (.modify _) fun _ => .pure _) (.throw _)

variable {id c} {s : Snapshot} {before after : κ}

theorem write_accepted (changed : api.changes w.state before)
    (accepted : api.replies before (.patchObject id (c.patch s)) (.ok .null) after) :
    (write id c : Op τ Snapshot Unit).Run api s w (.ok ()) { s with finalizers := c.apply s.finalizers }
      (w.next (.cluster (.patchObject id (c.patch s))) (.ok .null) before after) :=
  .bind .get (.bind (.cluster changed accepted) (.bind (.modify _) (.pure ())))

theorem write_refused {fault : Fault} (changed : api.changes w.state before)
    (refused : api.replies before (.patchObject id (c.patch s)) (.error fault) after) :
    (write id c : Op τ Snapshot Unit).Run api s w (.error fault) s
      (w.next (.cluster (.patchObject id (c.patch s))) (.error fault) before after) :=
  .bind .get (.bind_error (.cluster changed refused))

end Guard

theorem Reconcile.changeGuard_asks (d : Declaration) {p : Call τ → Prop} {op : Op τ Snapshot Bool}
    (h : op.Asks p) : (Reconcile.changeGuard d op).Asks p :=
  .bind (.on h) fun _ => .ofResult _

-- Reading and writing secrets.

namespace Target

variable {p : Call τ → Prop} (id : ResourceId) (content : Content)

theorem unlessRefused_asks (status : Int) (result : Result α) :
    (unlessRefused status result : Op τ σ (Option α)).Asks p := by
  cases result
  case ok => exact .pure _
  case error => exact .ite (.pure _) (.throw _)

theorem read_asks (h : p (.cluster (.readSecret id))) : (read id : Op τ σ (Option Secret)).Asks p :=
  .bind (.attempt (.cluster h)) fun _ => unlessRefused_asks _ _

theorem create_asks (h : ∀ manifest, p (.cluster (.createSecret id manifest))) :
    (create id content : Op τ σ Unit).Asks p :=
  .bind (.ofResult _) fun manifest => Op.Asks.cluster (h manifest)

theorem amend_asks (h : ∀ patch, p (.cluster (.patchSecret id patch))) (existing : Option Secret)
    (given : Option Int) : (amend id content existing given : Op τ σ Unit).Asks p := by
  have patched (n : Int) : Op.Asks (τ := τ) (σ := σ) p (do
      let patch ← Op.ofResult (Target.patch id content existing n)
      Op.cluster (.patchSecret id patch)) :=
    .bind (.ofResult _) fun patch => Op.Asks.cluster (h patch)
  cases given
  case none => exact .bind (.ofResult _) fun _ => .bind (.pure _) patched
  case some => exact .bind (.pure _) patched

theorem update_asks (h : ∀ patch, p (.cluster (.patchSecret id patch))) (existing : Secret) :
    (update id content existing : Op τ σ Outcome).Asks p :=
  .bind (.ofResult _) fun _ => .bind (.ofResult _) fun _ =>
    .ite (.pure _) (.bind (amend_asks id content h _ _) fun _ => .pure _)

theorem ensure_some (existing : Secret) :
    (ensure id content (some existing) : Op τ σ Outcome) = update id content existing :=
  pure_bind _ _

theorem ensure_asks (reads : p (.cluster (.readSecret id)))
    (creates : ∀ manifest, p (.cluster (.createSecret id manifest)))
    (patches : ∀ patch, p (.cluster (.patchSecret id patch))) (given : Option Secret) :
    (ensure id content given : Op τ σ Outcome).Asks p := by
  cases given
  case none =>
    refine .bind (read_asks id reads) fun existing => ?_
    cases existing
    case none => exact .bind (create_asks id content creates) fun _ => .pure _
    case some => exact update_asks id content patches _
  case some =>
    rw [ensure_some]
    exact update_asks id content patches _

theorem remove_asks (h : p (.cluster (.deleteSecret id))) : (remove id : Op τ σ Unit).Asks p :=
  .bind (.attempt (.cluster h)) fun _ => .bind (unlessRefused_asks _ _) fun _ => .pure _

end Target

-- Reconciling a resource makes no call about another one.

namespace Reconcile

theorem countOutcome_asks {p : Call τ → Prop} (outcome : Target.Outcome) :
    (countOutcome outcome : Op τ (Memory τ) Unit).Asks p := by
  cases outcome
  case unchanged => exact .pure _
  all_goals exact .modify _

variable (d : Declaration) (id : ResourceId)

theorem delete_concerns : (delete d id : Op τ (Memory τ) (Action τ)).Asks (Call.Concerns id) :=
  .bind (Target.remove_asks id rfl) fun _ =>
    .bind (changeGuard_asks d ((Guard.release_asks id _).mono fun _ => Call.IsChange.concerns))
      fun _ => .pure _

variable [Timeline τ] (settings : Settings τ)

theorem writeSecret_concerns (existing : Option Secret) :
    (writeSecret settings d id existing).Asks (Call.Concerns id) :=
  .bind ((assemble_outside settings d).mono fun _ => Call.concerns_of_not_isCluster) fun content =>
    .bind (Target.ensure_asks (p := Call.Concerns id) id content rfl (fun _ => rfl) (fun _ => rfl) existing)
      fun outcome => .bind (countOutcome_asks outcome) fun _ => .bind (.ofResult _) fun _ => .pure _

theorem create_concerns : (create settings d id).Asks (Call.Concerns id) :=
  .bind (changeGuard_asks d ((Guard.add_asks id _).mono fun _ => Call.IsChange.concerns)) fun _ =>
    writeSecret_concerns d id settings none

theorem update_concerns : (update settings d id).Asks (Call.Concerns id) := by
  refine .bind (Target.read_asks id rfl) fun existing => ?_
  cases existing
  case none => exact create_concerns d id settings
  case some => exact writeSecret_concerns d id settings _

variable {d id}

theorem locked_eq (named : d.id = .ok id) : locked settings d = (do
    lock id
    match Phase.of d.isDeleting (hasFinalizer defaultFinalizer d.finalizers) with
    | .create => create settings d id
    | .update => update settings d id
    | .delete => delete d id) := by
  simp only [locked, named]
  exact pure_bind _ _

theorem locked_concerns (named : d.id = .ok id) : (locked settings d).Asks (Call.Concerns id) := by
  rw [locked_eq settings named]
  refine .bind (.modify _) fun _ => ?_
  split
  · exact create_concerns d id settings
  · exact update_concerns d id settings
  · exact delete_concerns d id

end Reconcile

end SecretSync
