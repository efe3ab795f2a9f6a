import SecretSync.Proofs.Effect.Separate
import SecretSync.Proofs.Operator.Handling

/-!
Operations that keep to one resource. What such an operation comes to depends on what there is of its resource
alone, and it changes nothing of any other: not in the cluster, and not in the memory of the operator. So
operations that keep to different resources can change places. Main statements: `IsOwn.bind`,
`IsOwn.change_places`.
-/

namespace SecretSync

open Table (Distinct)

variable {τ ς α β : Type}

-- Counters add up, so that it does not matter in which order things were counted.
def Counters.plus (a b : Counters) : Counters where
  reconciliations := a.reconciliations + b.reconciliations
  failures := a.failures + b.failures
  creates := a.creates + b.creates
  updates := a.updates + b.updates
  timed := a.timed + b.timed

theorem Counters.plus_zero (a : Counters) : a.plus ⟨0, 0, 0, 0, 0⟩ = a :=
  rfl

theorem Counters.plus_assoc (a b c : Counters) : (a.plus b).plus c = a.plus (b.plus c) := by
  simp only [plus, Nat.add_assoc]

theorem Counters.plus_right_comm (a b c : Counters) : (a.plus b).plus c = (a.plus c).plus b := by
  simp only [plus, Nat.add_right_comm]

-- What there is of a resource: in the cluster, and in the memory of the operator.
structure Share (τ : Type) where
  holding : Holding
  due     : Option τ
  locked  : Bool

-- The memory of the operator, and what answers its calls.
abbrev Scene (τ ς : Type) := Memory τ × ς

namespace Scene

variable (view : ς → ResourceId → Holding)

def share (p : Scene τ ς) (id : ResourceId) : Share τ where
  holding := view p.2 id
  due := p.1.due.get? id
  locked := p.1.locks.contains id

theorem contains_congr {locks : List ResourceId} {id other : ResourceId} (same : (id == other) = true) :
    locks.contains id = locks.contains other := by
  simp only [List.contains_eq_any_beq]
  exact List.any_congr rfl fun _ => BEq.congr_left same

variable {view} in
theorem share_congr (congr : ∀ x id other, (id == other) = true → view x id = view x other) (p : Scene τ ς)
    {id other : ResourceId} (same : (id == other) = true) : p.share view id = p.share view other := by
  simp only [share, congr _ _ _ same, Table.get?_congr same, contains_congr same]

-- `allowed` tells which sessions there can be.
structure IsFine (allowed : Session τ → Prop) (p : Scene τ ς) : Prop where
  session  : allowed p.1.session
  distinct : Distinct p.1.due

-- Scenes in which there is the same of a resource. There may be no resource that matters.
structure Alike (allowed : Session τ → Prop) (key : Option ResourceId) (p q : Scene τ ς) : Prop where
  left  : p.IsFine allowed
  right : q.IsFine allowed
  same  : ∀ id ∈ key, p.share view id = q.share view id

-- What was counted, and that there is the same of all other resources.
structure Course (key : Option ResourceId) (counted : Counters) (p p' : Scene τ ς) : Prop where
  counters : p'.1.counters = p.1.counters.plus counted
  others   : ∀ other, (∀ id ∈ key, (id == other) = false) → p'.share view other = p.share view other

variable {view} {key : Option ResourceId} {p p₁ p' : Scene τ ς} {counted more : Counters}

theorem Course.refl (p : Scene τ ς) : p.Course view key ⟨0, 0, 0, 0, 0⟩ p :=
  ⟨rfl, fun _ _ => rfl⟩

theorem Course.trans (h : p.Course view key counted p₁) (h' : p₁.Course view key more p') :
    p.Course view key (counted.plus more) p' where
  counters := by rw [h'.counters, h.counters, Counters.plus_assoc]
  others other apart := (h'.others other apart).trans (h.others other apart)

-- Calls about the resource change what there is of it in the cluster, and nothing else.
theorem Alike.called {allowed : Session τ → Prop} {q : Scene τ ς} {id : ResourceId}
    (alike : p.Alike view allowed key q) (own : id ∈ key) {x y : ς} (same : view x id = view y id)
    (others : ∀ other, (id == other) = false → view x other = view p.2 other ∧ view y other = view q.2 other) :
    Alike view allowed key (p.1, x) (q.1, y) ∧ p.Course view key ⟨0, 0, 0, 0, 0⟩ (p.1, x) ∧
      q.Course view key ⟨0, 0, 0, 0, 0⟩ (q.1, y) := by
  refine ⟨⟨⟨alike.left.session, alike.left.distinct⟩, ⟨alike.right.session, alike.right.distinct⟩, ?_⟩,
    ⟨rfl, ?_⟩, ⟨rfl, ?_⟩⟩
  · intro other mem
    cases Option.mem_unique mem own
    have before := alike.same id own
    have due : p.1.due.get? id = q.1.due.get? id := congrArg Share.due before
    have locked : p.1.locks.contains id = q.1.locks.contains id := congrArg Share.locked before
    simp only [share, same, due, locked]
  · intro other apart
    simp only [share, (others other (apart id own)).left]
  · intro other apart
    simp only [share, (others other (apart id own)).right]

end Scene

open Scene (IsFine Alike Course)

-- From scenes in which there is the same of the resource, the operation comes to the same.
def Op.IsOwn (responder : Responder τ ς) (view : ς → ResourceId → Holding) (allowed : Session τ → Prop)
    (key : Option ResourceId) (op : Op τ (Memory τ) α) : Prop :=
  ∀ p q : Scene τ ς, p.Alike view allowed key q → ∃ (r : Result α) (p' q' : Scene τ ς) (counted : Counters),
    op.answered responder p.1 p.2 = ((r, p'.1), p'.2) ∧ op.answered responder q.1 q.2 = ((r, q'.1), q'.2) ∧
    p'.Alike view allowed key q' ∧ p.Course view key counted p' ∧ q.Course view key counted q'

variable {responder : Responder τ ς} {view : ς → ResourceId → Holding} {allowed : Session τ → Prop}
  {key : Option ResourceId}

namespace Op.IsOwn

theorem of_script_eq {op : Op τ (Memory τ) α} {r : Result α} (h : ∀ m, op.script m = Pure.pure (r, m)) :
    op.IsOwn responder view allowed key :=
  fun p q alike => ⟨r, p, q, _, answered_of_script_eq responder (h p.1), answered_of_script_eq responder (h q.1),
    alike, .refl p, .refl q⟩

theorem pure (a : α) : (pure a : Op τ (Memory τ) α).IsOwn responder view allowed key :=
  of_script_eq fun _ => rfl

theorem throw (fault : Fault) : (throw fault : Op τ (Memory τ) α).IsOwn responder view allowed key :=
  of_script_eq fun _ => rfl

theorem ofResult (r : Result α) : (ofResult r : Op τ (Memory τ) α).IsOwn responder view allowed key :=
  of_script_eq fun _ => rfl

theorem bind {op : Op τ (Memory τ) α} {f : α → Op τ (Memory τ) β} (h : op.IsOwn responder view allowed key)
    (hf : ∀ a, (f a).IsOwn responder view allowed key) : (op >>= f).IsOwn responder view allowed key := by
  intro p q alike
  have ⟨r, p₁, q₁, counted, left, right, alike₁, course, course'⟩ := h p q alike
  simp only [answered_bind, left, right]
  cases r
  case error fault => exact ⟨.error fault, p₁, q₁, counted, rfl, rfl, alike₁, course, course'⟩
  case ok a =>
    have ⟨r, p', q', more, left, right, alike', further, further'⟩ := hf a p₁ q₁ alike₁
    exact ⟨r, p', q', _, left, right, alike', course.trans further, course'.trans further'⟩

theorem attempt {op : Op τ (Memory τ) α} (h : op.IsOwn responder view allowed key) :
    (attempt op).IsOwn responder view allowed key := by
  intro p q alike
  have ⟨r, p', q', counted, left, right, rest⟩ := h p q alike
  exact ⟨.ok r, p', q', counted, by rw [answered_attempt, left], by rw [answered_attempt, right], rest⟩

theorem ite {c : Prop} [Decidable c] {op op' : Op τ (Memory τ) α} (h : op.IsOwn responder view allowed key)
    (h' : op'.IsOwn responder view allowed key) :
    (if c then op else op').IsOwn responder view allowed key := by
  split <;> assumption

theorem count {f : Counters → Counters} {counted : Counters} (adds : ∀ c, f c = c.plus counted) :
    (Reconcile.count f : Op τ (Memory τ) Unit).IsOwn responder view allowed key := by
  intro p q alike
  refine ⟨.ok (), ({ p.1 with counters := f p.1.counters }, p.2), ({ q.1 with counters := f q.1.counters }, q.2),
    counted, rfl, rfl, ⟨?_, ?_, ?_⟩, ⟨adds _, fun _ _ => rfl⟩, ⟨adds _, fun _ _ => rfl⟩⟩
  · exact ⟨alike.left.session, alike.left.distinct⟩
  · exact ⟨alike.right.session, alike.right.distinct⟩
  · exact alike.same

section

variable {told : (call : RemoteCall) → Result call.Answer} {time : τ}
  (separates : responder.Separates view told time)
include separates

theorem now : (now : Op τ (Memory τ) τ).IsOwn responder view allowed key := by
  intro p q alike
  have same (x : ς) : view (responder .now x).2 = view x := separates.outside .now x fun h => h
  refine ⟨.ok time, (p.1, (responder .now p.2).2), (q.1, (responder .now q.2).2), ⟨0, 0, 0, 0, 0⟩, ?_, ?_,
    ⟨⟨alike.left.session, alike.left.distinct⟩, ⟨alike.right.session, alike.right.distinct⟩, ?_⟩,
    ⟨rfl, ?_⟩, ⟨rfl, ?_⟩⟩
  · rw [answered_now, separates.stopped]
  · rw [answered_now, separates.stopped]
  all_goals simp only [Scene.share, same]
  · exact alike.same
  all_goals exact fun _ _ => trivial

variable {id : ResourceId} (own : id ∈ key)
include own

theorem cluster {call : ClusterCall} (concerns : call.subject = id) :
    (cluster call : Op τ (Memory τ) call.Answer).IsOwn responder view allowed key := by
  intro p q alike
  have concerns : Call.Concerns id (.cluster call : Call τ) := concerns
  have same : view p.2 id = view q.2 id := congrArg Share.holding (alike.same id own)
  refine ⟨_, (p.1, (responder (.cluster call) p.2).2), (q.1, (responder (.cluster call) q.2).2), _,
    answered_cluster .., ?_, alike.called own (separates.view_eq concerns same) fun other apart =>
      ⟨separates.others_eq concerns p.2 apart, separates.others_eq concerns q.2 apart⟩⟩
  rw [answered_cluster, separates.reply_eq concerns same]

theorem on {ρ : Type} {start : ρ} {op : Op τ ρ α} (h : op.Asks (Call.Concerns id)) :
    (on start op : Op τ (Memory τ) (Result α × ρ)).IsOwn responder view allowed key := by
  intro p q alike
  have same : view p.2 id = view q.2 id := congrArg Share.holding (alike.same id own)
  have ⟨r, s', x, y, left, right, same', others⟩ := agrees_of_asks separates h start same
  exact ⟨.ok (r, s'), (p.1, x), (q.1, y), _, by rw [answered_on, left], by rw [answered_on, right],
    alike.called own same' others⟩

end
end Op.IsOwn

-- What is noted of one resource: when it is due, and whether there is a lock for it.
structure Notes (id : ResourceId) (due : Option τ → Option τ) (locked : Bool → Bool)
    (g : Memory τ → Memory τ) : Prop where
  session  : ∀ m, (g m).session = m.session
  counters : ∀ m, (g m).counters = m.counters
  distinct : ∀ m, Distinct m.due → Distinct (g m).due
  due      : ∀ m, Distinct m.due → ∀ other,
    (g m).due.get? other = if id == other then due (m.due.get? other) else m.due.get? other
  locks    : ∀ m other,
    (g m).locks.contains other = if id == other then locked (m.locks.contains other) else m.locks.contains other

theorem Op.IsOwn.modify {id : ResourceId} {due : Option τ → Option τ} {locked : Bool → Bool}
    {g : Memory τ → Memory τ} (own : id ∈ key) (notes : Notes id due locked g) :
    (modify g : Op τ (Memory τ) Unit).IsOwn responder view allowed key := by
  intro p q alike
  have share (p : Scene τ ς) (fine : p.IsFine allowed) (other : ResourceId) :
      Scene.share view (g p.1, p.2) other = if id == other then
        ⟨view p.2 other, due (p.1.due.get? other), locked (p.1.locks.contains other)⟩ else p.share view other := by
    simp only [Scene.share, notes.due _ fine.distinct, notes.locks]
    split
    all_goals rfl
  have others (p : Scene τ ς) (fine : p.IsFine allowed) : p.Course view key ⟨0, 0, 0, 0, 0⟩ (g p.1, p.2) := by
    refine ⟨(notes.counters p.1).trans (Counters.plus_zero _).symm, fun other apart => ?_⟩
    rw [share p fine, apart id own]
    rfl
  have fine (p : Scene τ ς) (fine : p.IsFine allowed) : IsFine allowed (g p.1, p.2) :=
    ⟨(notes.session p.1).symm ▸ fine.session, notes.distinct _ fine.distinct⟩
  refine ⟨.ok (), (g p.1, p.2), (g q.1, q.2), _, answered_modify .., answered_modify ..,
    ⟨fine p alike.left, fine q alike.right, fun other mem => ?_⟩, others p alike.left, others q alike.right⟩
  cases Option.mem_unique mem own
  have before := alike.same id own
  have holding : view p.2 id = view q.2 id := congrArg Share.holding before
  have due : p.1.due.get? id = q.1.due.get? id := congrArg Share.due before
  have locked : p.1.locks.contains id = q.1.locks.contains id := congrArg Share.locked before
  rw [share p alike.left, share q alike.right, before, holding, due, locked]

-- The operation comes to `r` and leaves the same of all resources but its own.
structure Op.Spares (responder : Responder τ ς) (view : ς → ResourceId → Holding) (key : Option ResourceId)
    (op : Op τ (Memory τ) α) (p : Scene τ ς) (r : Result α) (p' : Scene τ ς) : Prop where
  reached : op.answered responder p.1 p.2 = ((r, p'.1), p'.2)
  others  : ∀ other, (∀ id ∈ key, (id == other) = false) → p'.share view other = p.share view other

theorem Scene.Alike.of_apart {key other : Option ResourceId} {p p' : Scene τ ς} {counted : Counters}
    (apart : ∀ id ∈ key, ∀ id' ∈ other, (id == id') = false) (fine : p.IsFine allowed)
    (fine' : p'.IsFine allowed) (course : p.Course view key counted p') : p.Alike view allowed other p' where
  left := fine
  right := fine'
  same id mem := (course.others id fun own mem' => apart own mem' id mem).symm

-- In whichever order two operations are done, each comes to the same, and there is the same in the end.
theorem Op.IsOwn.change_places (congr : ∀ x id other, (id == other) = true → view x id = view x other)
    {key' : Option ResourceId} {op : Op τ (Memory τ) α} {op' : Op τ (Memory τ) β}
    (h : op.IsOwn responder view allowed key) (h' : op'.IsOwn responder view allowed key')
    (apart : ∀ id ∈ key, ∀ id' ∈ key', (id == id') = false) {p : Scene τ ς} (fine : p.IsFine allowed) :
    ∃ r r' p₁ p₂ q₁ q₂, op.Spares responder view key p r p₁ ∧ op'.Spares responder view key' p₁ r' p₂ ∧
      op'.Spares responder view key' p r' q₁ ∧ op.Spares responder view key q₁ r q₂ ∧
      (∀ id, p₂.share view id = q₂.share view id) ∧ p₂.1.counters = q₂.1.counters := by
  have apart' : ∀ id ∈ key', ∀ id' ∈ key, (id == id') = false :=
    fun id mem id' mem' => BEq.comm.trans (apart id' mem' id mem)
  -- What is done first makes no difference to what is done after it.
  have ⟨r, p₁, _, _, left, _, alike, course, _⟩ := h p p ⟨fine, fine, fun _ _ => rfl⟩
  have ⟨r', q₁, p₂, counted', first', last, alike', course', further⟩ :=
    h' p p₁ (.of_apart apart fine alike.left course)
  have ⟨_, p₁', q₂, counted, again, last', alike'', course, further'⟩ :=
    h p q₁ (.of_apart apart' fine alike'.left course')
  obtain ⟨⟨rfl, same⟩, same'⟩ := Prod.ext_iff.mp (left.symm.trans again) |>.imp_left Prod.ext_iff.mp
  obtain rfl : p₁ = p₁' := Prod.ext same same'
  refine ⟨r, r', p₁, p₂, q₁, q₂, ⟨left, course.others⟩, ⟨last, further.others⟩, ⟨first', course'.others⟩,
    ⟨last', further'.others⟩, fun id => ?shares, ?counters⟩
  case counters =>
    rw [further.counters, course.counters, further'.counters, course'.counters, Counters.plus_right_comm]
  case shares =>
    by_cases own : ∃ id' ∈ key, (id' == id) = true
    case pos =>
      have ⟨id', mem, same⟩ := own
      rw [← Scene.share_congr congr p₂ same, ← Scene.share_congr congr q₂ same,
        further.others id' fun other mem' => apart' other mem' id' mem]
      exact alike''.same id' mem
    case neg =>
      have apart₁ : ∀ id' ∈ key, (id' == id) = false :=
        fun id' mem => Bool.eq_false_iff.mpr fun same => own ⟨id', mem, same⟩
      rw [further'.others id apart₁]
      by_cases own' : ∃ id' ∈ key', (id' == id) = true
      case pos =>
        have ⟨id', mem, same⟩ := own'
        rw [← Scene.share_congr congr p₂ same, ← Scene.share_congr congr q₁ same]
        exact (alike'.same id' mem).symm
      case neg =>
        have apart₂ : ∀ id' ∈ key', (id' == id) = false :=
          fun id' mem => Bool.eq_false_iff.mpr fun same => own' ⟨id', mem, same⟩
        rw [further.others id apart₂, course.others id apart₁, course'.others id apart₂]

end SecretSync
